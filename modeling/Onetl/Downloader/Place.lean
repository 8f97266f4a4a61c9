import Onetl.Downloader.Model
import Mathlib.Data.List.Nodup

/-!
# What a download does to the files

`FileDownloader.run` exists to give every item, in order, the content of its source at its
`local_file`: unless the source is gone, or `local_file` exists and the mode keeps it, and, with
`delete_source`, the source is then removed (`placeItem`, `placeAll`). A run in which no call raises
does exactly this to the items' files (`Onetl.Downloader.Resume`).

Placing an item reads and writes only its `local_file` and its source, so worlds that agree there
stay in agreement (`placeAll_agree`). Two regimes follow.

* When the mode keeps existing files, or the sources are deleted, a placed item is `Settled`:
  placing it again changes nothing, whatever comes after. Placing the same items twice is then
  placing them once (`placeAll_idem`).
* Otherwise no source is ever removed, and every `local_file` ends with the content of the last item
  that writes it, whatever it held before (`placeAll_localAt_of_writer`).

In both, placing all items again from a world that one pass left anywhere between two items, or
inside one, ends as one pass does (`placeAll_resume_settling`, `placeAll_resume_writing`).
-/

set_option autoImplicit false

namespace Onetl.Downloader

open Onetl.Path

variable {H : Type}

/-- The modes that keep an existing `local_file`: `error` fails the item, `ignore` skips it. -/
def FileWriteMode.keeps : FileWriteMode → Bool
  | .error | .ignore => true
  | .overwrite | .deleteAll => false

/-- Downloading `it` when no call raises, as it shows on the files: nothing when the source is
gone or when `local_file` exists and the mode keeps it; else `local_file` gets the source's
content and, with `delete_source`, the source is removed. -/
def placeItem (o : Options) (w : World H) (it : Item) : World H :=
  match w.remoteAt it.source with
  | none => w
  | some c =>
    if o.mode.keeps && (w.localAt it.localFile).isSome then w
    else if o.deleteSource then (w.setLocal it.localFile (some c)).removeRemote it.source
    else w.setLocal it.localFile (some c)

/-- The items placed in order. -/
def placeAll (o : Options) (w : World H) (items : List Item) : World H :=
  items.foldl (placeItem o) w

/-- `it` writes its `local_file` when placed in `w`. -/
def Writes (o : Options) (w : World H) (it : Item) : Prop :=
  (w.remoteAt it.source).isSome = true ∧ ¬ (o.mode.keeps = true ∧ (w.localAt it.localFile).isSome = true)

instance (o : Options) (w : World H) (it : Item) : Decidable (Writes o w it) :=
  inferInstanceAs (Decidable (_ ∧ _))

/-- `w` and `v` hold the same local files at the paths `ls` and the same remote files at the paths
`rs`. -/
def Agree (ls rs : List PurePath) (w v : World H) : Prop :=
  (∀ q ∈ ls, w.localAt q = v.localAt q) ∧ ∀ q ∈ rs, w.remoteAt q = v.remoteAt q

namespace Agree

variable {ls rs : List PurePath} {u v w : World H}

theorem refl (w : World H) : Agree ls rs w w := ⟨fun _ _ => rfl, fun _ _ => rfl⟩

theorem symm (h : Agree ls rs v w) : Agree ls rs w v :=
  ⟨fun q hq => (h.1 q hq).symm, fun q hq => (h.2 q hq).symm⟩

theorem trans (h : Agree ls rs u v) (h' : Agree ls rs v w) : Agree ls rs u w :=
  ⟨fun q hq => (h.1 q hq).trans (h'.1 q hq), fun q hq => (h.2 q hq).trans (h'.2 q hq)⟩

theorem mono {ls' rs' : List PurePath} (h : Agree ls rs v w) (hl : ∀ q ∈ ls', q ∈ ls)
    (hr : ∀ q ∈ rs', q ∈ rs) : Agree ls' rs' v w :=
  ⟨fun q hq => h.1 q (hl q hq), fun q hq => h.2 q (hr q hq)⟩

theorem setLocal (h : Agree ls rs v w) (p : PurePath) (x : Option Bytes) :
    Agree ls rs (v.setLocal p x) (w.setLocal p x) :=
  ⟨fun q hq => by simp [h.1 q hq], fun q hq => by simp [h.2 q hq]⟩

theorem removeRemote (h : Agree ls rs v w) (p : PurePath) :
    Agree ls rs (v.removeRemote p) (w.removeRemote p) :=
  ⟨fun q hq => by simp [h.1 q hq], fun q hq => by simp [h.2 q hq]⟩

/-- Writing a local file at none of the paths `ls` keeps agreement. -/
theorem setLocal_left {p : PurePath} (hp : ∀ q ∈ ls, q.normalize ≠ p.normalize) (w : World H)
    (x : Option Bytes) : Agree ls rs (w.setLocal p x) w :=
  ⟨fun q hq => by simp [hp q hq], fun _ _ => rfl⟩

theorem setStore_left (w : World H) (x : Option H) : Agree ls rs (w.setStore x) w :=
  ⟨fun _ _ => rfl, fun _ _ => rfl⟩

/-- Removing a directory none of the paths `ls` lies in keeps agreement. -/
theorem clearBelow_left {d : PurePath} (hd : ∀ q ∈ ls, ¬ q.StrictlyInside d) (w : World H) :
    Agree ls rs (w.clearBelow d) w :=
  ⟨fun q hq => by
    have h : ¬ d.normalize ∈ q.normalize.parents := hd q hq
    rw [World.localAt_clearBelow, if_neg h], fun _ _ => rfl⟩

end Agree

variable (o : Options)

@[simp] theorem placeAll_nil (w : World H) : placeAll o w [] = w := rfl

@[simp] theorem placeAll_cons (w : World H) (it : Item) (items : List Item) :
    placeAll o w (it :: items) = placeAll o (placeItem o w it) items := rfl

theorem placeAll_append (w : World H) (xs ys : List Item) :
    placeAll o w (xs ++ ys) = placeAll o (placeAll o w xs) ys :=
  List.foldl_append _ _ _ _

/-! ## What placing one item does -/

section One

variable {o} {w : World H} {it : Item}

theorem placeItem_of_remote_none (h : w.remoteAt it.source = none) : placeItem o w it = w := by
  simp [placeItem, h]

theorem placeItem_of_kept (hk : o.mode.keeps = true) (hL : (w.localAt it.localFile).isSome = true) :
    placeItem o w it = w := by
  unfold placeItem; split <;> simp [hk, hL]

theorem placeItem_of_writes {c : Bytes} (hc : w.remoteAt it.source = some c)
    (hw : ¬ (o.mode.keeps = true ∧ (w.localAt it.localFile).isSome = true)) :
    placeItem o w it = if o.deleteSource then (w.setLocal it.localFile (some c)).removeRemote it.source
      else w.setLocal it.localFile (some c) := by
  simp only [placeItem, hc, Bool.and_eq_true]
  rw [if_neg hw]

/-- **Placing an item reads and writes only its `local_file` and its source.** -/
theorem localAt_placeItem (q : PurePath) :
    (placeItem o w it).localAt q =
      if q.normalize = it.localFile.normalize ∧ Writes o w it then w.remoteAt it.source
      else w.localAt q := by
  unfold placeItem Writes
  split
  · rename_i h; simp [h]
  · rename_i c hc
    split
    · rename_i hk; simp_all
    · rename_i hk
      simp only [Bool.and_eq_true] at hk
      split <;> simp_all

theorem remoteAt_placeItem (q : PurePath) :
    (placeItem o w it).remoteAt q =
      if q.normalize = it.source.normalize ∧ Writes o w it ∧ o.deleteSource = true then none
      else w.remoteAt q := by
  unfold placeItem Writes
  split
  · rename_i h; simp [h]
  · rename_i c hc
    split
    · rename_i hk; simp_all
    · rename_i hk
      simp only [Bool.and_eq_true] at hk
      split <;> simp_all

/-- A remote file gone stays gone. -/
theorem remoteAt_placeItem_eq_none {q : PurePath} (h : w.remoteAt q = none) :
    (placeItem o w it).remoteAt q = none := by
  rw [remoteAt_placeItem]; split <;> simp [h]

/-- An existing local file stays. -/
theorem localAt_placeItem_isSome {q : PurePath} (h : (w.localAt q).isSome = true) :
    ((placeItem o w it).localAt q).isSome = true := by
  rw [localAt_placeItem]
  split
  · rename_i hw; exact hw.2.1
  · exact h

end One

/-- **Placing keeps agreement** on paths that include the item's `local_file` and source. -/
theorem placeItem_agree {ls rs : List PurePath} {w v : World H} {it : Item}
    (hl : it.localFile ∈ ls) (hr : it.source ∈ rs) (h : Agree ls rs w v) :
    Agree ls rs (placeItem o w it) (placeItem o v it) := by
  have hw : Writes o w it ↔ Writes o v it := by rw [Writes, Writes, h.1 _ hl, h.2 _ hr]
  refine ⟨fun q hq => ?_, fun q hq => ?_⟩
  · simp only [localAt_placeItem, hw, h.2 _ hr, h.1 q hq]
  · simp only [remoteAt_placeItem, hw, h.2 q hq]

theorem placeAll_agree {ls rs : List PurePath} {w v : World H} {xs : List Item}
    (hxs : ∀ x ∈ xs, x.localFile ∈ ls ∧ x.source ∈ rs) (h : Agree ls rs w v) :
    Agree ls rs (placeAll o w xs) (placeAll o v xs) := by
  induction xs generalizing w v with
  | nil => exact h
  | cons x xs ih =>
    have hx := hxs x (List.mem_cons_self x xs)
    exact ih (fun y hy => hxs y (List.mem_cons_of_mem x hy)) (placeItem_agree o hx.1 hx.2 h)

/-- Placing items none of which writes `q` leaves `q` alone. -/
theorem placeAll_localAt_of_no_writer {q : PurePath} {xs : List Item} {w : World H}
    (h : ∀ x ∈ xs, x.localFile.normalize = q.normalize → w.remoteAt x.source = none) :
    (placeAll o w xs).localAt q = w.localAt q := by
  induction xs generalizing w with
  | nil => rfl
  | cons x xs ih =>
    have hx : (placeItem o w x).localAt q = w.localAt q := by
      rw [localAt_placeItem, if_neg]
      rintro ⟨hq, hw, -⟩
      simp [h x (List.mem_cons_self x xs) hq.symm] at hw
    rw [placeAll_cons, ih, hx]
    exact fun y hy hq => remoteAt_placeItem_eq_none (h y (List.mem_cons_of_mem x hy) hq)

/-! ## Keeping modes and deleted sources: placed items are settled -/

/-- Placing `it` in `w` changes nothing, and keeps changing nothing whatever is placed after: its
source is gone, or its `local_file` exists and the mode keeps it. -/
def Settled (w : World H) (it : Item) : Prop :=
  w.remoteAt it.source = none ∨ (o.mode.keeps = true ∧ (w.localAt it.localFile).isSome = true)

section Settled

variable {o} {w : World H} {x : Item}

theorem placeItem_of_settled (h : Settled o w x) : placeItem o w x = w :=
  h.elim placeItem_of_remote_none fun h => placeItem_of_kept h.1 h.2

theorem Settled.placeItem (h : Settled o w x) (y : Item) : Settled o (placeItem o w y) x :=
  h.imp remoteAt_placeItem_eq_none fun h => ⟨h.1, localAt_placeItem_isSome h.2⟩

theorem Settled.placeAll (h : Settled o w x) (ys : List Item) : Settled o (placeAll o w ys) x := by
  induction ys generalizing w with
  | nil => exact h
  | cons y ys ih => exact ih (h.placeItem y)

theorem Settled.setLocal (h : Settled o w x) (p : PurePath) {v : Option Bytes}
    (hv : v.isSome = true ∨ o.mode.keeps = false) : Settled o (w.setLocal p v) x := by
  rcases h with h | ⟨hk, hL⟩
  · exact .inl (by simpa using h)
  · right
    refine ⟨hk, ?_⟩
    rw [World.localAt_setLocal]
    split
    · rcases hv with hv | hv
      · exact hv
      · simp [hk] at hv
    · exact hL

theorem placeAll_of_settled {xs : List Item} (h : ∀ y ∈ xs, Settled o w y) : placeAll o w xs = w := by
  induction xs with
  | nil => rfl
  | cons y ys ih =>
    rw [placeAll_cons, placeItem_of_settled (h y (List.mem_cons_self y ys))]
    exact ih fun z hz => h z (List.mem_cons_of_mem y hz)

variable (hA : o.mode.keeps = true ∨ o.deleteSource = true)
include hA

theorem settled_placeItem_self (w : World H) (it : Item) : Settled o (placeItem o w it) it := by
  cases hc : w.remoteAt it.source with
  | none => exact .inl (by rw [placeItem_of_remote_none hc]; exact hc)
  | some c =>
    by_cases hk : o.mode.keeps = true ∧ (w.localAt it.localFile).isSome = true
    · rw [placeItem_of_kept hk.1 hk.2]; exact .inr hk
    · rw [placeItem_of_writes hc hk]
      split
      · exact .inl (by simp)
      · rename_i hd
        exact .inr ⟨hA.resolve_right hd, by simp⟩

/-- **After placing items, each of them is settled.** -/
theorem settled_placeAll (w : World H) (xs : List Item) : ∀ x ∈ xs, Settled o (placeAll o w xs) x := by
  induction xs generalizing w with
  | nil => nofun
  | cons y ys ih =>
    intro x hx
    rcases List.mem_cons.1 hx with rfl | hx
    · exact (settled_placeItem_self hA w x).placeAll ys
    · exact ih _ x hx

/-- **Placing the same items twice is placing them once.** -/
theorem placeAll_idem (w : World H) (xs : List Item) :
    placeAll o (placeAll o w xs) xs = placeAll o w xs :=
  placeAll_of_settled (settled_placeAll hA w xs)

end Settled

/-! ## Replacing modes without deleting sources: the last writer wins -/

section Writer

variable {o}

theorem remoteAt_placeItem_of_keepSource (hd : o.deleteSource = false) (w : World H) (it : Item)
    (q : PurePath) : (placeItem o w it).remoteAt q = w.remoteAt q := by
  simp [remoteAt_placeItem, hd]

theorem remoteAt_placeAll_of_keepSource (hd : o.deleteSource = false) (w : World H) (xs : List Item)
    (q : PurePath) : (placeAll o w xs).remoteAt q = w.remoteAt q := by
  induction xs generalizing w with
  | nil => rfl
  | cons x xs ih => rw [placeAll_cons, ih, remoteAt_placeItem_of_keepSource hd]

/-- **When the mode replaces and no source is removed, a `local_file` that some item writes ends
with the content the last such item wrote, whatever it held before.** -/
theorem placeAll_localAt_of_writer (hk : o.mode.keeps = false) (hd : o.deleteSource = false)
    {q : PurePath} {xs : List Item} {X Y : World H}
    (hXY : ∀ x ∈ xs, X.remoteAt x.source = Y.remoteAt x.source)
    (hw : ∃ x ∈ xs, x.localFile.normalize = q.normalize ∧ (X.remoteAt x.source).isSome = true) :
    (placeAll o X xs).localAt q = (placeAll o Y xs).localAt q := by
  induction xs generalizing X Y with
  | nil => simp at hw
  | cons x xs ih =>
    have hXY' : ∀ y ∈ xs, (placeItem o X x).remoteAt y.source = (placeItem o Y x).remoteAt y.source :=
      fun y hy => by
        simp only [remoteAt_placeItem_of_keepSource hd]
        exact hXY y (List.mem_cons_of_mem x hy)
    rw [placeAll_cons, placeAll_cons]
    by_cases hlater : ∃ y ∈ xs, y.localFile.normalize = q.normalize ∧
        ((placeItem o X x).remoteAt y.source).isSome = true
    · exact ih hXY' hlater
    · -- the last writer is `x` itself
      push_neg at hlater
      have hnone : ∀ y ∈ xs, y.localFile.normalize = q.normalize → (placeItem o X x).remoteAt y.source = none :=
        fun y hy hq => Option.not_isSome_iff_eq_none.1 (by simpa using hlater y hy hq)
      rw [placeAll_localAt_of_no_writer o hnone,
        placeAll_localAt_of_no_writer o fun y hy hq => (hXY' y hy) ▸ hnone y hy hq]
      obtain ⟨y, hy, hq, hs⟩ := hw
      rcases List.mem_cons.1 hy with rfl | hy
      · have hXs := hXY y (List.mem_cons_self y xs)
        simp only [localAt_placeItem, Writes, hk, ← hXs, hq, hs, true_and, Bool.false_eq_true,
          false_and, not_false_eq_true, if_true]
      · exact absurd hs (by rw [← remoteAt_placeItem_of_keepSource hd X x]; exact hlater y hy hq)

end Writer

/-! ## Placing again after an interruption -/

/-- `w` and `v` agree on the `local_file`s and the sources of `items`. -/
def AgreeOn (items : List Item) (w v : World H) : Prop :=
  Agree (items.map Item.localFile) (items.map Item.source) w v

theorem placeAll_agreeOn {items xs : List Item} {w v : World H} (hxs : ∀ x ∈ xs, x ∈ items)
    (h : AgreeOn items w v) : AgreeOn items (placeAll o w xs) (placeAll o v xs) :=
  placeAll_agree o (fun x hx => ⟨List.mem_map_of_mem _ (hxs x hx), List.mem_map_of_mem _ (hxs x hx)⟩) h

/-- Where one pass of placing `items` from `wb` can leave their files: between two items, or
inside an item `it` that writes, its `local_file` removed (only in a mode that replaces) or
already holding the content of its source. -/
def Midway (wb W : World H) (items : List Item) : Prop :=
  (∃ pre post, items = pre ++ post ∧ AgreeOn items W (placeAll o wb pre)) ∨
    ∃ pre it post c, items = pre ++ it :: post ∧ (placeAll o wb pre).remoteAt it.source = some c ∧
      Writes o (placeAll o wb pre) it ∧
      ((o.mode.keeps = false ∧ AgreeOn items W ((placeAll o wb pre).setLocal it.localFile none)) ∨
        AgreeOn items W ((placeAll o wb pre).setLocal it.localFile (some c)))

variable {o}

theorem Midway.of_agreeOn {wb W W' : World H} {items : List Item} (h : AgreeOn items W' W)
    (hW : Midway o wb W items) : Midway o wb W' items := by
  rcases hW with ⟨pre, post, he, hA⟩ | ⟨pre, it, post, c, he, hc, hw, ⟨hk, hA⟩ | hA⟩
  · exact .inl ⟨pre, post, he, h.trans hA⟩
  · exact .inr ⟨pre, it, post, c, he, hc, hw, .inl ⟨hk, h.trans hA⟩⟩
  · exact .inr ⟨pre, it, post, c, he, hc, hw, .inr (h.trans hA)⟩

/-- Placing `it` over its `local_file` already written (or removed, in a mode that replaces) ends
as placing it over the file it had: the sources other than its own agree in every mode, its own
too when the mode replaces. -/
theorem placeItem_setLocal_agree {V : World H} {it : Item} {c : Bytes} {v : Option Bytes}
    {ls rs : List PurePath} (hc : V.remoteAt it.source = some c) (hw : Writes o V it)
    (hv : v = some c ∨ o.mode.keeps = false)
    (hrs : o.mode.keeps = true → ∀ q ∈ rs, q.normalize ≠ it.source.normalize) :
    Agree ls rs (placeItem o (V.setLocal it.localFile v) it) (placeItem o V it) := by
  have hwX : Writes o (V.setLocal it.localFile v) it ∨ (o.mode.keeps = true ∧ v = some c) := by
    rcases hv with rfl | hk
    · by_cases hk : o.mode.keeps = true
      · exact .inr ⟨hk, rfl⟩
      · exact .inl ⟨by simp [hc], fun h => hk h.1⟩
    · exact .inl ⟨by simp [hc], fun h => by simp [hk] at h⟩
  refine ⟨fun q _ => ?_, fun q hq => ?_⟩
  · rw [localAt_placeItem, localAt_placeItem, World.localAt_setLocal]
    by_cases hq : q.normalize = it.localFile.normalize
    · rcases hwX with hwX | ⟨hk, rfl⟩
      · simp [hq, hw, hwX]
      · have hL : V.localAt it.localFile = none := by simpa [hk] using hw.2
        simp [hq, Writes, hk, hc, hL]
    · simp [hq]
  · rw [remoteAt_placeItem, remoteAt_placeItem, World.remoteAt_setLocal]
    rcases hwX with hwX | ⟨hk, -⟩
    · simp only [hwX, hw, true_and]
    · simp [hrs hk q hq]

/-- In `Midway`, the items' sources are as one pass left them. -/
theorem Midway.remoteAt_of_keepSource (hd : o.deleteSource = false) {wb W : World H}
    {items : List Item} (h : Midway o wb W items) : ∀ x ∈ items, W.remoteAt x.source = wb.remoteAt x.source := by
  intro x hx
  have hx' := List.mem_map_of_mem Item.source hx
  rcases h with ⟨pre, -, -, hW⟩ | ⟨pre, it, -, c, -, -, -, ⟨-, hW⟩ | hW⟩ <;>
    rw [hW.2 _ hx'] <;> simp [remoteAt_placeAll_of_keepSource hd]

/-- **When the mode keeps existing files or the sources are deleted, placing all items again from
where one pass was interrupted ends, on every `local_file`, as one pass does**, provided no two
items share a source. -/
theorem placeAll_resume_settling (hA : o.mode.keeps = true ∨ o.deleteSource = true)
    {wb W : World H} {items : List Item} (hsrc : (items.map fun it => it.source.normalize).Nodup)
    (hW : Midway o wb W items) :
    ∀ q ∈ items.map Item.localFile, (placeAll o W items).localAt q = (placeAll o wb items).localAt q := by
  intro q hq
  rcases hW with ⟨pre, post, hitems, hW⟩ | ⟨pre, it, post, c, hitems, hc, hw, hform⟩
  · rw [(placeAll_agreeOn o (fun _ => id) hW).1 q hq, hitems, placeAll_append, placeAll_idem hA,
      placeAll_append]
  · -- `X` is where the interruption left the files; `pre` is settled there
    obtain ⟨v, hv, hWX⟩ : ∃ v, (v = some c ∨ o.mode.keeps = false) ∧
        AgreeOn items W ((placeAll o wb pre).setLocal it.localFile v) := by
      rcases hform with ⟨hk, h⟩ | h
      · exact ⟨none, .inr hk, h⟩
      · exact ⟨some c, .inl rfl, h⟩
    have hpre : placeAll o ((placeAll o wb pre).setLocal it.localFile v) pre =
        (placeAll o wb pre).setLocal it.localFile v :=
      placeAll_of_settled fun y hy => (settled_placeAll hA wb pre y hy).setLocal _
        (hv.imp (fun h => by simp [h]) id)
    have hpost : ∀ y ∈ post, y.source.normalize ≠ it.source.normalize := by
      rw [hitems, List.map_append, List.map_cons] at hsrc
      intro y hy he
      exact (List.nodup_cons.1 (List.nodup_append.1 hsrc).2.1).1 (he ▸ List.mem_map_of_mem _ hy)
    have hmem : ∀ y ∈ post, y ∈ items := fun y hy => by rw [hitems]; simp [hy]
    have hagree : Agree (items.map Item.localFile) (post.map Item.source)
        (placeAll o (placeItem o ((placeAll o wb pre).setLocal it.localFile v) it) post)
        (placeAll o (placeItem o (placeAll o wb pre) it) post) :=
      placeAll_agree o (fun y hy => ⟨List.mem_map_of_mem _ (hmem y hy), List.mem_map_of_mem _ hy⟩)
        (placeItem_setLocal_agree hc hw hv fun _ q hq => by
          obtain ⟨y, hy, rfl⟩ := List.mem_map.1 hq
          exact hpost y hy)
    have e1 : placeAll o ((placeAll o wb pre).setLocal it.localFile v) items =
        placeAll o (placeItem o ((placeAll o wb pre).setLocal it.localFile v) it) post := by
      rw [hitems, placeAll_append, hpre, placeAll_cons]
    have e2 : placeAll o wb items = placeAll o (placeItem o (placeAll o wb pre) it) post := by
      rw [hitems, placeAll_append, placeAll_cons]
    rw [(placeAll_agreeOn o (fun _ => id) hWX).1 q hq, e1, e2]
    exact hagree.1 q hq

/-- **When the mode replaces and no source is removed, placing all items again from where one pass
was interrupted ends, on every `local_file`, as one pass does.** -/
theorem placeAll_resume_writing (hk : o.mode.keeps = false) (hd : o.deleteSource = false)
    {wb W : World H} {items : List Item} (hW : Midway o wb W items) :
    ∀ q ∈ items.map Item.localFile, (placeAll o W items).localAt q = (placeAll o wb items).localAt q := by
  intro q hq
  have hrem := hW.remoteAt_of_keepSource hd
  by_cases hwr : ∃ x ∈ items, x.localFile.normalize = q.normalize ∧ (W.remoteAt x.source).isSome = true
  · exact placeAll_localAt_of_writer hk hd hrem hwr
  · push_neg at hwr
    have hnone : ∀ x ∈ items, x.localFile.normalize = q.normalize → wb.remoteAt x.source = none :=
      fun x hx hq => by simpa [hrem x hx] using hwr x hx hq
    rw [placeAll_localAt_of_no_writer o fun x hx hq => by simpa using hwr x hx hq,
      placeAll_localAt_of_no_writer o hnone]
    -- no item writes `q`, so neither the pass nor the interrupted item touched it
    have hV : ∀ pre : List Item, (∀ x ∈ pre, x ∈ items) → (placeAll o wb pre).localAt q = wb.localAt q :=
      fun pre hpre => placeAll_localAt_of_no_writer o fun x hx => hnone x (hpre x hx)
    rcases hW with ⟨pre, post, hitems, hW⟩ | ⟨pre, it, post, c, hitems, hc, -, hform⟩
    · rw [hW.1 q hq, hV pre fun x hx => by rw [hitems]; exact List.mem_append_left _ hx]
    · have hit : it ∈ items := by rw [hitems]; simp
      have hpre : ∀ x ∈ pre, x ∈ items := fun x hx => by rw [hitems]; exact List.mem_append_left _ hx
      have hne : q.normalize ≠ it.localFile.normalize := fun he => by
        have := hnone it hit he.symm
        rw [remoteAt_placeAll_of_keepSource hd] at hc
        simp [this] at hc
      rcases hform with ⟨-, hW⟩ | hW <;>
        rw [hW.1 q hq, World.localAt_setLocal, if_neg hne, hV pre hpre]

end Onetl.Downloader
