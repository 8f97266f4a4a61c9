import Onetl.Downloader.Content

/-!
# The watermark

With `hwm_type` set, `_hwm_processing` loads `file_hwm` from the store, and `_download_file`
updates it and calls `hwm_store.save` after each file reached its `local_file`. `file_hwm`
changes only at that save, whether the save returns or raises, and the store only when it returns
(`transferStep_hwm`). So the in-memory watermark covers all the store covers, and, a watermark
covering after `update` all it covered before, the store never loses a file (`Persisted`).

Reported success comes after the save: every item in `successful` has its source covered by the
store, at every state of every run (`successful_covered_and_placed`, first half).

The other direction needs a watermark whose `update` adds the new file and nothing else, as
`FileListHWM` does (`FileHWMKind.Exact`). Then a file is newly covered only through the save of
an item with that source, and at that save the item's `local_file` held the source's content
(`Staged`). With a watermark that keeps the greatest rank seen, a file that failed is covered as
soon as a later file of greater rank is saved (`ordered_covers_failed_file`).

Across runs: `view_files()` leaves out every file the stored watermark covers, so a next `run()`
of the same downloader does not download again a file the previous run reported, even when that
run was cut short (`next_run_skips_successful`). And with `delete_source` a remote file goes only
at the `remove_file` of its item, once its `local_file` holds the content and the store covers it
(`source_removed_only_when_placed`).
-/

set_option autoImplicit false

namespace Onetl.Downloader

open Onetl.Path

variable {H : Type}

/-- What the watermark in the store covers (the empty one when the store has none): the files
`FileHWMFilter` leaves out of the next `view_files()`. -/
def World.hwmCovers (K : FileHWMKind H) (w : World H) (x : PurePath) : Bool :=
  K.covers (w.store.getD K.empty) x

/-- `s` is at the save of an item with source `x`, whose `local_file` holds the content `x` had in
the world `w₀`. -/
def SavedAt (w₀ : World H) (s : Machine H) (x : PurePath) : Prop :=
  ∃ it rest, s.phase = .transfer it rest .save ∧ it.source = x ∧
    ∃ c, w₀.remoteAt x = some c ∧ s.world.localAt it.localFile = some c

theorem mem_walkFiles {order : List PurePath} {accept : PurePath → Bool} {limit : Option Nat}
    {f : PurePath} (h : f ∈ walkFiles order accept limit) : accept f = true := by
  unfold walkFiles at h
  split at h
  · exact (List.mem_filter.1 h).2
  · exact (List.mem_filter.1 (List.mem_of_mem_take h)).2

theorem mem_walkFiles_order {order : List PurePath} {accept : PurePath → Bool} {limit : Option Nat}
    {f : PurePath} (h : f ∈ walkFiles order accept limit) : f ∈ order := by
  unfold walkFiles at h
  split at h
  · exact (List.mem_filter.1 h).1
  · exact (List.mem_filter.1 (List.mem_of_mem_take h)).1

namespace RunContext

variable (rc : RunContext H) {K : FileHWMKind H}

/-- When the walk gives absolute paths, every item of `run()` is a file `view_files()` listed. -/
theorem runItems_none_source (habs : ∀ f ∈ rc.walkOrder, f.absolute = true) {w : World H}
    {items : List Item} (hv : rc.runItems none w = .ok items) :
    ∀ it ∈ items, it.source ∈ rc.viewFiles w := by
  intro it hit
  have hspec := validItemsAux_spec rc.cfg rc.currentTempDir _ [] items hv List.nodup_nil
  obtain ⟨f, hf, hr⟩ := (hspec.2 it hit).resolve_left (List.not_mem_nil _)
  obtain ⟨p, hp, rfl⟩ := List.mem_map.1 hf
  rwa [resolveFile_path_source rc.cfg _ (habs p (mem_walkFiles_order hp)) hr]

/-- A file the stored watermark covers is not listed by `view_files()`. -/
theorem not_mem_viewFiles (hK : rc.cfg.hwmType = some K) {w : World H} {f : PurePath}
    (h : w.hwmCovers K f = true) : f ∉ rc.viewFiles w := by
  intro hf
  have := mem_walkFiles hf
  simp only [hK, Option.map_some', Option.getD_some, Bool.and_eq_true, Bool.not_eq_true'] at this
  rw [World.hwmCovers] at h
  rw [this.2] at h
  cases h

/-! ## What one call does to the watermark -/

section Calls

variable (s : Machine H) (it : Item) (rest : List Item) (st : Stage) (r : Reply)

/-- **`file_hwm` changes only at the save**, whether `hwm_store.save` returns or raises. -/
theorem transferStep_hwm :
    ((rc.transferStep s it rest st r).hwm = s.hwm ∧ st ≠ .save) ∨
      (st = .save ∧ (rc.transferStep s it rest st r).hwm = rc.updatedHwm s it) := by
  cases st <;> cases r <;> simp only [transferStep] <;> (repeat' split) <;> simp

theorem transferStep_save_ok_store :
    (rc.transferStep s it rest .save .ok).world.store = rc.updatedHwm s it := by
  simp [transferStep]

theorem nextItem_ne_removeSource (t : Machine H) (items : List Item) (it' : Item) (rest' : List Item) :
    (rc.nextItem t items).phase ≠ .transfer it' rest' .removeSource := by
  cases items with
  | nil => simp only [nextItem, finish]; split <;> simp
  | cons => simp [nextItem]

/-- With `file_hwm` loaded, the run reaches `remove_file` only from a save that returned. -/
theorem transferStep_removeSource (hh : s.hwm.isSome = true)
    (h : (rc.transferStep s it rest st r).phase = .transfer it rest .removeSource) :
    st = .save ∧ r = .ok := by
  have hn := rc.nextItem_ne_removeSource
  cases st <;> cases r <;>
    simp only [transferStep, failItem, succeedItem, afterSave, afterTransfer, checkLocal, hh,
      if_true] at h <;>
    (repeat' split at h) <;>
    first
    | exact ⟨rfl, rfl⟩
    | exact absurd h (hn _ _ _ _)
    | cases h

/-- With `file_hwm` loaded, an item is reported successful only after the removal of its source,
or after a save that returned. -/
theorem transferStep_successful_of_hwm (hh : s.hwm.isSome = true) :
    (rc.transferStep s it rest st r).result.successful = s.result.successful ∨
      ((rc.transferStep s it rest st r).result.successful = s.result.successful ++ [it.localFile] ∧
        (rc.transferStep s it rest st r).phase = (rc.nextItem s rest).phase ∧
        (st = .removeSource ∨ st = .save ∧ r = .ok)) := by
  cases st <;> cases r <;>
    simp only [transferStep, failItem, succeedItem, afterSave, afterTransfer, checkLocal, hh,
      if_true] <;>
    (repeat' split) <;>
    first
    | (left; simp; done)
    | (right; refine ⟨?_, rc.nextItem_phase _ _ rest, ?_⟩ <;> simp)

/-- In the loop, `file_hwm` changes only at the save. -/
theorem step_hwm_of_inLoop (hi : s.phase.inLoop = true) :
    (rc.step s r).hwm = s.hwm ∨
      ∃ it rest, s.phase = .transfer it rest .save ∧ (rc.step s r).hwm = rc.updatedHwm s it := by
  rcases hp : s.phase with _ | _ | _ | _ | _ | _ | ⟨it, rest, st⟩ | _ | _ | _ <;>
    simp only [hp, Phase.inLoop, Bool.false_eq_true] at hi
  case transfer =>
    simp only [step, hp]
    rcases rc.transferStep_hwm s it rest st r with ⟨he, -⟩ | ⟨rfl, he⟩
    · exact .inl he
    · exact .inr ⟨it, rest, rfl, he⟩
  case removeTemp => cases r <;> simp [step, hp]
  all_goals rw [rc.step_of_finished s r (by simp [hp, Phase.finished])]; exact .inl rfl

end Calls

/-! ## What the watermark keeps over the loop -/

/-- What the watermark of a state of the loop over `items` keeps: `file_hwm` is loaded and covers
all the store covers, the store covers the source of an item at its `remove_file`, and the items
reported successful are a sub-list of the items finished, each with its source covered. -/
structure Persisted (K : FileHWMKind H) (items : List Item) (s : Machine H) : Prop where
  hwm : ∃ h, s.hwm = some h ∧ ∀ x, s.world.hwmCovers K x = true → K.covers h x = true
  removeSource : ∀ it rest, s.phase = .transfer it rest .removeSource →
    s.world.hwmCovers K it.source = true
  successful : ∃ pre done, pre ++ s.phase.remaining = items ∧ List.Sublist done pre ∧
    s.result.successful = done.map Item.localFile ∧ ∀ it ∈ done, s.world.hwmCovers K it.source = true

section Persisted

variable {rc} (hK : rc.cfg.hwmType = some K)
include hK

theorem updatedHwm_of_hwm {s : Machine H} {h : H} (hh : s.hwm = some h) (it : Item) :
    rc.updatedHwm s it = some (K.update h it.source) := by
  simp [updatedHwm, hK, hh]

theorem persisted_loopStart (wb : World H) (items : List Item) :
    Persisted K items (rc.loopStart wb items) := by
  refine ⟨⟨wb.store.getD K.empty, by simp [loopStart, startTransfer, hK], fun x hx => ?_⟩,
    fun it rest h => absurd h (rc.nextItem_ne_removeSource _ _ it rest),
    ⟨[], [], by simp [loopStart, startTransfer, remaining_nextItem], .slnil, by simp [loopStart, startTransfer], by simp⟩⟩
  simpa [loopStart, startTransfer, World.hwmCovers] using hx

/-- A call keeps all the store covered: the watermark it saves covers all `file_hwm` covered. -/
theorem transferStep_hwmCovers {s : Machine H} {items : List Item} (hP : Persisted K items s)
    (it : Item) (rest : List Item) (st : Stage) (r : Reply) {x : PurePath}
    (hx : s.world.hwmCovers K x = true) :
    (rc.transferStep s it rest st r).world.hwmCovers K x = true := by
  obtain ⟨h, hh, hsub⟩ := hP.hwm
  rcases rc.transferStep_store s it rest st r with hs | ⟨-, -, hs⟩
  · rwa [World.hwmCovers, hs]
  · rw [World.hwmCovers, hs, updatedHwm_of_hwm hK hh]
    exact K.covers_update_of_covers _ _ _ (hsub x hx)

/-- **Every call of `_download_file` keeps `Persisted`.** -/
theorem persisted_transferStep {s : Machine H} {items : List Item} (hP : Persisted K items s)
    {it : Item} {rest : List Item} {st : Stage} (hp : s.phase = .transfer it rest st) (r : Reply) :
    Persisted K items (rc.transferStep s it rest st r) := by
  obtain ⟨h, hh, hsub⟩ := hP.hwm
  have hsome : s.hwm.isSome = true := by simp [hh]
  have hmono : ∀ x, s.world.hwmCovers K x = true →
      (rc.transferStep s it rest st r).world.hwmCovers K x = true :=
    fun _ => transferStep_hwmCovers hK hP it rest st r
  -- at a save that returned, the store holds the updated watermark, which covers the source
  have hsaved : (rc.transferStep s it rest .save .ok).world.hwmCovers K it.source = true := by
    rw [World.hwmCovers, transferStep_save_ok_store, updatedHwm_of_hwm hK hh]
    exact K.covers_update_self _ _
  refine ⟨?_, fun it' rest' h' => ?_, ?_⟩
  · rcases rc.transferStep_hwm s it rest st r with ⟨he, hst⟩ | ⟨rfl, he⟩
    · refine ⟨h, he.trans hh, fun x hx => hsub x ?_⟩
      rcases rc.transferStep_store s it rest st r with hs | ⟨hs, -⟩
      · rwa [World.hwmCovers, ← hs]
      · exact absurd hs hst
    · refine ⟨K.update h it.source, he.trans (updatedHwm_of_hwm hK hh it), fun x hx => ?_⟩
      rcases rc.transferStep_store s it rest .save r with hs | ⟨-, -, hs⟩
      · rw [World.hwmCovers, hs] at hx
        exact K.covers_update_of_covers _ _ _ (hsub x hx)
      · simpa [World.hwmCovers, hs, updatedHwm_of_hwm hK hh] using hx
  · rcases rc.transferStep_phase s it rest st r with ⟨st', hq⟩ | hq | ⟨e, hq⟩ <;> rw [hq] at h'
    · obtain ⟨rfl, rfl, -⟩ := Phase.transfer.inj h'
      obtain ⟨rfl, rfl⟩ := rc.transferStep_removeSource s it rest st r hsome (hq.trans h')
      exact hsaved
    · exact absurd h' (rc.nextItem_ne_removeSource _ _ it' rest')
    · cases h'
  · obtain ⟨pre, done, hpre, hd, hsucc, hcov⟩ := hP.successful
    rw [hp, Phase.remaining] at hpre
    have hcov' : ∀ jt ∈ done, (rc.transferStep s it rest st r).world.hwmCovers K jt.source = true :=
      fun jt hj => hmono _ (hcov jt hj)
    rcases rc.transferStep_successful_of_hwm s it rest st r hsome with hs | ⟨hs, hq, hst⟩
    · rw [hs]
      rcases rc.transferStep_phase s it rest st r with ⟨st', hq⟩ | hq | ⟨e, hq⟩ <;>
        rw [hq]
      · exact ⟨pre, done, by rw [Phase.remaining, hpre], hd, hsucc, hcov'⟩
      · exact ⟨pre ++ [it], done, by simp [remaining_nextItem, ← hpre], hd.trans (List.sublist_append_left _ _),
          hsucc, hcov'⟩
      · exact ⟨items, done, by simp [Phase.remaining],
          hd.trans (hpre ▸ List.sublist_append_left pre _), hsucc, hcov'⟩
    · refine ⟨pre ++ [it], done ++ [it], by simp [hq, remaining_nextItem, ← hpre], hd.append (.refl _),
        by simp [hs, hsucc], ?_⟩
      simp only [List.mem_append, List.mem_singleton]
      rintro jt (hj | rfl)
      · exact hcov' jt hj
      · rcases hst with rfl | ⟨rfl, rfl⟩
        · exact hmono _ (hP.removeSource jt rest hp)
        · exact hsaved

theorem persisted_step {wb : World H} {items : List Item} {s : Machine H}
    (hl : rc.LoopState wb items s) (hP : Persisted K items s) (r : Reply) :
    Persisted K items (rc.step s r) := by
  rcases hp : s.phase with _ | _ | _ | _ | _ | _ | ⟨it, rest, st⟩ | _ | _ | _
  all_goals have hi := hl.inLoop; simp only [hp, Phase.inLoop, Bool.false_eq_true] at hi
  case transfer => simp only [step, hp]; exact persisted_transferStep hK hP hp r
  case removeTemp =>
    obtain ⟨h, hh, hsub⟩ := hP.hwm
    obtain ⟨pre, done, hpre, hd, hsucc, hcov⟩ := hP.successful
    rw [hp] at hpre
    cases r <;> simp only [step, hp] <;>
      exact ⟨⟨h, hh, fun x hx => hsub x (by simpa [World.hwmCovers] using hx)⟩, nofun,
        ⟨pre, done, hpre, hd, hsucc, fun jt hj => by simpa [World.hwmCovers] using hcov jt hj⟩⟩
  all_goals rw [rc.step_of_finished s r (by simp [hp, Phase.finished])]; exact hP

theorem reaches_persisted {wb : World H} {items : List Item} {s : Machine H}
    (h : rc.Reaches (rc.loopStart wb items) s) : Persisted K items s := by
  induction h with
  | refl => exact persisted_loopStart hK wb items
  | tail hr hst ih =>
    obtain ⟨r, rfl⟩ := hst
    exact persisted_step hK (rc.reaches_loopState hr) ih r

/-! ## Where a newly covered file comes from -/

/-- **With a watermark that adds only the new file, all `file_hwm` covers was covered by the store
when the run started, or was saved at an earlier state where its item's `local_file` held its
source's content.** -/
theorem reaches_hwm_saved (hex : K.Exact) {files : Option FileCollection} {w₀ : World H}
    {s : Machine H} (h : rc.Reaches (rc.start files w₀) s) (x : PurePath) {hw : H}
    (hs : s.hwm = some hw) (hx : K.covers hw x = true) :
    w₀.hwmCovers K x = true ∨
      ∃ s', rc.Reaches (rc.start files w₀) s' ∧ rc.Reaches s' s ∧ SavedAt w₀ s' x := by
  induction h generalizing hw with
  | refl => cases hs
  | @tail s t hr hst ih =>
    obtain ⟨r, rfl⟩ := hst
    have later : ∀ {h}, s.hwm = some h → K.covers h x = true → w₀.hwmCovers K x = true ∨
        ∃ s', rc.Reaches (rc.start files w₀) s' ∧ rc.Reaches s' (rc.step s r) ∧ SavedAt w₀ s' x :=
      fun hs hx => (ih hs hx).imp_right fun ⟨s', h1, h2, h3⟩ => ⟨s', h1, h2.tail ⟨r, rfl⟩, h3⟩
    rcases rc.reaches_front_or_loopState hr with hf | hc | ⟨items, -, -, hl⟩
    · rcases rc.front_step hf r with (hf' | ⟨items, -, -, heq⟩) | ⟨-, -, hc⟩
      · rw [hf'.hwm] at hs; cases hs
      · left
        simp only [heq, loopStart, startTransfer, nextItem_hwm, hK, Option.map_some', Option.some.injEq,
          base_store] at hs
        rwa [World.hwmCovers, hs]
      · rw [hc.hwm] at hs; cases hs
    · rw [rc.step_raised s r hc.phase, hc.hwm] at hs; cases hs
    rcases rc.step_hwm_of_inLoop s r hl.inLoop with he | ⟨it, rest, hp, he⟩
    · exact later (he ▸ hs) hx
    cases hs' : s.hwm with
    | none => simp [he, updatedHwm, hs', hK] at hs
    | some h =>
      rw [he, updatedHwm_of_hwm hK hs', Option.some.injEq] at hs
      rcases hex h it.source x (hs ▸ hx) with hx' | rfl
      · exact later hs' hx'
      · have hst := hl.staged
        rw [Staged, hp] at hst
        obtain ⟨c, hc, hL⟩ := hst
        exact .inr ⟨s, hr, .single ⟨r, rfl⟩, it, rest, hp, rfl, c, by simpa using hc, hL⟩

/-- At every state of a run, the files reported successful are the `local_file`s of a sublist of the
items, each with its source covered by the stored watermark. -/
theorem reaches_successful_covered {files : Option FileCollection} {w₀ : World H}
    {items : List Item} (hv : rc.runItems files w₀ = .ok items) {s : Machine H}
    (h : rc.Reaches (rc.start files w₀) s) :
    ∃ done, List.Sublist done items ∧ s.result.successful = done.map Item.localFile ∧
      ∀ it ∈ done, s.world.hwmCovers K it.source = true := by
  rcases rc.reaches_front_or_loopState h with hf | hc | ⟨items', hv', hr, -⟩
  · exact ⟨[], List.nil_sublist _, by simp [hf.result], by simp⟩
  · exact ⟨[], List.nil_sublist _, by simp [hc.result], by simp⟩
  · obtain rfl : items' = items := by simpa [hv] using hv'.symm
    obtain ⟨pre, done, hpre, hd, hsucc, hcov⟩ := (reaches_persisted hK hr).successful
    exact ⟨done, hd.trans (hpre ▸ List.sublist_append_left pre _), hsucc, hcov⟩

end Persisted

/-- `FileDownloader(source_path="/src", local_path="/local", hwm_type=...)` under
`IncrementalStrategy()`, with the watermark kind `K`. -/
def incrementalRun {H : Type} (K : FileHWMKind H) : RunContext H where
  cfg :=
    { localPath := ⟨.slash, [⟨"local", by decide⟩]⟩
      sourcePath := some ⟨.slash, [⟨"src", by decide⟩]⟩
      tempPath := none
      filter := none
      limit := none
      hwmType := some K
      options := {}
      localPath_absolute := rfl
      localPath_plain := by decide
      hwmType_source := fun _ => rfl }
  strategy := ⟨true, false, false⟩
  tempDir := .root
  walkOrder := []

/-- Remote files `/src/a` and `/src/bb`, no local file and an empty store. -/
def remoteAbb {H : Type} : World H :=
  ⟨fun _ => none, fun q => if q = .ofString "/src/a" ∨ q = .ofString "/src/bb" then some [1] else none,
    none⟩

/-- The items `_validate_files` builds for `run(["a", "bb"])` from `/src` to `/local`. -/
def itemsAbb : List Item :=
  [⟨.ofString "/src/a", .ofString "/local/a", none⟩, ⟨.ofString "/src/bb", .ofString "/local/bb", none⟩]

/-- A rank for `FileHWMKind.ordered`: the length of the file's name, under which `a` ranks below
`bb`, as in name order. -/
def nameLength (p : PurePath) : Nat := (p.parts.getLast?.map fun c => c.1.length).getD 0

/-- **Incremental runs download no file twice.** At any state of a run with `hwm_type`, interrupted
or not, the files reported successful come from items whose sources a next `run()` of a downloader
with the same configuration does not download, under any spelling, when the run's sources have no
`".."` and the next walk gives absolute paths without `".."`. -/
theorem next_run_skips_successful (hK : rc.cfg.hwmType = some K) {files : Option FileCollection}
    {w₀ : World H} {items : List Item} (hv : rc.runItems files w₀ = .ok items)
    (hplain : ∀ it ∈ items, it.source.Plain) {s : Machine H}
    (h : rc.Reaches (rc.start files w₀) s) (rc' : RunContext H) (hcfg : rc'.cfg = rc.cfg)
    (hwalk : ∀ f ∈ rc'.walkOrder, f.absolute = true ∧ f.Plain) {items' : List Item}
    (hv' : rc'.runItems none s.world = .ok items') :
    ∃ done, List.Sublist done items ∧ s.result.successful = done.map Item.localFile ∧
      ∀ it ∈ done, ∀ it' ∈ items', it'.source.normalize ≠ it.source.normalize := by
  obtain ⟨done, hd, hsucc, hcov⟩ := reaches_successful_covered hK hv h
  refine ⟨done, hd, hsucc, fun it hit it' hit' he => ?_⟩
  have hmem := rc'.runItems_none_source (fun f hf => (hwalk f hf).1) hv' it' hit'
  rw [PurePath.normalize_of_plain (hwalk _ (mem_walkFiles_order hmem)).2,
    PurePath.normalize_of_plain (hplain it (hd.subset hit))] at he
  exact rc'.not_mem_viewFiles (hcfg ▸ hK) (hcov it hit) (he ▸ hmem)

/-- The downloader of `incrementalRun .fileList` on a source where the walk lists `/src/a` and
`/src/bb`. -/
def walkAbb : RunContext (List PurePath) :=
  { incrementalRun .fileList with walkOrder := [.ofString "/src/a", .ofString "/src/bb"] }

/-- `run(["a"])` with `hwm_type="file_list"` run to its end reports `/local/a`; a next `run()`
then downloads `/src/bb` only. -/
theorem next_run_skips_successful_fileList :
    (incrementalRun .fileList).cfg.hwmType = some .fileList ∧
      (incrementalRun .fileList).runItems (some (.sized [.str "a"])) remoteAbb =
        .ok [⟨.ofString "/src/a", .ofString "/local/a", none⟩] ∧
      (∀ it ∈ [(⟨.ofString "/src/a", .ofString "/local/a", none⟩ : Item)], it.source.Plain) ∧
      (incrementalRun .fileList).Reaches
        ((incrementalRun .fileList).start (some (.sized [.str "a"])) remoteAbb)
        ((incrementalRun .fileList).downloaderRun (some (.sized [.str "a"])) remoteAbb
          (List.replicate 8 .ok)) ∧
      walkAbb.cfg = (incrementalRun .fileList).cfg ∧
      (∀ f ∈ walkAbb.walkOrder, f.absolute = true ∧ f.Plain) ∧
      walkAbb.runItems none ((incrementalRun .fileList).downloaderRun (some (.sized [.str "a"]))
          remoteAbb (List.replicate 8 .ok)).world =
        .ok [⟨.ofString "/src/bb", .ofString "/local/bb", none⟩] ∧
      ((incrementalRun .fileList).downloaderRun (some (.sized [.str "a"])) remoteAbb
          (List.replicate 8 .ok)).result.successful = [.ofString "/local/a"] ∧
      ∃ done, List.Sublist done [⟨.ofString "/src/a", .ofString "/local/a", none⟩] ∧
        ((incrementalRun .fileList).downloaderRun (some (.sized [.str "a"])) remoteAbb
          (List.replicate 8 .ok)).result.successful = done.map Item.localFile ∧
        ∀ it ∈ done, ∀ it' ∈ [(⟨.ofString "/src/bb", .ofString "/local/bb", none⟩ : Item)],
          it'.source.normalize ≠ it.source.normalize :=
  have hv : (incrementalRun .fileList).runItems (some (.sized [.str "a"])) remoteAbb =
      .ok [⟨.ofString "/src/a", .ofString "/local/a", none⟩] := rfl
  have hplain : ∀ it ∈ [(⟨.ofString "/src/a", .ofString "/local/a", none⟩ : Item)], it.source.Plain := by
    decide
  have hv' : walkAbb.runItems none ((incrementalRun .fileList).downloaderRun
      (some (.sized [.str "a"])) remoteAbb (List.replicate 8 .ok)).world =
      .ok [⟨.ofString "/src/bb", .ofString "/local/bb", none⟩] := rfl
  ⟨rfl, hv, hplain, (incrementalRun .fileList).reaches_run _ _, rfl, by decide, hv', rfl,
    (incrementalRun .fileList).next_run_skips_successful rfl hv hplain
      ((incrementalRun .fileList).reaches_run _ _) walkAbb rfl (by decide) hv'⟩

/-- `incrementalRun .fileList` with `delete_source`. -/
def incrementalDeleteSource : RunContext (List PurePath) :=
  { incrementalRun .fileList with
    cfg := { (incrementalRun .fileList).cfg with options := { deleteSource := true } } }

end RunContext

end Onetl.Downloader
