import Onetl.Downloader.Front

/-!
# The loop of `_download_files`

A call of `_download_file` touches little of the world: the local files at the item's `local_file`
and `tmp_file`, the remote file at its source, which it can only remove, and the store, only at
`hwm_store.save` (`transferStep_localAt_of_ne`, `transferStep_remoteAt_of_ne`,
`transferStep_remoteSub`, `transferStep_store`).

The file an item moves into place is complete. `Staged` says what each stage of the current item
counts on: the replace flag only in the modes that replace, the content of the source in
`tmp_file` before `unlink`, `mkdir` and `shutil.move`, and at `local_file` before the save and the
removal of the source. Every call keeps it (`staged_transferStep`), so every state of the loop has
it, with the remote files a part of those at the start of the loop (`reaches_loopState`).
-/

set_option autoImplicit false

namespace Onetl.Downloader

open Onetl.Path

variable {H : Type}

/-- The items `_download_files` has still to finish. -/
def Phase.remaining : Phase → List Item
  | .transfer it rest _ => it :: rest
  | _ => []

/-- Every remote file of `v` is in `w` with the same content: `w` lost files at most. -/
def World.RemoteSub (v w : World H) : Prop := ∀ q c, v.remoteAt q = some c → w.remoteAt q = some c

theorem World.RemoteSub.refl (w : World H) : w.RemoteSub w := fun _ _ => id

theorem World.RemoteSub.trans {u v w : World H} (h : u.RemoteSub v) (h' : v.RemoteSub w) :
    u.RemoteSub w :=
  fun q c hq => h' q c (h q c hq)

namespace RunContext

variable (rc : RunContext H)

/-! ## What one call of `_download_file` touches -/

section Frame

variable (s : Machine H) (it : Item) (rest : List Item) (st : Stage) (r : Reply)

/-- **What one call of `_download_file` does to the world**: nothing, a write of the staging
target (`tmp_file`, or `local_file` without one), the `unlink` of `local_file`, the move of the
staging target onto `local_file`, the save of the watermark, or the removal of the source. -/
theorem transferStep_world :
    (rc.transferStep s it rest st r).world = s.world ∨
      ((∃ replace, st = .download replace) ∧ ∃ c,
        (rc.transferStep s it rest st r).world = s.world.setLocal (it.tmpFile.getD it.localFile) (some c)) ∨
      (st = .unlink ∧ r = .ok ∧
        (rc.transferStep s it rest st r).world = s.world.setLocal it.localFile none) ∨
      (st = .move ∧ r = .ok ∧ ∃ c, s.world.localAt (it.tmpFile.getD it.localFile) = some c ∧
        (rc.transferStep s it rest st r).world =
          (s.world.setLocal (it.tmpFile.getD it.localFile) none).setLocal it.localFile (some c)) ∨
      (st = .save ∧ r = .ok ∧ (rc.transferStep s it rest st r).world = s.world.setStore (rc.updatedHwm s it)) ∨
      (st = .removeSource ∧ r = .ok ∧
        (rc.transferStep s it rest st r).world = s.world.removeRemote it.source) := by
  cases st <;> cases r <;> simp only [transferStep] <;> (repeat' split) <;>
    (try obtain ⟨c, hc, rfl⟩ := (World.moveLocal_eq_some _ _ _).1 ‹_›) <;>
    first
    | (refine .inl ?_; simp; done)
    | simp_all

/-- A local file that is neither the item's `local_file` nor its `tmp_file` stays. -/
theorem transferStep_localAt_of_ne {q : PurePath} (hL : q.normalize ≠ it.localFile.normalize)
    (hT : ∀ t, it.tmpFile = some t → q.normalize ≠ t.normalize) :
    (rc.transferStep s it rest st r).world.localAt q = s.world.localAt q := by
  have hG : q.normalize ≠ (it.tmpFile.getD it.localFile).normalize := by
    cases h : it.tmpFile with
    | none => exact hL
    | some t => exact hT t h
  rcases rc.transferStep_world s it rest st r with h | ⟨-, c, h⟩ | ⟨-, -, h⟩ | ⟨-, -, c, -, h⟩ | ⟨-, -, h⟩ | ⟨-, -, h⟩ <;>
    simp [h, hL, hG]

/-- A remote file other than the item's source stays. -/
theorem transferStep_remoteAt_of_ne {q : PurePath} (hq : q.normalize ≠ it.source.normalize) :
    (rc.transferStep s it rest st r).world.remoteAt q = s.world.remoteAt q := by
  rcases rc.transferStep_world s it rest st r with h | ⟨-, c, h⟩ | ⟨-, -, h⟩ | ⟨-, -, c, -, h⟩ | ⟨-, -, h⟩ | ⟨-, -, h⟩ <;>
    simp [h, hq]

/-- The remote files only shrink. -/
theorem transferStep_remoteSub : (rc.transferStep s it rest st r).world.RemoteSub s.world := by
  intro q c hq
  rcases rc.transferStep_world s it rest st r with h | ⟨-, c, h⟩ | ⟨-, -, h⟩ | ⟨-, -, c, -, h⟩ | ⟨-, -, h⟩ | ⟨-, -, h⟩ <;>
    rw [h] at hq <;> simp_all

/-- The store changes only at a save that returns. -/
theorem transferStep_store :
    (rc.transferStep s it rest st r).world.store = s.world.store ∨
      (st = .save ∧ r = .ok ∧ (rc.transferStep s it rest st r).world.store = rc.updatedHwm s it) := by
  rcases rc.transferStep_world s it rest st r with h | ⟨-, c, h⟩ | ⟨-, -, h⟩ | ⟨-, -, c, -, h⟩ | ⟨rfl, rfl, h⟩ | ⟨-, -, h⟩ <;>
    simp [h]

end Frame

/-! ## Where one call of `_download_file` leads -/

theorem nextItem_phase (t u : Machine H) (items : List Item) :
    (rc.nextItem t items).phase = (rc.nextItem u items).phase := by
  cases items <;> rfl

/-- **After a call of `_download_file` the run is at a later stage of the same item, at the next
item (or past the loop), or raised.** -/
theorem transferStep_phase (s : Machine H) (it : Item) (rest : List Item) (st : Stage) (r : Reply) :
    (∃ st', (rc.transferStep s it rest st r).phase = .transfer it rest st') ∨
      (rc.transferStep s it rest st r).phase = (rc.nextItem s rest).phase ∨
      ∃ e, (rc.transferStep s it rest st r).phase = .raised e := by
  cases st <;> cases r <;>
    simp only [transferStep, failItem, succeedItem, afterSave, afterTransfer, checkLocal] <;>
    (repeat' split) <;>
    first
    | exact .inl ⟨_, rfl⟩
    | exact .inr (.inl (rc.nextItem_phase _ _ rest))
    | exact .inr (.inr ⟨_, rfl⟩)

theorem remaining_nextItem (t : Machine H) (items : List Item) :
    (rc.nextItem t items).phase.remaining = items := by
  cases items with
  | nil => by_cases h : rc.currentTempDir.isSome <;> simp [nextItem, finish, Phase.remaining, h]
  | cons => rfl

theorem nextItem_removeTemp {t : Machine H} {items : List Item} (h : (rc.nextItem t items).phase = .removeTemp) :
    rc.currentTempDir.isSome = true := by
  cases items with
  | nil => revert h; simp only [nextItem, finish]; split <;> simp_all
  | cons => cases h

/-! ## What the current item's stage counts on -/

/-- What the current item's stage counts on, `wb` being the world the loop started from: the
replace flag only in the modes that replace, the content of the source in `tmp_file` before
`unlink`, `mkdir` and the move, and at `local_file` before the save and the removal. -/
def Staged (wb : World H) (s : Machine H) : Prop :=
  match s.phase with
  | .transfer _ _ (.download replace) =>
    replace = true → rc.cfg.options.mode = .overwrite ∨ rc.cfg.options.mode = .deleteAll
  | .transfer it _ .unlink =>
    (rc.cfg.options.mode = .overwrite ∨ rc.cfg.options.mode = .deleteAll) ∧
      ∃ t c, it.tmpFile = some t ∧ wb.remoteAt it.source = some c ∧ s.world.localAt t = some c
  | .transfer it _ .mkdir | .transfer it _ .move =>
    ∃ t c, it.tmpFile = some t ∧ wb.remoteAt it.source = some c ∧
      (s.world.localAt t = some c ∨ s.world.localAt t = none)
  | .transfer it _ .save | .transfer it _ .removeSource =>
    ∃ c, wb.remoteAt it.source = some c ∧ s.world.localAt it.localFile = some c
  | _ => True

section Staged

variable {wb : World H} (t : Machine H) (it : Item) (rest : List Item)

theorem staged_nextItem (items : List Item) : rc.Staged wb (rc.nextItem t items) := by
  cases items with
  | nil => by_cases h : rc.currentTempDir.isSome <;> simp [Staged, nextItem, finish, h]
  | cons => trivial

theorem staged_afterTransfer
    (h : ∃ c, wb.remoteAt it.source = some c ∧ t.world.localAt it.localFile = some c) :
    rc.Staged wb (rc.afterTransfer t it rest) := by
  unfold afterTransfer afterSave succeedItem
  split
  · exact h
  · split
    · exact h
    · exact rc.staged_nextItem _ rest

theorem staged_checkLocal : rc.Staged wb (rc.checkLocal t it rest) := by
  unfold checkLocal
  split
  · split
    · exact rc.staged_nextItem _ rest
    · exact rc.staged_nextItem _ rest
    · rename_i hne hni
      intro _
      cases hm : rc.cfg.options.mode <;> simp_all
  · intro h; cases h

/-- **Every call of `_download_file` keeps what the stages count on.** -/
theorem staged_transferStep {s : Machine H} {st : Stage} (hsub : s.world.RemoteSub wb)
    (hs : rc.Staged wb s) (hp : s.phase = .transfer it rest st) (r : Reply) :
    rc.Staged wb (rc.transferStep s it rest st r) := by
  have hfail : ∀ (u : Machine H) e, rc.Staged wb (rc.failItem u it rest e) :=
    fun u _ => rc.staged_nextItem _ rest
  rw [Staged, hp] at hs
  cases st <;> cases r <;> simp only [transferStep] <;> try exact hfail _ _
  case pathExists.ok =>
    split
    · trivial
    · exact rc.staged_nextItem _ rest
  case pathExists.absent => exact rc.staged_nextItem _ rest
  case getFile.ok =>
    split
    · exact rc.staged_checkLocal _ it rest
    · trivial
  case download.ok replace =>
    split
    · exact hfail _ _
    · rename_i c hc
      split
      · rename_i t ht
        by_cases hrep : (replace && ((s.world.setLocal t (some c)).localAt it.localFile).isSome) = true
        · rw [if_pos hrep]
          exact And.intro (hs (Bool.and_eq_true_iff.1 hrep).1) ⟨t, c, ht, hsub _ _ hc, by simp⟩
        · rw [if_neg hrep]
          exact Exists.intro t ⟨c, ht, hsub _ _ hc, .inl (by simp)⟩
      · exact rc.staged_afterTransfer _ it rest ⟨c, hsub _ _ hc, by simp⟩
  case unlink.ok =>
    obtain ⟨-, t, c, ht, hc, htc⟩ := hs
    refine Exists.intro t ⟨c, ht, hc, ?_⟩
    simp only [World.localAt_setLocal]
    split
    · exact .inr rfl
    · exact .inl htc
  case mkdir.ok => exact hs
  case move.ok =>
    obtain ⟨t, c, ht, hc, htc⟩ := hs
    split
    · exact hfail _ _
    · rename_i w hw
      obtain ⟨c', hc', rfl⟩ := (World.moveLocal_eq_some _ _ _).1 hw
      simp only [ht, Option.getD_some] at hc'
      have hcc : c' = c := by rcases htc with h | h <;> simp_all
      exact rc.staged_afterTransfer _ it rest ⟨c, hc, by simp [hcc]⟩
  case save.ok =>
    unfold afterSave succeedItem
    split
    · exact hs
    · exact rc.staged_nextItem _ rest
  case removeSource.ok => exact rc.staged_nextItem _ rest
  all_goals trivial

end Staged

/-! ## Reported successful -/

theorem afterTransfer_successful (t : Machine H) (it : Item) (rest : List Item) :
    (rc.afterTransfer t it rest).result.successful = t.result.successful ∨
      ((rc.afterTransfer t it rest).result.successful = t.result.successful ++ [it.localFile] ∧
        (rc.afterTransfer t it rest).phase = (rc.nextItem t rest).phase) := by
  unfold afterTransfer afterSave
  split
  · exact .inl rfl
  · split
    · exact .inl rfl
    · exact .inr ⟨by simp, rc.nextItem_phase _ _ rest⟩

/-- **An item is reported successful only with the content of its source at its `local_file`**,
and the run then moves to the next item. -/
theorem transferStep_successful {wb : World H} {s : Machine H} {it : Item} {rest : List Item}
    {st : Stage} (hsub : s.world.RemoteSub wb) (hs : rc.Staged wb s)
    (hp : s.phase = .transfer it rest st) (r : Reply) :
    (rc.transferStep s it rest st r).result.successful = s.result.successful ∨
      ((rc.transferStep s it rest st r).result.successful = s.result.successful ++ [it.localFile] ∧
        (rc.transferStep s it rest st r).phase = (rc.nextItem s rest).phase ∧
        ∃ c, wb.remoteAt it.source = some c ∧
          (rc.transferStep s it rest st r).world.localAt it.localFile = some c) := by
  have hafter : ∀ t : Machine H, t.result = s.result → (∃ c, wb.remoteAt it.source = some c ∧
      t.world.localAt it.localFile = some c) →
      (rc.afterTransfer t it rest).result.successful = s.result.successful ∨
        ((rc.afterTransfer t it rest).result.successful = s.result.successful ++ [it.localFile] ∧
          (rc.afterTransfer t it rest).phase = (rc.nextItem s rest).phase ∧
          ∃ c, wb.remoteAt it.source = some c ∧
            (rc.afterTransfer t it rest).world.localAt it.localFile = some c) := by
    intro t ht hc
    rcases rc.afterTransfer_successful t it rest with h | ⟨h, hph⟩
    · exact .inl (ht ▸ h)
    · exact .inr ⟨ht ▸ h, hph.trans (rc.nextItem_phase _ _ rest), by simpa using hc⟩
  rw [Staged, hp] at hs
  cases st <;> cases r <;> simp only [transferStep] <;>
    try (left; (repeat' split) <;> simp; done)
  case download.ok =>
    split
    · exact .inl (by simp)
    · rename_i c hc
      split
      · exact .inl rfl
      · exact hafter _ rfl ⟨c, hsub _ _ hc, by simp⟩
  case move.ok =>
    obtain ⟨t, c, ht, hc, htc⟩ := hs
    split
    · exact .inl (by simp)
    · rename_i w hw
      obtain ⟨c', hc', rfl⟩ := (World.moveLocal_eq_some _ _ _).1 hw
      simp only [ht, Option.getD_some] at hc'
      have hcc : c' = c := by rcases htc with h | h <;> simp_all
      exact hafter _ rfl ⟨c, hc, by simp [hcc]⟩
  case save.ok =>
    obtain ⟨c, hc, hL⟩ := hs
    unfold afterSave
    split
    · exact .inl rfl
    · exact .inr ⟨by simp, rc.nextItem_phase _ _ rest, c, hc, by simpa using hL⟩
  case removeSource.ok =>
    obtain ⟨c, hc, hL⟩ := hs
    exact .inr ⟨by simp, rc.nextItem_phase _ _ rest, c, hc, by simpa using hL⟩

/-! ## The states of the loop -/

/-- A state of the loop of `_download_files` over `items`, started from the world `wb`. -/
structure LoopState (wb : World H) (items : List Item) (s : Machine H) : Prop where
  suffix : s.phase.remaining <:+ items
  remote : s.world.RemoteSub wb
  staged : rc.Staged wb s
  inLoop : s.phase.inLoop = true
  removeTemp : s.phase = .removeTemp → rc.currentTempDir.isSome = true

variable {wb : World H} {items : List Item}

variable {rc} in
/-- The current item is one of the items. -/
theorem LoopState.mem {s : Machine H} (hl : rc.LoopState wb items s) {it : Item} {rest : List Item}
    {st : Stage} (hp : s.phase = .transfer it rest st) : it ∈ items := by
  have := hl.suffix
  rw [hp] at this
  exact this.subset (List.mem_cons_self _ _)

theorem loopState_nextItem (t : Machine H) (hr : t.world.RemoteSub wb) :
    rc.LoopState wb items (rc.nextItem t items) :=
  ⟨(rc.remaining_nextItem t items).symm ▸ List.suffix_refl items, by rw [nextItem_world]; exact hr, rc.staged_nextItem t items,
    rc.nextItem_inLoop t items, rc.nextItem_removeTemp⟩

theorem loopState_start (wb : World H) (items : List Item) :
    rc.LoopState wb items (rc.loopStart wb items) :=
  rc.loopState_nextItem _ (World.RemoteSub.refl wb)

theorem loopState_step {s : Machine H} (h : rc.LoopState wb items s) (r : Reply) :
    rc.LoopState wb items (rc.step s r) := by
  have hin := rc.step_inLoop s r h.inLoop
  rcases hp : s.phase with _ | _ | _ | _ | _ | _ | ⟨it, rest, st⟩ | _ | _ | _
  all_goals have hi := h.inLoop; simp only [hp, Phase.inLoop, Bool.false_eq_true] at hi
  case transfer =>
    have hsuf : it :: rest <:+ items := by simpa [hp, Phase.remaining] using h.suffix
    simp only [step, hp] at hin ⊢
    refine ⟨?_, (rc.transferStep_remoteSub s it rest st r).trans h.remote,
      rc.staged_transferStep it rest h.remote h.staged hp r, hin, ?_⟩ <;>
      rcases rc.transferStep_phase s it rest st r with ⟨st', hq⟩ | hq | ⟨e, hq⟩ <;> rw [hq]
    · exact hsuf
    · rw [remaining_nextItem]; exact (List.suffix_cons it rest).trans hsuf
    · exact List.nil_suffix
    · intro h; cases h
    · exact rc.nextItem_removeTemp
    · intro h; cases h
  case removeTemp =>
    cases r <;> simp only [step, hp] <;> exact ⟨List.nil_suffix, h.remote, trivial, rfl, nofun⟩
  all_goals rw [rc.step_of_finished s r (by simp [hp, Phase.finished])]; exact h

/-- **Every state the loop reaches is a `LoopState`.** -/
theorem reaches_loopState {s : Machine H} (h : rc.Reaches (rc.loopStart wb items) s) :
    rc.LoopState wb items s := by
  induction h with
  | refl => exact rc.loopState_start wb items
  | tail _ hst ih => obtain ⟨r, rfl⟩ := hst; exact rc.loopState_step ih r

/-- **Every state of a run is before the loop, cut short by a partial cleanup, or a `LoopState` of
the loop over the items `_validate_files` returned, started after the cleanup.** -/
theorem reaches_front_or_loopState {files : Option FileCollection} {w₀ : World H} {s : Machine H}
    (h : rc.Reaches (rc.start files w₀) s) :
    rc.Front files w₀ s ∨ rc.CutShort files w₀ s ∨ ∃ items, rc.runItems files w₀ = .ok items ∧
      rc.Reaches (rc.loopStart (rc.base w₀) items) s ∧ rc.LoopState (rc.base w₀) items s :=
  (rc.reaches_front_or_loop h).imp_right <| Or.imp_right fun ⟨items, _, hv, hr⟩ =>
    ⟨items, hv, hr, rc.reaches_loopState hr⟩

end RunContext

end Onetl.Downloader
