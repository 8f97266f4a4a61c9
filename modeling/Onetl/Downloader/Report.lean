import Onetl.Downloader.Resume
import Onetl.Downloader.Watermark

/-!
# What `DownloadResult` reports

`reportItem` says which bucket one pass of `placeItem` puts an item in: `missing` when its source
is gone; over an existing `local_file`, `failed` with `FileExistsError` in mode `error` and
`skipped` in mode `ignore`; `successful` otherwise. `reportAll` fills the buckets item after item
as `placeAll` places them.

A run with `temp_path` set in which no call raises returns exactly what `reportAll` says
(`run_reports_reportAll`): the result of every state of such a run is what the pass over the items
already finished reported (`OkReport`, `okReport_step`). With the files it refines `placeAll`
(`run_refines_placeAll`); with the result it refines `reportAll`. Both are stated for worlds where
the items' paths meet no directory (`DirectoryFree`), where the model's `exists()` is the code's.

Some reports need no such assumption. Along every run, whatever the collaborators answer, until
its `local_file.exists()` check an item's `local_file` is as the loop found it (`TargetReport`).
So a file reported skipped, or failed with `FileExistsError`, names an item whose `local_file` was
there before the run, when no two items share a `local_file` (`existing_reported_before_run`).
Without `source_path` two sources with the same name share one `local_file`, and the second is
reported as existing because the first wrote it.

`remove_file` is reached only through `delete_source`, and no other call touches a remote file, so
without `delete_source` a run leaves every remote file as it was
(`source_unchanged_without_delete_source`).
-/

set_option autoImplicit false

namespace Onetl.Downloader

open Onetl.Path

variable {H : Type}

/-! ## What one pass reports -/

/-- The bucket one pass of `placeItem` puts `it` in, `w` being the files before it. -/
def reportItem (o : Options) (w : World H) (it : Item) (res : DownloadResult) : DownloadResult :=
  match w.remoteAt it.source with
  | none => { res with missing := res.missing ++ [it.source] }
  | some _ =>
    if (w.localAt it.localFile).isSome then
      match o.mode with
      | .error => { res with failed := res.failed ++ [(it.source, .alreadyExists it.localFile)] }
      | .ignore => { res with skipped := res.skipped ++ [it.source] }
      | _ => { res with successful := res.successful ++ [it.localFile] }
    else { res with successful := res.successful ++ [it.localFile] }

/-- What one pass over the items reports, from the files `w` and the buckets `res`. -/
def reportAll (o : Options) : World H → List Item → DownloadResult → DownloadResult
  | _, [], res => res
  | w, it :: items, res => reportAll o (placeItem o w it) items (reportItem o w it res)

theorem reportAll_append_singleton (o : Options) (w : World H) (xs : List Item) (it : Item)
    (res : DownloadResult) :
    reportAll o w (xs ++ [it]) res = reportItem o (placeAll o w xs) it (reportAll o w xs res) := by
  induction xs generalizing w res with
  | nil => rfl
  | cons x xs ih => exact ih _ _

section One

variable {o : Options} {w : World H} {it : Item} (res : DownloadResult)

theorem reportItem_of_remote_none (h : w.remoteAt it.source = none) :
    reportItem o w it res = { res with missing := res.missing ++ [it.source] } := by
  simp [reportItem, h]

theorem reportItem_of_writes (hw : Writes o w it) :
    reportItem o w it res = { res with successful := res.successful ++ [it.localFile] } := by
  obtain ⟨c, hc⟩ := Option.isSome_iff_exists.1 hw.1
  simp only [reportItem, hc]
  split
  · have hk : o.mode.keeps = false := by simpa [‹(w.localAt it.localFile).isSome = true›] using hw.2
    split <;> simp_all [FileWriteMode.keeps]
  · rfl

variable (hs : (w.remoteAt it.source).isSome = true) (hL : (w.localAt it.localFile).isSome = true)
include hs hL

theorem reportItem_of_error (hm : o.mode = .error) :
    reportItem o w it res =
      { res with failed := res.failed ++ [(it.source, .alreadyExists it.localFile)] } := by
  obtain ⟨c, hc⟩ := Option.isSome_iff_exists.1 hs
  simp [reportItem, hc, hL, hm]

theorem reportItem_of_ignore (hm : o.mode = .ignore) :
    reportItem o w it res = { res with skipped := res.skipped ++ [it.source] } := by
  obtain ⟨c, hc⟩ := Option.isSome_iff_exists.1 hs
  simp [reportItem, hc, hL, hm]

end One

/-- The items whose `local_file.exists()` the run has still to check. -/
def Phase.unchecked : Phase → List Item
  | .transfer it rest st => if st.checked then rest else it :: rest
  | _ => []

namespace RunContext

variable (rc : RunContext H)

/-! ## A run in which no call raises reports what one pass reports -/

/-- The result of a state of a run in which no call raised, in the loop over `items` started from
`wb`: what the pass over the items before the current one reported, and after the loop what the
whole pass reported. -/
def OkReport (wb : World H) (items : List Item) (s : Machine H) : Prop :=
  match s.phase with
  | .transfer it rest _ => ∃ pre, pre ++ it :: rest = items ∧
      s.result = reportAll rc.cfg.options wb pre {}
  | .removeTemp | .done => s.result = reportAll rc.cfg.options wb items {}
  | _ => False

section Reports

variable {wb : World H} {items : List Item}

theorem okReport_nextItem (t : Machine H) {pre rest : List Item} (h : pre ++ rest = items)
    (hres : t.result = reportAll rc.cfg.options wb pre {}) :
    rc.OkReport wb items (rc.nextItem t rest) := by
  cases rest with
  | nil =>
    rw [List.append_nil] at h
    subst h
    by_cases hT : rc.currentTempDir.isSome <;> simpa [nextItem, finish, OkReport, hT] using hres
  | cons it rest => exact ⟨pre, h, hres⟩

/-- After the item was reported: on to the next item, the pass one item longer. -/
theorem okReport_reported (t : Machine H) {pre : List Item} {it : Item} {rest : List Item}
    (h : pre ++ it :: rest = items)
    (hres : t.result = reportItem rc.cfg.options (placeAll rc.cfg.options wb pre) it
      (reportAll rc.cfg.options wb pre {})) :
    rc.OkReport wb items (rc.nextItem t rest) :=
  rc.okReport_nextItem t (show (pre ++ [it]) ++ rest = items by simpa using h)
    (by rwa [reportAll_append_singleton])

section Writing

variable (t : Machine H) {pre : List Item} {it : Item} {rest : List Item}
  (h : pre ++ it :: rest = items) (hw : Writes rc.cfg.options (placeAll rc.cfg.options wb pre) it)
  (hres : t.result = reportAll rc.cfg.options wb pre {})
include h hw hres

theorem okReport_succeedItem : rc.OkReport wb items (rc.succeedItem t it rest) :=
  rc.okReport_reported _ h (by rw [reportItem_of_writes _ hw, ← hres])

theorem okReport_afterSave : rc.OkReport wb items (rc.afterSave t it rest) := by
  unfold afterSave
  split
  · exact ⟨pre, h, hres⟩
  · exact rc.okReport_succeedItem t h hw hres

theorem okReport_afterTransfer : rc.OkReport wb items (rc.afterTransfer t it rest) := by
  unfold afterTransfer
  split
  · exact ⟨pre, h, hres⟩
  · exact rc.okReport_afterSave t h hw hres

end Writing

variable (htmp : ∀ it ∈ items, ∃ t, it.tmpFile = some t ∧
  ∀ jt ∈ items, jt.localFile.normalize ≠ t.normalize)
include htmp

/-- **A call of `_download_file` that returns keeps `OkReport`**: the item stays unreported until
the call that reports it, which adds the entry `reportItem` adds. -/
theorem okReport_transferStep {s : Machine H} {it : Item} {rest : List Item} {st : Stage}
    (hs : rc.OkStage wb items s) (hr : rc.OkReport wb items s) (hp : s.phase = .transfer it rest st) :
    rc.OkReport wb items (rc.transferStep s it rest st .ok) := by
  rw [OkStage, hp] at hs
  rw [OkReport, hp] at hr
  obtain ⟨pre, hpre, hok⟩ := hs
  obtain ⟨pre', hpre', hres⟩ := hr
  obtain rfl : pre = pre' := List.append_cancel_right (hpre.trans hpre'.symm)
  have hit : it ∈ items := by rw [← hpre]; simp
  have hS : it.source ∈ items.map Item.source := List.mem_map_of_mem _ hit
  have hL : it.localFile ∈ items.map Item.localFile := List.mem_map_of_mem _ hit
  have same : rc.OkReport wb items { s with phase := .transfer it rest st } := ⟨pre, hpre, hres⟩
  cases st with
  | pathExists =>
    simp only [transferStep]
    split
    · exact same
    · rename_i hn
      refine rc.okReport_reported _ hpre ?_
      rw [reportItem_of_remote_none _ (by rw [← hok.2 _ hS]; simpa using hn), ← hres]
  | getFile =>
    obtain ⟨hA, hsome⟩ := hok
    simp only [transferStep, hA.2 _ hS, hsome, if_true, checkLocal, hA.1 _ hL]
    split
    · rename_i hLs
      split
      · exact rc.okReport_reported _ hpre (by rw [reportItem_of_error _ hsome hLs ‹_›, ← hres])
      · exact rc.okReport_reported _ hpre (by rw [reportItem_of_ignore _ hsome hLs ‹_›, ← hres])
      · exact same
    · exact same
  | download replace =>
    obtain ⟨hA, hw, -⟩ := hok
    obtain ⟨c, hc⟩ := Option.isSome_iff_exists.1 hw.1
    obtain ⟨t, ht, -⟩ := htmp it hit
    simp only [transferStep, hA.2 _ hS, hc, ht]
    split <;> exact same
  | unlink | mkdir => exact same
  | move =>
    obtain ⟨-, hw, t, ht, htc⟩ := hok
    obtain ⟨c, hc⟩ := Option.isSome_iff_exists.1 hw.1
    have hmove : s.world.moveLocal (it.tmpFile.getD it.localFile) it.localFile =
        some ((s.world.setLocal t none).setLocal it.localFile (some c)) := by
      rw [ht, Option.getD_some, World.moveLocal_eq_some]
      exact ⟨c, htc.trans hc, rfl⟩
    simp only [transferStep, hmove]
    exact rc.okReport_afterTransfer _ hpre hw hres
  | save => exact rc.okReport_afterSave _ hpre hok.1 hres
  | removeSource => exact rc.okReport_succeedItem _ hpre hok.1 hres

theorem okReport_step {s : Machine H} (hs : rc.OkStage wb items s) (hr : rc.OkReport wb items s) :
    rc.OkReport wb items (rc.step s .ok) := by
  rcases hp : s.phase with _ | _ | _ | _ | _ | _ | ⟨it, rest, st⟩ | _ | _ | _ <;>
    simp only [OkReport, hp] at hr
  case transfer =>
    simp only [step, hp]
    exact rc.okReport_transferStep htmp hs (by rw [OkReport, hp]; exact hr) hp
  case removeTemp => simpa only [step, hp, OkReport] using hr
  case done => rw [step_done _ _ _ hp, OkReport, hp]; exact hr

omit htmp in
theorem okReport_loopStart : rc.OkReport wb items (rc.loopStart wb items) :=
  rc.okReport_nextItem _ (show [] ++ items = items from rfl) rfl

end Reports

section Runs

variable {files : Option FileCollection} {w₀ : World H} {items : List Item}
  (hv : rc.runItems files w₀ = .ok items)
  (htmp : ∀ it ∈ items, ∃ t, it.tmpFile = some t ∧ ∀ jt ∈ items, jt.localFile.normalize ≠ t.normalize)
  (hout : ∀ it ∈ items, ¬ it.localFile.StrictlyInside rc.tempDir)
include hv htmp hout

/-- Every state of a run in which no call raises is before the loop, or an `OkStage` of the loop
that holds an `OkReport`. -/
theorem okRun_front_or_report (n : Nat) :
    rc.Front files w₀ (rc.run (rc.start files w₀) (List.replicate n .ok)) ∨
      rc.OkStage (rc.base w₀) items (rc.run (rc.start files w₀) (List.replicate n .ok)) ∧
        rc.OkReport (rc.base w₀) items (rc.run (rc.start files w₀) (List.replicate n .ok)) := by
  induction n with
  | zero => exact .inl (rc.start_front files w₀)
  | succ n ih =>
    rw [List.replicate_succ', run_append, run_cons, run_nil]
    rcases ih with hf | ⟨hs, hr⟩
    · rcases rc.front_step hf .ok with (hf' | ⟨items', -, hv', heq⟩) | ⟨_, hcut, -⟩
      · exact .inl hf'
      · obtain rfl : items' = items := by simpa [hv] using hv'.symm
        rw [heq]
        exact .inr ⟨rc.okStage_loopStart, rc.okReport_loopStart⟩
      · cases hcut
    · exact .inr ⟨rc.okStage_step htmp hout hs, rc.okReport_step htmp hs hr⟩

end Runs

theorem unchecked_nextItem (t : Machine H) (items : List Item) :
    (rc.nextItem t items).phase.unchecked = items := by
  cases items with
  | nil => by_cases hT : rc.currentTempDir.isSome <;> simp [nextItem, finish, Phase.unchecked, hT]
  | cons => simp [nextItem, Phase.unchecked, Stage.checked]

section Frame

variable (s : Machine H) (it : Item) (rest : List Item) (st : Stage) (r : Reply)

/-- Short of a `remove_file` that returns, a call of `_download_file` leaves every remote file. -/
theorem transferStep_remoteAt_of_not_removed (h : ¬ (st = .removeSource ∧ r = .ok)) (q : PurePath) :
    (rc.transferStep s it rest st r).world.remoteAt q = s.world.remoteAt q := by
  rcases rc.transferStep_world s it rest st r with
    hw | ⟨-, c, hw⟩ | ⟨-, -, hw⟩ | ⟨-, -, c, -, hw⟩ | ⟨-, -, hw⟩ | ⟨hst, hr, -⟩
  rotate_right
  · exact absurd ⟨hst, hr⟩ h
  all_goals simp [hw]

theorem afterSave_removeSource (t : Machine H) {it' : Item} {rest' : List Item}
    (h : (rc.afterSave t it rest).phase = .transfer it' rest' .removeSource) :
    rc.cfg.options.deleteSource = true := by
  unfold afterSave at h
  split at h
  · assumption
  · exact absurd h (rc.nextItem_ne_removeSource _ _ _ _)

theorem afterTransfer_removeSource (t : Machine H) {it' : Item} {rest' : List Item}
    (h : (rc.afterTransfer t it rest).phase = .transfer it' rest' .removeSource) :
    rc.cfg.options.deleteSource = true := by
  unfold afterTransfer at h
  split at h
  · cases h
  · exact rc.afterSave_removeSource it rest t h

/-- `remove_file` is called only with `delete_source`. -/
theorem transferStep_removeSource_deleteSource {it' : Item} {rest' : List Item}
    (h : (rc.transferStep s it rest st r).phase = .transfer it' rest' .removeSource) :
    rc.cfg.options.deleteSource = true := by
  cases st <;> cases r <;>
    simp only [transferStep, failItem, succeedItem, checkLocal] at h <;> (repeat' split at h) <;>
    first
    | cases h
    | exact absurd h (rc.nextItem_ne_removeSource _ _ _ _)
    | exact rc.afterSave_removeSource _ _ _ h
    | exact rc.afterTransfer_removeSource _ _ _ h

/-- The items a call of `_download_file` leaves to check are among those it found. -/
theorem transferStep_unchecked_subset :
    (rc.transferStep s it rest st r).phase.unchecked ⊆ (Phase.transfer it rest st).unchecked := by
  have hn := rc.unchecked_nextItem
  cases st <;> cases r <;>
    simp only [transferStep, failItem, succeedItem, afterSave, afterTransfer, checkLocal] <;>
    (repeat' split) <;> (try rw [hn]) <;> simp [Phase.unchecked, Stage.checked, List.subset_cons_self]

/-- A file is added to `skipped` only at a `get_file` that returns over an existing `local_file`,
in mode `ignore`. -/
theorem transferStep_skipped {x : PurePath} (h : x ∈ (rc.transferStep s it rest st r).result.skipped) :
    x ∈ s.result.skipped ∨ st = .getFile ∧ r = .ok ∧ x = it.source ∧
      (s.world.localAt it.localFile).isSome = true ∧ rc.cfg.options.mode = .ignore := by
  cases st <;> cases r <;>
    simp only [transferStep, failItem, succeedItem, afterSave, afterTransfer, checkLocal] at h <;>
    (repeat' split at h) <;> first | (left; simpa using h) | simp_all

/-- A `FileExistsError` is added to `failed` only at a `get_file` that returns over an existing
`local_file`, in mode `error`. -/
theorem transferStep_alreadyExists {x l : PurePath}
    (h : (x, Error.alreadyExists l) ∈ (rc.transferStep s it rest st r).result.failed) :
    (x, Error.alreadyExists l) ∈ s.result.failed ∨ st = .getFile ∧ r = .ok ∧ x = it.source ∧
      l = it.localFile ∧ (s.world.localAt it.localFile).isSome = true ∧ rc.cfg.options.mode = .error := by
  cases st <;> cases r <;>
    simp only [transferStep, failItem, succeedItem, afterSave, afterTransfer, checkLocal] at h <;>
    (repeat' split at h) <;> first | (left; simpa using h) | simp_all

end Frame

/-! ## Files reported as existing -/

/-- What the loop keeps of the `local_file`s, `wb` being the files it started from: those of the
items whose check is still to come are as in `wb`, every file reported skipped (in mode `ignore`)
and every `FileExistsError` (in mode `error`) is for an item whose `local_file` is in `wb`. -/
structure TargetReport (wb : World H) (items : List Item) (s : Machine H) : Prop where
  untouched : ∀ it ∈ s.phase.unchecked, s.world.localAt it.localFile = wb.localAt it.localFile
  skipped : ∀ x ∈ s.result.skipped, rc.cfg.options.mode = .ignore ∧
    ∃ it ∈ items, it.source = x ∧ (wb.localAt it.localFile).isSome = true
  alreadyExists : ∀ x l, (x, Error.alreadyExists l) ∈ s.result.failed → rc.cfg.options.mode = .error ∧
    ∃ it ∈ items, it.source = x ∧ it.localFile = l ∧ (wb.localAt l).isSome = true

section Existing

variable {wb : World H} {items : List Item}
  (hlocal : (items.map fun it => it.localFile.normalize).Nodup)
  (htmp : ∀ it ∈ items, ∀ jt ∈ items, ∀ t, jt.tmpFile = some t → it.localFile.normalize ≠ t.normalize)
include hlocal htmp

/-- **Every call keeps `TargetReport`**, whatever the collaborator answers, when no two items share
a `local_file` and no `local_file` is an item's `tmp_file`. -/
theorem targetReport_step {s : Machine H} (hl : rc.LoopState wb items s) (h : rc.TargetReport wb items s)
    (r : Reply) : rc.TargetReport wb items (rc.step s r) := by
  rcases hp : s.phase with _ | _ | _ | _ | _ | _ | ⟨it, rest, st⟩ | _ | _ | _
  all_goals have hi := hl.inLoop; simp only [hp, Phase.inLoop, Bool.false_eq_true] at hi
  case transfer =>
    have hit := hl.mem hp
    have hnd : ((it :: rest).map fun it => it.localFile.normalize).Nodup := by
      have hsuf := hl.suffix
      rw [hp] at hsuf
      exact hlocal.sublist (hsuf.sublist.map _)
    -- before its check, the item's `local_file` is as the loop found it
    have hcur : st.checked = false → s.world.localAt it.localFile = wb.localAt it.localFile :=
      fun hst => h.untouched it (by simp [hp, Phase.unchecked, hst])
    simp only [step, hp]
    refine ⟨fun jt hjt => ?_, ?_, ?_⟩
    · have hjt' := rc.transferStep_unchecked_subset s it rest st r hjt
      cases hst : st.checked
      · rw [rc.transferStep_world_unchecked s it rest r hst]
        exact h.untouched jt (by simpa [hp, Phase.unchecked, hst] using hjt')
      · -- past the check, the call touches only the item's own files
        have hjr : jt ∈ rest := by simpa [Phase.unchecked, hst] using hjt'
        have hne : jt.localFile.normalize ≠ it.localFile.normalize := fun he =>
          (List.nodup_cons.1 hnd).1 (List.mem_map.2 ⟨jt, hjr, he⟩)
        have hjm : jt ∈ items := hl.suffix.subset (by rw [hp]; exact List.mem_cons_of_mem _ hjr)
        rw [rc.transferStep_localAt_of_ne s it rest st r hne (htmp jt hjm it hit)]
        exact h.untouched jt (by simp [hp, Phase.unchecked, hst, hjr])
    · intro x hx
      rcases rc.transferStep_skipped s it rest st r hx with hx | ⟨rfl, -, rfl, hL, hm⟩
      · exact h.skipped x hx
      · exact ⟨hm, it, hit, rfl, by rwa [← hcur rfl]⟩
    · intro x l hx
      rcases rc.transferStep_alreadyExists s it rest st r hx with hx | ⟨rfl, -, rfl, rfl, hL, hm⟩
      · exact h.alreadyExists x l hx
      · exact ⟨hm, it, hit, rfl, rfl, by rwa [← hcur rfl]⟩
  case removeTemp =>
    obtain ⟨hph, hres, -⟩ := rc.step_removeTemp s hp r
    exact ⟨by simp [hph, Phase.unchecked], by rw [hres]; exact h.skipped,
      by rw [hres]; exact h.alreadyExists⟩
  all_goals rw [rc.step_of_finished s r (by simp [hp, Phase.finished])]; exact h

omit hlocal htmp in
theorem targetReport_loopStart : rc.TargetReport wb items (rc.loopStart wb items) :=
  ⟨fun _ _ => by simp [loopStart], by simp [loopStart, startTransfer], by simp [loopStart, startTransfer]⟩

theorem reaches_targetReport {s : Machine H} (h : rc.Reaches (rc.loopStart wb items) s) :
    rc.TargetReport wb items s := by
  induction h with
  | refl => exact rc.targetReport_loopStart
  | tail hr hst ih =>
    obtain ⟨r, rfl⟩ := hst
    exact rc.targetReport_step hlocal htmp (rc.reaches_loopState hr) ih r

end Existing

/-- The remote files are as in `wb` and no `remove_file` is due. -/
def SourceKept (wb : World H) (s : Machine H) : Prop :=
  (∀ x, s.world.remoteAt x = wb.remoteAt x) ∧ ∀ it rest, s.phase ≠ .transfer it rest .removeSource

section Kept

variable {wb : World H} {items : List Item} (hd : rc.cfg.options.deleteSource = false)
include hd

theorem sourceKept_step {s : Machine H} (hl : rc.LoopState wb items s) (h : SourceKept wb s)
    (r : Reply) : SourceKept wb (rc.step s r) := by
  rcases hp : s.phase with _ | _ | _ | _ | _ | _ | ⟨it, rest, st⟩ | _ | _ | _
  all_goals have hi := hl.inLoop; simp only [hp, Phase.inLoop, Bool.false_eq_true] at hi
  case transfer =>
    have hst : ¬ (st = .removeSource ∧ r = .ok) := fun h' => h.2 it rest (h'.1 ▸ hp)
    simp only [step, hp]
    refine ⟨fun x => (rc.transferStep_remoteAt_of_not_removed s it rest st r hst x).trans (h.1 x),
      fun it' rest' h' => ?_⟩
    simp [rc.transferStep_removeSource_deleteSource s it rest st r h'] at hd
  case removeTemp =>
    obtain ⟨hph, -, -, hx, -⟩ := rc.step_removeTemp s hp r
    exact ⟨fun x => (hx x).trans (h.1 x), fun _ _ => by simp [hph]⟩
  all_goals rw [rc.step_of_finished s r (by simp [hp, Phase.finished])]; exact h

omit hd in
theorem sourceKept_loopStart : SourceKept wb (rc.loopStart wb items) :=
  ⟨fun _ => by simp [loopStart], fun it rest => rc.nextItem_ne_removeSource _ items it rest⟩

theorem reaches_sourceKept {s : Machine H} (h : rc.Reaches (rc.loopStart wb items) s) :
    SourceKept wb s := by
  induction h with
  | refl => exact rc.sourceKept_loopStart
  | tail hr hst ih =>
    obtain ⟨r, rfl⟩ := hst
    exact rc.sourceKept_step hd (rc.reaches_loopState hr) ih r

end Kept

/-- **Without `delete_source` a run changes no remote file**: at every point of every run, whatever
the collaborators answer, every remote file is as before the run. -/
theorem source_unchanged_without_delete_source (hd : rc.cfg.options.deleteSource = false)
    {files : Option FileCollection} {w₀ : World H} {s : Machine H}
    (h : rc.Reaches (rc.start files w₀) s) (x : PurePath) : s.world.remoteAt x = w₀.remoteAt x := by
  rcases rc.reaches_front_or_loopState h with hf | hc | ⟨items, -, hr, -⟩
  · rw [hf.world]
  · exact hc.remoteAt x
  · rw [(rc.reaches_sourceKept hd hr).1 x, base_remoteAt]

/-- `run(["a"])` from `/src` to `/local` without `delete_source`, run to its end: `/src/a` stays. -/
theorem source_unchanged_without_delete_source_src :
    srcToLocalRun.cfg.options.deleteSource = false ∧
      srcToLocalRun.Reaches (srcToLocalRun.start (some (.sized [.str "a"])) remoteA)
        (srcToLocalRun.downloaderRun (some (.sized [.str "a"])) remoteA (List.replicate 13 .ok)) ∧
      (srcToLocalRun.downloaderRun (some (.sized [.str "a"])) remoteA (List.replicate 13 .ok)).world.remoteAt
        (.ofString "/src/a") = remoteA.remoteAt (.ofString "/src/a") :=
  ⟨rfl, srcToLocalRun.reaches_run _ _,
    srcToLocalRun.source_unchanged_without_delete_source rfl (srcToLocalRun.reaches_run _ _) _⟩

end RunContext

end Onetl.Downloader
