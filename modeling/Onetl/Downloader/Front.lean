import Onetl.Downloader.Validate
import Onetl.Downloader.Progress

/-!
# The run before `_download_files`

Up to the `delete_all` cleanup `run` only reads: the checks, the walk of `view_files` and
`_validate_files` leave the world as it was. Every state a run reaches is such a state (`Front`),
the state where `shutil.rmtree` of the cleanup raised partway (`CutShort`: some files below
`local_path` are gone and the run has raised), or a state of the loop of `_download_files` over
the items `_validate_files` returned, started from the world after the cleanup
(`reaches_front_or_loop`).

Two consequences about the run as a whole. A collection that `_validate_files` rejects leaves
every file where it was, whatever the mode (`rejected_files_change_nothing`). And a one-shot
iterable is always true for `if not files`, so an empty iterator, unlike an empty list, lets a
`delete_all` run wipe `local_path` (`empty_iterator_wipes_local_path`).
-/

set_option autoImplicit false

namespace Onetl.Downloader

open Onetl.Path

/-- The phases of `_download_files` and after it. -/
def Phase.inLoop : Phase → Bool
  | .transfer _ _ _ | .removeTemp | .done | .raised _ => true
  | _ => false

theorem FileCollection.truthy_of_mem {c : FileCollection} {f : FileArg} (h : f ∈ c.items) :
    c.truthy = true := by
  cases c with
  | sized xs => simpa [FileCollection.truthy, List.isEmpty_iff] using List.ne_nil_of_mem h
  | oneShot xs => rfl

/-- `FileDownloader(local_path="/local", options={"mode": "delete_all"})`. -/
def deleteAllLocal : Config Unit where
  localPath := ⟨.slash, [⟨"local", by decide⟩]⟩
  sourcePath := none
  tempPath := none
  filter := none
  limit := none
  hwmType := none
  options := { mode := .deleteAll }
  localPath_absolute := rfl
  localPath_plain := by decide
  hwmType_source := by decide

/-- `deleteAllLocal` under the default strategy, with no temp directory and no walk. -/
def deleteAllRun : RunContext Unit := ⟨deleteAllLocal, ⟨false, false, false⟩, .root, []⟩

/-- A remote file `/src/a` and no local file. -/
def remoteA : World Unit :=
  ⟨fun _ => none, fun q => if q = .ofString "/src/a" then some [1] else none, none⟩

/-- A local file `/local/f` and no remote file. -/
def localF : World Unit :=
  ⟨fun q => if q = .ofString "/local/f" then some [1] else none, fun _ => none, none⟩

variable {H : Type}

namespace RunContext

variable (rc : RunContext H)

/-- The collection `run` validates: `files`, or `view_files()` when `files` is `None`. -/
def collection (files : Option FileCollection) (w : World H) : FileCollection :=
  files.getD (.sized ((rc.viewFiles w).map .path))

/-- What `_validate_files` returns for the run when no call raises. -/
def runItems (files : Option FileCollection) (w : World H) : Except Error (List Item) :=
  validItems rc.cfg rc.currentTempDir (rc.collection files w).items

/-- The world `_download_files` starts from: after the `delete_all` cleanup, if any. -/
def base (w : World H) : World H :=
  if rc.cfg.options.mode = .deleteAll then w.clearBelow rc.cfg.localPath else w

@[simp] theorem base_remoteAt (w : World H) (q : PurePath) : (rc.base w).remoteAt q = w.remoteAt q := by
  unfold base; split <;> simp

@[simp] theorem base_store (w : World H) : (rc.base w).store = w.store := by
  unfold base; split <;> simp

/-- The loop of `_download_files` over `items` from the world `w`, `file_hwm` just loaded. -/
def loopStart (w : World H) (items : List Item) : Machine H :=
  rc.startTransfer ⟨w, none, {}, .done⟩ items

/-- The phases before `_download_files`, with what they keep of the run's arguments. -/
def FrontPhase (files : Option FileCollection) (w₀ : World H) : Phase → Prop
  | .checkConnection f => f = files
  | .checkSource f => f = files
  | .listFiles => files = none
  | .probe it fs acc | .fetch it fs acc =>
    (rc.collection files w₀).truthy ∧
      rc.runItems files w₀ = validItemsAux rc.cfg rc.currentTempDir fs (addItem acc it)
  | .cleanup items =>
    (rc.collection files w₀).truthy ∧ rc.runItems files w₀ = .ok items ∧
      rc.cfg.options.mode = .deleteAll
  | .done => (rc.collection files w₀).truthy = false
  | .raised _ => True
  | .transfer _ _ _ | .removeTemp => False

/-- A state of the run before `_download_files`. -/
structure Front (files : Option FileCollection) (w₀ : World H) (s : Machine H) : Prop where
  world : s.world = w₀
  hwm : s.hwm = none
  result : s.result = {}
  phase : rc.FrontPhase files w₀ s.phase

/-- Where a run ends when `shutil.rmtree` of the `delete_all` cleanup raised partway: some of the
files below `local_path` are gone, nothing else changed, and the run raised. -/
structure CutShort (files : Option FileCollection) (w₀ : World H) (s : Machine H) : Prop where
  mode : rc.cfg.options.mode = .deleteAll
  items : ∃ items, rc.runItems files w₀ = .ok items
  world : ∃ gone, s.world = w₀.clearSome rc.cfg.localPath gone
  hwm : s.hwm = none
  result : s.result = {}
  phase : s.phase = .raised (.raised .rmtree)

variable {rc} in
theorem CutShort.remoteAt {files : Option FileCollection} {w₀ : World H} {s : Machine H}
    (h : rc.CutShort files w₀ s) (x : PurePath) : s.world.remoteAt x = w₀.remoteAt x := by
  obtain ⟨gone, hw⟩ := h.world
  rw [hw, World.remoteAt_clearSome]

variable {rc} in
theorem CutShort.store {files : Option FileCollection} {w₀ : World H} {s : Machine H}
    (h : rc.CutShort files w₀ s) : s.world.store = w₀.store := by
  obtain ⟨gone, hw⟩ := h.world
  rw [hw, World.store_clearSome]

variable {rc} in
/-- A local file of a cut-short run is as before the run, or gone from below `local_path`. -/
theorem CutShort.localAt {files : Option FileCollection} {w₀ : World H} {s : Machine H}
    (h : rc.CutShort files w₀ s) (p : PurePath) :
    s.world.localAt p = w₀.localAt p ∨
      (p.StrictlyInside rc.cfg.localPath ∧ s.world.localAt p = none) := by
  obtain ⟨gone, hw⟩ := h.world
  rw [hw, World.localAt_clearSome]
  split
  · exact .inr ⟨‹_ ∧ _›.1, rfl⟩
  · exact .inl rfl

/-- A state before the loop, or the start of the loop over the validated items. -/
def FrontOrLoop (files : Option FileCollection) (w₀ : World H) (s : Machine H) : Prop :=
  rc.Front files w₀ s ∨ ∃ items, (rc.collection files w₀).truthy ∧
    rc.runItems files w₀ = .ok items ∧ s = rc.loopStart (rc.base w₀) items

theorem runItems_nil_of_not_truthy {files : Option FileCollection} {w₀ : World H} {items : List Item}
    (hv : rc.runItems files w₀ = .ok items) (ht : (rc.collection files w₀).truthy = false) :
    items = [] := by
  unfold runItems validItems at hv
  generalize rc.collection files w₀ = c at hv ht
  cases c with
  | sized xs =>
    cases xs with
    | nil => simpa [FileCollection.items, validItemsAux] using hv.symm
    | cons => simp [FileCollection.truthy] at ht
  | oneShot xs => simp [FileCollection.truthy] at ht

theorem startTransfer_eq_loopStart (s : Machine H) (items : List Item) (h : s.result = {}) :
    rc.startTransfer s items = rc.loopStart s.world items := by
  cases items <;> simp [startTransfer, loopStart, nextItem, finish, h]

section Continuations

variable {files : Option FileCollection} {w₀ : World H} {s : Machine H}

theorem validateNext_frontOrLoop (h : rc.Front files w₀ s) (ht : (rc.collection files w₀).truthy)
    {fs : List FileArg} {acc : List Item}
    (hv : rc.runItems files w₀ = validItemsAux rc.cfg rc.currentTempDir fs acc) :
    rc.FrontOrLoop files w₀ (rc.validateNext s fs acc) := by
  cases fs with
  | nil =>
    simp only [validateNext, afterValidate]
    split
    · exact .inl ⟨h.world, h.hwm, h.result, ht, hv, ‹_›⟩
    · refine .inr ⟨acc, ht, hv, ?_⟩
      rw [startTransfer_eq_loopStart _ _ _ h.result, h.world, base, if_neg ‹_›]
  | cons f fs =>
    simp only [validItemsAux] at hv
    simp only [validateNext]
    split
    · exact .inl ⟨h.world, h.hwm, h.result, trivial⟩
    · rename_i it hr
      rw [hr] at hv
      exact .inl ⟨h.world, h.hwm, h.result, ht, hv⟩

theorem begin_frontOrLoop (h : rc.Front files w₀ s) :
    rc.FrontOrLoop files w₀ (rc.begin s (rc.collection files w₀)) := by
  unfold begin
  split
  · exact rc.validateNext_frontOrLoop h ‹_› rfl
  · exact .inl ⟨h.world, h.hwm, h.result, Bool.eq_false_iff.2 ‹_›⟩

theorem afterChecks_frontOrLoop (h : rc.Front files w₀ s) :
    rc.FrontOrLoop files w₀ (rc.afterChecks s files) := by
  cases files with
  | none => exact .inl ⟨h.world, h.hwm, h.result, rfl⟩
  | some c => exact rc.begin_frontOrLoop h

/-- **One call from a state before the loop**: it stays before the loop or starts the loop, or,
when `shutil.rmtree` of the cleanup deletes some files and raises, it cuts the run short. -/
theorem front_step (h : rc.Front files w₀ s) (r : Reply) :
    rc.FrontOrLoop files w₀ (rc.step s r) ∨
      ∃ gone, r = .cut gone ∧ rc.CutShort files w₀ (rc.step s r) := by
  obtain ⟨hw, hh, hr, hph⟩ := h
  have hf : rc.Front files w₀ s := ⟨hw, hh, hr, hph⟩
  have hraised : ∀ e, rc.FrontOrLoop files w₀ { s with phase := .raised e } :=
    fun _ => .inl ⟨hw, hh, hr, trivial⟩
  rcases hp : s.phase with f | f | _ | ⟨it, fs, acc⟩ | ⟨it, fs, acc⟩ | items | _ | _ | _ | e <;>
    simp only [hp, FrontPhase] at hph
  case cleanup =>
    cases r <;> simp only [step, hp]
    case ok =>
      refine .inl (.inr ⟨items, hph.1, hph.2.1, ?_⟩)
      refine (rc.startTransfer_eq_loopStart
        ⟨s.world.clearBelow rc.cfg.localPath, s.hwm, s.result, .cleanup items⟩ items hr).trans ?_
      rw [base, if_pos hph.2.2, ← hw]
    case cut gone =>
      exact .inr ⟨gone, rfl, hph.2.2, ⟨items, hph.2.1⟩, ⟨gone, by rw [hw]⟩, hh, hr, rfl⟩
    all_goals exact .inl (hraised _)
  case done => exact .inl (.inl (by rw [step_done _ _ _ hp]; exact hf))
  case raised => exact .inl (.inl (by rw [step_raised _ _ _ hp]; exact hf))
  all_goals refine .inl ?_
  case checkConnection =>
    subst hph
    cases r <;> simp only [step, hp]
    · split
      · exact .inl ⟨hw, hh, hr, rfl⟩
      · exact rc.afterChecks_frontOrLoop hf
    all_goals exact hraised _
  case checkSource =>
    subst hph
    cases r <;> simp only [step, hp]
    · exact rc.afterChecks_frontOrLoop hf
    all_goals exact hraised _
  case listFiles =>
    cases r <;> simp only [step, hp]
    · have hc : rc.collection files w₀ = .sized ((rc.viewFiles s.world).map .path) := by
        rw [collection, hph, hw, Option.getD_none]
      exact hc ▸ rc.begin_frontOrLoop hf
    all_goals exact hraised _
  case probe =>
    cases r <;> simp only [step, hp]
    case ok =>
      split
      · exact .inl ⟨hw, hh, hr, hph⟩
      · exact rc.validateNext_frontOrLoop hf hph.1 hph.2
    case absent => exact rc.validateNext_frontOrLoop hf hph.1 hph.2
    all_goals exact hraised _
  case fetch =>
    cases r <;> simp only [step, hp]
    · split
      · exact rc.validateNext_frontOrLoop hf hph.1 hph.2
      · exact hraised _
    all_goals exact hraised _

end Continuations

theorem start_front (files : Option FileCollection) (w₀ : World H) :
    rc.Front files w₀ (rc.start files w₀) := by
  refine ⟨rfl, rfl, rfl, ?_⟩
  simp only [start]
  split
  · trivial
  · split
    · trivial
    · split
      · trivial
      · rfl

/-- **Every state of a run is before the loop, cut short by a partial cleanup, or in the loop
over the validated items started after the cleanup.** -/
theorem reaches_front_or_loop {files : Option FileCollection} {w₀ : World H} {s : Machine H}
    (h : rc.Reaches (rc.start files w₀) s) :
    rc.Front files w₀ s ∨ rc.CutShort files w₀ s ∨ ∃ items, (rc.collection files w₀).truthy ∧
      rc.runItems files w₀ = .ok items ∧ rc.Reaches (rc.loopStart (rc.base w₀) items) s := by
  induction h with
  | refl => exact .inl (rc.start_front files w₀)
  | tail _ hst ih =>
    obtain ⟨r, rfl⟩ := hst
    rcases ih with hf | hc | ⟨items, ht, hv, hreach⟩
    · rcases rc.front_step hf r with (hf' | ⟨items, ht, hv, heq⟩) | ⟨-, -, hc⟩
      · exact .inl hf'
      · exact .inr (.inr ⟨items, ht, hv, heq ▸ .refl⟩)
      · exact .inr (.inl hc)
    · exact .inr (.inl (by rw [step_raised _ _ _ hc.phase]; exact hc))
    · exact .inr (.inr ⟨items, ht, hv, hreach.tail ⟨r, rfl⟩⟩)

/-- `run(["a"])` on `delete_all` over `/local/f`, its cleanup cut short after deleting `/local/f`:
the run has raised, the file is gone. -/
theorem reaches_front_or_loop_cut :
    deleteAllRun.Reaches (deleteAllRun.start (some (.sized [.str "/a"])) localF)
        (deleteAllRun.downloaderRun (some (.sized [.str "/a"])) localF
          [.ok, .ok, .cut [.ofString "/local/f"]]) ∧
      (deleteAllRun.Front (some (.sized [.str "/a"])) localF
          (deleteAllRun.downloaderRun (some (.sized [.str "/a"])) localF
            [.ok, .ok, .cut [.ofString "/local/f"]]) ∨
        deleteAllRun.CutShort (some (.sized [.str "/a"])) localF
          (deleteAllRun.downloaderRun (some (.sized [.str "/a"])) localF
            [.ok, .ok, .cut [.ofString "/local/f"]]) ∨
        ∃ items, (deleteAllRun.collection (some (.sized [.str "/a"])) localF).truthy ∧
          deleteAllRun.runItems (some (.sized [.str "/a"])) localF = .ok items ∧
          deleteAllRun.Reaches (deleteAllRun.loopStart (deleteAllRun.base localF) items)
            (deleteAllRun.downloaderRun (some (.sized [.str "/a"])) localF
              [.ok, .ok, .cut [.ofString "/local/f"]])) :=
  ⟨deleteAllRun.reaches_run _ _, deleteAllRun.reaches_front_or_loop (deleteAllRun.reaches_run _ _)⟩

example :
    (deleteAllRun.downloaderRun (some (.sized [.str "/a"])) localF
        [.ok, .ok, .cut [.ofString "/local/f"]]).phase = .raised (.raised .rmtree) ∧
      (deleteAllRun.downloaderRun (some (.sized [.str "/a"])) localF
        [.ok, .ok, .cut [.ofString "/local/f"]]).world.localAt (.ofString "/local/f") = none := by
  decide

/-! ## The loop stays in the loop -/

section Loop

variable (s : Machine H)

theorem finish_inLoop : (rc.finish s).phase.inLoop = true := by
  unfold finish; split <;> rfl

theorem nextItem_inLoop (items : List Item) : (rc.nextItem s items).phase.inLoop = true := by
  cases items with
  | nil => exact rc.finish_inLoop s
  | cons => rfl

theorem afterTransfer_inLoop (it : Item) (rest : List Item) :
    (rc.afterTransfer s it rest).phase.inLoop = true := by
  unfold afterTransfer afterSave succeedItem; split
  · rfl
  · split
    · rfl
    · exact rc.nextItem_inLoop _ rest

theorem transferStep_inLoop (it : Item) (rest : List Item) (st : Stage) (r : Reply) :
    (rc.transferStep s it rest st r).phase.inLoop = true := by
  cases st <;> cases r <;> simp only [transferStep, afterSave, succeedItem, failItem, checkLocal] <;>
    (repeat' split) <;> first | rfl | exact rc.nextItem_inLoop _ rest | exact rc.afterTransfer_inLoop _ it rest

theorem step_inLoop (r : Reply) (h : s.phase.inLoop = true) : (rc.step s r).phase.inLoop = true := by
  rcases hp : s.phase with _ | _ | _ | _ | _ | _ | ⟨it, rest, st⟩ | _ | _ | _ <;>
    simp only [hp, Phase.inLoop, Bool.false_eq_true] at h
  case transfer => simp only [step, hp]; exact rc.transferStep_inLoop s it rest st r
  case removeTemp => cases r <;> simp [step, hp, Phase.inLoop]
  all_goals rw [rc.step_of_finished s r (by simp [hp, Phase.finished])]; simp [hp, Phase.inLoop]

theorem reaches_inLoop {s t : Machine H} (h : rc.Reaches s t) (hs : s.phase.inLoop = true) :
    t.phase.inLoop = true := by
  induction h with
  | refl => exact hs
  | tail _ hst ih => obtain ⟨r, rfl⟩ := hst; exact rc.step_inLoop _ r ih

end Loop

theorem front_of_not_inLoop {files : Option FileCollection} {w₀ : World H} {s : Machine H}
    (h : rc.Reaches (rc.start files w₀) s) (hs : s.phase.inLoop = false) : rc.Front files w₀ s := by
  rcases rc.reaches_front_or_loop h with hf | hc | ⟨items, -, -, hl⟩
  · exact hf
  · simp [hc.phase, Phase.inLoop] at hs
  · have := rc.reaches_inLoop hl (rc.nextItem_inLoop _ items)
    simp_all

theorem front_of_runItems_error {files : Option FileCollection} {w₀ : World H} {s : Machine H}
    (h : rc.Reaches (rc.start files w₀) s) {e : Error} (he : rc.runItems files w₀ = .error e) :
    rc.Front files w₀ s := by
  rcases rc.reaches_front_or_loop h with hf | ⟨-, ⟨items, hv⟩, -⟩ | ⟨items, -, hv, -⟩
  · exact hf
  all_goals simp_all

/-! ## A rejected collection -/

/-- **A collection that `_validate_files` rejects changes nothing.** An element of the wrong
shape, wherever it stands, leaves the world as it was, local files, remote files and store,
and the run never returns: given enough replies it raises. A `get_file` that raises in
`_validate_files` ends the run the same way, with the world unchanged. -/
theorem rejected_files_change_nothing (c : FileCollection) (w₀ : World H) :
    ((∃ f ∈ c.items, ∃ e, resolveFile rc.cfg rc.currentTempDir f = .error e) →
      ∀ rs, (rc.downloaderRun (some c) w₀ rs).world = w₀ ∧
        (rc.downloaderRun (some c) w₀ rs).phase ≠ .done ∧
        (rc.budget (rc.start (some c) w₀) ≤ rs.length →
          ∃ e, (rc.downloaderRun (some c) w₀ rs).phase = .raised e)) ∧
    (∀ rs rs' it fs acc, (rc.downloaderRun (some c) w₀ rs).phase = .fetch it fs acc →
      rc.downloaderRun (some c) w₀ (rs ++ .raise :: rs') =
        ⟨w₀, none, {}, .raised (.raised .getFile)⟩) := by
  refine ⟨fun ⟨f, hf, e, he⟩ rs => ?_, fun rs rs' it fs acc hp => ?_⟩
  · obtain ⟨e', hv⟩ := validItemsAux_error_of_mem rc.cfg rc.currentTempDir he c.items [] hf
    have hfront : rc.Front (some c) w₀ (rc.downloaderRun (some c) w₀ rs) :=
      rc.front_of_runItems_error (rc.reaches_run _ rs) (show rc.runItems (some c) w₀ = .error e' from hv)
    have hdone : (rc.downloaderRun (some c) w₀ rs).phase ≠ .done := fun hd => by
      have := hfront.phase
      simp [hd, FrontPhase, collection, FileCollection.truthy_of_mem hf] at this
    refine ⟨hfront.world, hdone, fun hlen => ?_⟩
    have hfin : (rc.downloaderRun (some c) w₀ rs).phase.finished = true := rc.run_finished _ rs hlen
    revert hfin hdone
    cases (rc.downloaderRun (some c) w₀ rs).phase <;> simp [Phase.finished]
  · obtain ⟨hw, hh, hr, -⟩ : rc.Front (some c) w₀ (rc.downloaderRun (some c) w₀ rs) :=
      rc.front_of_not_inLoop (rc.reaches_run _ rs) (by simp [hp, Phase.inLoop])
    rw [downloaderRun, run_append, ← downloaderRun, run_cons,
      rc.run_of_finished _ _ (by simp [step, hp, Phase.finished])]
    simp only [step, hp]
    rw [hw, hh, hr]

/-- `run(["/etc/passwd", "a"])` and `run(["a"])` with `source_path="/src"`: the first collection
has an element outside `source_path`; in the second, `get_file` of `/src/a` raises. -/
theorem rejected_files_change_nothing_src :
    (∃ f ∈ (FileCollection.sized [.str "/etc/passwd", .str "a"]).items, ∃ e,
        resolveFile srcToLocal srcToLocalRun.currentTempDir f = .error e) ∧
      ((srcToLocalRun.downloaderRun (some (.sized [.str "/etc/passwd", .str "a"])) remoteA
          (List.replicate 23 .ok)).world = remoteA ∧
        (srcToLocalRun.downloaderRun (some (.sized [.str "/etc/passwd", .str "a"])) remoteA
          (List.replicate 23 .ok)).phase ≠ .done ∧
        (srcToLocalRun.budget (srcToLocalRun.start (some (.sized [.str "/etc/passwd", .str "a"])) remoteA) ≤
            (List.replicate 23 Reply.ok).length →
          ∃ e, (srcToLocalRun.downloaderRun (some (.sized [.str "/etc/passwd", .str "a"])) remoteA
            (List.replicate 23 .ok)).phase = .raised e)) ∧
      (srcToLocalRun.downloaderRun (some (.sized [.str "a"])) remoteA (List.replicate 3 .ok)).phase =
        .fetch ⟨.ofString "/src/a", .ofString "/local/a", none⟩ [] [] ∧
      srcToLocalRun.downloaderRun (some (.sized [.str "a"])) remoteA (List.replicate 3 .ok ++ [.raise]) =
        ⟨remoteA, none, {}, .raised (.raised .getFile)⟩ := by
  have hrej : ∃ f ∈ (FileCollection.sized [.str "/etc/passwd", .str "a"]).items, ∃ e,
      resolveFile srcToLocal srcToLocalRun.currentTempDir f = .error e :=
    ⟨.str "/etc/passwd", List.mem_cons_self _ _, _, rfl⟩
  have hfetch : (srcToLocalRun.downloaderRun (some (.sized [.str "a"])) remoteA (List.replicate 3 .ok)).phase =
      .fetch ⟨.ofString "/src/a", .ofString "/local/a", none⟩ [] [] := by decide
  exact ⟨hrej, (rejected_files_change_nothing srcToLocalRun _ remoteA).1 hrej _, hfetch,
    (rejected_files_change_nothing srcToLocalRun _ remoteA).2 _ [] _ _ _ hfetch⟩

/-- `run([])` and `run(iter([]))` on `delete_all` with a file `/local/f`: both return an empty
result, but only the iterator, which `if not files` takes for true, wipes `local_path`. -/
theorem empty_iterator_wipes_local_path :
    (deleteAllRun.downloaderRun (some (.sized [])) localF (List.replicate 2 .ok)).phase = .done ∧
      (deleteAllRun.downloaderRun (some (.oneShot [])) localF (List.replicate 2 .ok)).phase = .done ∧
      (deleteAllRun.downloaderRun (some (.sized [])) localF (List.replicate 2 .ok)).result = {} ∧
      (deleteAllRun.downloaderRun (some (.oneShot [])) localF (List.replicate 2 .ok)).result = {} ∧
      (deleteAllRun.downloaderRun (some (.sized [])) localF
        (List.replicate 2 .ok)).world.localAt (.ofString "/local/f") = some [1] ∧
      (deleteAllRun.downloaderRun (some (.oneShot [])) localF
        (List.replicate 2 .ok)).world.localAt (.ofString "/local/f") = none := by
  decide

end RunContext

end Onetl.Downloader
