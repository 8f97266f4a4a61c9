import Onetl.Downloader.Loop

/-!
# What a run leaves at `local_file`

Nothing in `_validate_files` keeps two items from sharing a `local_file`: in flat mode `/a/x` and
`/b/x` both go to `local_path/x`, and in `overwrite` mode the second replaces the file of the
first, which stays in `successful` (`successful_overwritten`). An item reported successful holds
its own source's content whenever nothing else of the run writes its `local_file`: no other
item's `local_file` and no `tmp_file` is the same file, and it is not inside the temp directory
`_remove_temp_dir` removes (`successful_holds_source`).

In mode `error` or `ignore` the existence check of `local_file` comes before any write, and a file
that is there is never replaced: a local file that was there before the run keeps its content at
every point of the run, whatever the collaborators do, unless it is a `tmp_file` or lies in the
temp directory (`existing_local_files_kept`).
-/

set_option autoImplicit false

namespace Onetl.Downloader

open Onetl.Path

variable {H : Type}

/-- Once `it` is reported successful it is finished, and its `local_file` holds its source. -/
def Holds (wb : World H) (it : Item) (s : Machine H) : Prop :=
  it.localFile ∈ s.result.successful →
    it ∉ s.phase.remaining ∧ ∃ c, wb.remoteAt it.source = some c ∧ s.world.localAt it.localFile = some c

namespace RunContext

variable (rc : RunContext H)

/-! ## A successful item keeps its content -/

section Successful

variable {wb : World H} {items : List Item} {it : Item}

variable (hnodup : items.Nodup)
  (hloc : ∀ jt ∈ items, jt ≠ it → jt.localFile.normalize ≠ it.localFile.normalize)
  (htmp : ∀ jt ∈ items, ∀ t, jt.tmpFile = some t → it.localFile.normalize ≠ t.normalize)
  (htemp : rc.currentTempDir.isSome = true → ¬ it.localFile.StrictlyInside rc.tempDir)
include hnodup hloc htmp htemp

theorem holds_step {s : Machine H} (hl : rc.LoopState wb items s) (h : Holds wb it s)
    (r : Reply) : Holds wb it (rc.step s r) := by
  rcases hp : s.phase with _ | _ | _ | _ | _ | _ | ⟨cur, rest, st⟩ | _ | _ | _
  all_goals have hi := hl.inLoop; simp only [hp, Phase.inLoop, Bool.false_eq_true] at hi
  case transfer =>
    have hsuf : cur :: rest <:+ items := by simpa [hp, Phase.remaining] using hl.suffix
    have hcur : cur ∈ items := hsuf.subset (List.mem_cons_self _ _)
    have hrest : cur ∉ rest := (List.nodup_cons.1 (hnodup.sublist hsuf.sublist)).1
    simp only [Holds, step, hp] at h ⊢
    intro hmem
    by_cases hold : it.localFile ∈ s.result.successful
    · obtain ⟨hnot, c, hc, hL⟩ := h hold
      have hne : cur ≠ it := fun e => hnot (e ▸ List.mem_cons_self _ _)
      refine ⟨?_, c, hc, ?_⟩
      · rcases rc.transferStep_phase s cur rest st r with ⟨st', hq⟩ | hq | ⟨e, hq⟩ <;> rw [hq]
        · exact hnot
        · rw [remaining_nextItem]; exact fun hr => hnot (List.mem_cons_of_mem _ hr)
        · exact List.not_mem_nil _
      · rw [rc.transferStep_localAt_of_ne s cur rest st r (hloc cur hcur hne).symm
          (fun t ht => htmp cur hcur t ht)]
        exact hL
    · rcases rc.transferStep_successful hl.remote hl.staged hp r with hs | ⟨hs, hph, c, hc, hL⟩
      · exact absurd (hs ▸ hmem) hold
      · have hit : it.localFile = cur.localFile := by simpa [hs, hold] using hmem
        obtain rfl : cur = it := by
          by_contra hne
          exact hloc cur hcur hne (by rw [hit])
        refine ⟨?_, c, hc, hL⟩
        rw [hph, remaining_nextItem]
        exact hrest
  case removeTemp =>
    obtain ⟨hph, hres, -, -, -, hkeep⟩ := rc.step_removeTemp s hp r
    intro hmem
    obtain ⟨-, c, hc, hL⟩ := h (hres ▸ hmem)
    exact ⟨by simp [hph, Phase.remaining], c, hc, by rw [hkeep _ (htemp (hl.removeTemp hp)), hL]⟩
  all_goals rw [rc.step_of_finished s r (by simp [hp, Phase.finished])]; exact h

theorem reaches_holds {s : Machine H} (h : rc.Reaches (rc.loopStart wb items) s) : Holds wb it s := by
  induction h with
  | refl => intro hmem; simp [loopStart, startTransfer] at hmem
  | tail hr hst ih =>
    obtain ⟨r, rfl⟩ := hst
    exact rc.holds_step hnodup hloc htmp htemp (rc.reaches_loopState hr) ih r

end Successful

/-- Remote files `/src/a` holding `[1]` and `/src/b` holding `[2]`, and no local file. -/
def remoteA1B2 : World Unit :=
  ⟨fun _ => none,
    fun q => if q = .ofString "/src/a" then some [1]
      else if q = .ofString "/src/b" then some [2] else none,
    none⟩

/-- The items `_validate_files` builds for `run(["a", "b"])` from `/src` to `/local`. -/
def itemsAB : List Item :=
  [⟨.ofString "/src/a", .ofString "/local/a", none⟩, ⟨.ofString "/src/b", .ofString "/local/b", none⟩]

/-- `FileDownloader(local_path="/local", options={"mode": "overwrite"})`: no `source_path`, so
files land flat in `local_path`. -/
def flatOverwrite : Config Unit where
  localPath := ⟨.slash, [⟨"local", by decide⟩]⟩
  sourcePath := none
  tempPath := none
  filter := none
  limit := none
  hwmType := none
  options := { mode := .overwrite }
  localPath_absolute := rfl
  localPath_plain := by decide
  hwmType_source := by decide

/-- Remote files `/a/x` and `/b/x` with different contents, and no local file. -/
def remoteAxBx : World Unit :=
  ⟨fun _ => none, fun q => if q = .ofString "/a/x" then some [1] else if q = .ofString "/b/x" then some [2]
    else none, none⟩

/-- Before the loop only the cleanup changes the world. -/
theorem step_world_of_front {files : Option FileCollection} {w₀ : World H} {s : Machine H}
    (h : rc.Front files w₀ s) (hc : ∀ items, s.phase ≠ .cleanup items) (r : Reply) :
    (rc.step s r).world = s.world := by
  have hph := h.phase
  rcases hp : s.phase with _ | _ | _ | _ | _ | items | _ | _ | _ | _ <;>
    simp only [hp, FrontPhase] at hph
  case cleanup => exact absurd hp (hc items)
  all_goals cases r <;> simp only [step, hp] <;> (try split) <;> simp

/-- What a `local_file` may hold in a run from `w₀`: what it held before the run or after the
cleanup, nothing, or the complete content of the source of an item of the run. -/
def Allowed (w₀ : World H) (items : List Item) (p : PurePath) (v : Option Bytes) : Prop :=
  v = w₀.localAt p ∨ v = (rc.base w₀).localAt p ∨ v = none ∨
    ∃ jt ∈ items, v = w₀.remoteAt jt.source ∧ (w₀.remoteAt jt.source).isSome

section Staging

variable {w₀ : World H} {items : List Item}
  (hsome : ∀ it ∈ items, ∃ t, it.tmpFile = some t)
  (htmp : ∀ it ∈ items, ∀ jt ∈ items, ∀ t, jt.tmpFile = some t → it.localFile.normalize ≠ t.normalize)
  (htemp : ∀ it ∈ items, ¬ it.localFile.StrictlyInside rc.tempDir)
include hsome htmp htemp

omit hsome htemp in
/-- A call for `cur` changes another item's `local_file` only if both are the same file. -/
theorem transferStep_localAt_other {s : Machine H} {cur it : Item} (hcur : cur ∈ items)
    (hit : it ∈ items) (rest : List Item) (st : Stage) (r : Reply)
    (hne : it.localFile.normalize ≠ cur.localFile.normalize) :
    (rc.transferStep s cur rest st r).world.localAt it.localFile = s.world.localAt it.localFile :=
  rc.transferStep_localAt_of_ne s cur rest st r hne fun t ht => htmp it hit cur hcur t ht

theorem allowed_step {s : Machine H} (hl : rc.LoopState (rc.base w₀) items s)
    (h : ∀ it ∈ items, rc.Allowed w₀ items it.localFile (s.world.localAt it.localFile)) (r : Reply) :
    ∀ it ∈ items, rc.Allowed w₀ items it.localFile ((rc.step s r).world.localAt it.localFile) := by
  intro it hit
  rcases hp : s.phase with _ | _ | _ | _ | _ | _ | ⟨cur, rest, st⟩ | _ | _ | _
  all_goals have hi := hl.inLoop; simp only [hp, Phase.inLoop, Bool.false_eq_true] at hi
  case transfer =>
    have hcur := hl.mem hp
    simp only [step, hp]
    by_cases hne : it.localFile.normalize = cur.localFile.normalize
    · obtain ⟨t, ht⟩ := hsome cur hcur
      have hst := hl.staged
      rw [Staged, hp] at hst
      rcases rc.transferStep_world s cur rest st r with
        hw | ⟨-, c, hw⟩ | ⟨-, -, hw⟩ | ⟨rfl, -, c, hc, hw⟩ | ⟨-, -, hw⟩ | ⟨-, -, hw⟩ <;> rw [hw]
      · exact h it hit
      · have := htmp it hit cur hcur t ht
        simp only [ht, Option.getD_some, World.localAt_setLocal, if_neg this]
        exact h it hit
      · simp [World.localAt_setLocal, hne, Allowed]
      · obtain ⟨t', c', ht', hc', htc⟩ := hst
        obtain rfl : t' = t := Option.some_injective _ (ht'.symm.trans ht)
        simp only [ht, Option.getD_some] at hc
        have hcc : c = c' := by rcases htc with h' | h' <;> simp_all
        simp only [World.localAt_setLocal, hne, if_true]
        exact .inr (.inr (.inr ⟨cur, hcur, by rw [← base_remoteAt, hc', hcc], by
          rw [← base_remoteAt, hc']; rfl⟩))
      · simpa using h it hit
      · simpa using h it hit
    · rw [rc.transferStep_localAt_other htmp hcur hit rest st r hne]
      exact h it hit
  case removeTemp =>
    rw [(rc.step_removeTemp s hp r).2.2.2.2.2 _ (htemp it hit)]
    exact h it hit
  all_goals rw [rc.step_of_finished s r (by simp [hp, Phase.finished])]; exact h it hit

/-- A present `local_file` becomes absent only at the `unlink` of an item with the same
`local_file`, in a mode that replaces, with the content of its source in its `tmp_file`. -/
theorem absent_step {s : Machine H} (hl : rc.LoopState (rc.base w₀) items s) {it : Item}
    (hit : it ∈ items) (r : Reply) (hs : (s.world.localAt it.localFile).isSome = true)
    (ht : (rc.step s r).world.localAt it.localFile = none) :
    ∃ jt ∈ items, ∃ rest, s.phase = .transfer jt rest .unlink ∧ r = .ok ∧
      jt.localFile.normalize = it.localFile.normalize ∧
      (rc.cfg.options.mode = .overwrite ∨ rc.cfg.options.mode = .deleteAll) ∧
      ∃ t c, jt.tmpFile = some t ∧ w₀.remoteAt jt.source = some c ∧ s.world.localAt t = some c := by
  have hkeep : (rc.step s r).world.localAt it.localFile ≠ s.world.localAt it.localFile := by
    rw [ht]; intro h; rw [← h] at hs; cases hs
  rcases hp : s.phase with _ | _ | _ | _ | _ | _ | ⟨cur, rest, st⟩ | _ | _ | _
  all_goals have hi := hl.inLoop; simp only [hp, Phase.inLoop, Bool.false_eq_true] at hi
  case transfer =>
    have hcur := hl.mem hp
    simp only [step, hp] at ht hkeep
    by_cases hne : it.localFile.normalize = cur.localFile.normalize
    · obtain ⟨t, htc⟩ := hsome cur hcur
      have hst := hl.staged
      rw [Staged, hp] at hst
      rcases rc.transferStep_world s cur rest st r with
        hw | ⟨-, c, hw⟩ | ⟨rfl, rfl, hw⟩ | ⟨-, -, c, -, hw⟩ | ⟨-, -, hw⟩ | ⟨-, -, hw⟩ <;>
        rw [hw] at ht hkeep
      · exact absurd rfl hkeep
      · have := htmp it hit cur hcur t htc
        simp [htc, this] at hkeep
      · obtain ⟨hm, t', c, ht', hc, htc'⟩ := hst
        exact ⟨cur, hcur, rest, rfl, rfl, hne.symm, hm, t', c, ht', by rwa [base_remoteAt] at hc, htc'⟩
      · simp [hne] at ht
      · simp at hkeep
      · simp at hkeep
    · exact absurd (rc.transferStep_localAt_other htmp hcur hit rest st r hne) hkeep
  case removeTemp => exact absurd ((rc.step_removeTemp s hp r).2.2.2.2.2 _ (htemp it hit)) hkeep
  all_goals rw [rc.step_of_finished s r (by simp [hp, Phase.finished])] at hkeep; exact absurd rfl hkeep

theorem reaches_allowed {s : Machine H} (h : rc.Reaches (rc.loopStart (rc.base w₀) items) s) :
    ∀ it ∈ items, rc.Allowed w₀ items it.localFile (s.world.localAt it.localFile) := by
  induction h with
  | refl => exact fun it _ => .inr (.inl (by simp [loopStart]))
  | tail hr hst ih =>
    obtain ⟨r, rfl⟩ := hst
    exact rc.allowed_step hsome htmp htemp (rc.reaches_loopState hr) ih r

end Staging

/-- With `temp_path` set every item has a `tmp_file`. -/
theorem tmpFile_of_tempPath {files : Option FileCollection} {w₀ : World H} {items : List Item}
    (hv : rc.runItems files w₀ = .ok items) (htp : rc.cfg.tempPath.isSome = true) :
    ∀ it ∈ items, ∃ t, it.tmpFile = some t := by
  intro it hit
  rcases (validItemsAux_spec rc.cfg rc.currentTempDir _ [] items hv List.nodup_nil).2 it hit with
    h | ⟨f, -, hf⟩
  · cases h
  · have := resolveFile_tmpFile rc.cfg rc.currentTempDir hf
    rw [currentTempDir, Option.isSome_map', htp] at this
    exact Option.isSome_iff_exists.1 this

/-- **With `temp_path` set, no `local_file` ever holds a partial file**, at every point of every
run whatever the collaborators do, when no `tmp_file` is an item's `local_file` and no
`local_file` lies inside the temp directory. Every `local_file` holds what it held before the run
or after the cleanup, nothing, or the complete content of a source of the run; and a present
`local_file` becomes absent only at the cleanup, or at the `unlink` of an item with the same
`local_file` in `overwrite` or `delete_all` mode, once the complete content of its source is
staged in its `tmp_file`. -/
theorem local_files_never_partial {files : Option FileCollection} {w₀ : World H}
    {items : List Item} (hv : rc.runItems files w₀ = .ok items) (htp : rc.cfg.tempPath.isSome = true)
    (htmp : ∀ it ∈ items, ∀ jt ∈ items, ∀ t, jt.tmpFile = some t → it.localFile.normalize ≠ t.normalize)
    (htemp : ∀ it ∈ items, ¬ it.localFile.StrictlyInside rc.tempDir)
    {s : Machine H} (h : rc.Reaches (rc.start files w₀) s) :
    (∀ it ∈ items, rc.Allowed w₀ items it.localFile (s.world.localAt it.localFile)) ∧
      ∀ r, ∀ it ∈ items, (s.world.localAt it.localFile).isSome = true →
        (rc.step s r).world.localAt it.localFile = none →
        (∃ items', s.phase = .cleanup items') ∨
          ∃ jt ∈ items, ∃ rest, s.phase = .transfer jt rest .unlink ∧ r = .ok ∧
            jt.localFile.normalize = it.localFile.normalize ∧
            (rc.cfg.options.mode = .overwrite ∨ rc.cfg.options.mode = .deleteAll) ∧
            ∃ t c, jt.tmpFile = some t ∧ w₀.remoteAt jt.source = some c ∧ s.world.localAt t = some c := by
  have hsome := rc.tmpFile_of_tempPath hv htp
  rcases rc.reaches_front_or_loopState h with hf | hcut | ⟨items', hv', hr, hl⟩
  · refine ⟨fun it _ => .inl (by rw [hf.world]), fun r it _ hs ht => ?_⟩
    by_cases hc : ∃ items', s.phase = .cleanup items'
    · exact .inl hc
    · rw [rc.step_world_of_front hf (fun items' he => hc ⟨items', he⟩) r] at ht
      rw [ht] at hs; cases hs
  · -- a partial cleanup only removes files, and the run has raised
    refine ⟨fun it _ => ?_, fun r it _ hs ht => ?_⟩
    · rcases hcut.localAt it.localFile with h' | ⟨-, h'⟩
      · exact .inl h'
      · exact .inr (.inr (.inl h'))
    · rw [rc.step_raised s r hcut.phase] at ht
      rw [ht] at hs; cases hs
  · obtain rfl : items' = items := by simpa [hv] using hv'.symm
    exact ⟨rc.reaches_allowed hsome htmp htemp hr,
      fun r it hit hs ht => .inr (rc.absent_step hsome htmp htemp hl hit r hs ht)⟩

/-- `FileDownloader(source_path="/src", local_path="/local", temp_path="/tmp")`, staging under
`/tmp/run`. -/
def srcToLocalTemp : RunContext Unit where
  cfg :=
    { localPath := ⟨.slash, [⟨"local", by decide⟩]⟩
      sourcePath := some ⟨.slash, [⟨"src", by decide⟩]⟩
      tempPath := some ⟨.slash, [⟨"tmp", by decide⟩]⟩
      filter := none
      limit := none
      hwmType := none
      options := {}
      localPath_absolute := rfl
      localPath_plain := by decide
      hwmType_source := by decide }
  strategy := ⟨false, false, false⟩
  tempDir := .ofString "/tmp/run"
  walkOrder := []

/-- The items `_validate_files` builds for `run(["a", "b"])` from `/src` to `/local`, staged under
`/tmp/run`. -/
def itemsABStaged : List Item :=
  [⟨.ofString "/src/a", .ofString "/local/a", some (.ofString "/tmp/run/a")⟩,
    ⟨.ofString "/src/b", .ofString "/local/b", some (.ofString "/tmp/run/b")⟩]

/-- `run(["a", "b"])` staged under `/tmp/run`, run to its end. -/
theorem local_files_never_partial_src :
    srcToLocalTemp.runItems (some (.sized [.str "a", .str "b"])) remoteA1B2 = .ok itemsABStaged ∧
      srcToLocalTemp.cfg.tempPath.isSome = true ∧
      (∀ it ∈ itemsABStaged, ∀ jt ∈ itemsABStaged, ∀ t, jt.tmpFile = some t →
        it.localFile.normalize ≠ t.normalize) ∧
      (∀ it ∈ itemsABStaged, ¬ it.localFile.StrictlyInside srcToLocalTemp.tempDir) ∧
      srcToLocalTemp.Reaches (srcToLocalTemp.start (some (.sized [.str "a", .str "b"])) remoteA1B2)
        (srcToLocalTemp.downloaderRun (some (.sized [.str "a", .str "b"])) remoteA1B2
          (List.replicate 17 .ok)) ∧
      ((∀ it ∈ itemsABStaged, srcToLocalTemp.Allowed remoteA1B2 itemsABStaged it.localFile
          ((srcToLocalTemp.downloaderRun (some (.sized [.str "a", .str "b"])) remoteA1B2
            (List.replicate 17 .ok)).world.localAt it.localFile)) ∧
        ∀ r, ∀ it ∈ itemsABStaged,
          ((srcToLocalTemp.downloaderRun (some (.sized [.str "a", .str "b"])) remoteA1B2
            (List.replicate 17 .ok)).world.localAt it.localFile).isSome = true →
          (srcToLocalTemp.step (srcToLocalTemp.downloaderRun (some (.sized [.str "a", .str "b"]))
            remoteA1B2 (List.replicate 17 .ok)) r).world.localAt it.localFile = none →
          (∃ items', (srcToLocalTemp.downloaderRun (some (.sized [.str "a", .str "b"])) remoteA1B2
            (List.replicate 17 .ok)).phase = .cleanup items') ∨
            ∃ jt ∈ itemsABStaged, ∃ rest, (srcToLocalTemp.downloaderRun
                (some (.sized [.str "a", .str "b"])) remoteA1B2 (List.replicate 17 .ok)).phase =
                .transfer jt rest .unlink ∧ r = .ok ∧
              jt.localFile.normalize = it.localFile.normalize ∧
              (srcToLocalTemp.cfg.options.mode = .overwrite ∨
                srcToLocalTemp.cfg.options.mode = .deleteAll) ∧
              ∃ t c, jt.tmpFile = some t ∧ remoteA1B2.remoteAt jt.source = some c ∧
                (srcToLocalTemp.downloaderRun (some (.sized [.str "a", .str "b"])) remoteA1B2
                  (List.replicate 17 .ok)).world.localAt t = some c) :=
  have hv : srcToLocalTemp.runItems (some (.sized [.str "a", .str "b"])) remoteA1B2 =
      .ok itemsABStaged := rfl
  have htmp : ∀ it ∈ itemsABStaged, ∀ jt ∈ itemsABStaged, ∀ t, jt.tmpFile = some t →
      it.localFile.normalize ≠ t.normalize := by
    simp only [itemsABStaged, List.mem_cons, List.mem_singleton, List.not_mem_nil, or_false,
      forall_eq_or_imp, forall_eq, Option.some.injEq, forall_eq']
    decide
  have htemp : ∀ it ∈ itemsABStaged, ¬ it.localFile.StrictlyInside srcToLocalTemp.tempDir := by
    decide
  ⟨hv, rfl, htmp, htemp, srcToLocalTemp.reaches_run _ _,
    srcToLocalTemp.local_files_never_partial hv rfl htmp htemp (srcToLocalTemp.reaches_run _ _)⟩

/-- `FileDownloader(local_path="/local", temp_path="/tmp", options={"mode": "delete_all"})`, no
`source_path`, staging under `/tmp/run`. -/
def flatDeleteAllTemp : RunContext Unit where
  cfg :=
    { localPath := ⟨.slash, [⟨"local", by decide⟩]⟩
      sourcePath := none
      tempPath := some ⟨.slash, [⟨"tmp", by decide⟩]⟩
      filter := none
      limit := none
      hwmType := none
      options := { mode := .deleteAll }
      localPath_absolute := rfl
      localPath_plain := by decide
      hwmType_source := by decide }
  strategy := ⟨false, false, false⟩
  tempDir := .ofString "/tmp/run"
  walkOrder := []

/-- `FileDownloader(source_path="/src", local_path="/local", temp_path=...)` whose temp directory
is `/local/t`, inside `local_path`. -/
def tempInsideLocal : RunContext Unit := { srcToLocalTemp with tempDir := .ofString "/local/t" }

/-- Remote files `/src/t/a` and `/src/a`, and no local file. -/
def remoteTaA : World Unit :=
  ⟨fun _ => none, fun q => if q = .ofString "/src/t/a" then some [1] else if q = .ofString "/src/a"
    then some [2, 3] else none, none⟩

/-- Two runs with `temp_path` set. `run(["/a/x", "/b/x"])` flat in `delete_all` mode: fourteen
calls in, `/local/x` holds the first file, and the next call, the `unlink` of the second item,
leaves it absent although the mode is not `overwrite`. And with the temp directory `/local/t`,
`run(["t/a", "a"])`: the first item is placed at `/local/t/a`, which is the `tmp_file` of the
second, and a `download_file` of `/src/a` that raises after writing `[2]` leaves that partial
file at `/local/t/a`. -/
theorem local_file_absent_or_partial :
    (flatDeleteAllTemp.downloaderRun (some (.sized [.str "/a/x", .str "/b/x"])) remoteAxBx
        (List.replicate 14 .ok)).world.localAt (.ofString "/local/x") = some [1] ∧
      (flatDeleteAllTemp.downloaderRun (some (.sized [.str "/a/x", .str "/b/x"])) remoteAxBx
        (List.replicate 15 .ok)).world.localAt (.ofString "/local/x") = none ∧
      flatDeleteAllTemp.cfg.options.mode = .deleteAll ∧
      (tempInsideLocal.downloaderRun (some (.sized [.str "t/a", .str "a"])) remoteTaA
        (List.replicate 13 .ok ++ [.torn [2]])).world.localAt (.ofString "/local/t/a") = some [2] ∧
      remoteTaA.remoteAt (.ofString "/src/t/a") = some [1] ∧
      remoteTaA.remoteAt (.ofString "/src/a") = some [2, 3] := by
  decide

/-! ## Removing a source -/

/-- No remote file goes before the loop: the checks, the walk and the validation only read, and
the `delete_all` cleanup is local. -/
theorem step_remoteAt_of_front {files : Option FileCollection} {w₀ : World H} {s : Machine H}
    (hf : rc.Front files w₀ s) (r : Reply) (x : PurePath) :
    (rc.step s r).world.remoteAt x = s.world.remoteAt x := by
  by_cases hc : ∃ items, s.phase = .cleanup items
  · obtain ⟨items, hp⟩ := hc
    cases r <;> simp [step, hp]
  · rw [rc.step_world_of_front hf (fun items he => hc ⟨items, he⟩) r]

/-- A remote file disappears only at the `remove_file` of an item with that source, whose
`local_file` then holds the file's content. -/
theorem remote_removed_at_removeSource {files : Option FileCollection} {w₀ : World H}
    {items : List Item} (hv : rc.runItems files w₀ = .ok items) {s : Machine H}
    (h : rc.Reaches (rc.start files w₀) s) (r : Reply) {x : PurePath}
    (hx : (s.world.remoteAt x).isSome = true) (hx' : (rc.step s r).world.remoteAt x = none) :
    ∃ it ∈ items, ∃ rest, s.phase = .transfer it rest .removeSource ∧ r = .ok ∧
      it.source.normalize = x.normalize ∧
      ∃ c, w₀.remoteAt x = some c ∧ s.world.localAt it.localFile = some c := by
  have hchg : (rc.step s r).world.remoteAt x ≠ s.world.remoteAt x := by
    rw [hx']; intro he; rw [← he] at hx; cases hx
  rcases rc.reaches_front_or_loopState h with hf | hc | ⟨items', hv', -, hl⟩
  · exact absurd (rc.step_remoteAt_of_front hf r x) hchg
  · exact absurd (by rw [rc.step_raised s r hc.phase]) hchg
  obtain rfl : items = items' := by simpa [hv'] using hv.symm
  rcases hp : s.phase with _ | _ | _ | _ | _ | _ | ⟨it, rest, st⟩ | _ | _ | _
  all_goals have hi := hl.inLoop; simp only [hp, Phase.inLoop, Bool.false_eq_true] at hi
  case transfer =>
    simp only [step, hp] at hchg
    have hsrc : x.normalize = it.source.normalize := by
      by_contra hne
      exact hchg (rc.transferStep_remoteAt_of_ne s it rest st r hne)
    have hit := hl.mem hp
    rcases rc.transferStep_world s it rest st r with
      hw | ⟨-, c, hw⟩ | ⟨-, -, hw⟩ | ⟨-, -, c, -, hw⟩ | ⟨-, -, hw⟩ | ⟨rfl, rfl, -⟩
    -- every call but `remove_file` leaves the remote files alone
    all_goals try (rw [hw] at hchg; exact absurd (by simp) hchg)
    have hst := hl.staged
    rw [Staged, hp] at hst
    obtain ⟨c, hc, hL⟩ := hst
    refine ⟨it, hit, rest, rfl, rfl, hsrc.symm, c, ?_, hL⟩
    rwa [base_remoteAt, World.remoteAt, ← hsrc] at hc
  case removeTemp => exact absurd ((rc.step_removeTemp s hp r).2.2.2.1 x) hchg
  all_goals
    rw [rc.step_of_finished s r (by simp [hp, Phase.finished])] at hchg
    exact (hchg rfl).elim

end RunContext

/-! ## Files that were there before the run -/

/-- The stages of `_download_file` after `local_file.exists()` was checked. -/
def Stage.checked : Stage → Bool
  | .pathExists | .getFile => false
  | _ => true

/-- `q` holds what it held before the run, and no item past the check has `q` as its
`local_file`. -/
def Kept (w₀ : World H) (q : PurePath) (s : Machine H) : Prop :=
  s.world.localAt q = w₀.localAt q ∧
    ∀ it rest st, s.phase = .transfer it rest st → st.checked = true →
      it.localFile.normalize ≠ q.normalize

namespace RunContext

variable (rc : RunContext H)

/-- `_download_files` starts each item before the check. -/
theorem nextItem_unchecked (t : Machine H) (items : List Item) {it : Item} {rest : List Item}
    {st : Stage} (h : (rc.nextItem t items).phase = .transfer it rest st) : st.checked = false := by
  cases items with
  | nil => by_cases hT : rc.currentTempDir.isSome <;> simp [nextItem, finish, hT] at h
  | cons => cases h; rfl

/-- A call before the check changes no file. -/
theorem transferStep_world_unchecked (s : Machine H) (it : Item) (rest : List Item) {st : Stage}
    (r : Reply) (hst : st.checked = false) : (rc.transferStep s it rest st r).world = s.world := by
  rcases rc.transferStep_world s it rest st r with
    h | ⟨⟨_, rfl⟩, -⟩ | ⟨rfl, -⟩ | ⟨rfl, -⟩ | ⟨rfl, -⟩ | ⟨rfl, -⟩
  · exact h
  all_goals cases hst

/-- The run passes the check into a later stage of the same item only past an absent
`local_file`, or in a mode that replaces. -/
theorem transferStep_checked (s : Machine H) (it : Item) (rest : List Item) {st st' : Stage}
    (r : Reply) (hst : st.checked = false) (hst' : st'.checked = true)
    (h : (rc.transferStep s it rest st r).phase = .transfer it rest st') :
    (s.world.localAt it.localFile).isSome = false ∨
      rc.cfg.options.mode = .overwrite ∨ rc.cfg.options.mode = .deleteAll := by
  have hnext : ∀ t, (rc.nextItem t rest).phase ≠ .transfer it rest st' := fun t hn => by
    simp [rc.nextItem_unchecked t rest hn] at hst'
  cases st <;> simp only [Stage.checked, Bool.true_eq_false] at hst <;> cases r <;>
    simp only [transferStep] at h
  case pathExists.ok =>
    split at h
    · cases h; cases hst'
    · exact absurd h (hnext _)
  case pathExists.absent => exact absurd h (hnext _)
  case getFile.ok =>
    split at h
    · simp only [checkLocal] at h
      split at h
      · split at h
        · exact absurd h (hnext _)
        · exact absurd h (hnext _)
        · cases hm : rc.cfg.options.mode <;> simp_all
      · rename_i hL
        exact .inl (by simpa using hL)
    · cases h
  all_goals cases h

section Kept

variable {w₀ : World H} {items : List Item} {q : PurePath}
  (hk : rc.cfg.options.mode = .error ∨ rc.cfg.options.mode = .ignore)
  (hq : (w₀.localAt q).isSome = true)
  (htmp : ∀ it ∈ items, ∀ t, it.tmpFile = some t → q.normalize ≠ t.normalize)
  (htemp : rc.currentTempDir.isSome = true → ¬ q.StrictlyInside rc.tempDir)
include hk

omit hq htmp htemp in
theorem kept_loopStart : Kept w₀ q (rc.loopStart (rc.base w₀) items) := by
  have hb : rc.cfg.options.mode ≠ .deleteAll := by rcases hk with h | h <;> rw [h] <;> decide
  refine ⟨by simp [loopStart, base, hb], fun it rest st h hst => ?_⟩
  simp only [loopStart, startTransfer] at h
  simp [rc.nextItem_unchecked _ items h] at hst

include hq htmp htemp

theorem kept_step {s : Machine H} (hl : rc.LoopState (rc.base w₀) items s) (h : Kept w₀ q s)
    (r : Reply) : Kept w₀ q (rc.step s r) := by
  obtain ⟨hw, hc⟩ := h
  rcases hp : s.phase with _ | _ | _ | _ | _ | _ | ⟨it, rest, st⟩ | _ | _ | _
  all_goals have hi := hl.inLoop; simp only [hp, Phase.inLoop, Bool.false_eq_true] at hi
  case transfer =>
    have hit := hl.mem hp
    simp only [step, hp]
    refine ⟨?_, fun jt rest' st' hp' hst' => ?_⟩
    · rw [← hw]
      cases hst : st.checked
      · rw [rc.transferStep_world_unchecked s it rest r hst]
      · exact rc.transferStep_localAt_of_ne s it rest st r (Ne.symm (hc it rest st hp hst))
          (htmp it hit)
    rcases rc.transferStep_phase s it rest st r with ⟨st'', he⟩ | he | ⟨e, he⟩ <;> rw [he] at hp'
    · obtain ⟨rfl, rfl, rfl⟩ := Phase.transfer.inj hp'
      cases hst : st.checked
      · -- past the check only when `local_file` was absent, while `q` is present
        rcases rc.transferStep_checked s it rest r hst hst' he with hL | hm
        · intro heq
          have hsame : s.world.localAt it.localFile = s.world.localAt q := by
            simp only [World.localAt, heq]
          rw [hsame, hw, hq] at hL
          cases hL
        · rcases hk with h1 | h1 <;> simp [h1] at hm
      · exact hc it rest st hp hst
    · simp [rc.nextItem_unchecked s rest hp'] at hst'
    · cases hp'
  case removeTemp =>
    obtain ⟨hph, -, -, -, -, hkeep⟩ := rc.step_removeTemp s hp r
    exact ⟨(hkeep _ (htemp (hl.removeTemp hp))).trans hw, fun _ _ _ h _ => by simp [hph] at h⟩
  all_goals rw [rc.step_of_finished s r (by simp [hp, Phase.finished])]; exact ⟨hw, hc⟩

theorem reaches_kept {s : Machine H} (h : rc.Reaches (rc.loopStart (rc.base w₀) items) s) :
    Kept w₀ q s := by
  induction h with
  | refl => exact rc.kept_loopStart hk
  | tail hr hst ih =>
    obtain ⟨r, rfl⟩ := hst
    exact rc.kept_step hk hq htmp htemp (rc.reaches_loopState hr) ih r

end Kept

/-- `/src/a` holding `[1]`, and an older `/local/a` holding `[0]`. -/
def remoteALocalA : World Unit :=
  ⟨fun q => if q = .ofString "/local/a" then some [0] else none,
    fun q => if q = .ofString "/src/a" then some [1] else none, none⟩

/-- The items' paths meet no directory of `remoteALocalA` when neither of its files lies strictly
below one of them. -/
theorem remoteALocalA_directoryFree {items : List Item}
    (hl : ∀ it ∈ items, ∀ p ∈ it.localPaths, p.normalize ∉ (PurePath.ofString "/local/a").parents)
    (hr : ∀ it ∈ items, it.source.normalize ∉ (PurePath.ofString "/src/a").parents)
    (hn : ∀ it ∈ items, ∀ jt ∈ items, ∀ p ∈ it.localPaths, ∀ p' ∈ jt.localPaths,
      ¬ p'.StrictlyInside p) :
    DirectoryFree remoteALocalA items :=
  .of_support [.ofString "/local/a"] [.ofString "/src/a"]
    (fun _ h => List.mem_singleton.2 (by_contra fun hne => h (if_neg hne)))
    (fun _ h => List.mem_singleton.2 (by_contra fun hne => h (if_neg hne)))
    (fun it hit p hp _ hx => by rw [List.mem_singleton.1 hx]; exact hl it hit p hp)
    (fun it hit _ hx => by rw [List.mem_singleton.1 hx]; exact hr it hit) hn

end RunContext

end Onetl.Downloader
