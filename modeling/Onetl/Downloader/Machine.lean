import Onetl.Downloader.Model
import Mathlib.Logic.Relation

/-!
# `FileDownloader.run` as a machine

`run` makes one collaborator call after another: `connection.check()`, `get_directory`, the walk
of `view_files`, `path_exists` and `get_file` for every element in `_validate_files`,
`shutil.rmtree` for `delete_all`, then for every item the calls of `_download_file`, and last
`_remove_temp_dir`. A `Phase` names the call made next; `step` makes it with a `Reply` of the
collaborator (it returns, it raises, `download_file` raises after writing part of the file,
`shutil.rmtree` raises after deleting some of the files, or `path_exists` answers that a file is
not there) and runs the pure code up to the next call. The world holds the files as the run's own
calls leave them; another process shows only in the replies, where it can remove a listed file
before its `path_exists`, or make any call raise.

The cleanup of `delete_all` is one call: `local_path.mkdir()` after `shutil.rmtree` creates the
directory `_check_local_path` already made, and directories are not represented. What happens
between two calls is written once, in the continuations `begin`, `validateNext`, `afterValidate`,
`startTransfer`, `nextItem` and `checkLocal`.

A run is `downloaderRun`, a left fold of `step` over a list of replies. Every behaviour of the
collaborators is a list of replies, and a run interrupted at a call is the run on the replies
before it, so the states of all runs are exactly the values of `downloaderRun`.

Exceptions that `run` lets escape end in `Phase.raised`. Two of them are the source's own:
`path_exists` in `_download_file` is called outside the `try`, and the `except` block reads
`remote_file`, which is unbound when `get_file` raised.
-/

set_option autoImplicit false

namespace Onetl.Downloader

open Onetl.Path

/-- A collaborator's answer to one call. -/
inductive Reply where
  | ok
  | raise
  /-- `download_file` wrote `chunk` to its target and raised. -/
  | torn (chunk : Bytes)
  /-- `shutil.rmtree` deleted the files `gone` and raised. -/
  | cut (gone : List PurePath)
  /-- `path_exists` answered that the file is not there: another process removed it after the
  listing. -/
  | absent
  deriving DecidableEq, Repr

/-- The call of `_download_file` made next for the current item. -/
inductive Stage where
  | pathExists
  | getFile
  | download (replace : Bool)
  | unlink
  | mkdir
  | move
  | save
  | removeSource
  deriving DecidableEq, Repr

/-- The call `run` makes next. -/
inductive Phase where
  | checkConnection (files : Option FileCollection)
  | checkSource (files : Option FileCollection)
  | listFiles
  /-- `_validate_files`: `path_exists` of `item`, with `pending` elements left and `acc` built. -/
  | probe (item : Item) (pending : List FileArg) (acc : List Item)
  | fetch (item : Item) (pending : List FileArg) (acc : List Item)
  | cleanup (items : List Item)
  | transfer (item : Item) (rest : List Item) (stage : Stage)
  | removeTemp
  | done
  | raised (e : Error)
  deriving DecidableEq, Repr

/-- The state of a run: the world, the in-memory `file_hwm`, the `DownloadResult` and the phase. -/
structure Machine (H : Type) where
  world : World H
  hwm : Option H
  result : DownloadResult
  phase : Phase

/-- What a call of `run` sees besides its argument: the downloader, the current strategy, the
directory `generate_temp_path(temp_path)` returned, and the order in which `connection.walk`
visits the files under `source_path`. -/
structure RunContext (H : Type) where
  cfg : Config H
  strategy : Strategy
  tempDir : PurePath
  walkOrder : List PurePath

/-- `FileDownloader(source_path="/src", local_path="/local")` with the default options. -/
def srcToLocal : Config Unit where
  localPath := ⟨.slash, [⟨"local", by decide⟩]⟩
  sourcePath := some ⟨.slash, [⟨"src", by decide⟩]⟩
  tempPath := none
  filter := none
  limit := some 100
  hwmType := none
  options := {}
  localPath_absolute := rfl
  localPath_plain := by decide
  hwmType_source := by decide

/-- `srcToLocal` under the default strategy, with no temp directory and no walk. -/
def srcToLocalRun : RunContext Unit := ⟨srcToLocal, ⟨false, false, false⟩, .root, []⟩

variable {H : Type}

/-- `_check_strategy`. -/
def checkStrategy (cfg : Config H) (st : Strategy) : Option Error :=
  if cfg.hwmType.isSome then
    if !st.hwm then some .snapshotStrategy
    else if st.offset then some .offsetStrategy
    else if st.batch then some .batchStrategy
    else none
  else none

/-- The shape checks of `_validate_files` for one element, with the item it builds. -/
def resolveFile (cfg : Config H) (tempDir : Option PurePath) (file : FileArg) : Except Error Item :=
  let p := file.toPath
  match cfg.sourcePath with
  | none =>
    if !p.isAbsolute then .error .relativeWithoutSource
    else .ok ⟨p, cfg.localPath / p.name, tempDir.map (· / p.name)⟩
  | some src =>
    if src ∈ p.parents then
      .ok ⟨p, cfg.localPath / p.relativeTo src, tempDir.map (· / p.relativeTo src)⟩
    else if !p.isAbsolute then
      .ok ⟨src / p, cfg.localPath / p, tempDir.map (· / p)⟩
    else .error (.pathMismatch p src)

/-- `OrderedSet.add`. -/
def addItem (acc : List Item) (it : Item) : List Item := if it ∈ acc then acc else acc ++ [it]

/-- Modelled from the spec: `connection.walk(source_path, filters, limits)` with the files it
visits in `order`. A file is kept when every filter accepts it, and the count limit stops the
walk once reached, so the result is a prefix of the accepted files. -/
def walkFiles (order : List PurePath) (accept : PurePath → Bool) (limit : Option Nat) :
    List PurePath :=
  match limit with
  | none => order.filter accept
  | some n => (order.filter accept).take n

namespace RunContext

variable (rc : RunContext H)

/-- `current_temp_dir`. -/
def currentTempDir : Option PurePath := rc.cfg.tempPath.map fun _ => rc.tempDir

/-- `view_files()`: the walk under the configured filter and, with `hwm_type`, the
`FileHWMFilter` of the stored watermark. -/
def viewFiles (w : World H) : List PurePath :=
  walkFiles rc.walkOrder
    (fun f => (w.remoteAt f).isSome && (rc.cfg.filter.map (· f)).getD true &&
      !(rc.cfg.hwmType.map fun K => K.covers (w.store.getD K.empty) f).getD false)
    rc.cfg.limit

/-- The beginning of `run` up to `connection.check()`. -/
def start (files : Option FileCollection) (w : World H) : Machine H :=
  ⟨w, none, {},
    match checkStrategy rc.cfg rc.strategy with
    | some e => .raised e
    | none =>
      if files.isNone && rc.cfg.sourcePath.isNone then .raised .noFiles
      else if (w.localAt rc.cfg.localPath).isSome then .raised (.notADirectory rc.cfg.localPath)
      else .checkConnection files⟩

/-- After `_download_files`: remove the temp directory, if one was made. -/
def finish (s : Machine H) : Machine H :=
  { s with phase := if rc.currentTempDir.isSome then .removeTemp else .done }

/-- The loop of `_download_files` moves to the next item. -/
def nextItem (s : Machine H) : List Item → Machine H
  | [] => rc.finish s
  | it :: rest => { s with phase := .transfer it rest .pathExists }

/-- `_hwm_processing` loads `file_hwm` from the store; then `_download_files`. -/
def startTransfer (s : Machine H) (items : List Item) : Machine H :=
  rc.nextItem { s with hwm := rc.cfg.hwmType.map fun K => s.world.store.getD K.empty } items

/-- After `_validate_files`: the `delete_all` cleanup, or straight to the transfer. -/
def afterValidate (s : Machine H) (items : List Item) : Machine H :=
  if rc.cfg.options.mode = .deleteAll then { s with phase := .cleanup items }
  else rc.startTransfer s items

/-- The loop of `_validate_files`: check the shape of the next element. -/
def validateNext (s : Machine H) : List FileArg → List Item → Machine H
  | [], acc => rc.afterValidate s acc
  | f :: fs, acc =>
    match resolveFile rc.cfg rc.currentTempDir f with
    | .error e => { s with phase := .raised e }
    | .ok it => { s with phase := .probe it fs acc }

/-- `if not files: return DownloadResult()`, then `_validate_files`. -/
def begin (s : Machine H) (c : FileCollection) : Machine H :=
  if c.truthy then rc.validateNext s c.items [] else { s with phase := .done }

/-- After the checks: the collection, or `view_files()` when none was passed. -/
def afterChecks (s : Machine H) : Option FileCollection → Machine H
  | none => { s with phase := .listFiles }
  | some c => rc.begin s c

/-- `result.failed.add(...)` for the current item, and on to the next. -/
def failItem (s : Machine H) (it : Item) (rest : List Item) (e : Error) : Machine H :=
  rc.nextItem { s with result := { s.result with failed := s.result.failed ++ [(it.source, e)] } }
    rest

/-- `result.successful.add(local_file)`, and on to the next item. -/
def succeedItem (s : Machine H) (it : Item) (rest : List Item) : Machine H :=
  rc.nextItem
    { s with result := { s.result with successful := s.result.successful ++ [it.localFile] } } rest

/-- After the watermark: remove the source with `delete_source`, then report success. -/
def afterSave (s : Machine H) (it : Item) (rest : List Item) : Machine H :=
  if rc.cfg.options.deleteSource then { s with phase := .transfer it rest .removeSource }
  else rc.succeedItem s it rest

/-- After the file reached `local_file`: the watermark when `file_hwm` is set. -/
def afterTransfer (s : Machine H) (it : Item) (rest : List Item) : Machine H :=
  if s.hwm.isSome then { s with phase := .transfer it rest .save } else rc.afterSave s it rest

/-- After `get_file`: what `local_file.exists()` and the mode decide. -/
def checkLocal (s : Machine H) (it : Item) (rest : List Item) : Machine H :=
  if (s.world.localAt it.localFile).isSome then
    match rc.cfg.options.mode with
    | .error => rc.failItem s it rest (.alreadyExists it.localFile)
    | .ignore =>
      rc.nextItem { s with result := { s.result with skipped := s.result.skipped ++ [it.source] } }
        rest
    | _ => { s with phase := .transfer it rest (.download true) }
  else { s with phase := .transfer it rest (.download false) }

/-- `file_hwm` after `file_hwm.update(remote_file)`. -/
def updatedHwm (s : Machine H) (it : Item) : Option H :=
  match rc.cfg.hwmType, s.hwm with
  | some K, some h => some (K.update h it.source)
  | _, h => h

/-- One call of `_download_file` for the current item `it`. -/
def transferStep (s : Machine H) (it : Item) (rest : List Item) : Stage → Reply → Machine H
  | .pathExists, .ok =>
    if (s.world.remoteAt it.source).isSome then { s with phase := .transfer it rest .getFile }
    else
      rc.nextItem { s with result := { s.result with missing := s.result.missing ++ [it.source] } }
        rest
  | .pathExists, .absent =>
    rc.nextItem
      { s with result := { s.result with missing := s.result.missing ++ [it.source] } } rest
  | .pathExists, .raise | .pathExists, .torn _ | .pathExists, .cut _ =>
    { s with phase := .raised (.raised .pathExists) }
  | .getFile, .ok =>
    if (s.world.remoteAt it.source).isSome then rc.checkLocal s it rest
    else { s with phase := .raised .unboundRemoteFile }
  | .getFile, .raise | .getFile, .torn _ | .getFile, .cut _ | .getFile, .absent =>
    { s with phase := .raised .unboundRemoteFile }
  | .download replace, .ok =>
    match s.world.remoteAt it.source with
    | none => rc.failItem s it rest (.notFound it.source)
    | some c =>
      match it.tmpFile with
      | some t =>
        { s with
          world := s.world.setLocal t (some c)
          phase := .transfer it rest
            (if replace && ((s.world.setLocal t (some c)).localAt it.localFile).isSome then .unlink
             else .mkdir) }
      | none => rc.afterTransfer { s with world := s.world.setLocal it.localFile (some c) } it rest
  | .download _, .raise | .download _, .cut _ | .download _, .absent =>
    rc.failItem s it rest (.raised .downloadFile)
  | .download _, .torn c =>
    rc.failItem { s with world := s.world.setLocal (it.tmpFile.getD it.localFile) (some c) } it
      rest (.raised .downloadFile)
  | .unlink, .ok =>
    { s with world := s.world.setLocal it.localFile none, phase := .transfer it rest .mkdir }
  | .unlink, .raise | .unlink, .torn _ | .unlink, .cut _ | .unlink, .absent =>
    rc.failItem s it rest (.raised .unlink)
  | .mkdir, .ok => { s with phase := .transfer it rest .move }
  | .mkdir, .raise | .mkdir, .torn _ | .mkdir, .cut _ | .mkdir, .absent =>
    rc.failItem s it rest (.raised .mkdir)
  | .move, .ok =>
    match s.world.moveLocal (it.tmpFile.getD it.localFile) it.localFile with
    | none => rc.failItem s it rest (.notFound (it.tmpFile.getD it.localFile))
    | some w => rc.afterTransfer { s with world := w } it rest
  | .move, .raise | .move, .torn _ | .move, .cut _ | .move, .absent =>
    rc.failItem s it rest (.raised .move)
  | .save, .ok =>
    rc.afterSave
      { s with hwm := rc.updatedHwm s it, world := s.world.setStore (rc.updatedHwm s it) }
      it rest
  | .save, .raise | .save, .torn _ | .save, .cut _ | .save, .absent =>
    rc.failItem { s with hwm := rc.updatedHwm s it } it rest (.raised .save)
  | .removeSource, .ok => rc.succeedItem { s with world := s.world.removeRemote it.source } it rest
  | .removeSource, .raise | .removeSource, .torn _ | .removeSource, .cut _
  | .removeSource, .absent =>
    rc.failItem s it rest (.raised .removeFile)

/-- One collaborator call of `run`, and the pure code after it up to the next call. -/
def step (s : Machine H) (r : Reply) : Machine H :=
  match s.phase, r with
  | .checkConnection files, .ok =>
    if rc.cfg.sourcePath.isSome then { s with phase := .checkSource files }
    else rc.afterChecks s files
  | .checkConnection _, _ => { s with phase := .raised (.raised .check) }
  | .checkSource files, .ok => rc.afterChecks s files
  | .checkSource _, _ => { s with phase := .raised (.raised .getDirectory) }
  | .listFiles, .ok => rc.begin s (.sized ((rc.viewFiles s.world).map .path))
  | .listFiles, _ => { s with phase := .raised (.listing (rc.cfg.sourcePath.getD .root)) }
  | .probe it fs acc, .ok =>
    if (s.world.remoteAt it.source).isSome then { s with phase := .fetch it fs acc }
    else rc.validateNext s fs (addItem acc it)
  | .probe it fs acc, .absent => rc.validateNext s fs (addItem acc it)
  | .probe _ _ _, _ => { s with phase := .raised (.raised .pathExists) }
  | .fetch it fs acc, .ok =>
    if (s.world.remoteAt it.source).isSome then rc.validateNext s fs (addItem acc it)
    else { s with phase := .raised (.notFound it.source) }
  | .fetch _ _ _, _ => { s with phase := .raised (.raised .getFile) }
  | .cleanup items, .ok =>
    rc.startTransfer { s with world := s.world.clearBelow rc.cfg.localPath } items
  | .cleanup _, .cut gone =>
    { s with world := s.world.clearSome rc.cfg.localPath gone, phase := .raised (.raised .rmtree) }
  | .cleanup _, _ => { s with phase := .raised (.raised .rmtree) }
  | .transfer it rest stage, r => rc.transferStep s it rest stage r
  | .removeTemp, .ok => { s with world := s.world.clearBelow rc.tempDir, phase := .done }
  | .removeTemp, .cut gone => { s with world := s.world.clearSome rc.tempDir gone, phase := .done }
  | .removeTemp, _ => { s with phase := .done }
  | .done, _ => s
  | .raised _, _ => s

/-- The run from `s` on the replies `rs`. -/
def run (s : Machine H) (rs : List Reply) : Machine H := rs.foldl rc.step s

/-- `FileDownloader.run(files)` from the world `w`, with the collaborators answering `rs`. -/
def downloaderRun (files : Option FileCollection) (w : World H) (rs : List Reply) : Machine H :=
  rc.run (rc.start files w) rs

/-- One call, whatever the collaborator answers. -/
def Steps (s t : Machine H) : Prop := ∃ r, rc.step s r = t

/-- The states a run can reach from `s`. -/
abbrev Reaches : Machine H → Machine H → Prop := Relation.ReflTransGen rc.Steps

/-! ## What the continuations leave alone

Every continuation keeps the world; all but the two that load or update `file_hwm` keep it. -/

variable (s : Machine H)

@[simp] theorem finish_world : (rc.finish s).world = s.world := rfl
@[simp] theorem finish_hwm : (rc.finish s).hwm = s.hwm := rfl
@[simp] theorem finish_result : (rc.finish s).result = s.result := rfl

@[simp] theorem nextItem_world (items : List Item) : (rc.nextItem s items).world = s.world := by
  cases items <;> rfl
@[simp] theorem nextItem_hwm (items : List Item) : (rc.nextItem s items).hwm = s.hwm := by
  cases items <;> rfl
@[simp] theorem nextItem_result (items : List Item) : (rc.nextItem s items).result = s.result := by
  cases items <;> rfl

@[simp] theorem startTransfer_world (items : List Item) :
    (rc.startTransfer s items).world = s.world := by simp [startTransfer]
@[simp] theorem startTransfer_result (items : List Item) :
    (rc.startTransfer s items).result = s.result := by simp [startTransfer]

@[simp] theorem afterValidate_world (items : List Item) :
    (rc.afterValidate s items).world = s.world := by unfold afterValidate; split <;> simp
@[simp] theorem afterValidate_result (items : List Item) :
    (rc.afterValidate s items).result = s.result := by unfold afterValidate; split <;> simp

@[simp] theorem validateNext_world (fs : List FileArg) (acc : List Item) :
    (rc.validateNext s fs acc).world = s.world := by
  unfold validateNext; split
  · simp
  · split <;> rfl
@[simp] theorem validateNext_result (fs : List FileArg) (acc : List Item) :
    (rc.validateNext s fs acc).result = s.result := by
  unfold validateNext; split
  · simp
  · split <;> rfl

@[simp] theorem begin_world (c : FileCollection) : (rc.begin s c).world = s.world := by
  unfold begin; split <;> simp
@[simp] theorem begin_result (c : FileCollection) : (rc.begin s c).result = s.result := by
  unfold begin; split <;> simp

@[simp] theorem afterChecks_world (files : Option FileCollection) :
    (rc.afterChecks s files).world = s.world := by cases files <;> simp [afterChecks]
@[simp] theorem afterChecks_result (files : Option FileCollection) :
    (rc.afterChecks s files).result = s.result := by cases files <;> simp [afterChecks]

@[simp] theorem failItem_world (it : Item) (rest : List Item) (e : Error) :
    (rc.failItem s it rest e).world = s.world := by simp [failItem]
@[simp] theorem failItem_hwm (it : Item) (rest : List Item) (e : Error) :
    (rc.failItem s it rest e).hwm = s.hwm := by simp [failItem]

@[simp] theorem failItem_successful (it : Item) (rest : List Item) (e : Error) :
    (rc.failItem s it rest e).result.successful = s.result.successful := by simp [failItem]

@[simp] theorem succeedItem_successful (it : Item) (rest : List Item) :
    (rc.succeedItem s it rest).result.successful = s.result.successful ++ [it.localFile] := by
  simp [succeedItem]

@[simp] theorem succeedItem_world (it : Item) (rest : List Item) :
    (rc.succeedItem s it rest).world = s.world := by simp [succeedItem]
@[simp] theorem succeedItem_hwm (it : Item) (rest : List Item) :
    (rc.succeedItem s it rest).hwm = s.hwm := by simp [succeedItem]

@[simp] theorem afterSave_world (it : Item) (rest : List Item) :
    (rc.afterSave s it rest).world = s.world := by unfold afterSave; split <;> simp
@[simp] theorem afterSave_hwm (it : Item) (rest : List Item) :
    (rc.afterSave s it rest).hwm = s.hwm := by unfold afterSave; split <;> simp

@[simp] theorem afterTransfer_world (it : Item) (rest : List Item) :
    (rc.afterTransfer s it rest).world = s.world := by unfold afterTransfer; split <;> simp
@[simp] theorem afterTransfer_hwm (it : Item) (rest : List Item) :
    (rc.afterTransfer s it rest).hwm = s.hwm := by unfold afterTransfer; split <;> simp

@[simp] theorem checkLocal_world (it : Item) (rest : List Item) :
    (rc.checkLocal s it rest).world = s.world := by
  unfold checkLocal; split
  · split <;> simp
  · rfl
@[simp] theorem checkLocal_hwm (it : Item) (rest : List Item) :
    (rc.checkLocal s it rest).hwm = s.hwm := by
  unfold checkLocal; split
  · split <;> simp
  · rfl
@[simp] theorem checkLocal_successful (it : Item) (rest : List Item) :
    (rc.checkLocal s it rest).result.successful = s.result.successful := by
  unfold checkLocal; split
  · split <;> simp
  · rfl

@[simp] theorem run_nil : rc.run s [] = s := rfl

@[simp] theorem run_cons (r : Reply) (rs : List Reply) : rc.run s (r :: rs) = rc.run (rc.step s r) rs :=
  rfl

theorem run_append (rs rs' : List Reply) : rc.run s (rs ++ rs') = rc.run (rc.run s rs) rs' :=
  List.foldl_append _ _ _ _

/-- Every run from `s` stays among the states reachable from `s`. -/
theorem reaches_run (rs : List Reply) : rc.Reaches s (rc.run s rs) := by
  induction rs generalizing s with
  | nil => exact .refl
  | cons r rs ih => exact .head ⟨r, rfl⟩ (ih (rc.step s r))

/-- A finished run stays finished. -/
theorem step_done (r : Reply) (h : s.phase = .done) : rc.step s r = s := by
  simp [step, h]

theorem step_raised (r : Reply) {e : Error} (h : s.phase = .raised e) : rc.step s r = s := by
  simp [step, h]

/-- `_remove_temp_dir`: the run returns, and at most files strictly below the temp directory go,
all of them or, when `shutil.rmtree` raised partway, some. -/
theorem step_removeTemp (h : s.phase = .removeTemp) (r : Reply) :
    (rc.step s r).phase = .done ∧ (rc.step s r).result = s.result ∧ (rc.step s r).hwm = s.hwm ∧
      (∀ x, (rc.step s r).world.remoteAt x = s.world.remoteAt x) ∧
      (rc.step s r).world.store = s.world.store ∧
      ∀ p, ¬ p.StrictlyInside rc.tempDir → (rc.step s r).world.localAt p = s.world.localAt p := by
  cases r <;> simp only [step, h] <;>
    simp [World.localAt_clearBelow_of_not_inside, World.localAt_clearSome_of_not_inside]
  all_goals intro p hp
  · exact World.localAt_clearBelow_of_not_inside _ _ _ hp
  · exact World.localAt_clearSome_of_not_inside _ _ _ _ hp

end RunContext

end Onetl.Downloader
