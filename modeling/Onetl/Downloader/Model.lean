import Onetl.Path

/-!
# The data `FileDownloader` works on

The configuration of `FileDownloader` with its `Options`, the strategy flags `_check_strategy`
reads, the file collection `run` accepts, the `(source, local, tmp)` items `_validate_files`
builds, the four buckets of `DownloadResult`, and the world the collaborators act on: the local
file system, the connection's file system and the HWM store.

A `FileHWMKind` is the part of `etl_entities.FileHWM` the downloader uses: the empty watermark,
`update` and `covers`. Its two fields of laws are the monotonicity the specification states for
every watermark: an updated watermark covers the new file and everything it covered before.
`fileList` is the `"file_list"` kind (a set of files); `ordered` is a kind that keeps the
greatest file seen under a ranking, as the specification describes watermarks ordered by name
or modification time.

An `Error` names the exception a file failed with, or the one `run` raised; the texts of the
messages are not modelled, since nothing the run decides reads them.
-/

set_option autoImplicit false

namespace Onetl.Downloader

open Onetl.Path

/-- File content. -/
abbrev Bytes := List UInt8

/-- `FileWriteMode`, the values `FileDownloader.Options.mode` accepts. -/
inductive FileWriteMode where
  | error
  | ignore
  | overwrite
  | deleteAll
  deriving DecidableEq, Repr

/-- `FileDownloader.Options`. -/
structure Options where
  mode : FileWriteMode := .error
  deleteSource : Bool := false
  deriving DecidableEq, Repr

/-- A `FileHWM` class as the downloader uses it. -/
structure FileHWMKind (H : Type) where
  /-- `hwm_type(source=remote_file_folder)`: the watermark when the store has none. -/
  empty : H
  /-- `file_hwm.update(remote_file)`. -/
  update : H → PurePath → H
  /-- `file_hwm.covers(path)`: what `FileHWMFilter` leaves out. -/
  covers : H → PurePath → Bool
  covers_update_self : ∀ h f, covers (update h f) f = true
  covers_update_of_covers : ∀ h f g, covers h g = true → covers (update h f) g = true

/-- A kind whose `update` adds the new file and nothing else. -/
def FileHWMKind.Exact {H : Type} (K : FileHWMKind H) : Prop :=
  ∀ h f g, K.covers (K.update h f) g = true → K.covers h g = true ∨ g = f

/-- `FileListHWM`, registered as `"file_list"`: the set of downloaded files. -/
def FileHWMKind.fileList : FileHWMKind (List PurePath) where
  empty := []
  update h f := if f ∈ h then h else h ++ [f]
  covers h g := decide (g ∈ h)
  covers_update_self h f := by by_cases hf : f ∈ h <;> simp [hf]
  covers_update_of_covers h f g hg := by by_cases hf : f ∈ h <;> simp_all

theorem FileHWMKind.fileList_exact : FileHWMKind.fileList.Exact := by
  intro h f g hg
  by_cases hf : f ∈ h <;> simp_all [FileHWMKind.fileList]

/-- A watermark that keeps the greatest rank seen (a modification time, or a position in name
order): it covers every file ranked at or below it. -/
def FileHWMKind.ordered (rank : PurePath → Nat) : FileHWMKind (Option Nat) where
  empty := none
  update h f := some (max (h.getD 0) (rank f))
  covers h g := h.any fun m => decide (rank g ≤ m)
  covers_update_self h f := decide_eq_true (le_max_right (h.getD 0) (rank f))
  covers_update_of_covers h f g hg := by
    cases h with
    | none => cases hg
    | some m => exact decide_eq_true (le_trans (of_decide_eq_true hg) (le_max_left m (rank f)))

/-- The strategy `StrategyManager.get_current()` returns, as `_check_strategy` inspects it. -/
structure Strategy where
  /-- `isinstance(strategy, HWMStrategy)`. -/
  hwm : Bool
  /-- `getattr(strategy, "offset", None)` is truthy. -/
  offset : Bool
  /-- `isinstance(strategy, BatchHWMStrategy)`. -/
  batch : Bool
  deriving DecidableEq, Repr

/-- A `FileDownloader` after its validators ran: `local_path` resolved (absolute, without
`".."`) and, by `check_hwm_type`, no `hwm_type` without a `source_path`. `filter` and `limit` are
what `view_files` hands to the walk: a predicate on files and a `FileLimit` count. -/
structure Config (H : Type) where
  localPath : PurePath
  sourcePath : Option PurePath
  tempPath : Option PurePath
  filter : Option (PurePath → Bool)
  limit : Option Nat
  hwmType : Option (FileHWMKind H)
  options : Options
  localPath_absolute : localPath.absolute = true
  localPath_plain : localPath.Plain
  hwmType_source : hwmType.isSome = true → sourcePath.isSome = true

/-- One element of `files`: a string, parsed by `RemotePath(file)`, or a path object. -/
inductive FileArg where
  | str (s : String)
  | path (p : PurePath)
  deriving DecidableEq, Repr

/-- `file if isinstance(file, PathProtocol) else RemotePath(file)`. -/
def FileArg.toPath : FileArg → PurePath
  | .str s => PurePath.ofString s
  | .path p => p

/-- The `files` argument of `run`, with what `bool(files)` says of it: a list, a tuple or a
`FileSet` is false exactly when empty; an iterator or a generator is always true. -/
inductive FileCollection where
  | sized (xs : List FileArg)
  | oneShot (xs : List FileArg)
  deriving DecidableEq, Repr

namespace FileCollection

/-- The elements, in iteration order. -/
def items : FileCollection → List FileArg
  | .sized xs => xs
  | .oneShot xs => xs

/-- `bool(files)`. -/
def truthy : FileCollection → Bool
  | .sized xs => !xs.isEmpty
  | .oneShot _ => true

end FileCollection

/-- An element of `DOWNLOAD_ITEMS_TYPE`: `(source_file, local_file, tmp_file)`. -/
structure Item where
  source : PurePath
  localFile : PurePath
  tmpFile : Option PurePath
  deriving DecidableEq, Repr

/-- The collaborator calls that may raise. -/
inductive Call where
  | check
  | getDirectory
  | walk
  | pathExists
  | getFile
  | downloadFile
  | unlink
  | mkdir
  | move
  | save
  | removeFile
  | rmtree
  deriving DecidableEq, Repr

/-- The exceptions the run raises or records. -/
inductive Error where
  | snapshotStrategy
  | offsetStrategy
  | batchStrategy
  | noFiles
  | notADirectory (p : PurePath)
  | relativeWithoutSource
  | pathMismatch (file source : PurePath)
  | alreadyExists (p : PurePath)
  | notFound (p : PurePath)
  | listing (source : PurePath)
  /-- The `except` block of `_download_file` reads `remote_file` before it was assigned. -/
  | unboundRemoteFile
  /-- An exception raised inside a collaborator call. -/
  | raised (c : Call)
  deriving DecidableEq, Repr

/-- `DownloadResult`: the four buckets, in the order of their `add` calls. -/
structure DownloadResult where
  successful : List PurePath := []
  failed : List (PurePath × Error) := []
  skipped : List PurePath := []
  missing : List PurePath := []
  deriving DecidableEq, Repr

/-- The local file system, the connection's file system and the HWM store's entry under the
downloader's qualified name. Both file systems hold files under their normalised path, which is
what resolving `".."` on access amounts to. Directories are not represented: a directory of the real
file systems is a path with a file strictly below it, and an empty one has no counterpart
(`DirectoryFree` says where this makes no difference). The world changes only by the run's own
calls: what other processes do shows in the collaborators' replies (`Reply.absent`). -/
structure World (H : Type) where
  localFs : PurePath → Option Bytes
  remoteFs : PurePath → Option Bytes
  store : Option H

namespace World

variable {H : Type}

/-- The local file at `p`, if any (`p.exists()` and `p.read_bytes()`). -/
def localAt (w : World H) (p : PurePath) : Option Bytes := w.localFs p.normalize

/-- The remote file at `p`, if any. -/
def remoteAt (w : World H) (p : PurePath) : Option Bytes := w.remoteFs p.normalize

/-- Write (`some c`) or remove (`none`) the local file at `p`. -/
def setLocal (w : World H) (p : PurePath) (v : Option Bytes) : World H :=
  { w with localFs := Function.update w.localFs p.normalize v }

/-- `shutil.move(src, dst)` within one file system: `dst` takes the content of `src`, which is
removed; `none` when there is no file at `src`. -/
def moveLocal (w : World H) (src dst : PurePath) : Option (World H) :=
  (w.localAt src).map fun c => (w.setLocal src none).setLocal dst (some c)

/-- Remove the remote file at `p`. -/
def removeRemote (w : World H) (p : PurePath) : World H :=
  { w with remoteFs := Function.update w.remoteFs p.normalize none }

/-- `shutil.rmtree(dir)`: every local file strictly below `dir` removed. -/
def clearBelow (w : World H) (dir : PurePath) : World H :=
  { w with localFs := fun q => if dir.normalize ∈ q.parents then none else w.localFs q }

/-- `shutil.rmtree(dir)` that raised partway, after deleting the files `gone`: those of them
strictly below `dir` are removed, every other file stays. -/
def clearSome (w : World H) (dir : PurePath) (gone : List PurePath) : World H :=
  { w with localFs := fun q =>
      if dir.normalize ∈ q.parents ∧ q ∈ gone.map PurePath.normalize then none else w.localFs q }

/-- `hwm_store.save(file_hwm)`: the store's entry replaced. -/
def setStore (w : World H) (h : Option H) : World H := { w with store := h }

variable (w : World H) (p q : PurePath)

@[simp] theorem localAt_setLocal (v : Option Bytes) :
    (w.setLocal p v).localAt q = if q.normalize = p.normalize then v else w.localAt q := by
  simp only [localAt, setLocal, Function.update_apply]

@[simp] theorem setLocal_inj {v v' : Option Bytes} : w.setLocal p v = w.setLocal p v' ↔ v = v' := by
  refine ⟨fun h => ?_, fun h => h ▸ rfl⟩
  simpa using congrArg (fun w : World H => w.localAt p) h

@[simp] theorem setLocal_setLocal (v v' : Option Bytes) :
    (w.setLocal p v).setLocal p v' = w.setLocal p v' := by
  simp [setLocal, Function.update_idem]

@[simp] theorem remoteAt_setLocal (v : Option Bytes) : (w.setLocal p v).remoteAt q = w.remoteAt q :=
  rfl

@[simp] theorem store_setLocal (v : Option Bytes) : (w.setLocal p v).store = w.store := rfl

@[simp] theorem localAt_removeRemote : (w.removeRemote p).localAt q = w.localAt q := rfl

@[simp] theorem remoteAt_removeRemote :
    (w.removeRemote p).remoteAt q = if q.normalize = p.normalize then none else w.remoteAt q := by
  simp only [remoteAt, removeRemote, Function.update_apply]

@[simp] theorem store_removeRemote : (w.removeRemote p).store = w.store := rfl

theorem localAt_clearBelow :
    (w.clearBelow p).localAt q = if p.normalize ∈ q.normalize.parents then none else w.localAt q :=
  rfl

@[simp] theorem remoteAt_clearBelow : (w.clearBelow p).remoteAt q = w.remoteAt q := rfl

@[simp] theorem store_clearBelow : (w.clearBelow p).store = w.store := rfl

theorem localAt_clearSome (gone : List PurePath) :
    (w.clearSome p gone).localAt q =
      if p.normalize ∈ q.normalize.parents ∧ q.normalize ∈ gone.map PurePath.normalize then none
      else w.localAt q :=
  rfl

theorem localAt_clearBelow_of_not_inside (h : ¬ q.StrictlyInside p) :
    (w.clearBelow p).localAt q = w.localAt q := if_neg h

theorem localAt_clearSome_of_not_inside (gone : List PurePath) (h : ¬ q.StrictlyInside p) :
    (w.clearSome p gone).localAt q = w.localAt q := if_neg fun h' => h h'.1

@[simp] theorem remoteAt_clearSome (gone : List PurePath) :
    (w.clearSome p gone).remoteAt q = w.remoteAt q := rfl

@[simp] theorem store_clearSome (gone : List PurePath) : (w.clearSome p gone).store = w.store :=
  rfl

@[simp] theorem localAt_setStore (h : Option H) : (w.setStore h).localAt q = w.localAt q := rfl

@[simp] theorem remoteAt_setStore (h : Option H) : (w.setStore h).remoteAt q = w.remoteAt q := rfl

@[simp] theorem store_setStore (h : Option H) : (w.setStore h).store = h := rfl

theorem moveLocal_eq_some {w' : World H} :
    w.moveLocal p q = some w' ↔ ∃ c, w.localAt p = some c ∧ w' = (w.setLocal p none).setLocal q (some c) := by
  unfold moveLocal
  cases w.localAt p <;> simp [eq_comm]

end World

/-- The paths an item writes locally: its `local_file` and its `tmp_file`. -/
def Item.localPaths (it : Item) : List PurePath := it.localFile :: it.tmpFile.toList

/-- The items' paths meet no directory: no file of `w` lies strictly below an item's source or one
of its local paths, and no item's local path lies strictly below another's, so the files a run
writes are not below one either. Then `path_exists` of a source, `local_file.exists()`, and
`download_file` and `shutil.move` at an item's local paths see exactly the file the model holds
at that path, as they would if the real file systems held no other directories than the parents of
their files. -/
structure DirectoryFree {H : Type} (w : World H) (items : List Item) : Prop where
  remote : ∀ it ∈ items, ∀ q, q.StrictlyInside it.source → w.remoteAt q = none
  localFiles : ∀ it ∈ items, ∀ p ∈ it.localPaths, ∀ q, q.StrictlyInside p → w.localAt q = none
  nested : ∀ it ∈ items, ∀ jt ∈ items, ∀ p ∈ it.localPaths, ∀ p' ∈ jt.localPaths,
    ¬ p'.StrictlyInside p

/-- `DirectoryFree` of a world whose files are among the normal paths `ls` and `rs`, from a check
on these lists. -/
theorem DirectoryFree.of_support {H : Type} {w : World H} {items : List Item}
    (ls rs : List PurePath)
    (hl : ∀ q, w.localFs q ≠ none → q ∈ ls) (hr : ∀ q, w.remoteFs q ≠ none → q ∈ rs)
    (hls : ∀ it ∈ items, ∀ p ∈ it.localPaths, ∀ x ∈ ls, p.normalize ∉ x.parents)
    (hrs : ∀ it ∈ items, ∀ x ∈ rs, it.source.normalize ∉ x.parents)
    (hn : ∀ it ∈ items, ∀ jt ∈ items, ∀ p ∈ it.localPaths, ∀ p' ∈ jt.localPaths,
      ¬ p'.StrictlyInside p) :
    DirectoryFree w items where
  remote it hit _ hq := by_contra fun h => hrs it hit _ (hr _ h) hq
  localFiles it hit p hp _ hq := by_contra fun h => hls it hit p hp _ (hl _ h) hq
  nested := hn

end Onetl.Downloader
