import Onetl.Downloader.Model

/-!
# The validators of `FileDownloader`

`FileDownloader` is a pydantic model. Its four validators are `pre=True, always=True`, so they run
on the values given to the constructor, in the order the fields are declared, and
`check_hwm_type` reads the `source_path` that `check_source_path` has already produced:

* `resolve_local_path` resolves `local_path` in the working directory;
* `check_source_path` and `check_temp_path` turn a false value into `None`, and `temp_path` is
  resolved like `local_path`;
* `check_hwm_type` rejects an `hwm_type` given without a `source_path`, and `_check_hwm_type` one
  that is not a subclass of `FileHWM`.

`create` is the whole construction: the arguments become a `Config`, or pydantic's error for the
field `hwm_type`. The fields of `Config` that the rest of the development assumes (an absolute
`local_path` without `".."`, no `hwm_type` without a `source_path`) are what these validators
establish, so every `Config` that `create` returns carries them by construction.

An `hwm_type` given as a string goes through `HWMClassRegistry`, which is not part of the
repository: the model takes the class it returns. The working directory is `os.getcwd()`, which
is always absolute, and the file system has no symbolic links for `resolve()` to follow.
-/

set_option autoImplicit false

namespace Onetl.Downloader

open Onetl.Path

variable {H : Type}

/-- `bool(value)` of a path argument: an empty string is false, a path object is always true. -/
def FileArg.truthy : FileArg → Bool
  | .str s => !s.isEmpty
  | .path _ => true

/-- The working directory, `os.getcwd()`: always an absolute path. -/
abbrev WorkingDir := { cwd : PurePath // cwd.absolute = true }

/-- An `hwm_type` as `_check_hwm_type` sees it: a subclass of `FileHWM`, or another class, known by
its `__name__`. -/
inductive HwmClass (H : Type) where
  | file (kind : FileHWMKind H)
  | other (name : String)

/-- The arguments of `FileDownloader(...)` that the validators and the run read, with the
defaults the class declares. `FileLimit()` is the default of `limit`; its count is defined outside
the repository, so the model leaves it to the caller. -/
structure Args (H : Type) where
  localPath : FileArg
  sourcePath : Option FileArg := none
  tempPath : Option FileArg := none
  filter : Option (PurePath → Bool) := none
  limit : Option Nat
  hwmType : Option (HwmClass H) := none
  options : Options := {}

/-- An entry of pydantic's `ValidationError`: the field and the text of the `ValueError` its
validator raised. -/
structure FieldError where
  loc : String
  msg : String
  deriving DecidableEq, Repr

/-- `resolve_local_path`: `LocalPath(local_path).resolve()`. -/
def resolveLocalPath (cwd : WorkingDir) (localPath : FileArg) : PurePath :=
  cwd.1.resolve localPath.toPath

/-- `check_source_path`: `RemotePath(source_path) if source_path else None`. -/
def checkSourcePath (sourcePath : Option FileArg) : Option PurePath :=
  sourcePath.bind fun s => if s.truthy then some s.toPath else none

/-- `check_temp_path`: `LocalPath(temp_path).resolve() if temp_path else None`. -/
def checkTempPath (cwd : WorkingDir) (tempPath : Option FileArg) : Option PurePath :=
  tempPath.bind fun t => if t.truthy then some (cwd.1.resolve t.toPath) else none

/-- `_check_hwm_type`: only subclasses of `FileHWM` pass. -/
def checkHwmClass : HwmClass H → Except String (FileHWMKind H)
  | .file kind => .ok kind
  | .other name => .error ("`hwm_type` class should be a inherited from FileHWM, got " ++ name)

/-- `check_hwm_type`, given the `source_path` its validator produced. -/
def checkHwmType (hwmType : Option (HwmClass H)) (sourcePath : Option PurePath) :
    Except String (Option (FileHWMKind H)) :=
  match hwmType with
  | none => .ok none
  | some c =>
    if sourcePath.isNone then .error "If `hwm_type` is passed, `source_path` must be specified"
    else (checkHwmClass c).map some

theorem checkHwmType_source {hwmType : Option (HwmClass H)} {sourcePath : Option PurePath}
    {kind : Option (FileHWMKind H)} (h : checkHwmType hwmType sourcePath = .ok kind) :
    kind.isSome = true → sourcePath.isSome = true := by
  intro hk
  cases hwmType with
  | none => cases h; cases hk
  | some c =>
    simp only [checkHwmType] at h
    split at h
    · cases h
    · cases sourcePath <;> simp_all

/-- The two texts `check_hwm_type` can fail with. -/
theorem checkHwmType_error {hwmType : Option (HwmClass H)} {sourcePath : Option PurePath}
    {msg : String} (h : checkHwmType hwmType sourcePath = .error msg) :
    msg = "If `hwm_type` is passed, `source_path` must be specified" ∨
      ∃ name, msg = "`hwm_type` class should be a inherited from FileHWM, got " ++ name := by
  cases hwmType with
  | none => cases h
  | some c =>
    simp only [checkHwmType] at h
    split at h
    · exact .inl (Except.error.inj h).symm
    · cases c with
      | file kind => cases h
      | other name => exact .inr ⟨name, (Except.error.inj h).symm⟩

theorem checkHwmType_isOk_iff (hwmType : Option (HwmClass H)) (sourcePath : Option PurePath) :
    (checkHwmType hwmType sourcePath).isOk = true ↔
      ∀ c ∈ hwmType, sourcePath.isSome = true ∧ ∃ kind, c = .file kind := by
  cases hwmType with
  | none => simp [checkHwmType, Except.isOk, Except.toBool]
  | some c =>
    cases sourcePath <;> cases c <;>
      simp [checkHwmType, checkHwmClass, Except.map, Except.isOk, Except.toBool]

/-- `FileDownloader(...)`: the validators, then the model with the values they returned. -/
def create (cwd : WorkingDir) (a : Args H) : Except FieldError (Config H) :=
  let sourcePath := checkSourcePath a.sourcePath
  match h : checkHwmType a.hwmType sourcePath with
  | .error msg => .error ⟨"hwm_type", msg⟩
  | .ok hwmType =>
    .ok { localPath := resolveLocalPath cwd a.localPath
          sourcePath
          tempPath := checkTempPath cwd a.tempPath
          filter := a.filter
          limit := a.limit
          hwmType
          options := a.options
          localPath_absolute := (PurePath.resolve_absolute_plain cwd.2 _).1
          localPath_plain := (PurePath.resolve_absolute_plain cwd.2 _).2
          hwmType_source := checkHwmType_source h }

/-- Every error of the construction is on the field `hwm_type`, with the text of one of the two
checks of that field. -/
theorem create_error {cwd : WorkingDir} {a : Args H} {e : FieldError}
    (h : create cwd a = .error e) :
    e.loc = "hwm_type" ∧ (e.msg = "If `hwm_type` is passed, `source_path` must be specified" ∨
      ∃ name, e.msg = "`hwm_type` class should be a inherited from FileHWM, got " ++ name) := by
  dsimp only [create] at h
  split at h
  · rename_i msg hc
    cases h
    exact ⟨rfl, checkHwmType_error hc⟩
  · cases h

theorem create_isOk (cwd : WorkingDir) (a : Args H) :
    (create cwd a).isOk = (checkHwmType a.hwmType (checkSourcePath a.sourcePath)).isOk := by
  dsimp only [create]
  split <;> rename_i hc <;> (conv_rhs => rw [hc]) <;> rfl

/-- **What the validators accept**: a downloader is built exactly when its `hwm_type` is absent,
or is a `FileHWM` class given with a `source_path` that is not false. -/
theorem create_isOk_iff (cwd : WorkingDir) (a : Args H) :
    (create cwd a).isOk = true ↔
      ∀ c ∈ a.hwmType, (checkSourcePath a.sourcePath).isSome = true ∧ ∃ kind, c = .file kind := by
  rw [create_isOk, checkHwmType_isOk_iff]

/-- The constructor's defaults pass every validator. -/
theorem create_defaults (cwd : WorkingDir) (localPath : FileArg) (limit : Option Nat) :
    (create cwd ({ localPath, limit } : Args H)).isOk = true :=
  (create_isOk_iff cwd _).2 fun _ hc => by cases hc

end Onetl.Downloader
