import Mathlib.Data.List.Basic

/-!
# Pure POSIX paths

`RemotePath` and `LocalPath` of `onetl.impl` are `PurePosixPath` and `PosixPath`. Both are an
anchor and a list of components, and every operation `FileDownloader` applies to them is lexical:
`/`, `.name`, `.parents`, `relative_to` and `is_absolute` never consult a file system. This module
models exactly that structure. A `Component` carries the well-formedness `pathlib` gives every
part it keeps (nonempty, not `"."`, no `'/'`), so a malformed part cannot be built.

The anchor is empty, `/`, or `//`: `pathlib` keeps exactly two leading slashes as an anchor of
their own (POSIX leaves their meaning to the implementation), so `//src/a` is not below `/src`.

`".."` is an ordinary component for `pathlib`. A file system resolves it; `normalize` does the
same lexically, and `StrictlyInside` is containment after normalisation. A `Plain` path has no
`".."` component and is its own normal form (`normalize_of_plain`).
-/

set_option autoImplicit false

namespace Onetl.Path

/-- What `pathlib` keeps as a path component: nonempty, not `"."`, and without `'/'`. -/
def ComponentOk (s : String) : Prop := s ≠ "" ∧ s ≠ "." ∧ '/' ∉ s.toList

instance : DecidablePred ComponentOk := fun s => by unfold ComponentOk; infer_instance

/-- A path component. -/
abbrev Component := { s : String // ComponentOk s }

/-- The parent-directory component `".."`. -/
def dotdot : Component := ⟨"..", by decide⟩

/-- The anchor of a POSIX path: none, the root `/`, or the two slashes `//`. -/
inductive Anchor where
  | none
  | slash
  | doubleSlash
  deriving DecidableEq, Repr

/-- `posixpath.splitroot`: two leading slashes are an anchor, one or three and more are the root. -/
def Anchor.ofChars : List Char → Anchor
  | '/' :: '/' :: '/' :: _ => .slash
  | '/' :: '/' :: _ => .doubleSlash
  | '/' :: _ => .slash
  | _ => .none

/-- A pure POSIX path: its anchor and its components. -/
structure PurePath where
  anchor : Anchor
  parts : List Component
  deriving DecidableEq, Repr

namespace PurePath

/-- The root `/`. -/
def root : PurePath := ⟨.slash, []⟩

/-- `p.is_absolute()`: the path has an anchor. -/
def absolute (p : PurePath) : Bool := p.anchor != .none

/-- `PurePosixPath(s)`: the anchor, then the parts between slashes, dropping empty and `"."`
parts. -/
def ofString (s : String) : PurePath :=
  ⟨Anchor.ofChars s.toList, ((s.toList.splitOn '/').map String.mk).filterMap
    fun c => if h : ComponentOk c then some ⟨c, h⟩ else none⟩

example : (ofString "//src/a").anchor = .doubleSlash ∧ ofString "///src//./a" = ofString "/src/a" := by
  decide

/-- `p / q`: an absolute right operand replaces the left one. -/
def join (p q : PurePath) : PurePath :=
  if q.absolute then q else ⟨p.anchor, p.parts ++ q.parts⟩

instance : Div PurePath := ⟨join⟩

/-- `p.is_absolute()`. -/
def isAbsolute (p : PurePath) : Bool := p.absolute

/-- `PurePosixPath(p.name)`: the last component as a relative path, empty at the root. Joining it
is what `local_path / p.name` does, since `PurePosixPath("")` has no component. -/
def name (p : PurePath) : PurePath := ⟨.none, p.parts.getLast?.toList⟩

/-- `p.parents`: the proper ancestors, nearest first, with the anchor of `p`. -/
def parents (p : PurePath) : List PurePath :=
  (List.range p.parts.length).reverse.map fun k => ⟨p.anchor, p.parts.take k⟩

/-- `p.relative_to(base)` at an ancestor `base`, the only place it is called: the components
after those of `base`, as a relative path. -/
def relativeTo (p base : PurePath) : PurePath := ⟨.none, p.parts.drop base.parts.length⟩

/-- `str(p)`, as the error messages print a path. -/
def render (p : PurePath) : String :=
  let body := "/".intercalate (p.parts.map Subtype.val)
  match p.anchor with
  | .none => if body = "" then "." else body
  | .slash => "/" ++ body
  | .doubleSlash => "//" ++ body

/-- One component of lexical normalisation, on a stack whose head is the last kept component:
`".."` cancels a kept component, stays at the root of an absolute path, and is kept otherwise. -/
def pushPart (absolute : Bool) (st : List Component) (c : Component) : List Component :=
  if c = dotdot then
    match st with
    | [] => if absolute then [] else [c]
    | d :: ds => if d = dotdot then c :: d :: ds else ds
  else c :: st

/-- Lexical normalisation, what a file system makes of the `".."` components. Like
`os.path.normpath` it keeps the anchor, `//` included. -/
def normalize (p : PurePath) : PurePath :=
  ⟨p.anchor, (p.parts.foldl (pushPart p.absolute) []).reverse⟩

/-- `Path(p).resolve()` in the working directory `cwd`, on a file system without symbolic links:
made absolute against `cwd`, then its `".."` components resolved. -/
def resolve (cwd p : PurePath) : PurePath := (cwd / p).normalize

/-- No `".."` component. -/
def Plain (p : PurePath) : Prop := dotdot ∉ p.parts

instance (p : PurePath) : Decidable p.Plain := inferInstanceAs (Decidable (dotdot ∉ p.parts))

/-- `p` lies strictly inside `base` once both are normalised. -/
def StrictlyInside (p base : PurePath) : Prop := base.normalize ∈ p.normalize.parents

instance (p base : PurePath) : Decidable (p.StrictlyInside base) :=
  inferInstanceAs (Decidable (_ ∈ _))

/-! ## Lexical operations -/

@[simp] theorem absolute_eq_false_iff {p : PurePath} : p.absolute = false ↔ p.anchor = .none := by
  simp [absolute]

@[simp] theorem join_of_relative (p : PurePath) {q : PurePath} (hq : q.absolute = false) :
    p / q = ⟨p.anchor, p.parts ++ q.parts⟩ := by
  show join p q = _
  simp [join, hq]

/-- `q` is a proper ancestor of `p` exactly when it has the same anchor and its components are
a strict prefix of those of `p`. -/
theorem mem_parents_iff {p q : PurePath} :
    q ∈ p.parents ↔ q.anchor = p.anchor ∧ ∃ rest, rest ≠ [] ∧ p.parts = q.parts ++ rest := by
  simp only [parents, List.mem_map, List.mem_reverse, List.mem_range]
  constructor
  · rintro ⟨k, hk, rfl⟩
    refine ⟨rfl, p.parts.drop k, ?_, (List.take_append_drop k p.parts).symm⟩
    simpa using hk
  · rintro ⟨ha, rest, hne, hp⟩
    refine ⟨q.parts.length, ?_, ?_⟩
    · simpa [hp] using List.length_pos.2 hne
    · cases q
      simp only at ha hp ⊢
      simp [ha, hp]

/-! ## Normalisation -/

theorem foldl_pushPart_of_plain (a : Bool) :
    ∀ (l st : List Component), dotdot ∉ l → l.foldl (pushPart a) st = l.reverse ++ st
  | [], _, _ => rfl
  | c :: l, st, h => by
    have hc : c ≠ dotdot := fun e => h (e ▸ List.mem_cons_self c l)
    have hl : dotdot ∉ l := fun m => h (List.mem_cons_of_mem c m)
    simp [pushPart, hc, foldl_pushPart_of_plain a l (c :: st) hl]

/-- A path without `".."` is its own normal form. -/
theorem normalize_of_plain {p : PurePath} (h : p.Plain) : p.normalize = p := by
  simp [normalize, foldl_pushPart_of_plain _ _ _ h]

/-- On an absolute path normalisation keeps no `".."`: at the root it is dropped, elsewhere it
cancels the component before it, which is never itself `".."`. -/
theorem dotdot_not_mem_foldl_pushPart :
    ∀ (l st : List Component), dotdot ∉ st → dotdot ∉ l.foldl (pushPart true) st
  | [], _, h => h
  | c :: l, st, h => by
    refine dotdot_not_mem_foldl_pushPart l _ ?_
    unfold pushPart
    split
    · split
      · exact List.not_mem_nil _
      · rename_i d ds
        have hd : d ≠ dotdot := fun e => h (e ▸ List.mem_cons_self d ds)
        rw [if_neg hd]
        exact fun m => h (List.mem_cons_of_mem d m)
    · rename_i hc
      exact fun m => (List.mem_cons.1 m).elim (fun e => hc e.symm) h

theorem normalize_plain_of_absolute {p : PurePath} (h : p.absolute = true) : p.normalize.Plain := by
  simp only [Plain, normalize, List.mem_reverse, h]
  exact dotdot_not_mem_foldl_pushPart _ [] (List.not_mem_nil _)

/-- A path resolved in an absolute working directory is absolute and has no `".."`. -/
theorem resolve_absolute_plain {cwd : PurePath} (hcwd : cwd.absolute = true) (p : PurePath) :
    (cwd.resolve p).absolute = true ∧ (cwd.resolve p).Plain := by
  have habs : (cwd / p).absolute = true := by
    show (join cwd p).absolute = true
    unfold join
    split <;> assumption
  exact ⟨habs, normalize_plain_of_absolute habs⟩

/-- Appending at least one component to a plain path gives a path strictly inside it. -/
theorem strictlyInside_append {base : PurePath} {rest : List Component}
    (h : (⟨base.anchor, base.parts ++ rest⟩ : PurePath).Plain) (hr : rest ≠ []) :
    StrictlyInside ⟨base.anchor, base.parts ++ rest⟩ base := by
  have hb : base.Plain := fun m => h (List.mem_append_left rest m)
  rw [StrictlyInside, normalize_of_plain h, normalize_of_plain hb, mem_parents_iff]
  exact ⟨rfl, rest, hr, rfl⟩

end PurePath

end Onetl.Path
