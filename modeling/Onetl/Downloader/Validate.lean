import Onetl.Downloader.Machine
import Mathlib.Data.List.Nodup

/-!
# `_validate_files`

`resolveFile` joins every element to `local_path`, to the temp directory and, for a relative
element, to `source_path`. The joins are lexical, and the containment test `source_path in
remote_file_path.parents` is lexical too, so an element with a `".."` component is accepted and
lands outside `local_path` after normalisation; the run then reads a remote file outside
`source_path` and writes it outside `local_path` (`validate_files_escapes_local_path`).

For an element without `".."` and with at least one component, every path of its item lies
strictly inside its root (`resolveFile_strictlyInside`).

`validItems` is what `_validate_files` returns when no call raises: the elements resolved in order,
each added to the `OrderedSet` once.
-/

set_option autoImplicit false

namespace Onetl.Downloader

open Onetl.Path

variable {H : Type}

/-- The loop of `_validate_files` when `path_exists` and `get_file` return. -/
def validItemsAux (cfg : Config H) (tmp : Option PurePath) : List FileArg → List Item →
    Except Error (List Item)
  | [], acc => .ok acc
  | f :: fs, acc =>
    match resolveFile cfg tmp f with
    | .error e => .error e
    | .ok it => validItemsAux cfg tmp fs (addItem acc it)

/-- `_validate_files(files, current_temp_dir)` when no call raises. -/
def validItems (cfg : Config H) (tmp : Option PurePath) (files : List FileArg) :
    Except Error (List Item) :=
  validItemsAux cfg tmp files []

/-- An element that `resolveFile` rejects makes `_validate_files` raise, wherever it stands. -/
theorem validItemsAux_error_of_mem (cfg : Config H) (tmp : Option PurePath) {f : FileArg}
    {e : Error} (h : resolveFile cfg tmp f = .error e) :
    ∀ (fs : List FileArg) (acc : List Item), f ∈ fs → ∃ e', validItemsAux cfg tmp fs acc = .error e'
  | g :: gs, acc, hf => by
    simp only [validItemsAux]
    rcases List.mem_cons.1 hf with rfl | hf
    · exact ⟨e, by rw [h]⟩
    · split
      · exact ⟨_, rfl⟩
      · exact validItemsAux_error_of_mem cfg tmp h gs _ hf

theorem addItem_nodup {acc : List Item} (h : acc.Nodup) (it : Item) : (addItem acc it).Nodup := by
  unfold addItem
  split
  · exact h
  · exact h.append (List.nodup_singleton it) (List.disjoint_singleton.2 ‹_›)

theorem mem_addItem {acc : List Item} {it jt : Item} : jt ∈ addItem acc it ↔ jt ∈ acc ∨ jt = it := by
  unfold addItem
  split <;> simp_all [or_iff_left_of_imp]

/-- `_validate_files` returns every item once, each built by `resolveFile` from an element. -/
theorem validItemsAux_spec (cfg : Config H) (tmp : Option PurePath) :
    ∀ (fs : List FileArg) (acc items : List Item), validItemsAux cfg tmp fs acc = .ok items →
      acc.Nodup → items.Nodup ∧ ∀ it ∈ items, it ∈ acc ∨ ∃ f ∈ fs, resolveFile cfg tmp f = .ok it
  | [], acc, items, h, hn => by
    cases h
    exact ⟨hn, fun it hit => .inl hit⟩
  | f :: fs, acc, items, h, hn => by
    simp only [validItemsAux] at h
    split at h
    · cases h
    · rename_i it hf
      obtain ⟨hnd, hmem⟩ := validItemsAux_spec cfg tmp fs _ items h (addItem_nodup hn it)
      refine ⟨hnd, fun jt hjt => ?_⟩
      rcases hmem jt hjt with hj | ⟨g, hg, hgj⟩
      · rcases mem_addItem.1 hj with hj | rfl
        · exact .inl hj
        · exact .inr ⟨f, List.mem_cons_self _ _, hf⟩
      · exact .inr ⟨g, List.mem_cons_of_mem _ hg, hgj⟩

/-- An item has a `tmp_file` exactly when the run has a temp directory. -/
theorem resolveFile_tmpFile (cfg : Config H) (tmp : Option PurePath) {f : FileArg} {it : Item}
    (h : resolveFile cfg tmp f = .ok it) : it.tmpFile.isSome = tmp.isSome := by
  unfold resolveFile at h
  cases hS : cfg.sourcePath <;> simp only [hS] at h <;> (repeat' split at h) <;> cases h <;>
    cases tmp <;> rfl

/-- An absolute path element that passes the checks is its own source. -/
theorem resolveFile_path_source (cfg : Config H) (tmp : Option PurePath) {p : PurePath} {it : Item}
    (hp : p.absolute = true) (h : resolveFile cfg tmp (.path p) = .ok it) : it.source = p := by
  unfold resolveFile at h
  cases hS : cfg.sourcePath <;>
    simp only [hS, FileArg.toPath, PurePath.isAbsolute, hp, Bool.not_true, Bool.false_eq_true,
      if_false] at h
  case none => cases h; rfl
  case some S =>
    split at h
    · cases h; rfl
    · cases h

/-! ## Lexical containment -/

/-- Normalising a path extended by components without `".."` normalises the base only. -/
theorem normalize_append_plain (a : Anchor) (xs : List Component) {rest : List Component}
    (h : dotdot ∉ rest) :
    PurePath.normalize ⟨a, xs ++ rest⟩ = ⟨a, (PurePath.normalize ⟨a, xs⟩).parts ++ rest⟩ := by
  simp [PurePath.normalize, PurePath.absolute, List.foldl_append,
    PurePath.foldl_pushPart_of_plain _ rest _ h]

/-- A base extended by at least one component without `".."` contains the result strictly. -/
theorem strictlyInside_join (base : PurePath) {rest : List Component} (h : dotdot ∉ rest)
    (hne : rest ≠ []) : PurePath.StrictlyInside ⟨base.anchor, base.parts ++ rest⟩ base := by
  rw [PurePath.StrictlyInside, normalize_append_plain _ _ h, PurePath.mem_parents_iff]
  exact ⟨rfl, rest, hne, rfl⟩

theorem join_strictlyInside (base : PurePath) {q : PurePath} (hq : q.absolute = false)
    (h : q.Plain) (hne : q.parts ≠ []) : (base / q).StrictlyInside base := by
  rw [PurePath.join_of_relative base hq]
  exact strictlyInside_join base h hne

theorem name_plain (p : PurePath) (h : p.Plain) : p.name.Plain :=
  fun hm => h (List.mem_of_getLast?_eq_some (Option.mem_toList.1 hm))

theorem name_parts_ne_nil (p : PurePath) (hne : p.parts ≠ []) : p.name.parts ≠ [] := by
  simp [PurePath.name, List.getLast?_eq_getLast p.parts hne]

theorem relativeTo_of_mem_parents {p S : PurePath} (h : S ∈ p.parents) :
    p = ⟨S.anchor, S.parts ++ (p.relativeTo S).parts⟩ ∧ (p.relativeTo S).absolute = false ∧
      (p.relativeTo S).parts ≠ [] ∧ ∀ c ∈ (p.relativeTo S).parts, c ∈ p.parts := by
  obtain ⟨ha, rest, hne, hp⟩ := PurePath.mem_parents_iff.1 h
  have hrel : (p.relativeTo S).parts = rest := by simp [PurePath.relativeTo, hp]
  refine ⟨?_, rfl, hrel ▸ hne, fun c hc => ?_⟩
  · cases p
    simp_all
  · rw [hp]
    exact List.mem_append_right _ (hrel ▸ hc)

/-- `local_path / q` and `temp_dir / q`, for a relative `q` without `".."`, lie strictly inside
their roots. -/
theorem joined_strictlyInside (lp : PurePath) (tmp : Option PurePath) {q : PurePath}
    (hq : q.absolute = false) (h : q.Plain) (hne : q.parts ≠ []) :
    (lp / q).StrictlyInside lp ∧
      ∀ T t, tmp = some T → tmp.map (· / q) = some t → t.StrictlyInside T :=
  ⟨join_strictlyInside _ hq h hne, by rintro T t rfl ⟨⟩; exact join_strictlyInside _ hq h hne⟩

/-- **Every path of the item of an element without `".."` lies strictly inside its root**:
`local_file` inside `local_path`, `tmp_file` inside the temp directory, and, with a
`source_path`, the source inside it. -/
theorem resolveFile_strictlyInside (cfg : Config H) (tmp : Option PurePath) {f : FileArg}
    {it : Item} (hplain : f.toPath.Plain) (hne : f.toPath.parts ≠ [])
    (h : resolveFile cfg tmp f = .ok it) :
    it.localFile.StrictlyInside cfg.localPath ∧
      (∀ T t, tmp = some T → it.tmpFile = some t → t.StrictlyInside T) ∧
      (∀ S, cfg.sourcePath = some S → it.source.StrictlyInside S) := by
  unfold resolveFile at h
  generalize f.toPath = p at h hplain hne
  rcases hS : cfg.sourcePath with _ | S <;> simp only [hS] at h
  · split at h
    · cases h
    · cases h
      obtain ⟨hl, ht⟩ := joined_strictlyInside cfg.localPath tmp (rfl : p.name.absolute = false)
        (name_plain p hplain) (name_parts_ne_nil p hne)
      exact ⟨hl, ht, by simp⟩
  · split at h
    · rename_i hpar
      obtain ⟨hp, hrel, hrne, hsub⟩ := relativeTo_of_mem_parents hpar
      have hrp : (p.relativeTo S).Plain := fun hm => hplain (hsub _ hm)
      cases h
      obtain ⟨hl, ht⟩ := joined_strictlyInside cfg.localPath tmp hrel hrp hrne
      refine ⟨hl, ht, ?_⟩
      rintro S' ⟨⟩
      rw [hp]
      exact strictlyInside_join S hrp hrne
    · split at h
      · rename_i habs
        have hrel : p.absolute = false := by simpa [PurePath.isAbsolute] using habs
        cases h
        obtain ⟨hl, ht⟩ := joined_strictlyInside cfg.localPath tmp hrel hplain hne
        exact ⟨hl, ht, by rintro S' ⟨⟩; exact join_strictlyInside S hrel hplain hne⟩
      · cases h

/-- The relative element `"a/b"` under `source_path="/src"`, staged under `/tmp/t`. -/
theorem resolveFile_strictlyInside_relative :
    (FileArg.str "a/b").toPath.Plain ∧ (FileArg.str "a/b").toPath.parts ≠ [] ∧
      resolveFile srcToLocal (some (.ofString "/tmp/t")) (.str "a/b") =
        .ok ⟨.ofString "/src/a/b", .ofString "/local/a/b", some (.ofString "/tmp/t/a/b")⟩ ∧
      ((PurePath.ofString "/local/a/b").StrictlyInside srcToLocal.localPath ∧
        (∀ T t, some (PurePath.ofString "/tmp/t") = some T → some (PurePath.ofString "/tmp/t/a/b") = some t →
          t.StrictlyInside T) ∧
        (∀ S, srcToLocal.sourcePath = some S → (PurePath.ofString "/src/a/b").StrictlyInside S)) :=
  have h : resolveFile srcToLocal (some (.ofString "/tmp/t")) (.str "a/b") =
      .ok ⟨.ofString "/src/a/b", .ofString "/local/a/b", some (.ofString "/tmp/t/a/b")⟩ := rfl
  ⟨by decide, by decide, h, resolveFile_strictlyInside srcToLocal _ (by decide) (by decide) h⟩

/-! ## An element that leaves both roots -/

/-- `/etc/passwd`. -/
def etcPasswd : PurePath := ⟨.slash, [⟨"etc", by decide⟩, ⟨"passwd", by decide⟩]⟩

/-- A remote file `/etc/passwd` and no local file. -/
def remotePasswd : World Unit := ⟨fun _ => none, fun q => if q = etcPasswd then some [7] else none, none⟩

/-- `run(["/src/../etc/passwd"])` against a remote holding `/etc/passwd`: `_validate_files`
accepts the element, and the run writes the remote `/etc/passwd`, outside `source_path`, to the
local `/etc/passwd`, outside `local_path`. -/
theorem validate_files_escapes_local_path :
    (srcToLocalRun.downloaderRun (some (.sized [.str "/src/../etc/passwd"])) remotePasswd
        (List.replicate 7 .ok)).phase = .done ∧
      (srcToLocalRun.downloaderRun (some (.sized [.str "/src/../etc/passwd"])) remotePasswd
        (List.replicate 7 .ok)).result.successful.map PurePath.normalize = [etcPasswd] ∧
      (srcToLocalRun.downloaderRun (some (.sized [.str "/src/../etc/passwd"])) remotePasswd
        (List.replicate 7 .ok)).world.localAt etcPasswd = some [7] ∧
      ¬ etcPasswd.StrictlyInside srcToLocal.localPath ∧
      ¬ etcPasswd.StrictlyInside ⟨.slash, [⟨"src", by decide⟩]⟩ := by
  decide

end Onetl.Downloader
