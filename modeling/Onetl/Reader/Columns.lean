import Mathlib.Data.List.DropRight
import Onetl.Connection.Jdbc

/-!
# The column list of `DBReader`

`DBReader._handle_columns` turns the `columns` argument, one string of comma-separated names or a
list of names, into the text the connection writes after `SELECT`. It splits a string at every
`,`, strips every name with `str.strip()`, and answers `*` when there is no name or one of the
names is `*`, and the names joined by `", "` otherwise.

The text lists the names it was given. Unless it is `*`, splitting it at `,` and stripping the
pieces gives the stripped names back in their order (`handleColumns_read_back`), provided no name
of a list holds a `,`. So passing that text to `DBReader` again changes nothing
(`handleColumns_idem`). A blank string, unlike an empty list, is not read as `*`: it gives an
empty column text (`handleColumns_str_eq_nil_iff`).
-/

set_option autoImplicit false

namespace Onetl.Reader

open Onetl.Connection (Str)

/-- `str.isspace()` of one code point, the whitespace that `str.strip()` removes: the code points
of bidirectional type `WS`, `B` or `S`, or of category `Zs`. -/
def isSpace (c : Char) : Bool :=
  let n := c.toNat
  (0x09 ≤ n && n ≤ 0x0D) || (0x1C ≤ n && n ≤ 0x20) || n == 0x85 || n == 0xA0 || n == 0x1680 ||
    (0x2000 ≤ n && n ≤ 0x200A) || n == 0x2028 || n == 0x2029 || n == 0x202F || n == 0x205F ||
    n == 0x3000

/-- `str.strip()`: the leading whitespace dropped, then the trailing whitespace. -/
def strip (s : Str) : Str := (s.dropWhile isSpace).rdropWhile isSpace

/-- The `columns` argument of `DBReader`: `str | list[str]`. -/
inductive Columns where
  | str (s : Str)
  | list (xs : List Str)
  deriving DecidableEq, Repr

/-- The items before they are stripped: `columns.split(",")` of a string, `list(columns)` of a
list. -/
def Columns.items : Columns → List Str
  | .str s => s.splitOn ','
  | .list xs => xs

/-- `DBReader._handle_columns`. -/
def handleColumns (columns : Columns) : Str :=
  let items := columns.items.map strip
  if items = [] ∨ "*".toList ∈ items then "*".toList else ", ".toList.intercalate items

/-! ## `str.strip()` -/

@[simp] theorem strip_space_cons (s : Str) : strip (' ' :: s) = strip s := by
  rw [strip, strip, List.dropWhile_cons_of_pos rfl]

/-- A stripped text starts with no whitespace: it is a prefix of a text that does not. -/
theorem dropWhile_strip (s : Str) : (strip s).dropWhile isSpace = strip s := by
  obtain ⟨u, hu⟩ : strip s <+: s.dropWhile isSpace := List.rdropWhile_prefix _ _
  match hs : strip s with
  | [] => rfl
  | x :: t =>
    have hx := List.head?_dropWhile_not isSpace s
    rw [← hu, hs] at hx
    exact List.dropWhile_cons_of_neg (by simpa using hx)

@[simp] theorem strip_strip (s : Str) : strip (strip s) = strip s := by
  show ((strip s).dropWhile isSpace).rdropWhile isSpace = strip s
  rw [dropWhile_strip]
  exact List.rdropWhile_idempotent _ _

theorem strip_subset (s : Str) : strip s ⊆ s :=
  fun _ h => (List.dropWhile_suffix isSpace).subset ((List.rdropWhile_prefix _ _).subset h)

theorem strip_eq_nil_iff (s : Str) : strip s = [] ↔ ∀ ch ∈ s, isSpace ch = true := by
  rw [← List.dropWhile_eq_nil_iff, strip, List.rdropWhile_eq_nil_iff, ← List.dropWhile_eq_nil_iff,
    List.dropWhile_idempotent]

/-! ## Splitting at `,` and joining with `", "` -/

/-- No piece of `s.split(",")` holds a `,`. -/
theorem comma_not_mem_splitOn : ∀ (s : Str), ∀ p ∈ s.splitOn ',', ',' ∉ p
  | [] => by simp
  | c :: s => by
    have ih := comma_not_mem_splitOn s
    obtain ⟨q, qs, hq⟩ := List.exists_cons_of_ne_nil (List.splitOnP_ne_nil (· == ',') s)
    simp only [List.splitOn, hq] at ih ⊢
    rw [List.splitOnP_cons, hq]
    by_cases h : c = ','
    · simpa [h] using ih
    · simpa [h, Ne.symm h] using ih

theorem intercalate_cons_head (sep z : Str) (c : Char) (rest : List Str) :
    sep.intercalate ((c :: z) :: rest) = c :: sep.intercalate (z :: rest) := by
  cases rest <;> simp [List.intercalate]

/-- `", ".join(items)` is `",".join` of the items, every item after the first behind a space. -/
theorem intercalate_comma_space (y : Str) (ys : List Str) :
    ", ".toList.intercalate (y :: ys) = [','].intercalate (y :: ys.map (' ' :: ·)) := by
  induction ys generalizing y with
  | nil => rfl
  | cons z zs ih =>
    simp only [List.map_cons, List.intercalate, List.intersperse_cons_cons, List.flatten_cons] at *
    rw [ih, ← List.intercalate, ← List.intercalate, intercalate_cons_head]
    simp

/-- Reading the joined names back: split at `,`, the pieces stripped. -/
theorem splitOn_join_strip {xs : List Str} (hne : xs ≠ []) (hc : ∀ x ∈ xs, ',' ∉ x) :
    ((", ".toList.intercalate (xs.map strip)).splitOn ',').map strip = xs.map strip := by
  obtain ⟨x, xs, rfl⟩ := List.exists_cons_of_ne_nil hne
  have hfree : ∀ l ∈ strip x :: (xs.map strip).map (' ' :: ·), ',' ∉ l := by
    simp only [List.mem_cons, List.map_map, List.mem_map, Function.comp_apply]
    rintro l (rfl | ⟨y, hy, rfl⟩)
    · exact fun h => hc x (List.mem_cons_self _ _) (strip_subset x h)
    · simpa using fun h => hc y (List.mem_cons_of_mem _ hy) (strip_subset y h)
  rw [List.map_cons, intercalate_comma_space,
    List.splitOn_intercalate _ ',' hfree (List.cons_ne_nil _ _)]
  simp [Function.comp_def]

/-! ## The column text -/

theorem handleColumns_of_star {c : Columns} (h : c.items = [] ∨ "*".toList ∈ c.items.map strip) :
    handleColumns c = "*".toList := by
  simp only [handleColumns, List.map_eq_nil_iff]
  exact if_pos h

theorem handleColumns_of_names {c : Columns}
    (h : ¬ (c.items = [] ∨ "*".toList ∈ c.items.map strip)) :
    handleColumns c = ", ".toList.intercalate (c.items.map strip) := by
  simp only [handleColumns, List.map_eq_nil_iff]
  exact if_neg h

/-- The column text depends on the stripped items only. -/
theorem handleColumns_congr {c d : Columns} (h : c.items.map strip = d.items.map strip) :
    handleColumns c = handleColumns d := by
  simp only [handleColumns, h]

theorem Columns.str_items_comma_free (s : Str) : ∀ x ∈ (Columns.str s).items, ',' ∉ x :=
  comma_not_mem_splitOn s

/-- **What the reader asks for.** The column text is `*` exactly when there is no item or one of
the stripped items is `*`; any other text, split at `,` and stripped, gives the stripped items
back in their order. -/
theorem handleColumns_read_back (c : Columns) (hc : ∀ x ∈ c.items, ',' ∉ x) :
    (handleColumns c = "*".toList ↔ c.items = [] ∨ "*".toList ∈ c.items.map strip) ∧
      (handleColumns c ≠ "*".toList →
        ((handleColumns c).splitOn ',').map strip = c.items.map strip) := by
  by_cases hstar : c.items = [] ∨ "*".toList ∈ c.items.map strip
  · have h := handleColumns_of_star hstar
    exact ⟨iff_of_true h hstar, fun hn => absurd h hn⟩
  · have hback := splitOn_join_strip (not_or.1 hstar).1 hc
    rw [← handleColumns_of_names hstar] at hback
    refine ⟨iff_of_false (fun h => hstar (.inr ?_)) hstar, fun _ => hback⟩
    rw [← hback, h]
    decide

theorem handleColumns_read_back_names :
    (∀ x ∈ (Columns.list ["id".toList, " name ".toList]).items, ',' ∉ x) ∧
      ((handleColumns (.list ["id".toList, " name ".toList]) = "*".toList ↔
        (Columns.list ["id".toList, " name ".toList]).items = [] ∨
          "*".toList ∈ (Columns.list ["id".toList, " name ".toList]).items.map strip) ∧
      (handleColumns (.list ["id".toList, " name ".toList]) ≠ "*".toList →
        ((handleColumns (.list ["id".toList, " name ".toList])).splitOn ',').map strip =
          (Columns.list ["id".toList, " name ".toList]).items.map strip)) :=
  ⟨by decide, handleColumns_read_back _ (by decide)⟩

/-- **Normalising twice changes nothing.** The column text, given back to `DBReader` as its
`columns` string, gives itself. -/
theorem handleColumns_idem (c : Columns) (hc : ∀ x ∈ c.items, ',' ∉ x) :
    handleColumns (.str (handleColumns c)) = handleColumns c := by
  by_cases h : handleColumns c = "*".toList
  · rw [h]
    decide
  · exact handleColumns_congr ((handleColumns_read_back c hc).2 h)

theorem handleColumns_idem_names :
    (∀ x ∈ (Columns.list ["id".toList, " name ".toList]).items, ',' ∉ x) ∧
      handleColumns (.str (handleColumns (.list ["id".toList, " name ".toList]))) =
        handleColumns (.list ["id".toList, " name ".toList]) :=
  ⟨by decide, handleColumns_idem _ (by decide)⟩

/-- A listed name with a `,` behind a space is read as two names the second time. -/
example : handleColumns (.str (handleColumns (.list ["a ,b".toList]))) ≠
    handleColumns (.list ["a ,b".toList]) := by
  decide

theorem intercalate_eq_nil_iff {sep : Str} (hsep : sep ≠ []) (y : Str) (ys : List Str) :
    sep.intercalate (y :: ys) = [] ↔ y = [] ∧ ys = [] := by
  cases ys <;> simp [List.intercalate, hsep]

/-- The column text is empty exactly when the only item is blank. -/
theorem handleColumns_eq_nil_iff (c : Columns) :
    handleColumns c = [] ↔ ∃ x, c.items = [x] ∧ strip x = [] := by
  by_cases hstar : c.items = [] ∨ "*".toList ∈ c.items.map strip
  · rw [handleColumns_of_star hstar]
    refine iff_of_false (by decide) ?_
    rintro ⟨x, hx, hsx⟩
    simp [hx, hsx] at hstar
  · obtain ⟨x, xs, hx⟩ := List.exists_cons_of_ne_nil (not_or.1 hstar).1
    rw [handleColumns_of_names hstar, hx, List.map_cons, intercalate_eq_nil_iff (by decide),
      List.map_eq_nil_iff]
    exact ⟨fun ⟨hsx, hxs⟩ => ⟨x, by rw [hxs], hsx⟩, fun ⟨y, hy, hsy⟩ => by
      obtain ⟨rfl, rfl⟩ := List.cons_eq_cons.1 hy
      exact ⟨hsy, rfl⟩⟩

/-- **A blank string asks for no column.** The column text of a string is empty exactly when the
string is all whitespace, where an empty list asks for `*`. -/
theorem handleColumns_str_eq_nil_iff (s : Str) :
    handleColumns (.str s) = [] ↔ ∀ ch ∈ s, isSpace ch = true := by
  rw [handleColumns_eq_nil_iff, ← strip_eq_nil_iff]
  constructor
  · rintro ⟨x, hx, hsx⟩
    have hs : s = x := by
      rw [← List.intercalate_splitOn s ',', show s.splitOn ',' = [x] from hx]
      simp [List.intercalate]
    exact hs ▸ hsx
  · intro h
    have hno : ∀ x ∈ s, ¬ (x == ',') = true := fun x hx hc => by
      obtain rfl := beq_iff_eq.1 hc
      exact absurd ((strip_eq_nil_iff s).1 h _ hx) (by decide)
    exact ⟨s, List.splitOnP_eq_single _ _ hno, h⟩

end Onetl.Reader
