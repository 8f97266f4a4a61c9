import Mathlib.Data.List.Sort

/-!
# JDBC URLs of the MSSQL, MySQL and Postgres connections

`jdbc_url` of each connection writes the connection properties after the authority `host:port`:
MSSQL as `;`-separated `key=value` entries after a `;`, MySQL as `&`-separated entries after `?`
behind an optional `/database`, and Postgres after `/database` and a `?` that is left out when
there is no entry. None of them escapes anything.

A reader of the URL takes the database segment up to the first `?`, and splits the parameter
section at the separator and each entry at its first `=` (`readProperties`). The entries come back
exactly when no key holds the separator or `=` and no value holds the separator, and the database
segment comes back when the database name holds no `?` (`jdbc_url_round_trip`). A database name
with a `;` adds a property to an MSSQL URL (`mssql_database_adds_property`).

The older `MySQL.url` of `mysql_connection.py` sets `useUnicode` and `characterEncoding` in a copy
of `extra` and keeps the entries in their order. Its parameters read back as those two settings
and every other entry of `extra`, whatever `extra` gave for the two keys (`mysqlUrl_round_trip`).
-/

set_option autoImplicit false

namespace Onetl.Connection

/-- A Python `str`, as its sequence of code points. -/
abbrev Str := List Char

/-- A property mapping, each key once: `extra.dict(by_alias=True)`, with every value as
`f"{v}"` prints it. -/
structure Props where
  entries : List (Str × Str)
  keys_nodup : (entries.map Prod.fst).Nodup

/-- `MySQL.Extra`: its fields `useUnicode` and `characterEncoding` are always in the mapping. -/
structure MySQLExtra extends Props where
  has_defaults : "useUnicode".toList ∈ entries.map Prod.fst ∧
    "characterEncoding".toList ∈ entries.map Prod.fst

/-- `MSSQL.Extra`: `databaseName` is one of its `prohibited_options`. -/
structure MSSQLExtra extends Props where
  no_databaseName : "databaseName".toList ∉ entries.map Prod.fst

/-- `f"{k}={v}"`. -/
def entryText (e : Str × Str) : Str := e.1 ++ '=' :: e.2

/-- `sep.join(f"{k}={v}" for k, v in es)`. -/
def joinEntries (sep : Char) (es : List (Str × Str)) : Str := [sep].intercalate (es.map entryText)

/-- The order of `sorted(prop.items())` on distinct keys: Python compares `str` code point by
code point, as `List.lt` does. -/
def KeyLe (a b : Str × Str) : Prop := ¬ List.lt b.1 a.1

instance : DecidableRel KeyLe := fun a b => @instDecidableNot _ (List.hasDecidableLt b.1 a.1)

/-- `sorted(prop.items())`. -/
def sortedItems (es : List (Str × Str)) : List (Str × Str) := es.insertionSort KeyLe

/-- `prop` of `MSSQL.jdbc_url`: the extra options, then `prop["databaseName"] = self.database`,
which adds an entry since `databaseName` is prohibited in `extra`. -/
def mssqlProp (database : Str) (extra : MSSQLExtra) : List (Str × Str) :=
  extra.entries ++ [("databaseName".toList, database)]

/-- What `MSSQL.jdbc_url` writes after `host:port`. -/
def mssqlTail (database : Str) (extra : MSSQLExtra) : Str :=
  ';' :: joinEntries ';' (sortedItems (mssqlProp database extra))

/-- `MSSQL.jdbc_url`. -/
def mssqlJdbcUrl (host : Str) (port : Nat) (database : Str) (extra : MSSQLExtra) : Str :=
  "jdbc:sqlserver://".toList ++ host ++ ':' :: (toString port).toList ++ mssqlTail database extra

/-- What `MySQL.jdbc_url` writes after `host:port`; `if self.database` is false for `None` and
for the empty name. -/
def mysqlTail (database : Option Str) (extra : MySQLExtra) : Str :=
  let parameters := joinEntries '&' (sortedItems extra.entries)
  match database with
  | some db => if db.isEmpty then '?' :: parameters else '/' :: db ++ '?' :: parameters
  | none => '?' :: parameters

/-- `MySQL.jdbc_url`. -/
def mysqlJdbcUrl (host : Str) (port : Nat) (database : Option Str) (extra : MySQLExtra) : Str :=
  "jdbc:mysql://".toList ++ host ++ ':' :: (toString port).toList ++ mysqlTail database extra

/-- What `Postgres.jdbc_url` writes after `host:port`. -/
def postgresTail (database : Str) (extra : Props) : Str :=
  let paramsStr := joinEntries '&' extra.entries
  '/' :: database ++ if paramsStr.isEmpty then [] else '?' :: paramsStr

/-- `Postgres.jdbc_url`. -/
def postgresJdbcUrl (host : Str) (port : Nat) (database : Str) (extra : Props) : Str :=
  "jdbc:postgresql://".toList ++ host ++ ':' :: (toString port).toList ++ postgresTail database extra

/-- `prop[key] = value` on a mapping: an entry of `key` takes the value in its place, or a new entry
comes last. -/
def setProp (es : List (Str × Str)) (key value : Str) : List (Str × Str) :=
  if key ∈ es.map Prod.fst then es.map fun e => if e.1 = key then (key, value) else e
  else es ++ [(key, value)]

/-- `prop` of `MySQL.url` in `mysql_connection.py`: a copy of `extra` with `useUnicode` and
`characterEncoding` set. -/
def mysqlUrlProp (extra : Props) : List (Str × Str) :=
  setProp (setProp extra.entries "useUnicode".toList "yes".toList) "characterEncoding".toList
    "UTF-8".toList

/-- What `MySQL.url` of `mysql_connection.py` writes after `host:port`. -/
def mysqlUrlTail (database : Str) (extra : Props) : Str :=
  '/' :: database ++ '?' :: joinEntries '&' (mysqlUrlProp extra)

/-- `MySQL.url` of `mysql_connection.py`. -/
def mysqlUrl (host : Str) (port : Nat) (database : Str) (extra : Props) : Str :=
  "jdbc:mysql://".toList ++ host ++ ':' :: (toString port).toList ++ mysqlUrlTail database extra

/-! ## Reading a URL back -/

/-- `entry.split("=", 1)`, as a pair. -/
def splitEntry (s : Str) : Str × Str := (s.takeWhile (· != '='), (s.dropWhile (· != '=')).drop 1)

/-- The entries of a parameter section: split at `sep`, each entry at its first `=`. -/
def readProperties (sep : Char) (params : Str) : List (Str × Str) :=
  (params.splitOn sep).map splitEntry

/-- The text after the first `c`, if there is one. -/
def afterFirst (c : Char) (t : Str) : Option Str :=
  match t.dropWhile (· != c) with
  | [] => none
  | _ :: rest => some rest

/-- The database segment of what follows `host:port`: after a leading `/`, up to the first `?`. -/
def readDatabase (t : Str) : Option Str :=
  match t.takeWhile (· != '?') with
  | '/' :: db => some db
  | _ => none

/-- The properties an MSSQL URL reader finds after `host:port`. -/
def readMssql (t : Str) : List (Str × Str) := ((afterFirst ';' t).map (readProperties ';')).getD []

/-- The properties a MySQL or Postgres URL reader finds after `host:port`. -/
def readQuery (t : Str) : List (Str × Str) := ((afterFirst '?' t).map (readProperties '&')).getD []

/-- Keys free of `sep` and `=`, values free of `sep`. -/
def CleanEntries (sep : Char) (es : List (Str × Str)) : Prop :=
  ∀ e ∈ es, sep ∉ e.1 ∧ '=' ∉ e.1 ∧ sep ∉ e.2

instance (sep : Char) (es : List (Str × Str)) : Decidable (CleanEntries sep es) := by
  unfold CleanEntries; infer_instance

/-- `MSSQL.Extra()`: no extra option. -/
def MSSQLExtra.none : MSSQLExtra := ⟨⟨[], List.nodup_nil⟩, by simp⟩

/-- `MySQL.Extra()`: the two default fields. -/
def MySQLExtra.defaults : MySQLExtra :=
  ⟨⟨[("useUnicode".toList, "yes".toList), ("characterEncoding".toList, "UTF-8".toList)], by decide⟩,
    by decide⟩

/-! ## Splitting undoes joining -/

theorem bne_of_not_mem {c : Char} {l : Str} (h : c ∉ l) : ∀ a ∈ l, (a != c) = true :=
  fun _ ha => bne_iff_ne.2 fun e => h (e ▸ ha)

theorem splitEntry_entryText {k : Str} (hk : '=' ∉ k) (v : Str) :
    splitEntry (entryText (k, v)) = (k, v) := by
  simp [splitEntry, entryText, List.takeWhile_append_of_pos (bne_of_not_mem hk),
    List.dropWhile_append_of_pos (bne_of_not_mem hk)]

/-- **Reading a joined parameter section gives its entries back.** -/
theorem readProperties_joinEntries {sep : Char} (hsep : sep ≠ '=') {es : List (Str × Str)}
    (hc : CleanEntries sep es) (hne : es ≠ []) : readProperties sep (joinEntries sep es) = es := by
  have hfree : ∀ l ∈ es.map entryText, sep ∉ l := by
    simp only [List.mem_map]
    rintro _ ⟨e, he, rfl⟩
    simp [entryText, (hc e he).1, (hc e he).2.2, hsep]
  rw [readProperties, joinEntries, List.splitOn_intercalate _ sep hfree (by simpa using hne),
    List.map_map]
  conv_rhs => rw [← List.map_id es]
  exact List.map_congr_left fun e he => splitEntry_entryText (hc e he).2.1 e.2

theorem sortedItems_perm (es : List (Str × Str)) : (sortedItems es).Perm es :=
  List.perm_insertionSort _ es

theorem cleanEntries_sortedItems {sep : Char} {es : List (Str × Str)} (h : CleanEntries sep es) :
    CleanEntries sep (sortedItems es) :=
  fun e he => h e ((sortedItems_perm es).subset he)

theorem joinEntries_ne_nil {sep : Char} {es : List (Str × Str)} (hne : es ≠ []) :
    joinEntries sep es ≠ [] := by
  obtain ⟨e, es, rfl⟩ := List.exists_cons_of_ne_nil hne
  cases es <;> simp [joinEntries, entryText, List.intercalate]

/-! ## The URLs -/

theorem afterFirst_append {c : Char} {pre : Str} (h : c ∉ pre) (t : Str) :
    afterFirst c (pre ++ c :: t) = some t := by
  simp [afterFirst, List.dropWhile_append_of_pos (bne_of_not_mem h)]

theorem afterFirst_cons_self (c : Char) (t : Str) : afterFirst c (c :: t) = some t := by
  simp [afterFirst]

theorem takeWhile_ne_query {db : Str} (h : '?' ∉ db) (t : Str) :
    (db ++ t).takeWhile (· != '?') = db ++ t.takeWhile (· != '?') :=
  List.takeWhile_append_of_pos (bne_of_not_mem h)

theorem readDatabase_query {db : Str} (h : '?' ∉ db) (q : Str) :
    readDatabase ('/' :: db ++ '?' :: q) = some db := by
  simp [readDatabase, takeWhile_ne_query h]

theorem readDatabase_path {db : Str} (h : '?' ∉ db) : readDatabase ('/' :: db) = some db := by
  simpa [readDatabase] using takeWhile_ne_query h []

theorem mssql_round_trip (database : Str) (extra : MSSQLExtra)
    (hc : CleanEntries ';' (mssqlProp database extra)) :
    (readMssql (mssqlTail database extra)).Perm (mssqlProp database extra) := by
  have hne : sortedItems (mssqlProp database extra) ≠ [] :=
    fun h => by simpa [mssqlProp] using (sortedItems_perm _).symm.length_eq.trans (congrArg _ h)
  rw [readMssql, mssqlTail, afterFirst_cons_self, Option.map_some', Option.getD_some,
    readProperties_joinEntries (by decide) (cleanEntries_sortedItems hc) hne]
  exact sortedItems_perm _

theorem readQuery_sorted {pre : Str} (hpre : '?' ∉ pre) {es : List (Str × Str)}
    (hc : CleanEntries '&' es) (hne : es ≠ []) :
    (readQuery (pre ++ '?' :: joinEntries '&' (sortedItems es))).Perm es := by
  have hs : sortedItems es ≠ [] :=
    fun h => hne (List.eq_nil_of_length_eq_zero (by simp [← (sortedItems_perm es).length_eq, h]))
  rw [readQuery, afterFirst_append hpre, Option.map_some', Option.getD_some,
    readProperties_joinEntries (by decide) (cleanEntries_sortedItems hc) hs]
  exact sortedItems_perm es

theorem MySQLExtra.entries_ne_nil (extra : MySQLExtra) : extra.entries ≠ [] := by
  intro h
  simpa [h] using extra.has_defaults.1

theorem mysql_round_trip (database : Option Str) (extra : MySQLExtra)
    (hc : CleanEntries '&' extra.entries) (hdb : ∀ db, database = some db → '?' ∉ db) :
    readDatabase (mysqlTail database extra) = database.filter (fun db => !db.isEmpty) ∧
      (readQuery (mysqlTail database extra)).Perm extra.entries := by
  have hq := readQuery_sorted (List.not_mem_nil '?') hc extra.entries_ne_nil
  rcases database with _ | db
  · exact ⟨by simp [mysqlTail, readDatabase], hq⟩
  · by_cases he : db.isEmpty
    · simp only [mysqlTail, he, if_true]
      exact ⟨by simp [readDatabase, Option.filter, he], hq⟩
    · have hdb' : '?' ∉ '/' :: db := by simpa using hdb db rfl
      simp only [mysqlTail, he, Bool.false_eq_true, if_false]
      refine ⟨?_, by simpa using readQuery_sorted hdb' hc extra.entries_ne_nil⟩
      rw [readDatabase_query (hdb db rfl)]
      simp [Option.filter, he]

theorem postgres_round_trip (database : Str) (extra : Props) (hc : CleanEntries '&' extra.entries)
    (hdb : '?' ∉ database) :
    readDatabase (postgresTail database extra) = some database ∧
      (readQuery (postgresTail database extra)).Perm extra.entries := by
  by_cases he : extra.entries = []
  · have hpath : '?' ∉ '/' :: database := by simpa using hdb
    have hnone : afterFirst '?' ('/' :: database) = none := by
      simp only [afterFirst, List.dropWhile_eq_nil_iff.2 (bne_of_not_mem hpath)]
    have hj : joinEntries '&' extra.entries = [] := by simp [joinEntries, he, List.intercalate]
    simp only [postgresTail, hj, List.isEmpty_nil, if_true, List.append_nil]
    exact ⟨readDatabase_path hdb, by simp [readQuery, hnone, he]⟩
  · have hj : (joinEntries '&' extra.entries).isEmpty = false := by
      simpa using joinEntries_ne_nil he
    have hdb' : '?' ∉ '/' :: database := by simpa using hdb
    simp only [postgresTail, hj, Bool.false_eq_true, if_false]
    refine ⟨readDatabase_query hdb _, ?_⟩
    rw [readQuery, List.cons_append, ← List.cons_append, afterFirst_append hdb', Option.map_some',
      Option.getD_some, readProperties_joinEntries (by decide) hc he]

/-- **The properties and the database come back from every URL whose names and values hold no
separator.** -/
theorem jdbc_url_round_trip :
    (∀ (database : Str) (extra : MSSQLExtra), CleanEntries ';' (mssqlProp database extra) →
      (readMssql (mssqlTail database extra)).Perm (mssqlProp database extra)) ∧
    (∀ (database : Option Str) (extra : MySQLExtra), CleanEntries '&' extra.entries →
      (∀ db, database = some db → '?' ∉ db) →
      readDatabase (mysqlTail database extra) = database.filter (fun db => !db.isEmpty) ∧
        (readQuery (mysqlTail database extra)).Perm extra.entries) ∧
    (∀ (database : Str) (extra : Props), CleanEntries '&' extra.entries → '?' ∉ database →
      readDatabase (postgresTail database extra) = some database ∧
        (readQuery (postgresTail database extra)).Perm extra.entries) :=
  ⟨mssql_round_trip, mysql_round_trip, postgres_round_trip⟩

theorem jdbc_url_round_trip_defaults :
    (readMssql (mssqlTail "db".toList MSSQLExtra.none)).Perm
      (mssqlProp "db".toList MSSQLExtra.none) ∧
    (readDatabase (mysqlTail (some "db".toList) MySQLExtra.defaults) =
        (some "db".toList).filter (fun db => !db.isEmpty) ∧
      (readQuery (mysqlTail (some "db".toList) MySQLExtra.defaults)).Perm
        MySQLExtra.defaults.entries) ∧
    (readDatabase (postgresTail "db".toList ⟨[], List.nodup_nil⟩) = some "db".toList ∧
      (readQuery (postgresTail "db".toList ⟨[], List.nodup_nil⟩)).Perm []) :=
  ⟨jdbc_url_round_trip.1 _ _ (by decide),
    jdbc_url_round_trip.2.1 _ _ (by decide) (by rintro _ ⟨⟩; decide),
    jdbc_url_round_trip.2.2 _ _ (by decide) (by decide)⟩

/-- A database name holding `;` and `=` adds a property of its own to the MSSQL URL. -/
theorem mssql_database_adds_property :
    ¬ (readMssql (mssqlTail "db;user=admin".toList MSSQLExtra.none)).Perm
      (mssqlProp "db;user=admin".toList MSSQLExtra.none) := by
  decide

/-! ## `MySQL.url` of `mysql_connection.py` -/

theorem mem_setProp {es : List (Str × Str)} {key value : Str} {e : Str × Str} :
    e ∈ setProp es key value ↔ e = (key, value) ∨ e ∈ es ∧ e.1 ≠ key := by
  unfold setProp
  split
  · rename_i hk
    obtain ⟨x, hx, hxk⟩ := List.mem_map.1 hk
    simp only [List.mem_map]
    constructor
    · rintro ⟨y, hy, rfl⟩
      by_cases h : y.1 = key <;> simp [h, hy]
    · rintro (rfl | ⟨he, hne⟩)
      · exact ⟨x, hx, by simp [hxk]⟩
      · exact ⟨e, he, by simp [hne]⟩
  · rename_i hk
    simp only [List.mem_append, List.mem_singleton]
    constructor
    · rintro (he | rfl)
      · exact .inr ⟨he, fun h => hk (List.mem_map.2 ⟨e, he, h⟩)⟩
      · exact .inl rfl
    · rintro (rfl | ⟨he, -⟩)
      · exact .inr rfl
      · exact .inl he

theorem setProp_keys_nodup {es : List (Str × Str)} (h : (es.map Prod.fst).Nodup) (key value : Str) :
    ((setProp es key value).map Prod.fst).Nodup := by
  unfold setProp
  split
  · have hkeys : (es.map fun e => if e.1 = key then (key, value) else e).map Prod.fst =
        es.map Prod.fst := by
      simp only [List.map_map]
      exact List.map_congr_left fun e _ => by by_cases he : e.1 = key <;> simp [he]
    rwa [hkeys]
  · rename_i hk
    simpa [List.nodup_append, h] using hk

theorem cleanEntries_setProp {sep : Char} {es : List (Str × Str)} (h : CleanEntries sep es)
    {key value : Str} (hk : sep ∉ key ∧ '=' ∉ key ∧ sep ∉ value) :
    CleanEntries sep (setProp es key value) := by
  intro e he
  rcases mem_setProp.1 he with rfl | ⟨he, -⟩
  · exact hk
  · exact h e he

theorem mem_mysqlUrlProp {extra : Props} {e : Str × Str} :
    e ∈ mysqlUrlProp extra ↔
      e = ("useUnicode".toList, "yes".toList) ∨ e = ("characterEncoding".toList, "UTF-8".toList) ∨
        e ∈ extra.entries ∧ e.1 ≠ "useUnicode".toList ∧ e.1 ≠ "characterEncoding".toList := by
  rw [mysqlUrlProp, mem_setProp, mem_setProp]
  constructor
  · rintro (h | ⟨h | ⟨he, hu⟩, hc⟩)
    · exact .inr (.inl h)
    · exact .inl h
    · exact .inr (.inr ⟨he, hu, hc⟩)
  · rintro (rfl | rfl | ⟨he, hu, hc⟩)
    · exact .inr ⟨.inl rfl, by decide⟩
    · exact .inl rfl
    · exact .inr ⟨.inr ⟨he, hu⟩, hc⟩

/-- **The URL of `mysql_connection.py` always asks for Unicode.** Its parameters read back as
`useUnicode=yes`, `characterEncoding=UTF-8` and every other entry of `extra`, each key once,
whatever `extra` gives for the two keys; its database segment reads back as the database. -/
theorem mysqlUrl_round_trip (database : Str) (extra : Props) (hc : CleanEntries '&' extra.entries)
    (hdb : '?' ∉ database) :
    readDatabase (mysqlUrlTail database extra) = some database ∧
      ((readQuery (mysqlUrlTail database extra)).map Prod.fst).Nodup ∧
      ∀ e, e ∈ readQuery (mysqlUrlTail database extra) ↔
        e = ("useUnicode".toList, "yes".toList) ∨ e = ("characterEncoding".toList, "UTF-8".toList) ∨
          e ∈ extra.entries ∧ e.1 ≠ "useUnicode".toList ∧ e.1 ≠ "characterEncoding".toList := by
  have hclean : CleanEntries '&' (mysqlUrlProp extra) :=
    cleanEntries_setProp (cleanEntries_setProp hc (by decide)) (by decide)
  have hne : mysqlUrlProp extra ≠ [] := List.ne_nil_of_mem (mem_mysqlUrlProp.2 (.inr (.inl rfl)))
  have hdb' : '?' ∉ '/' :: database := by simpa using hdb
  have hread : readQuery (mysqlUrlTail database extra) = mysqlUrlProp extra := by
    rw [mysqlUrlTail, readQuery, List.cons_append, ← List.cons_append, afterFirst_append hdb',
      Option.map_some', Option.getD_some, readProperties_joinEntries (by decide) hclean hne]
  refine ⟨readDatabase_query hdb _, ?_, fun e => ?_⟩
  · rw [hread]
    exact setProp_keys_nodup (setProp_keys_nodup extra.keys_nodup _ _) _ _
  · rw [hread, mem_mysqlUrlProp]

theorem mysqlUrl_round_trip_user_encoding :
    CleanEntries '&' [("characterEncoding".toList, "latin1".toList)] ∧ '?' ∉ "db".toList ∧
      (readDatabase
          (mysqlUrlTail "db".toList ⟨[("characterEncoding".toList, "latin1".toList)], by decide⟩) =
          some "db".toList ∧
        ((readQuery (mysqlUrlTail "db".toList
          ⟨[("characterEncoding".toList, "latin1".toList)], by decide⟩)).map Prod.fst).Nodup ∧
        ∀ e, e ∈ readQuery (mysqlUrlTail "db".toList
            ⟨[("characterEncoding".toList, "latin1".toList)], by decide⟩) ↔
          e = ("useUnicode".toList, "yes".toList) ∨
            e = ("characterEncoding".toList, "UTF-8".toList) ∨
            e ∈ [("characterEncoding".toList, "latin1".toList)] ∧ e.1 ≠ "useUnicode".toList ∧
              e.1 ≠ "characterEncoding".toList) :=
  ⟨by decide, by decide, mysqlUrl_round_trip _ _ (by decide) (by decide)⟩

end Onetl.Connection
