import Onetl.Connection.Jdbc
import Mathlib.Tactic.IntervalCases
import Mathlib.Data.Nat.Digits

/-!
# Datetime literals of the connections

`MySQL.Dialect._get_datetime_value_sql` (and the same method of the older `mysql_connection.py`)
writes a `datetime` with Python's `strftime("%Y-%m-%d %H:%M:%S.%f")` and has MySQL read it back
with `STR_TO_DATE(..., '%Y-%m-%d %H:%i:%s.%f')`; `_get_date_value_sql` does the same for a `date`
with `%Y-%m-%d` on both sides. The two languages name the minutes differently: Python's `%M` is
MySQL's `%i`, and MySQL's `%M` is the name of the month.

Both format strings parse to a list of `Directive`s: a literal character, a numeric `Field`, or a
directive this model does not interpret. `strftime` writes the year as glibc does, in as many
digits as it has, and every other field zero-padded to its width; `strToDate` reads each field as
up to that many digits, as MySQL's `STR_TO_DATE` does, a year of one or two digits in 1970–2069,
and every literal as itself. For every list of directives, `strToDate` reads back every field
`strftime` wrote of a value whose fields fit their widths and whose year has four digits
(`strToDate_strftime`). The connection's two format strings parse to the same directives, so for
every year from 1000, where MySQL's `DATETIME` range starts, the expression it writes evaluates in
MySQL to the value it was given (`mysql_datetime_literals_round_trip`). Below 100 it does not.

The MSSQL and Postgres connections write `value.isoformat()` instead, inside
`CAST('...' AS datetime2)` or `'...'::timestamp`. CPython writes it with `%04d` and `%02d`, and
leaves the microseconds out when they are zero. The servers' readers are modelled on the ISO 8601
forms they accept, not on what `isoformat` writes: a date of the calendar in `YYYY-MM-DD`, `T` or a
space, a time in range in `hh:mm:ss`, and a fraction of one to six digits. Both read back either
shape `isoformat` writes (`iso_datetime_literals_round_trip`).

Only the directives the connection uses are interpreted. MySQL's leniency with spaces and extra
trailing text is not modelled: a literal must match itself. The servers' ISO readers are modelled
without time zone offsets and without the other forms they accept.
-/

set_option autoImplicit false

namespace Onetl.Connection

/-! ## Dates and times -/

/-- The Gregorian leap years. -/
def isLeapYear (y : Nat) : Bool := y % 4 == 0 && (y % 100 != 0 || y % 400 == 0)

/-- The number of days of month `m` of year `y`. -/
def daysInMonth (y m : Nat) : Nat :=
  match m with
  | 2 => if isLeapYear y then 29 else 28
  | 4 | 6 | 9 | 11 => 30
  | _ => 31

/-- `datetime.date`: its fields in the ranges Python enforces. -/
structure Date where
  year : Nat
  month : Nat
  day : Nat
  year_valid : 1 ≤ year ∧ year ≤ 9999
  month_valid : 1 ≤ month ∧ month ≤ 12
  day_valid : 1 ≤ day ∧ day ≤ daysInMonth year month

/-- `datetime.datetime` without `tzinfo`. -/
structure DateTime extends Date where
  hour : Nat
  minute : Nat
  second : Nat
  microsecond : Nat
  hour_lt : hour < 24
  minute_lt : minute < 60
  second_lt : second < 60
  microsecond_lt : microsecond < 1000000

/-- The numeric fields a format can name. -/
inductive Field where
  | year
  | month
  | day
  | hour
  | minute
  | second
  | microsecond
  deriving DecidableEq, Repr

/-- The digits Python writes for a field, and the most MySQL reads for it. -/
def Field.width : Field → Nat
  | .year => 4
  | .microsecond => 6
  | _ => 2

/-- The fields of a date and time: what `strftime` reads from a `date` or a `datetime`, and the
`DATETIME` value `STR_TO_DATE` returns, every field it does not read being zero. -/
structure Moment where
  year : Nat := 0
  month : Nat := 0
  day : Nat := 0
  hour : Nat := 0
  minute : Nat := 0
  second : Nat := 0
  microsecond : Nat := 0
  deriving DecidableEq, Repr

def Moment.get (m : Moment) : Field → Nat
  | .year => m.year
  | .month => m.month
  | .day => m.day
  | .hour => m.hour
  | .minute => m.minute
  | .second => m.second
  | .microsecond => m.microsecond

def Moment.set (m : Moment) : Field → Nat → Moment
  | .year, v => { m with year := v }
  | .month, v => { m with month := v }
  | .day, v => { m with day := v }
  | .hour, v => { m with hour := v }
  | .minute, v => { m with minute := v }
  | .second, v => { m with second := v }
  | .microsecond, v => { m with microsecond := v }

/-- Every field holds in its width. -/
def Moment.Fits (m : Moment) : Prop := ∀ f, m.get f < 10 ^ f.width

/-- A `date` as `strftime` sees it: the time of day is zero. -/
def Date.moment (d : Date) : Moment := { year := d.year, month := d.month, day := d.day }

def DateTime.moment (dt : DateTime) : Moment :=
  ⟨dt.year, dt.month, dt.day, dt.hour, dt.minute, dt.second, dt.microsecond⟩

theorem Date.day_le (d : Date) : d.day ≤ 31 :=
  d.day_valid.2.trans (by unfold daysInMonth; split <;> (try split) <;> omega)

theorem Date.moment_fits (d : Date) : d.moment.Fits := by
  have := d.day_le
  have := d.year_valid
  have := d.month_valid
  intro f
  cases f <;> simp [Date.moment, Moment.get, Field.width] <;> omega

theorem DateTime.moment_fits (dt : DateTime) : dt.moment.Fits := by
  have := dt.day_le
  have := dt.year_valid
  have := dt.month_valid
  have := dt.hour_lt
  have := dt.minute_lt
  have := dt.second_lt
  have := dt.microsecond_lt
  intro f
  cases f <;> simp [DateTime.moment, Moment.get, Field.width] <;> omega

/-! ## Formats -/

/-- One element of a format. -/
inductive Directive where
  | lit (c : Char)
  | field (f : Field)
  /-- A directive this model does not interpret. -/
  | other (c : Char)
  deriving DecidableEq, Repr

def Directive.interpreted : Directive → Bool
  | .other _ => false
  | _ => true

/-- What a Python format directive `%c` stands for. -/
def pyDirective : Char → Directive
  | 'Y' => .field .year
  | 'm' => .field .month
  | 'd' => .field .day
  | 'H' => .field .hour
  | 'M' => .field .minute
  | 'S' => .field .second
  | 'f' => .field .microsecond
  | '%' => .lit '%'
  | c => .other c

/-- A Python `strftime` format string. -/
def pyFormat : Str → List Directive
  | '%' :: c :: rest => pyDirective c :: pyFormat rest
  | c :: rest => .lit c :: pyFormat rest
  | [] => []

/-- The specifiers of MySQL's `DATE_FORMAT` table that are not numeric fields of this model. -/
def mysqlOtherSpecifiers : Str := "abcDehIjklMprTUuVvWwXxy".toList

/-- What a MySQL format specifier `%c` stands for: `%x` is `x` for any `x` not in the table. -/
def mysqlDirective (c : Char) : Directive :=
  match c with
  | 'Y' => .field .year
  | 'm' => .field .month
  | 'd' => .field .day
  | 'H' => .field .hour
  | 'i' => .field .minute
  | 's' | 'S' => .field .second
  | 'f' => .field .microsecond
  | c => if c ∈ mysqlOtherSpecifiers then .other c else .lit c

/-- A MySQL `STR_TO_DATE` format string. -/
def mysqlFormat : Str → List Directive
  | '%' :: c :: rest => mysqlDirective c :: mysqlFormat rest
  | c :: rest => .lit c :: mysqlFormat rest
  | [] => []

/-! ## Writing and reading -/

/-- The last `n` decimal digits of `k`, most significant first. -/
def padDigits : Nat → Nat → Str
  | 0, _ => []
  | n + 1, k => padDigits n (k / 10) ++ [Nat.digitChar (k % 10)]

/-- The value of a string of decimal digits. -/
def digitsValue (ds : Str) : Nat := ds.foldl (fun v c => 10 * v + (c.toNat - '0'.toNat)) 0

/-- What `strftime` writes for a field. glibc writes `%Y` as the year's decimal digits with no
padding, `5` for the year 5; it pads the other fields, and Python its own `%f`, with zeros to
their width. -/
def Field.write (f : Field) (v : Nat) : Str :=
  match f with
  | .year => Nat.toDigits 10 v
  | f => padDigits f.width v

/-- `strftime`: every field as `Field.write` writes it. A directive this model does not interpret
is written as its own text, a placeholder: the connection uses none. -/
def strftime : List Directive → Moment → Str
  | [], _ => []
  | .lit c :: ds, m => c :: strftime ds m
  | .field f :: ds, m => f.write (m.get f) ++ strftime ds m
  | .other c :: ds, m => '%' :: c :: strftime ds m

/-- MySQL's `year_2000_handling`: a year given in one or two digits is taken in 1970–2069. -/
def twoDigitYear (v : Nat) : Nat := if v < 70 then 2000 + v else 1900 + v

/-- What `STR_TO_DATE` reads for a field: up to its width in digits, at least one. A year read
from at most two digits goes through `twoDigitYear`, and microseconds given in fewer than six
digits are scaled, as a fraction of a second. -/
def readField (f : Field) (s : Str) : Option (Nat × Str) :=
  let ds := (s.take f.width).takeWhile Char.isDigit
  if ds.isEmpty then none
  else
    let v := digitsValue ds
    some (match f with
      | .year => if ds.length ≤ 2 then twoDigitYear v else v
      | .microsecond => v * 10 ^ (6 - ds.length)
      | _ => v, s.drop ds.length)

/-- `STR_TO_DATE(s, format)`, from the fields read so far `m`; text after the format is left. -/
def strToDate : List Directive → Str → Moment → Option Moment
  | [], _, m => some m
  | .lit c :: ds, s, m =>
    match s with
    | d :: s => if d = c then strToDate ds s m else none
    | [] => none
  | .field f :: ds, s, m =>
    match readField f s with
    | some (v, s) => strToDate ds s (m.set f v)
    | none => none
  | .other _ :: _, _, _ => none

/-- The fields a format records of `m`, over `acc`. -/
def record (m : Moment) (acc : Moment) : List Directive → Moment
  | [] => acc
  | .field f :: ds => record m (acc.set f (m.get f)) ds
  | _ :: ds => record m acc ds

/-! ## A field written in its width reads back -/

theorem digitChar_isDigit {d : Nat} (h : d < 10) :
    (Nat.digitChar d).isDigit = true ∧ (Nat.digitChar d).toNat - '0'.toNat = d := by
  interval_cases d <;> decide

theorem padDigits_length (n k : Nat) : (padDigits n k).length = n := by
  induction n generalizing k with
  | zero => rfl
  | succ n ih => simp [padDigits, ih]

theorem padDigits_isDigit (n k : Nat) : ∀ c ∈ padDigits n k, c.isDigit = true := by
  induction n generalizing k with
  | zero => simp [padDigits]
  | succ n ih =>
    intro c hc
    rcases List.mem_append.1 hc with hc | hc
    · exact ih _ c hc
    · rw [List.mem_singleton.1 hc]
      exact (digitChar_isDigit (Nat.mod_lt k (by decide))).1

theorem digitsValue_padDigits (n : Nat) : ∀ k, k < 10 ^ n → digitsValue (padDigits n k) = k := by
  induction n with
  | zero => intro k hk; simp at hk; simp [hk, padDigits, digitsValue]
  | succ n ih =>
    intro k hk
    have hd := (digitChar_isDigit (Nat.mod_lt k (by decide : 10 > 0))).2
    have hq : k / 10 < 10 ^ n := Nat.div_lt_of_lt_mul (by rw [pow_succ] at hk; omega)
    have h := ih (k / 10) hq
    simp only [digitsValue, padDigits, List.foldl_append, List.foldl_cons, List.foldl_nil] at h ⊢
    rw [h, hd]
    omega

/-- `Nat.toDigits` writes only digits, before what it was given to write in front of. -/
theorem toDigitsCore_isDigit (fuel : Nat) :
    ∀ k acc, ∀ c ∈ Nat.toDigitsCore 10 fuel k acc, c ∈ acc ∨ c.isDigit = true := by
  induction fuel with
  | zero => intro _ _ c hc; exact .inl hc
  | succ fuel ih =>
    intro k acc c hc
    have hd := (digitChar_isDigit (Nat.mod_lt k (by decide : 10 > 0))).1
    simp only [Nat.toDigitsCore] at hc
    split at hc
    · rcases List.mem_cons.1 hc with rfl | hc
      · exact .inr hd
      · exact .inl hc
    · rcases ih _ _ c hc with hc | hc
      · rcases List.mem_cons.1 hc with rfl | hc
        · exact .inr hd
        · exact .inl hc
      · exact .inr hc

theorem Field.write_isDigit (f : Field) (v : Nat) : ∀ c ∈ f.write v, c.isDigit = true := by
  intro c hc
  cases f
  case year => exact (toDigitsCore_isDigit _ v [] c hc).resolve_left (List.not_mem_nil c)
  all_goals exact padDigits_isDigit _ v c hc

theorem toDigitsCore_step {fuel k : Nat} (acc : Str) (h : k / 10 ≠ 0) :
    Nat.toDigitsCore 10 (fuel + 1) k acc =
      Nat.toDigitsCore 10 fuel (k / 10) (Nat.digitChar (k % 10) :: acc) := by
  simp [Nat.toDigitsCore, h]

theorem toDigitsCore_last {fuel k : Nat} (acc : Str) (h : k / 10 = 0) :
    Nat.toDigitsCore 10 (fuel + 1) k acc = Nat.digitChar (k % 10) :: acc := by
  simp [Nat.toDigitsCore, h]

/-- A year from 1000 to 9999 takes four digits, so glibc's unpadded `%Y` is the padded one. -/
theorem toDigits_eq_padDigits {v : Nat} (h₁ : 1000 ≤ v) (h₂ : v < 10000) :
    Nat.toDigits 10 v = padDigits 4 v := by
  obtain ⟨fuel, hf⟩ : ∃ fuel, v + 1 = fuel + 1 + 1 + 1 + 1 := ⟨v - 3, by omega⟩
  rw [Nat.toDigits, hf, toDigitsCore_step _ (by omega), toDigitsCore_step _ (by omega),
    toDigitsCore_step _ (by omega), toDigitsCore_last _ (by omega)]
  simp only [padDigits, List.nil_append, List.append_assoc, List.singleton_append, List.cons_append]

theorem Field.write_eq_padDigits {f : Field} {v : Nat} (hv : v < 10 ^ f.width)
    (hy : f = .year → 1000 ≤ v) : f.write v = padDigits f.width v := by
  cases f
  case year => exact toDigits_eq_padDigits (hy rfl) hv
  all_goals rfl

/-- **A field written in its width reads back**, whatever follows it. -/
theorem readField_padDigits (f : Field) {v : Nat} (hv : v < 10 ^ f.width) (rest : Str) :
    readField f (padDigits f.width v ++ rest) = some (v, rest) := by
  have hlen := padDigits_length f.width v
  have hpos : 0 < f.width := by cases f <;> decide
  have hds : ((padDigits f.width v ++ rest).take f.width).takeWhile Char.isDigit =
      padDigits f.width v := by
    rw [List.take_left' hlen, List.takeWhile_eq_self_iff]
    exact padDigits_isDigit f.width v
  have hne : (padDigits f.width v).isEmpty = false := by
    cases h : padDigits f.width v with
    | nil => rw [h] at hlen; simp at hlen; omega
    | cons => rfl
  simp only [readField, hds, hne, Bool.false_eq_true, if_false, digitsValue_padDigits _ v hv, hlen,
    List.drop_left' hlen]
  cases f <;> simp [Field.width]

/-- **`STR_TO_DATE` reads back every field `strftime` wrote**, for every format whose directives
are all interpreted and every value whose fields fit their widths and whose year has four digits;
it ends with the fields the format records. -/
theorem strToDate_strftime {m : Moment} (hm : m.Fits) (hy : 1000 ≤ m.year) :
    ∀ (ds : List Directive), (∀ d ∈ ds, d.interpreted = true) → ∀ (rest : Str) (acc : Moment),
      strToDate ds (strftime ds m ++ rest) acc = some (record m acc ds)
  | [], _, _, _ => rfl
  | .lit c :: ds, hds, rest, acc => by
    simp only [strftime, List.cons_append, strToDate, if_pos rfl, record]
    exact strToDate_strftime hm hy ds (fun d h => hds d (List.mem_cons_of_mem _ h)) rest acc
  | .field f :: ds, hds, rest, acc => by
    have hw := Field.write_eq_padDigits (hm f) fun h => h ▸ hy
    simp only [strftime, hw, List.append_assoc, strToDate, readField_padDigits f (hm f), record]
    exact strToDate_strftime hm hy ds (fun d h => hds d (List.mem_cons_of_mem _ h)) rest _
  | .other _ :: _, hds, _, _ => absurd (hds _ (List.mem_cons_self _ _)) Bool.false_ne_true

/-! ## The connection's literals -/

/-- `"'"`. -/
def quoteChar : Char := '\''

/-- `f"STR_TO_DATE('{result}', '{format}')"`. -/
def strToDateCall (result format : Str) : Str :=
  "STR_TO_DATE(".toList ++ quoteChar :: result ++ quoteChar :: ',' :: ' ' :: quoteChar :: format ++
    [quoteChar, ')']

/-- `MySQL.Dialect._get_datetime_value_sql`, the same as `_get_datetime_value_sql` of
`mysql_connection.py`. -/
def mysqlDatetimeSql (value : DateTime) : Str :=
  strToDateCall (strftime (pyFormat "%Y-%m-%d %H:%M:%S.%f".toList) value.moment)
    "%Y-%m-%d %H:%i:%s.%f".toList

/-- `MySQL.Dialect._get_date_value_sql`, the same as `_get_date_value_sql` of
`mysql_connection.py`. -/
def mysqlDateSql (value : Date) : Str :=
  strToDateCall (strftime (pyFormat "%Y-%m-%d".toList) value.moment) "%Y-%m-%d".toList

/-- What MySQL makes of `STR_TO_DATE('value', 'format')`: each string literal up to its closing
quote, then the value read against the format from the zero `DATETIME`. -/
def evalStrToDate (sql : Str) : Option Moment :=
  match sql.drop 12 with
  | q :: body =>
    let value := body.takeWhile (· != quoteChar)
    match body.drop value.length with
    | q₁ :: ',' :: ' ' :: q₂ :: rest =>
      let format := rest.takeWhile (· != quoteChar)
      if sql.take 12 = "STR_TO_DATE(".toList ∧ q = quoteChar ∧ q₁ = quoteChar ∧ q₂ = quoteChar ∧
          rest.drop format.length = [quoteChar, ')'] then
        strToDate (mysqlFormat format) value {}
      else none
    | _ => none
  | [] => none

theorem takeWhile_append_of_stop {p : Char → Bool} {l : Str} (hl : ∀ c ∈ l, p c = true) {c : Char}
    (hc : p c = false) (rest : Str) : (l ++ c :: rest).takeWhile p = l := by
  rw [List.takeWhile_append_of_pos hl, List.takeWhile_cons_of_neg (by simp [hc]), List.append_nil]

/-- What `strftime` writes with a format holding no quote holds no quote. -/
theorem quote_not_mem_strftime {ds : List Directive} (hl : Directive.lit quoteChar ∉ ds)
    (ho : Directive.other quoteChar ∉ ds) (m : Moment) :
    ∀ c ∈ strftime ds m, (c != quoteChar) = true := by
  induction ds with
  | nil => simp [strftime]
  | cons d ds ih =>
    have ih' := ih (fun h => hl (List.mem_cons_of_mem _ h)) fun h => ho (List.mem_cons_of_mem _ h)
    intro c hc
    simp only [bne_iff_ne, ne_eq]
    rintro rfl
    cases d with
    | lit c' =>
      rcases List.mem_cons.1 hc with rfl | hc
      · exact hl (List.mem_cons_self _ _)
      · simpa using ih' _ hc
    | field f =>
      rcases List.mem_append.1 hc with hc | hc
      · exact absurd (Field.write_isDigit f _ _ hc) (by decide)
      · simpa using ih' _ hc
    | other c' =>
      simp only [strftime, List.mem_cons] at hc
      rcases hc with h | rfl | hc
      · exact absurd h (by decide)
      · exact ho (List.mem_cons_self _ _)
      · simpa using ih' _ hc

/-- `evalStrToDate` reads a call whose value and format hold no quote. -/
theorem evalStrToDate_call {value format : Str} (hv : ∀ c ∈ value, (c != quoteChar) = true)
    (hf : ∀ c ∈ format, (c != quoteChar) = true) :
    evalStrToDate (strToDateCall value format) = strToDate (mysqlFormat format) value {} := by
  have hpre : "STR_TO_DATE(".toList.length = 12 := rfl
  have hstop : (quoteChar != quoteChar) = false := by decide
  unfold evalStrToDate strToDateCall
  simp only [List.append_assoc, List.cons_append]
  rw [List.drop_left' hpre, List.take_left' hpre]
  simp only [takeWhile_append_of_stop hv hstop, takeWhile_append_of_stop hf hstop, List.drop_left,
    and_self, if_true]

/-- The Python and the MySQL format of a datetime parse to the same directives. -/
theorem datetime_formats_agree :
    pyFormat "%Y-%m-%d %H:%M:%S.%f".toList = mysqlFormat "%Y-%m-%d %H:%i:%s.%f".toList := by decide

/-- The directives of the connection's datetime format. -/
theorem pyFormat_datetime : pyFormat "%Y-%m-%d %H:%M:%S.%f".toList =
    [.field .year, .lit '-', .field .month, .lit '-', .field .day, .lit ' ', .field .hour, .lit ':',
      .field .minute, .lit ':', .field .second, .lit '.', .field .microsecond] := by decide

theorem pyFormat_date :
    pyFormat "%Y-%m-%d".toList = [.field .year, .lit '-', .field .month, .lit '-', .field .day] := by
  decide

/-- **The literals the MySQL connection writes evaluate to the values they were given**, for every
year MySQL's `DATETIME` supports, from 1000: for every `datetime`, `STR_TO_DATE` reads the text
`strftime` wrote back as its seven fields, and for every `date` as its year, month and day at
midnight. -/
theorem mysql_datetime_literals_round_trip :
    (∀ value : DateTime, 1000 ≤ value.year →
      evalStrToDate (mysqlDatetimeSql value) = some value.moment) ∧
      ∀ value : Date, 1000 ≤ value.year →
        evalStrToDate (mysqlDateSql value) = some value.moment := by
  refine ⟨fun value hy => ?_, fun value hy => ?_⟩
  · have h := strToDate_strftime value.moment_fits hy (pyFormat "%Y-%m-%d %H:%M:%S.%f".toList)
      (by rw [pyFormat_datetime]; decide) [] {}
    rw [List.append_nil] at h
    rw [mysqlDatetimeSql, evalStrToDate_call (quote_not_mem_strftime (by decide) (by decide) _)
      (by decide), ← datetime_formats_agree, h, pyFormat_datetime]
    rfl
  · have h := strToDate_strftime value.moment_fits hy (pyFormat "%Y-%m-%d".toList)
      (by rw [pyFormat_date]; decide) [] {}
    rw [List.append_nil] at h
    rw [mysqlDateSql, evalStrToDate_call (quote_not_mem_strftime (by decide) (by decide) _)
      (by decide), show mysqlFormat "%Y-%m-%d".toList = pyFormat "%Y-%m-%d".toList by decide, h,
      pyFormat_date]
    rfl

/-- `datetime(2024, 2, 29, 23, 59, 7, 1)`. -/
def leapDayValue : DateTime :=
  ⟨⟨2024, 2, 29, by decide, by decide, by decide⟩, 23, 59, 7, 1, by decide, by decide, by decide,
    by decide⟩

theorem mysql_datetime_literals_round_trip_leapDay :
    1000 ≤ leapDayValue.year ∧
      evalStrToDate (mysqlDatetimeSql leapDayValue) = some leapDayValue.moment ∧
      evalStrToDate (mysqlDateSql leapDayValue.toDate) = some leapDayValue.toDate.moment :=
  ⟨by decide, mysql_datetime_literals_round_trip.1 _ (by decide),
    mysql_datetime_literals_round_trip.2 _ (by decide)⟩

/-- Below the year 100 glibc writes one or two digits, which MySQL reads as a year of 1970–2069:
`date(5, 6, 7)` comes back as 2005-06-07. -/
example : evalStrToDate (mysqlDateSql ⟨5, 6, 7, by decide, by decide, by decide⟩) =
    some { year := 2005, month := 6, day := 7 } := by
  decide

/-! ## ISO 8601 literals of the MSSQL and Postgres connections -/

/-- `date.isoformat()`: CPython's `"%04d-%02d-%02d"`. -/
def dateIsoformat (d : Date) : Str :=
  padDigits 4 d.year ++ '-' :: padDigits 2 d.month ++ '-' :: padDigits 2 d.day

/-- `datetime.isoformat()` of a naive value: the date, `T`, `"%02d:%02d:%02d"`, then `".%06d"` of
the microseconds only when they are not zero. -/
def isoformat (dt : DateTime) : Str :=
  dateIsoformat dt.toDate ++ 'T' :: padDigits 2 dt.hour ++ ':' :: padDigits 2 dt.minute ++ ':' ::
    padDigits 2 dt.second ++ if dt.microsecond = 0 then [] else '.' :: padDigits 6 dt.microsecond

/-- Exactly `n` decimal digits at the head of `s`, and the text after them. -/
def readDigits (n : Nat) (s : Str) : Option (Nat × Str) :=
  if (s.take n).length = n ∧ (s.take n).all Char.isDigit = true then
    some (digitsValue (s.take n), s.drop n)
  else none

/-- The character `c` at the head of `s`, and the text after it. -/
def expectChar (c : Char) : Str → Option Str
  | d :: s => if d = c then some s else none
  | [] => none

/-- The `date` with these fields, when they are in range. -/
def Date.ofFields (y mo d : Nat) : Option Date :=
  if h : (1 ≤ y ∧ y ≤ 9999) ∧ (1 ≤ mo ∧ mo ≤ 12) ∧ 1 ≤ d ∧ d ≤ daysInMonth y mo then
    some ⟨y, mo, d, h.1, h.2.1, h.2.2⟩
  else none

/-- The `datetime` on `d` with these fields of the time, when they are in range. -/
def DateTime.ofFields (d : Date) (h mi s us : Nat) : Option DateTime :=
  if hv : h < 24 ∧ mi < 60 ∧ s < 60 ∧ us < 1000000 then
    some ⟨d, h, mi, s, us, hv.1, hv.2.1, hv.2.2.1, hv.2.2.2⟩
  else none

/-- The date of an ISO 8601 text as both servers read it: `YYYY-MM-DD` in four, two and two
digits, a date of the calendar; and the text after it. -/
def readIsoDatePart (s : Str) : Option (Date × Str) := do
  let (y, s) ← readDigits 4 s
  let s ← expectChar '-' s
  let (mo, s) ← readDigits 2 s
  let s ← expectChar '-' s
  let (d, s) ← readDigits 2 s
  let date ← Date.ofFields y mo d
  pure (date, s)

/-- The fraction of a second after the `.`: one to six digits, to the microsecond. -/
def readFraction (s : Str) : Option Nat :=
  if 1 ≤ s.length ∧ s.length ≤ 6 ∧ s.all Char.isDigit = true then
    some (digitsValue s * 10 ^ (6 - s.length))
  else none

/-- How SQL Server reads a `datetime2`, and PostgreSQL a `timestamp`, from ISO 8601 text: the date,
`T` or a space, `hh:mm:ss` in two digits each and in range, then, optionally, `.` and a fraction. -/
def readIsoTimestamp (s : Str) : Option DateTime := do
  let (date, s) ← readIsoDatePart s
  let s ← match s with
    | 'T' :: s | ' ' :: s => some s
    | _ => none
  let (h, s) ← readDigits 2 s
  let s ← expectChar ':' s
  let (mi, s) ← readDigits 2 s
  let s ← expectChar ':' s
  let (sec, s) ← readDigits 2 s
  let us ← match s with
    | [] => some 0
    | '.' :: frac => readFraction frac
    | _ => none
  DateTime.ofFields date h mi sec us

/-- How both servers read a `date` from ISO 8601 text: the date and nothing after it. -/
def readIsoDate (s : Str) : Option Date := do
  let (date, s) ← readIsoDatePart s
  if s = [] then some date else none

/-- The readers take more than `isoformat` writes, and check the calendar. -/
example : (readIsoTimestamp "2024-02-29 23:59:07.5".toList).map DateTime.moment =
      some ⟨2024, 2, 29, 23, 59, 7, 500000⟩ ∧
    (readIsoDate "2023-02-29".toList).isNone = true := by
  decide

/-- `MSSQL._get_datetime_value_sql`. -/
def mssqlDatetimeSql (value : DateTime) : Str :=
  "CAST(".toList ++ quoteChar :: isoformat value ++ quoteChar :: " AS datetime2)".toList

/-- `MSSQL._get_date_value_sql`. -/
def mssqlDateSql (value : Date) : Str :=
  "CAST(".toList ++ quoteChar :: dateIsoformat value ++ quoteChar :: " AS date)".toList

/-- `Postgres._get_datetime_value_sql`. -/
def postgresDatetimeSql (value : DateTime) : Str :=
  quoteChar :: isoformat value ++ quoteChar :: "::timestamp".toList

/-- `Postgres._get_date_value_sql`. -/
def postgresDateSql (value : Date) : Str :=
  quoteChar :: dateIsoformat value ++ quoteChar :: "::date".toList

/-- The string literal at the head of `t` and what follows its closing quote. -/
def quotedHead (t : Str) : Option (Str × Str) :=
  match t with
  | q :: body =>
    let value := body.takeWhile (· != quoteChar)
    match body.drop value.length with
    | q' :: rest => if q = quoteChar ∧ q' = quoteChar then some (value, rest) else none
    | [] => none
  | [] => none

/-- What SQL Server makes of `CAST('value' AS datetime2)` and `CAST('value' AS date)`: the fields of
the value it reads. -/
def evalCast (sql : Str) : Option Moment :=
  if sql.take 5 = "CAST(".toList then
    (quotedHead (sql.drop 5)).bind fun (value, rest) =>
      if rest = " AS datetime2)".toList then (readIsoTimestamp value).map DateTime.moment
      else if rest = " AS date)".toList then (readIsoDate value).map Date.moment
      else none
  else none

/-- What PostgreSQL makes of `'value'::timestamp` and `'value'::date`. -/
def evalTypedLiteral (sql : Str) : Option Moment :=
  (quotedHead sql).bind fun (value, rest) =>
    if rest = "::timestamp".toList then (readIsoTimestamp value).map DateTime.moment
    else if rest = "::date".toList then (readIsoDate value).map Date.moment
    else none

/-! ## What `isoformat` writes reads back -/

/-- **A number written in `n` digits reads back**, whatever follows it. -/
theorem readDigits_padDigits (n : Nat) {v : Nat} (hv : v < 10 ^ n) (rest : Str) :
    readDigits n (padDigits n v ++ rest) = some (v, rest) := by
  have hlen := padDigits_length n v
  have hall : (padDigits n v).all Char.isDigit = true := List.all_eq_true.2 (padDigits_isDigit n v)
  simp [readDigits, List.take_left' hlen, List.drop_left' hlen, hlen, hall,
    digitsValue_padDigits n v hv]

@[simp] theorem expectChar_cons (c : Char) (s : Str) : expectChar c (c :: s) = some s := by
  simp [expectChar]

theorem Date.ofFields_fields (d : Date) : Date.ofFields d.year d.month d.day = some d :=
  dif_pos ⟨d.year_valid, d.month_valid, d.day_valid⟩

theorem DateTime.ofFields_fields (dt : DateTime) :
    DateTime.ofFields dt.toDate dt.hour dt.minute dt.second dt.microsecond = some dt :=
  dif_pos ⟨dt.hour_lt, dt.minute_lt, dt.second_lt, dt.microsecond_lt⟩

theorem Date.year_lt (d : Date) : d.year < 10 ^ 4 := by have := d.year_valid; omega

theorem Date.month_lt (d : Date) : d.month < 10 ^ 2 := by have := d.month_valid; omega

theorem Date.day_lt (d : Date) : d.day < 10 ^ 2 := by have := d.day_le; omega

theorem readIsoDatePart_dateIsoformat (d : Date) (rest : Str) :
    readIsoDatePart (dateIsoformat d ++ rest) = some (d, rest) := by
  simp only [readIsoDatePart, dateIsoformat, List.append_assoc, List.cons_append,
    readDigits_padDigits 4 d.year_lt, readDigits_padDigits 2 d.month_lt,
    readDigits_padDigits 2 d.day_lt, expectChar_cons, Date.ofFields_fields, Option.bind_eq_bind,
    Option.some_bind]
  rfl

theorem readFraction_padDigits {us : Nat} (h : us < 10 ^ 6) :
    readFraction (padDigits 6 us) = some us := by
  have hall : (padDigits 6 us).all Char.isDigit = true :=
    List.all_eq_true.2 (padDigits_isDigit 6 us)
  simp [readFraction, padDigits_length, hall, digitsValue_padDigits 6 us h]

/-- **An ISO timestamp `isoformat` wrote reads back**, with or without its microseconds. -/
theorem readIsoTimestamp_isoformat (dt : DateTime) : readIsoTimestamp (isoformat dt) = some dt := by
  have hh : dt.hour < 10 ^ 2 := by have := dt.hour_lt; omega
  have hm : dt.minute < 10 ^ 2 := by have := dt.minute_lt; omega
  have hs : dt.second < 10 ^ 2 := by have := dt.second_lt; omega
  have hus : readFraction (padDigits 6 dt.microsecond) = some dt.microsecond :=
    readFraction_padDigits (by have := dt.microsecond_lt; omega)
  have hdt := DateTime.ofFields_fields dt
  simp only [isoformat, List.append_assoc, List.cons_append]
  rw [readIsoTimestamp, readIsoDatePart_dateIsoformat]
  dsimp only [Option.bind_eq_bind, Option.some_bind]
  simp only [readDigits_padDigits 2 hh, readDigits_padDigits 2 hm, readDigits_padDigits 2 hs,
    Option.some_bind, expectChar_cons]
  by_cases h0 : dt.microsecond = 0
  · simp only [if_pos h0, Option.some_bind]
    rw [← h0]
    exact hdt
  · simp only [if_neg h0, hus, Option.some_bind, hdt]

theorem readIsoDate_dateIsoformat (d : Date) : readIsoDate (dateIsoformat d) = some d := by
  have h := readIsoDatePart_dateIsoformat d []
  rw [List.append_nil] at h
  simp [readIsoDate, h]

theorem quotedHead_quote {value : Str} (hv : ∀ c ∈ value, (c != quoteChar) = true) (rest : Str) :
    quotedHead (quoteChar :: (value ++ quoteChar :: rest)) = some (value, rest) := by
  have hstop : (quoteChar != quoteChar) = false := by decide
  simp [quotedHead, takeWhile_append_of_stop hv hstop]

theorem padDigits_noQuote (n k : Nat) : (padDigits n k).all (· != quoteChar) = true :=
  List.all_eq_true.2 fun c hc => by
    simp only [bne_iff_ne, ne_eq]
    rintro rfl
    exact absurd (padDigits_isDigit _ _ _ hc) (by decide)

theorem quote_not_mem_dateIsoformat (d : Date) : ∀ c ∈ dateIsoformat d, (c != quoteChar) = true :=
  List.all_eq_true.1 <| by
    simp only [dateIsoformat, List.all_append, List.all_cons, padDigits_noQuote]
    decide

theorem quote_not_mem_isoformat (dt : DateTime) : ∀ c ∈ isoformat dt, (c != quoteChar) = true := by
  have hd := List.all_eq_true.2 (quote_not_mem_dateIsoformat dt.toDate)
  refine List.all_eq_true.1 ?_
  unfold isoformat
  split <;> simp only [List.all_append, List.all_cons, List.all_nil, padDigits_noQuote, hd] <;>
    decide

/-- SQL Server reads a cast whose value holds no quote by the type it names. -/
theorem evalCast_cast {value : Str} (hv : ∀ c ∈ value, (c != quoteChar) = true) (rest : Str) :
    evalCast ("CAST(".toList ++ quoteChar :: value ++ quoteChar :: rest) =
      if rest = " AS datetime2)".toList then (readIsoTimestamp value).map DateTime.moment
      else if rest = " AS date)".toList then (readIsoDate value).map Date.moment else none := by
  have hpre : "CAST(".toList.length = 5 := rfl
  rw [evalCast, List.append_assoc, List.take_left' hpre, if_pos rfl, List.drop_left' hpre,
    List.cons_append, quotedHead_quote hv, Option.some_bind]

/-- PostgreSQL reads a typed literal whose value holds no quote by the type it names. -/
theorem evalTypedLiteral_literal {value : Str} (hv : ∀ c ∈ value, (c != quoteChar) = true)
    (rest : Str) :
    evalTypedLiteral (quoteChar :: value ++ quoteChar :: rest) =
      if rest = "::timestamp".toList then (readIsoTimestamp value).map DateTime.moment
      else if rest = "::date".toList then (readIsoDate value).map Date.moment else none := by
  rw [evalTypedLiteral, List.cons_append, quotedHead_quote hv, Option.some_bind]

/-- **The literals the MSSQL and Postgres connections write evaluate to the values they were
given**: for every `datetime`, its `isoformat()` text is read back as its seven fields, the
microseconds being zero when `isoformat` leaves them out, and for every `date` as its year, month
and day at midnight. -/
theorem iso_datetime_literals_round_trip :
    (∀ value : DateTime, evalCast (mssqlDatetimeSql value) = some value.moment ∧
      evalTypedLiteral (postgresDatetimeSql value) = some value.moment) ∧
    ∀ value : Date, evalCast (mssqlDateSql value) = some value.moment ∧
      evalTypedLiteral (postgresDateSql value) = some value.moment := by
  refine ⟨fun value => ⟨?_, ?_⟩, fun value => ⟨?_, ?_⟩⟩
  · rw [mssqlDatetimeSql, evalCast_cast (quote_not_mem_isoformat _), if_pos rfl,
      readIsoTimestamp_isoformat, Option.map_some']
  · rw [postgresDatetimeSql, evalTypedLiteral_literal (quote_not_mem_isoformat _), if_pos rfl,
      readIsoTimestamp_isoformat, Option.map_some']
  · rw [mssqlDateSql, evalCast_cast (quote_not_mem_dateIsoformat _), if_neg (by decide), if_pos rfl,
      readIsoDate_dateIsoformat, Option.map_some']
  · rw [postgresDateSql, evalTypedLiteral_literal (quote_not_mem_dateIsoformat _),
      if_neg (by decide), if_pos rfl, readIsoDate_dateIsoformat, Option.map_some']

end Onetl.Connection
