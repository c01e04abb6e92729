import Mathlib
import NpsSdk.GoString

/-! Instants as Go's `time` package counts, prints and reads them. An instant is a number of nanoseconds
since the start of year 1 in UTC, which is the zero time. A layout is read chunk by chunk; a fraction
of a second is read after the seconds whether the layout names it or not. -/

namespace NpsSdk

open List Nat Char

abbrev Time := Int

abbrev Duration := Int

namespace GoTime

def second : Duration := 1000000000

def minute : Duration := 60 * second

def hour : Duration := 60 * minute

def day : Duration := 24 * hour

def maxDuration : Duration := 2 ^ 63 - 1

def minDuration : Duration := -2 ^ 63

def sub (t u : Time) : Duration := max minDuration (min maxDuration (t - u))

def abs (d : Duration) : Duration := if d = minDuration then maxDuration else |d|

/-- A difference that a duration does not hold is a long one. -/
theorem lt_abs_sub_iff {t u : Time} {d : Duration} (hlow : 0 ≤ d) (hhigh : d < maxDuration) :
    d < abs (sub t u) ↔ d < |t - u| := by
  have hclamp : ∀ d x : Int, 0 ≤ d → d < 2 ^ 63 - 1 →
      (d < (if max (-2 ^ 63) (min (2 ^ 63 - 1) x) = -2 ^ 63 then 2 ^ 63 - 1
        else |max (-2 ^ 63) (min (2 ^ 63 - 1) x)|) ↔ d < |x|) := by
    intro d x hlow hhigh
    rw [lt_abs]
    split_ifs
    · omega
    · rw [lt_abs]
      omega
  exact hclamp d (t - u) hlow hhigh

/-! ### The calendar -/

def isLeap (year : Nat) : Bool := year % 4 = 0 && (year % 100 ≠ 0 || year % 400 = 0)

def daysBeforeYear (year : Nat) : Nat :=
  365 * (year - 1) + (year - 1) / 4 - (year - 1) / 100 + (year - 1) / 400

def daysBeforeMonth (leap : Bool) (month : Nat) : Nat :=
  match month with
  | 0 | 1 => 0
  | 2 => 31
  | 3 => if leap then 60 else 59
  | 4 => if leap then 91 else 90
  | 5 => if leap then 121 else 120
  | 6 => if leap then 152 else 151
  | 7 => if leap then 182 else 181
  | 8 => if leap then 213 else 212
  | 9 => if leap then 244 else 243
  | 10 => if leap then 274 else 273
  | 11 => if leap then 305 else 304
  | 12 => if leap then 335 else 334
  | _ => if leap then 366 else 365

def daysIn (leap : Bool) (month : Nat) : Nat :=
  daysBeforeMonth leap (month + 1) - daysBeforeMonth leap month

def daysPerEra : Nat := 146097

structure Date where
  era : Int
  yearOfEra : Nat
  month : Nat
  day : Nat

def Date.year (date : Date) : Int := 400 * date.era + date.yearOfEra

def yearOfDay (dayOfEra : Nat) : Nat :=
  findGreatest (fun year => daysBeforeYear year ≤ dayOfEra) (min 400 (dayOfEra / 365 + 1))

def monthOfDay (leap : Bool) (dayOfYear : Nat) : Nat :=
  findGreatest (fun month => daysBeforeMonth leap month ≤ dayOfYear) 12

/-- The date of a day, counted from the first day of year 1. -/
def dateOfDay (days : Int) : Date :=
  let dayOfEra := (days % daysPerEra).toNat
  let year := yearOfDay dayOfEra
  let dayOfYear := dayOfEra - daysBeforeYear year
  let month := monthOfDay (isLeap year) dayOfYear
  { era := days / daysPerEra
    yearOfEra := year
    month := month
    day := dayOfYear - daysBeforeMonth (isLeap year) month + 1 }

def dateOfYear (year : Int) (month day : Nat) : Date :=
  { era := (year - 1) / 400, yearOfEra := ((year - 1) % 400).toNat + 1, month := month, day := day }

def Date.toDay (date : Date) : Int :=
  daysPerEra * date.era + daysBeforeYear date.yearOfEra +
    daysBeforeMonth (isLeap date.yearOfEra) date.month + date.day - 1

theorem div_hundred_le (n : Nat) : n / 100 ≤ n / 4 := div_le_div_left (by decide) (by decide)

/-- No day of an era comes after the last year that may hold it. -/
theorem lt_daysBeforeYear {dayOfEra : Nat} (h : dayOfEra < daysPerEra) :
    dayOfEra < daysBeforeYear (min 400 (dayOfEra / 365 + 1) + 1) := by
  rcases le_total 400 (dayOfEra / 365 + 1) with hle | hle
  · rw [min_eq_left hle]
    exact h
  have := div_hundred_le (dayOfEra / 365 + 1)
  rw [Nat.min_eq_right hle, daysBeforeYear, Nat.add_sub_cancel]
  omega

theorem yearOfDay_spec {dayOfEra : Nat} (h : dayOfEra < daysPerEra) :
    1 ≤ yearOfDay dayOfEra ∧ yearOfDay dayOfEra ≤ 400 ∧ daysBeforeYear (yearOfDay dayOfEra) ≤ dayOfEra ∧
      dayOfEra < daysBeforeYear (yearOfDay dayOfEra + 1) := by
  have hone : (1 : Nat) ≤ min 400 (dayOfEra / 365 + 1) := by omega
  have hfirst : daysBeforeYear 1 ≤ dayOfEra := zero_le _
  have hle : yearOfDay dayOfEra ≤ min 400 (dayOfEra / 365 + 1) := findGreatest_le _
  refine ⟨le_findGreatest hone hfirst, by omega,
    findGreatest_spec (P := fun year => daysBeforeYear year ≤ dayOfEra) hone hfirst, ?_⟩
  by_contra hge
  rcases Nat.lt_or_ge (yearOfDay dayOfEra) (min 400 (dayOfEra / 365 + 1)) with hlt | hge'
  · exact Nat.findGreatest_is_greatest (Nat.lt_succ_self _) hlt (Nat.le_of_not_lt hge)
  · rw [show yearOfDay dayOfEra = _ from Nat.le_antisymm hle hge'] at hge
    exact hge (lt_daysBeforeYear h)

theorem daysBeforeYear_succ {year : Nat} (h : 1 ≤ year) :
    daysBeforeYear (year + 1) = daysBeforeYear year + daysBeforeMonth (isLeap year) 13 := by
  obtain ⟨n, rfl⟩ := Nat.exists_eq_add_of_le' h
  have := div_hundred_le n
  simp only [daysBeforeYear, Nat.add_sub_cancel, Nat.succ_div, daysBeforeMonth, isLeap, Nat.dvd_iff_mod_eq_zero]
  by_cases h4 : (n + 1) % 4 = 0 <;> by_cases h100 : (n + 1) % 100 = 0 <;>
    by_cases h400 : (n + 1) % 400 = 0 <;> simp [h4, h100, h400] <;> omega

theorem monthOfDay_spec {leap : Bool} {dayOfYear : Nat} (h : dayOfYear < daysBeforeMonth leap 13) :
    1 ≤ monthOfDay leap dayOfYear ∧ monthOfDay leap dayOfYear ≤ 12 ∧
      daysBeforeMonth leap (monthOfDay leap dayOfYear) ≤ dayOfYear ∧
      dayOfYear < daysBeforeMonth leap (monthOfDay leap dayOfYear + 1) := by
  have hfirst : daysBeforeMonth leap 1 ≤ dayOfYear := zero_le _
  have hle : monthOfDay leap dayOfYear ≤ 12 := findGreatest_le _
  refine ⟨le_findGreatest (by decide) hfirst, hle,
    findGreatest_spec (P := fun month => daysBeforeMonth leap month ≤ dayOfYear)
      (by decide : 1 ≤ 12) hfirst, ?_⟩
  by_contra hge
  rcases Nat.lt_or_eq_of_le hle with hlt | heq
  · exact Nat.findGreatest_is_greatest (Nat.lt_succ_self _) hlt (Nat.le_of_not_lt hge)
  · rw [heq] at hge
    exact hge h

/-- What the fields of a day's date satisfy; the date determines the day. -/
theorem dateOfDay_spec (days : Int) : let date := dateOfDay days
    (1 ≤ date.yearOfEra ∧ date.yearOfEra ≤ 400) ∧ (1 ≤ date.month ∧ date.month ≤ 12) ∧
      (1 ≤ date.day ∧ date.day ≤ daysIn (isLeap date.yearOfEra) date.month) ∧ date.toDay = days := by
  have hnonneg : 0 ≤ days % daysPerEra := Int.emod_nonneg _ (by decide)
  have hlt : days % daysPerEra < daysPerEra := Int.emod_lt_of_pos _ (by decide)
  have hsplit := Int.mul_ediv_add_emod days daysPerEra
  have hera : (days % daysPerEra).toNat < daysPerEra := by omega
  obtain ⟨hyear, hyear', hbefore, hafter⟩ := yearOfDay_spec hera
  rw [daysBeforeYear_succ hyear] at hafter
  have hdayOfYear : (days % daysPerEra).toNat - daysBeforeYear (yearOfDay (days % daysPerEra).toNat) <
      daysBeforeMonth (isLeap (yearOfDay (days % daysPerEra).toNat)) 13 := by omega
  obtain ⟨hmonth, hmonth', hmbefore, hmafter⟩ := monthOfDay_spec hdayOfYear
  refine ⟨⟨hyear, hyear'⟩, ⟨hmonth, hmonth'⟩, ⟨le_add_left 1 _, ?_⟩, ?_⟩
  · simp only [dateOfDay, daysIn]
    omega
  · simp only [Date.toDay, dateOfDay]
    omega

theorem dateOfYear_year {date : Date} (h : 1 ≤ date.yearOfEra ∧ date.yearOfEra ≤ 400) :
    dateOfYear date.year date.month date.day = date := by
  obtain ⟨era, year, month, day⟩ := date
  simp only [dateOfYear, Date.year, Date.mk.injEq, and_true] at h ⊢
  omega

/-! ### Printing -/

def digitChar (n : Nat) : Char := ofNat (48 + n % 10)

/-- The last digits of a number, as many as given. -/
def decimal : Nat → Nat → List Char
  | 0, _ => []
  | width + 1, n => decimal width (n / 10) ++ [digitChar n]

def formatYear (year : Int) : List Char :=
  let digits := if year.natAbs < 10000 then decimal 4 year.natAbs else toDigits 10 year.natAbs
  if year < 0 then '-' :: digits else digits

variable (t : Time)

def dateOf : Date := dateOfDay (t / day)

def clockOf : Nat := (t % day).toNat

/-- Date and time of day up to the seconds, before what is given. -/
def formatSeconds (rest : List Char) : List Char :=
  let date := dateOf t
  let clock := clockOf t
  formatYear date.year ++ '-' :: (decimal 2 date.month ++ '-' :: (decimal 2 date.day ++ 'T' ::
    (decimal 2 (clock / 3600000000000) ++ ':' :: (decimal 2 (clock / 60000000000 % 60) ++ ':' ::
      (decimal 2 (clock / 1000000000 % 60) ++ rest)))))

/-- The layout `2006-01-02T15:04:05.0000000Z07:00` in UTC. -/
def formatIso : List Char :=
  formatSeconds t ('.' :: (decimal 7 (clockOf t / 100 % 10000000) ++ ['Z']))

def isoTime : GoString := GoString.ofChars (formatIso t)

/-! ### Reading -/

inductive LayoutChunk where
  | year
  | month
  | day
  | hour
  | minute
  | second
  | zone (colon : Bool)
  | literal (c : Char)

/-- `2006-01-02T15:04:05Z07:00`; with the fraction it names, `time.RFC3339Nano` reads the same. -/
def rfc3339 : List LayoutChunk :=
  [.year, .literal '-', .month, .literal '-', .day, .literal 'T', .hour, .literal ':', .minute,
    .literal ':', .second, .zone true]

structure Parsed where
  year : Nat := 0
  month : Nat := 1
  day : Nat := 1
  hour : Nat := 0
  minute : Nat := 0
  second : Nat := 0
  nanosecond : Nat := 0
  offset : Int := 0

def digitValue (c : Char) : Nat := c.toNat - 48

def twoDigits : List Char → Option (Nat × List Char)
  | a :: b :: rest =>
    if a.isDigit && b.isDigit then some (digitValue a * 10 + digitValue b, rest) else none
  | _ => none

def oneOrTwoDigits : List Char → Option (Nat × List Char)
  | a :: b :: rest =>
    if a.isDigit then
      if b.isDigit then some (digitValue a * 10 + digitValue b, rest)
      else some (digitValue a, b :: rest)
    else none
  | [a] => if a.isDigit then some (digitValue a, []) else none
  | [] => none

def fourDigits (text : List Char) : Option (Nat × List Char) :=
  match twoDigits text with
  | some (high, rest) =>
    match twoDigits rest with
    | some (low, rest) => some (high * 100 + low, rest)
    | none => none
  | none => none

/-- Nine digits of a fraction, the missing ones being zero. -/
def nanoseconds (digits : List Char) : Nat :=
  ((digits ++ List.replicate 9 '0').take 9).foldl (fun n c => n * 10 + digitValue c) 0

def parseFraction : List Char → Nat × List Char
  | c :: d :: rest =>
    if (c = '.' || c = ',') && d.isDigit then
      (nanoseconds ((d :: rest).takeWhile isDigit), (d :: rest).dropWhile isDigit)
    else (0, c :: d :: rest)
  | text => (0, text)

def parseZone (colon : Bool) (text : List Char) : Option (Int × List Char) :=
  match text with
  | 'Z' :: rest => some (0, rest)
  | sign :: rest =>
    match twoDigits rest with
    | none => none
    | some (hours, rest) =>
      let minutes :=
        if colon then
          match rest with
          | ':' :: rest => twoDigits rest
          | _ => none
        else twoDigits rest
      match minutes with
      | none => none
      | some (minutes, rest) =>
        if hours > 24 || minutes > 60 then none
        else
          let offset : Int := hours * 3600 + minutes * 60
          if sign = '+' then some (offset, rest)
          else if sign = '-' then some (-offset, rest)
          else none
  | [] => none

def parseChunk (p : Parsed) (text : List Char) : LayoutChunk → Option (Parsed × List Char)
  | .year => (fourDigits text).map fun (n, rest) => ({ p with year := n }, rest)
  | .month =>
    match twoDigits text with
    | some (n, rest) => if 1 ≤ n ∧ n ≤ 12 then some ({ p with month := n }, rest) else none
    | none => none
  | .day => (twoDigits text).map fun (n, rest) => ({ p with day := n }, rest)
  | .hour =>
    match oneOrTwoDigits text with
    | some (n, rest) => if n < 24 then some ({ p with hour := n }, rest) else none
    | none => none
  | .minute =>
    match twoDigits text with
    | some (n, rest) => if n < 60 then some ({ p with minute := n }, rest) else none
    | none => none
  | .second =>
    match twoDigits text with
    | some (n, rest) =>
      if n < 60 then
        let (fraction, rest) := parseFraction rest
        some ({ p with second := n, nanosecond := fraction }, rest)
      else none
    | none => none
  | .zone colon => (parseZone colon text).map fun (offset, rest) => ({ p with offset := offset }, rest)
  | .literal c =>
    match text with
    | d :: rest => if d = c then some (p, rest) else none
    | [] => none

def parseChunks : List LayoutChunk → Parsed → List Char → Option (Parsed × List Char)
  | [], p, text => some (p, text)
  | chunk :: layout, p, text =>
    match parseChunk p text chunk with
    | some (p, rest) => parseChunks layout p rest
    | none => none

/-- The instant of a date and a clock time. -/
def Parsed.toTime (p : Parsed) : Time :=
  (dateOfYear p.year p.month p.day).toDay * GoTime.day +
    ((p.hour * 3600 + p.minute * 60 + p.second : Nat) - p.offset : Int) * GoTime.second +
    (p.nanosecond : Int)

def parse (layout : List LayoutChunk) (text : GoString) : Option Time :=
  match parseChunks layout {} (GoString.toChars text) with
  | some (p, []) =>
    if 1 ≤ p.day ∧ p.day ≤ daysIn (isLeap (dateOfYear p.year p.month p.day).yearOfEra) p.month then
      some p.toTime
    else none
  | _ => none

/-! ### What is printed is read back -/

theorem isDigit_digitChar (n : Nat) : (digitChar n).isDigit = true := by
  have h : ∀ d < 10, (ofNat (48 + d)).isDigit = true := by decide
  exact h _ (mod_lt _ (by decide))

theorem digitValue_digitChar (n : Nat) : digitValue (digitChar n) = n % 10 := by
  have h : ∀ d < 10, digitValue (ofNat (48 + d)) = d := by decide
  exact h _ (mod_lt _ (by decide))

theorem decimal_two (n : Nat) : decimal 2 n = [digitChar (n / 10), digitChar n] := rfl

variable {n : Nat}

theorem twoDigits_decimal (h : n < 100) (rest : List Char) : twoDigits (decimal 2 n ++ rest) = some (n, rest) := by
  rw [decimal_two]
  simp only [cons_append, nil_append, twoDigits, isDigit_digitChar, Bool.and_self, if_true,
    digitValue_digitChar, Option.some.injEq, Prod.mk.injEq, and_true]
  omega

theorem oneOrTwoDigits_decimal (h : n < 100) (rest : List Char) :
    oneOrTwoDigits (decimal 2 n ++ rest) = some (n, rest) := by
  rw [decimal_two]
  simp only [cons_append, nil_append, oneOrTwoDigits, isDigit_digitChar, if_true,
    digitValue_digitChar, Option.some.injEq, Prod.mk.injEq, and_true]
  omega

theorem fourDigits_decimal (h : n < 10000) (rest : List Char) : fourDigits (decimal 4 n ++ rest) = some (n, rest) := by
  have hsplit : decimal 4 n = decimal 2 (n / 100) ++ decimal 2 n := by
    simp only [decimal, Nat.div_div_eq_div_mul, nil_append, cons_append]
  rw [hsplit, append_assoc, fourDigits, twoDigits_decimal (by omega)]
  dsimp only
  have hlow : decimal 2 n = decimal 2 (n % 100) := by
    simp only [decimal_two, digitChar]
    congr 3 <;> omega
  rw [hlow, twoDigits_decimal (by omega)]
  simp only [Option.some.injEq, Prod.mk.injEq, and_true]
  omega

theorem length_decimal (width n : Nat) : (decimal width n).length = width := by
  induction width generalizing n with
  | zero => rfl
  | succ width ih => rw [decimal, length_append, ih, length_singleton]

theorem isDigit_of_mem_decimal {width n : Nat} : ∀ c ∈ decimal width n, c.isDigit = true := by
  induction width generalizing n with
  | zero => exact fun c hc => nomatch hc
  | succ width ih =>
    intro c hc
    rcases mem_append.mp hc with h | h
    · exact ih c h
    · rw [mem_singleton.mp h]
      exact isDigit_digitChar n

theorem foldl_decimal {width n : Nat} (h : n < 10 ^ width) (acc : Nat) :
    (decimal width n).foldl (fun n c => n * 10 + digitValue c) acc = acc * 10 ^ width + n := by
  induction width generalizing n acc with
  | zero =>
    have : n = 0 := by simpa using h
    rw [this, decimal, foldl_nil, pow_zero, mul_one, add_zero]
  | succ width ih =>
    rw [decimal, foldl_append, ih (by omega), foldl_cons, foldl_nil,
      digitValue_digitChar, pow_succ, ← mul_assoc]
    omega

theorem nanoseconds_decimal (h : n < 10000000) : nanoseconds (decimal 7 n) = n * 100 := by
  have htake : (decimal 7 n ++ List.replicate 9 '0').take 9 = decimal 7 n ++ List.replicate 2 '0' := by
    rw [take_append, length_decimal, take_of_length_le (by rw [length_decimal]; decide)]
    rfl
  rw [nanoseconds, htake, foldl_append, foldl_decimal h]
  change ((0 * 10 ^ 7 + n) * 10 + digitValue '0') * 10 + digitValue '0' = n * 100
  have : digitValue '0' = 0 := by decide
  omega

theorem parseFraction_decimal (h : n < 10000000) (rest : List Char) (hrest : ∀ c ∈ rest.head?, c.isDigit = false) :
    parseFraction ('.' :: (decimal 7 n ++ rest)) = (n * 100, rest) := by
  have hdigits : ∀ c ∈ decimal 7 n, c.isDigit = true := isDigit_of_mem_decimal
  have htail : rest.takeWhile isDigit = [] ∧ rest.dropWhile isDigit = rest := by
    cases rest with
    | nil => exact ⟨rfl, rfl⟩
    | cons c rest =>
      have hc := hrest c rfl
      simp [hc]
  have htake : (decimal 7 n ++ rest).takeWhile isDigit = decimal 7 n := by
    rw [takeWhile_append_of_pos hdigits, htail.1, append_nil]
  have hdrop : (decimal 7 n ++ rest).dropWhile isDigit = rest := by
    rw [dropWhile_append_of_pos hdigits, htail.2]
  cases hsplit : decimal 7 n ++ rest with
  | nil =>
    have hlen := congrArg List.length hsplit
    rw [length_append, length_decimal] at hlen
    simp at hlen
  | cons d text =>
    have hd : d.isDigit = true := by
      have hhead : (decimal 7 n ++ rest).head? = some d := by rw [hsplit]; rfl
      rw [head?_append_of_ne_nil _ (ne_nil_of_length_pos (by rw [length_decimal]; decide))] at hhead
      exact hdigits d (mem_of_mem_head? hhead)
    rw [parseFraction, hd, ← hsplit, htake, hdrop, nanoseconds_decimal h]
    rfl

theorem day_eq : day = 86400000000000 := rfl

theorem second_eq : second = 1000000000 := rfl

theorem clockOf_lt : clockOf t < 86400000000000 := by
  unfold clockOf
  rw [day_eq]
  omega

def FourDigitYear : Prop := 0 ≤ (dateOf t).year ∧ (dateOf t).year < 10000

instance (t : Time) : Decidable (FourDigitYear t) := inferInstanceAs (Decidable (_ ∧ _))

def fieldsOf : Parsed :=
  { year := (dateOf t).year.toNat
    month := (dateOf t).month
    day := (dateOf t).day
    hour := clockOf t / 3600000000000
    minute := clockOf t / 60000000000 % 60
    second := clockOf t / 1000000000 % 60
    nanosecond := clockOf t / 100 % 10000000 * 100 }

theorem daysBeforeMonth_of_lt {leap : Bool} {month : Nat} (h : 12 < month) :
    daysBeforeMonth leap month = daysBeforeMonth leap 13 := by
  obtain ⟨n, rfl⟩ := Nat.exists_eq_add_of_le' h
  rfl

theorem daysIn_le (leap : Bool) (month : Nat) : daysIn leap month ≤ 31 := by
  rcases Nat.lt_or_ge 12 month with h | h
  · rw [daysIn, daysBeforeMonth_of_lt h, daysBeforeMonth_of_lt (Nat.lt_succ_of_lt h), Nat.sub_self]
    decide
  · have hall : ∀ leap, ∀ month ≤ 12, daysIn leap month ≤ 31 := by decide
    exact hall leap month h

theorem parseChunks_isoTime {t : Time} (h : FourDigitYear t) :
    parseChunks rfc3339 {} (formatIso t) = some (fieldsOf t, []) := by
  obtain ⟨-, hmonth, hday, -⟩ := dateOfDay_spec (t / day)
  have hdays := daysIn_le (isLeap (dateOfDay (t / day)).yearOfEra) (dateOfDay (t / day)).month
  have hclock := clockOf_lt t
  have hyear : formatYear (dateOf t).year = decimal 4 (dateOf t).year.toNat := by
    obtain ⟨hnonneg, hlt⟩ := h
    have habs : (dateOf t).year.natAbs = (dateOf t).year.toNat := by omega
    rw [formatYear, if_neg (by omega), if_pos (by omega), habs]
  have hfrac := parseFraction_decimal (n := clockOf t / 100 % 10000000) (by omega) ['Z']
    (by intro c hc; rw [← Option.some.inj hc]; decide)
  unfold FourDigitYear at h
  rw [formatIso, formatSeconds, hyear, rfc3339]
  unfold dateOf at *
  simp only [parseChunks, parseChunk, Option.map_some,
    fourDigits_decimal (show (dateOfDay (t / day)).year.toNat < 10000 by omega),
    twoDigits_decimal (show (dateOfDay (t / day)).month < 100 by omega), hmonth, and_self, if_true,
    twoDigits_decimal (show (dateOfDay (t / day)).day < 100 by omega),
    oneOrTwoDigits_decimal (show clockOf t / 3600000000000 < 100 by omega),
    show clockOf t / 3600000000000 < 24 by omega,
    twoDigits_decimal (show clockOf t / 60000000000 % 60 < 100 by omega),
    show clockOf t / 60000000000 % 60 < 60 by omega,
    twoDigits_decimal (show clockOf t / 1000000000 % 60 < 100 by omega),
    show clockOf t / 1000000000 % 60 < 60 by omega, hfrac, parseZone]
  rfl

theorem toTime_fieldsOf {t : Time} (h : FourDigitYear t) : (fieldsOf t).toTime = t - t % 100 := by
  obtain ⟨hyear, -, -, htoDay⟩ := dateOfDay_spec (t / day)
  have hdate : dateOfYear ((dateOf t).year.toNat : Int) (dateOf t).month (dateOf t).day = dateOf t := by
    rw [Int.toNat_of_nonneg h.1]
    exact dateOfYear_year hyear
  have hclock : (clockOf t : Int) = t % day :=
    Int.toNat_of_nonneg (Int.emod_nonneg t (by decide : day ≠ 0))
  have hsplit := Int.mul_ediv_add_emod t day
  rw [Parsed.toTime, fieldsOf]
  dsimp only
  rw [hdate]
  change (dateOfDay (t / day)).toDay * _ + _ + _ = _
  rw [htoDay, second_eq]
  rw [day_eq] at hclock hsplit ⊢
  omega

/-- What was printed is read back, but for what is shorter than the seven digits of the fraction. -/
theorem parse_isoTime {t : Time} (h : FourDigitYear t) : parse rfc3339 (isoTime t) = some (t - t % 100) := by
  obtain ⟨hyear, -, hday, -⟩ := dateOfDay_spec (t / day)
  have hdate : dateOfYear ((dateOf t).year.toNat : Int) (dateOf t).month (dateOf t).day = dateOf t := by
    rw [Int.toNat_of_nonneg h.1]
    exact dateOfYear_year hyear
  rw [parse, isoTime, GoString.toChars_ofChars, parseChunks_isoTime h]
  dsimp only [fieldsOf]
  rw [hdate]
  refine (if_pos hday).trans ?_
  exact congrArg some (toTime_fieldsOf h)

/-! ### Fractions and durations -/

/-- The digits of a fraction of given width without trailing zeros, after a point. -/
def fractionText (width n : Nat) : List Char :=
  let digits := ((decimal width n).reverse.dropWhile (· = '0')).reverse
  if digits = [] then [] else '.' :: digits

def formatNano : List Char :=
  formatSeconds t (fractionText 9 (clockOf t % 1000000000) ++ ['Z'])

def durationText (d : Duration) : List Char :=
  let n := d.natAbs
  let text :=
    if n = 0 then ['0', 's']
    else if n < 1000 then toDigits 10 n ++ ['n', 's']
    else if n < 1000000 then toDigits 10 (n / 1000) ++ fractionText 3 (n % 1000) ++ ['µ', 's']
    else if n < 1000000000 then
      toDigits 10 (n / 1000000) ++ fractionText 6 (n % 1000000) ++ ['m', 's']
    else
      let seconds := toDigits 10 (n / 1000000000 % 60) ++ fractionText 9 (n % 1000000000) ++ ['s']
      let minutes := n / 60000000000
      if minutes = 0 then seconds
      else
        let minutesText := toDigits 10 (minutes % 60) ++ 'm' :: seconds
        if minutes < 60 then minutesText else toDigits 10 (minutes / 60) ++ 'h' :: minutesText
  if d < 0 then '-' :: text else text

end GoTime

end NpsSdk
