import Mathlib.Algebra.GroupWithZero.Nat
import Mathlib.Data.Int.Notation
import Mathlib.Data.Nat.Notation
import Mathlib.Tactic.SplitIfs
import Mathlib.Tactic.Common

/-!
# Lib.DateTimes — dates, times and their texts

The proleptic Gregorian calendar by ordinals (`ymd2ord`, `ord2ymd`), times as microseconds since 1970, and `isoformat` of a
time in UTC with the text read back.

* `instant_ofInstant`: the date and time of an instant spell that instant.
* `fromIsoformat_isoformat`: what `isoformat` writes is read as what it was written of.
-/

namespace Transform.Lib

/-! ## The calendar -/

section Calendar

def isLeap (year : ℕ) : Bool := year % 4 = 0 && (year % 100 ≠ 0 || year % 400 = 0)

def daysBeforeYear (year : ℕ) : ℕ := (year - 1) * 365 + (year - 1) / 4 - (year - 1) / 100 + (year - 1) / 400

/-- The days of a month of a year that is none of the leap years. -/
def plainMonth : ℕ → ℕ
  | 2 => 28
  | 4 | 6 | 9 | 11 => 30
  | _ => 31

def daysIn (leap : Bool) (month : ℕ) : ℕ := if month = 2 ∧ leap = true then 29 else plainMonth month

def daysBefore (leap : Bool) (month : ℕ) : ℕ := ((List.range' 1 (month - 1)).map (daysIn leap)).sum

def ymd2ord (year month day : ℕ) : ℕ := daysBeforeYear year + daysBefore (isLeap year) month + day

def monthDay (leap : Bool) (n : ℕ) : ℕ × ℕ :=
  let month := (n + 50) / 32
  if n < daysBefore leap month then (month - 1, n - daysBefore leap (month - 1) + 1)
  else (month, n - daysBefore leap month + 1)

/-- The date of an ordinal: cycles of 400, 100 and 4 years, then years. -/
def ord2ymd (ordinal : ℕ) : ℕ × ℕ × ℕ :=
  let n := ordinal - 1
  let n400 := n / 146097
  let n := n % 146097
  let n100 := n / 36524
  let n := n % 36524
  let n4 := n / 1461
  let n := n % 1461
  let n1 := n / 365
  let year := n400 * 400 + n100 * 100 + n4 * 4 + n1 + 1
  if n1 = 4 ∨ n100 = 4 then (year - 1, 12, 31)
  else (year, monthDay (n1 = 3 && (n4 ≠ 24 || n100 = 3)) (n % 365))

theorem monthDay_spec : ∀ leap : Bool, ∀ n < 366, n < 365 ∨ leap = true →
    daysBefore leap (monthDay leap n).1 + (monthDay leap n).2 = n + 1 ∧ 1 ≤ (monthDay leap n).1 ∧
      (monthDay leap n).1 ≤ 12 ∧ 1 ≤ (monthDay leap n).2 ∧ (monthDay leap n).2 ≤ daysIn leap (monthDay leap n).1 := by
  decide +kernel

theorem isLeap_iff (year : ℕ) : isLeap year = true ↔ year % 4 = 0 ∧ (year % 100 ≠ 0 ∨ year % 400 = 0) := by
  simp [isLeap]

theorem daysBeforeYear_cycles {n400 n100 n4 n1 : ℕ} (h100 : n100 < 4) (h4 : n4 < 25) (h1 : n1 < 4) :
    daysBeforeYear (n400 * 400 + n100 * 100 + n4 * 4 + n1 + 1) = n400 * 146097 + n100 * 36524 + n4 * 1461 + n1 * 365 := by
  unfold daysBeforeYear
  omega

/-- A year that is given by its cycles is a leap year as `ord2ymd` says. -/
theorem isLeap_cycles {n400 n100 n4 n1 : ℕ} (h100 : n100 < 4) (h4 : n4 < 25) (h1 : n1 < 4) :
    isLeap (n400 * 400 + n100 * 100 + n4 * 4 + n1 + 1) = (n1 = 3 && (n4 ≠ 24 || n100 = 3)) := by
  rw [Bool.eq_iff_iff, isLeap_iff]
  simp only [ne_eq, Bool.and_eq_true, Bool.or_eq_true, decide_eq_true_eq]
  omega

/-- A date of the calendar. -/
def IsDate (year month day : ℕ) : Prop :=
  1 ≤ year ∧ 1 ≤ month ∧ month ≤ 12 ∧ 1 ≤ day ∧ day ≤ daysIn (isLeap year) month

theorem ymd2ord_last {year : ℕ} (h : isLeap year = true) : ymd2ord year 12 31 = daysBeforeYear year + 366 := by
  unfold ymd2ord
  rw [h]
  rfl

theorem ord2ymd_spec {ordinal : ℕ} (h : 1 ≤ ordinal) :
    ymd2ord (ord2ymd ordinal).1 (ord2ymd ordinal).2.1 (ord2ymd ordinal).2.2 = ordinal ∧
      IsDate (ord2ymd ordinal).1 (ord2ymd ordinal).2.1 (ord2ymd ordinal).2.2 ∧
      daysBeforeYear (ord2ymd ordinal).1 < ordinal := by
  obtain ⟨n, rfl⟩ : ∃ n, ordinal = n + 1 := ⟨ordinal - 1, by omega⟩
  unfold ord2ymd
  simp only [Nat.add_sub_cancel]
  obtain ⟨n400, r400, hn400, hr400, h400⟩ : ∃ q r, n / 146097 = q ∧ n % 146097 = r ∧ n = q * 146097 + r ∧ r < 146097 :=
    ⟨_, _, rfl, rfl, by omega⟩
  rw [hn400, hr400]
  obtain ⟨n100, r100, hn100, hr100, h100⟩ : ∃ q r, r400 / 36524 = q ∧ r400 % 36524 = r ∧ r400 = q * 36524 + r ∧ r < 36524 :=
    ⟨_, _, rfl, rfl, by omega⟩
  rw [hn100, hr100]
  obtain ⟨n4, r4, hn4, hr4, h4⟩ : ∃ q r, r100 / 1461 = q ∧ r100 % 1461 = r ∧ r100 = q * 1461 + r ∧ r < 1461 :=
    ⟨_, _, rfl, rfl, by omega⟩
  rw [hn4, hr4]
  obtain ⟨n1, r1, hn1, hr1, h1⟩ : ∃ q r, r4 / 365 = q ∧ r4 % 365 = r ∧ r4 = q * 365 + r ∧ r < 365 :=
    ⟨_, _, rfl, rfl, by omega⟩
  rw [hn1, hr1]
  split_ifs with hlast
  · -- the last day of a leap year is the one that its cycle has more
    obtain ⟨year, hyear⟩ : ∃ year, n400 * 400 + n100 * 100 + n4 * 4 + n1 = year := ⟨_, rfl⟩
    have hleap : isLeap year = true := by
      rw [isLeap_iff]
      omega
    have hdays : daysBeforeYear year + 366 = n + 1 := by
      rcases hlast with hn | hn
      · have hy : n400 * 400 + n100 * 100 + n4 * 4 + 3 + 1 = year := by rw [← hyear, hn]
        have hd := @daysBeforeYear_cycles n400 n100 n4 3 (by omega) (by omega) (by omega)
        rw [hy] at hd
        omega
      · have hcycle : n4 = 0 ∧ n1 = 0 := by omega
        have hy : n400 * 400 + 3 * 100 + 24 * 4 + 3 + 1 = year := by rw [← hyear, hn, hcycle.1, hcycle.2]
        have hd := @daysBeforeYear_cycles n400 3 24 3 (by omega) (by omega) (by omega)
        rw [hy] at hd
        omega
    rw [hyear]
    dsimp only
    rw [ymd2ord_last hleap]
    refine ⟨hdays, ⟨by omega, by decide, by decide, by decide, ?_⟩, by omega⟩
    rw [hleap]
    decide
  · have hleap := @isLeap_cycles n400 n100 n4 n1 (by omega) (by omega) (by omega)
    have hdays := @daysBeforeYear_cycles n400 n100 n4 n1 (by omega) (by omega) (by omega)
    obtain ⟨hday, hspec⟩ := monthDay_spec (n1 = 3 && (n4 ≠ 24 || n100 = 3)) r1 (by omega) (Or.inl h1.2)
    unfold ymd2ord IsDate
    dsimp only
    rw [hleap, hdays]
    refine ⟨by omega, ⟨by omega, hspec⟩, by omega⟩

end Calendar

/-! ## Dates and times -/

section Instant

/-- The fields of a date and time. -/
structure Civil where
  year : ℕ
  month : ℕ
  day : ℕ
  hour : ℕ := 0
  minute : ℕ := 0
  second : ℕ := 0
  microsecond : ℕ := 0
  deriving DecidableEq, Repr

/-- What the constructor of a date and time asks of its fields. -/
def Civil.Valid (c : Civil) : Prop :=
  IsDate c.year c.month c.day ∧ c.year ≤ 9999 ∧ c.hour < 24 ∧ c.minute < 60 ∧ c.second < 60 ∧ c.microsecond < 1000000

instance (c : Civil) : Decidable c.Valid := by
  unfold Civil.Valid IsDate
  infer_instance

/-- The microseconds of a day. -/
def dayMicros : ℤ := 86400000000

def epochOrdinal : ℤ := 719163

def maxOrdinal : ℤ := 3652059

def Civil.timeMicros (c : Civil) : ℕ := ((c.hour * 60 + c.minute) * 60 + c.second) * 1000000 + c.microsecond

/-- The microseconds since 1970 that the fields spell, as if they were in UTC. -/
def Civil.micros (c : Civil) : ℤ := (ymd2ord c.year c.month c.day - epochOrdinal) * dayMicros + c.timeMicros

def civilOf (ordinal time : ℕ) : Civil where
  year := (ord2ymd ordinal).1
  month := (ord2ymd ordinal).2.1
  day := (ord2ymd ordinal).2.2
  hour := time / 3600000000
  minute := time / 60000000 % 60
  second := time / 1000000 % 60
  microsecond := time % 1000000

theorem timeMicros_civilOf (ordinal time : ℕ) : (civilOf ordinal time).timeMicros = time := by
  unfold Civil.timeMicros civilOf
  dsimp only
  omega

theorem civilOf_valid {ordinal time : ℕ} (hlow : 1 ≤ ordinal) (hhigh : ordinal ≤ 3652059) (htime : time < 86400000000) :
    (civilOf ordinal time).Valid := by
  obtain ⟨-, hdate, hyear⟩ := ord2ymd_spec hlow
  refine ⟨hdate, ?_, ?_⟩
  · have hbound : daysBeforeYear 10000 = 3652059 := by decide
    show (ord2ymd ordinal).1 ≤ 9999
    unfold daysBeforeYear at hyear
    omega
  · unfold civilOf
    dsimp only
    omega

/-- A date and time: naive, or with the offset of its zone from UTC in microseconds. -/
structure DateTime where
  civil : Civil
  offset : Option ℤ
  valid : civil.Valid
  near : ∀ o ∈ offset, -dayMicros < o ∧ o < dayMicros

namespace DateTime

@[ext] theorem ext {t t' : DateTime} (hcivil : t.civil = t'.civil) (hoffset : t.offset = t'.offset) : t = t' := by
  cases t
  cases t'
  simp_all

/-- The date and time with its zone; a naive one is given UTC. -/
def aware (t : DateTime) : DateTime where
  civil := t.civil
  offset := some (t.offset.getD 0)
  valid := t.valid
  near := by
    intro o ho
    cases hoffset : t.offset with
    | none =>
      rw [hoffset] at ho
      simp only [Option.getD_none, Option.mem_def, Option.some.injEq] at ho
      subst ho
      decide
    | some o' =>
      rw [hoffset] at ho
      simp only [Option.getD_some, Option.mem_def, Option.some.injEq] at ho
      subst ho
      exact t.near o' (by rw [hoffset]; rfl)

/-- The moment, in microseconds since 1970; a naive date and time counts as one in UTC. -/
def instant (t : DateTime) : ℤ := t.civil.micros - t.offset.getD 0

@[simp] theorem instant_aware (t : DateTime) : t.aware.instant = t.instant := rfl

/-- The date and time in UTC of a moment, if there is one with a year between 1 and 9999. -/
def ofInstant (moment : ℤ) : Option DateTime :=
  if h : 1 ≤ moment / dayMicros + epochOrdinal ∧ moment / dayMicros + epochOrdinal ≤ maxOrdinal then
    some {
      civil := civilOf (moment / dayMicros + epochOrdinal).toNat (moment % dayMicros).toNat
      offset := some 0
      valid := civilOf_valid (by omega) (by unfold maxOrdinal at h; omega) (by unfold dayMicros; omega)
      near := by
        intro o ho
        cases ho
        decide }
  else none

/-- `astimezone(UTC)`; `none` where it overflows. -/
def toUtc (t : DateTime) : Option DateTime := ofInstant t.aware.instant

theorem isSome_ofInstant (moment : ℤ) : (ofInstant moment).isSome ↔
    1 ≤ moment / dayMicros + epochOrdinal ∧ moment / dayMicros + epochOrdinal ≤ maxOrdinal := by
  unfold ofInstant
  split_ifs with h
  · exact ⟨fun _ => h, fun _ => rfl⟩
  · exact ⟨fun hnone => absurd hnone (by simp), fun hrange => absurd hrange h⟩

/-- What stands between two moments that can be told in UTC can be told. -/
theorem isSome_ofInstant_between {start stop moment : ℤ} (hstart : (ofInstant start).isSome)
    (hstop : (ofInstant stop).isSome) (hlow : start ≤ moment) (hhigh : moment < stop) : (ofInstant moment).isSome := by
  rw [isSome_ofInstant] at *
  unfold dayMicros at *
  omega

theorem ofInstant_eq_some {moment : ℤ} {t : DateTime} (h : ofInstant moment = some t) :
    t.instant = moment ∧ t.offset = some 0 := by
  unfold ofInstant at h
  split_ifs at h with hrange
  cases h
  refine ⟨?_, rfl⟩
  unfold instant Civil.micros
  dsimp only
  rw [timeMicros_civilOf]
  have hpos : 1 ≤ (moment / dayMicros + epochOrdinal).toNat := by omega
  have hday : ymd2ord (civilOf (moment / dayMicros + epochOrdinal).toNat (moment % dayMicros).toNat).year
      (civilOf (moment / dayMicros + epochOrdinal).toNat (moment % dayMicros).toNat).month
      (civilOf (moment / dayMicros + epochOrdinal).toNat (moment % dayMicros).toNat).day =
        (moment / dayMicros + epochOrdinal).toNat := (ord2ymd_spec hpos).1
  rw [hday]
  unfold dayMicros at *
  simp only [Option.getD_some, Int.sub_zero]
  omega

end DateTime

end Instant

/-! ## Texts -/

section Isoformat

/-- The low `w` decimal digits of `n`. -/
def padded : (w n : ℕ) → List Char
  | 0, _ => []
  | w + 1, n => padded w (n / 10) ++ [Nat.digitChar (n % 10)]

def number (cs : List Char) : Option ℕ :=
  if cs.all Char.isDigit then some (cs.foldl (fun n c => n * 10 + (c.toNat - 48)) 0) else none

theorem digitChar_spec : ∀ n < 10, (Nat.digitChar n).isDigit = true ∧ (Nat.digitChar n).toNat - 48 = n := by decide

theorem padded_all (w n : ℕ) : (padded w n).all Char.isDigit = true := by
  induction w generalizing n with
  | zero => rfl
  | succ w ih =>
    rw [padded, List.all_append, ih]
    simpa using (digitChar_spec (n % 10) (by omega)).1

theorem number_padded (w n : ℕ) : number (padded w n) = some (n % 10 ^ w) := by
  unfold number
  rw [if_pos (padded_all w n)]
  congr 1
  induction w generalizing n with
  | zero => simp [padded, Nat.mod_one]
  | succ w ih =>
    have hsplit : n % 10 ^ (w + 1) = n / 10 % 10 ^ w * 10 + n % 10 := by
      rw [Nat.pow_succ, Nat.mul_comm (10 ^ w) 10, Nat.mod_mul]
      omega
    rw [padded, List.foldl_append, ih, hsplit]
    simp [(digitChar_spec (n % 10) (by omega)).2]

theorem number_padded_of_lt {w n : ℕ} (h : n < 10 ^ w) : number (padded w n) = some n := by
  rw [number_padded, Nat.mod_eq_of_lt h]

def dateText (c : Civil) : List Char := padded 4 c.year ++ '-' :: padded 2 c.month ++ '-' :: padded 2 c.day

/-- The fraction of the second is left out where it is zero. -/
def timeText (hour minute second microsecond : ℕ) : List Char :=
  padded 2 hour ++ ':' :: padded 2 minute ++ ':' :: padded 2 second ++
    if microsecond = 0 then [] else '.' :: padded 6 microsecond

/-- The offset of a zone; its seconds are left out where they are zero. -/
def offsetText (offset : ℤ) : List Char :=
  let size := offset.natAbs
  let time := timeText (size / 3600000000) (size / 60000000 % 60) (size / 1000000 % 60) (size % 1000000)
  (if offset < 0 then '-' else '+') :: if size % 60000000 = 0 then time.take 5 else time

def isoformat (t : DateTime) : String :=
  String.ofList (dateText t.civil ++ 'T' ::
    timeText t.civil.hour t.civil.minute t.civil.second t.civil.microsecond ++ (t.offset.map offsetText).getD [])

def readDate : List Char → Option (ℕ × ℕ × ℕ)
  | [y1, y2, y3, y4, '-', m1, m2, '-', d1, d2] => do
    return (← number [y1, y2, y3, y4], ← number [m1, m2], ← number [d1, d2])
  | _ => none

/-- The fraction of a second, of three digits or six. -/
def readFraction (cs : List Char) : Option ℕ :=
  if cs.length = 3 then (number cs).map (· * 1000)
  else if cs.length = 6 then number cs
  else none

def readTime : List Char → Option (ℕ × ℕ × ℕ × ℕ)
  | [h1, h2] => do
    return (← number [h1, h2], 0, 0, 0)
  | [h1, h2, ':', m1, m2] => do
    return (← number [h1, h2], ← number [m1, m2], 0, 0)
  | [h1, h2, ':', m1, m2, ':', s1, s2] => do
    return (← number [h1, h2], ← number [m1, m2], ← number [s1, s2], 0)
  | h1 :: h2 :: ':' :: m1 :: m2 :: ':' :: s1 :: s2 :: '.' :: fraction => do
    return (← number [h1, h2], ← number [m1, m2], ← number [s1, s2], ← readFraction fraction)
  | _ => none

/-- The offset of a zone has a sign, and hours and minutes at least. -/
def readOffset : List Char → Option (Option ℤ)
  | [] => some none
  | sign :: cs => do
    let (hour, minute, second, microsecond) ← readTime cs
    let size : ℕ := ((hour * 60 + minute) * 60 + second) * 1000000 + microsecond
    if cs.length < 5 then none else some (some (if sign = '-' then -size else size))

/-- The time, and the zone from the first sign on. -/
def readTimeOffset (cs : List Char) : Option ((ℕ × ℕ × ℕ × ℕ) × Option ℤ) := do
  let time ← readTime (cs.takeWhile fun c => c ≠ '+' && c ≠ '-')
  let offset ← readOffset (cs.dropWhile fun c => c ≠ '+' && c ≠ '-')
  return (time, offset)

/-- The constructor of a date and time; `none` where it raises. -/
def DateTime.make (civil : Civil) (offset : Option ℤ) : Option DateTime :=
  if h : civil.Valid ∧ ∀ o ∈ offset, -dayMicros < o ∧ o < dayMicros then some ⟨civil, offset, h.1, h.2⟩ else none

/-- The texts of the form that `isoformat` writes, with any character between the date and the time. -/
def readIsoformat (cs : List Char) : Option DateTime := do
  let (year, month, day) ← readDate (cs.take 10)
  match cs.drop 10 with
  | [] => DateTime.make { year := year, month := month, day := day } none
  | _ :: rest =>
    let ((hour, minute, second, microsecond), offset) ← readTimeOffset rest
    DateTime.make ⟨year, month, day, hour, minute, second, microsecond⟩ offset

/-- `datetime.fromisoformat`.  Which other forms it reads depends on the version of Python. -/
def fromIsoformat (others : String → Option DateTime) (text : String) : Option DateTime :=
  (readIsoformat text.toList).or (others text)

/-! ### What is written is read -/

theorem readDate_dateText {c : Civil} (h : c.Valid) : readDate (dateText c) = some (c.year, c.month, c.day) := by
  obtain ⟨⟨-, -, hmonth, -, hday⟩, hyear, -⟩ := h
  have hread : readDate (dateText c) = do
      return (← number (padded 4 c.year), ← number (padded 2 c.month), ← number (padded 2 c.day)) := rfl
  have hsmall : daysIn (isLeap c.year) c.month ≤ 31 := by
    unfold daysIn plainMonth
    split_ifs
    · decide
    · split <;> decide
  rw [hread, number_padded_of_lt (by omega), number_padded_of_lt (by omega), number_padded_of_lt (by omega)]
  rfl

@[simp] theorem length_padded (w n : ℕ) : (padded w n).length = w := by
  induction w generalizing n with
  | zero => rfl
  | succ w ih => simp [padded, ih]

theorem readFraction_padded {n : ℕ} (h : n < 1000000) : readFraction (padded 6 n) = some n := by
  unfold readFraction
  rw [length_padded, if_neg (by decide), if_pos rfl, number_padded_of_lt h]

theorem readTime_timeText {hour minute second microsecond : ℕ} (hh : hour < 100) (hm : minute < 100) (hs : second < 100)
    (hus : microsecond < 1000000) :
    readTime (timeText hour minute second microsecond) = some (hour, minute, second, microsecond) := by
  unfold timeText
  split_ifs with hzero
  · have hread : readTime (padded 2 hour ++ ':' :: padded 2 minute ++ ':' :: padded 2 second ++ []) = do
        return (← number (padded 2 hour), ← number (padded 2 minute), ← number (padded 2 second), 0) := rfl
    rw [hread, number_padded_of_lt hh, number_padded_of_lt hm, number_padded_of_lt hs, hzero]
    rfl
  · have hread : readTime (padded 2 hour ++ ':' :: padded 2 minute ++ ':' :: padded 2 second ++
        '.' :: padded 6 microsecond) = do
          return (← number (padded 2 hour), ← number (padded 2 minute), ← number (padded 2 second),
            ← readFraction (padded 6 microsecond)) := rfl
    rw [hread, number_padded_of_lt hh, number_padded_of_lt hm, number_padded_of_lt hs, readFraction_padded hus]
    rfl

theorem readTime_take_timeText {hour minute second microsecond : ℕ} (hh : hour < 100) (hm : minute < 100) :
    readTime ((timeText hour minute second microsecond).take 5) = some (hour, minute, 0, 0) := by
  have htake : (timeText hour minute second microsecond).take 5 = padded 2 hour ++ ':' :: padded 2 minute := rfl
  have hread : readTime (padded 2 hour ++ ':' :: padded 2 minute) = do
      return (← number (padded 2 hour), ← number (padded 2 minute), 0, 0) := rfl
  rw [htake, hread, number_padded_of_lt hh, number_padded_of_lt hm]
  rfl

theorem readOffset_cons {sign : Char} {cs : List Char} {hour minute second microsecond size : ℕ}
    (hread : readTime cs = some (hour, minute, second, microsecond)) (hlong : 5 ≤ cs.length)
    (hsize : ((hour * 60 + minute) * 60 + second) * 1000000 + microsecond = size) :
    readOffset (sign :: cs) = some (some (if sign = '-' then -(size : ℤ) else size)) := by
  unfold readOffset
  dsimp only
  rw [hread]
  dsimp only [Option.bind_eq_bind, Option.bind_some]
  rw [if_neg (by omega), hsize]

theorem five_le_length_timeText (hour minute second microsecond : ℕ) :
    5 ≤ (timeText hour minute second microsecond).length := by
  unfold timeText
  simp only [List.length_append, List.length_cons, length_padded]
  omega

theorem readOffset_offsetText {offset : ℤ} (hlow : -dayMicros < offset) (hhigh : offset < dayMicros) :
    readOffset (offsetText offset) = some (some offset) := by
  obtain ⟨size, hsize⟩ : ∃ size, offset.natAbs = size := ⟨_, rfl⟩
  have hbound : size < 86400000000 := by
    unfold dayMicros at hlow hhigh
    omega
  have hsign : (if (if offset < 0 then '-' else '+') = '-' then -(size : ℤ) else size) = offset := by
    by_cases hneg : offset < 0
    · rw [if_pos hneg, if_pos rfl]
      omega
    · rw [if_neg hneg, if_neg (by decide)]
      omega
  unfold offsetText
  rw [hsize]
  dsimp only
  by_cases hwhole : size % 60000000 = 0
  · rw [if_pos hwhole, readOffset_cons (readTime_take_timeText (by omega) (by omega)) (by simp [five_le_length_timeText])
      (show _ = size by omega), hsign]
  · rw [if_neg hwhole, readOffset_cons (readTime_timeText (by omega) (by omega) (by omega) (by omega))
      (five_le_length_timeText _ _ _ _) (show _ = size by omega), hsign]

theorem padded_isDigit {w n : ℕ} {c : Char} (h : c ∈ padded w n) : c.isDigit = true :=
  List.all_eq_true.mp (padded_all w n) c h

theorem timeText_chars {hour minute second microsecond : ℕ} {c : Char} (h : c ∈ timeText hour minute second microsecond) :
    c.isDigit = true ∨ c = ':' ∨ c = '.' := by
  unfold timeText at h
  split_ifs at h with hzero
  · simp only [List.mem_append, List.mem_cons, List.append_nil] at h
    rcases h with (hc | rfl | hc) | rfl | hc
    · exact Or.inl (padded_isDigit hc)
    · exact Or.inr (Or.inl rfl)
    · exact Or.inl (padded_isDigit hc)
    · exact Or.inr (Or.inl rfl)
    · exact Or.inl (padded_isDigit hc)
  · simp only [List.mem_append, List.mem_cons] at h
    rcases h with ((hc | rfl | hc) | rfl | hc) | rfl | hc
    · exact Or.inl (padded_isDigit hc)
    · exact Or.inr (Or.inl rfl)
    · exact Or.inl (padded_isDigit hc)
    · exact Or.inr (Or.inl rfl)
    · exact Or.inl (padded_isDigit hc)
    · exact Or.inr (Or.inr rfl)
    · exact Or.inl (padded_isDigit hc)

theorem timeText_no_sign (hour minute second microsecond : ℕ) :
    ∀ c ∈ timeText hour minute second microsecond, (c ≠ '+' && c ≠ '-') = true := by
  intro c hc
  rw [Bool.and_eq_true, decide_eq_true_eq, decide_eq_true_eq]
  constructor
  · rintro rfl
    exact absurd (timeText_chars hc) (by decide)
  · rintro rfl
    exact absurd (timeText_chars hc) (by decide)

/-- The characters of the text of a date and time. -/
def isIsoChar (c : Char) : Bool := c.isDigit || ['-', ':', 'T', '.', '+'].contains c

theorem isoformat_chars {t : DateTime} {c : Char} (h : c ∈ (isoformat t).toList) : isIsoChar c = true := by
  have hdigit : ∀ d : Char, d.isDigit = true → isIsoChar d = true := by
    intro d hd
    rw [isIsoChar, hd, Bool.true_or]
  have htime : ∀ hour minute second microsecond, ∀ d ∈ timeText hour minute second microsecond, isIsoChar d = true := by
    intro hour minute second microsecond d hd
    rcases timeText_chars hd with hd | rfl | rfl
    · exact hdigit d hd
    · rfl
    · rfl
  unfold isoformat dateText at h
  simp only [String.toList_ofList, List.mem_append, List.mem_cons] at h
  rcases h with (((hc | rfl | hc) | rfl | hc) | rfl | hc) | hc
  · exact hdigit c (padded_isDigit hc)
  · rfl
  · exact hdigit c (padded_isDigit hc)
  · rfl
  · exact hdigit c (padded_isDigit hc)
  · rfl
  · exact htime _ _ _ _ c hc
  · cases hoffset : t.offset with
    | none => simp [hoffset] at hc
    | some o =>
      rw [hoffset] at hc
      have hzone : c ∈ offsetText o := hc
      unfold offsetText at hzone
      rcases List.mem_cons.mp hzone with rfl | hzone
      · split_ifs <;> rfl
      · split_ifs at hzone
        · exact htime _ _ _ _ c (List.mem_of_mem_take hzone)
        · exact htime _ _ _ _ c hzone

theorem takeWhile_append_all {p : Char → Bool} {l r : List Char} (hl : ∀ c ∈ l, p c = true)
    (hr : ∀ c ∈ r.head?, p c = false) : (l ++ r).takeWhile p = l ∧ (l ++ r).dropWhile p = r := by
  rw [List.takeWhile_append_of_pos hl, List.dropWhile_append_of_pos hl]
  cases r with
  | nil => simp
  | cons c r => simp [hr c rfl]

theorem head_zone (offset : Option ℤ) : ∀ c ∈ ((offset.map offsetText).getD []).head?, (c ≠ '+' && c ≠ '-') = false := by
  intro c hc
  cases offset with
  | none => simp at hc
  | some o =>
    have h : (if o < 0 then '-' else '+') = c := by simpa [offsetText] using hc
    rw [← h]
    split_ifs <;> rfl

theorem readOffset_zone {t : DateTime} : readOffset ((t.offset.map offsetText).getD []) = some t.offset := by
  cases hoffset : t.offset with
  | none => rfl
  | some o =>
    obtain ⟨hlow, hhigh⟩ := t.near o hoffset
    exact readOffset_offsetText hlow hhigh

theorem readTimeOffset_text (t : DateTime) : readTimeOffset
    (timeText t.civil.hour t.civil.minute t.civil.second t.civil.microsecond ++ (t.offset.map offsetText).getD []) =
      some ((t.civil.hour, t.civil.minute, t.civil.second, t.civil.microsecond), t.offset) := by
  obtain ⟨-, -, hhour, hminute, hsecond, hmicro⟩ := t.valid
  obtain ⟨htake, hdrop⟩ := takeWhile_append_all
    (timeText_no_sign t.civil.hour t.civil.minute t.civil.second t.civil.microsecond) (head_zone t.offset)
  unfold readTimeOffset
  rw [htake, hdrop, readTime_timeText (by omega) (by omega) (by omega) hmicro, readOffset_zone]
  rfl

theorem DateTime.make_self (t : DateTime) : DateTime.make t.civil t.offset = some t := by
  unfold DateTime.make
  rw [dif_pos ⟨t.valid, t.near⟩]

/-- **What `isoformat` writes of a date and time is read as that date and time.** -/
theorem fromIsoformat_isoformat (others : String → Option DateTime) (t : DateTime) :
    fromIsoformat others (isoformat t) = some t := by
  have hread : readIsoformat (isoformat t).toList = some t := by
    unfold isoformat readIsoformat
    rw [String.toList_ofList, List.append_assoc]
    have hten : (dateText t.civil).length = 10 := by simp [dateText]
    rw [List.take_left' hten, List.drop_left' hten, readDate_dateText t.valid]
    dsimp only [Option.bind_eq_bind, Option.bind_some, List.cons_append]
    rw [readTimeOffset_text]
    exact DateTime.make_self t
  unfold fromIsoformat
  rw [hread]
  rfl

end Isoformat

end Transform.Lib
