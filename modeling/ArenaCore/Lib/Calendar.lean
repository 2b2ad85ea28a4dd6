import Mathlib.Data.Prod.Lex
import Mathlib.Data.Nat.Find
import Mathlib.Data.String.Basic
import Mathlib.Order.SuccPred.Basic

/-!
# Calendar Dates

The Gregorian calendar, extended to every year, as a language runtime counts it. A
date is a year, a month and a day that the month has; dates are ordered by these
three, and the next date is the next day, month or year.

`dayNumber` counts days from the first of January 1970. It is a translation between
three descriptions that must agree: the order of dates, the number of days between
midnights, and the order of their texts `YYYY-MM-DD`.

## Main definitions

* `CalendarDate`: A date that exists.
* `CalendarDate.dayNumber`, `CalendarDate.ofDay`: Days since 1970 and back.
* `CalendarDate.iso`: The text of a date.

## Theorems

* `CalendarDate.lt_iff_dayNumber_lt`: Later dates have larger numbers.
* `CalendarDate.dayNumber_next`: The next day has the next number.
* `CalendarDate.dayNumber_ofDay`: Every day from the year zero on has a date.
* `CalendarDate.iso_lt_iff`: Texts are ordered as the dates.
-/

/-! ### Years and months -/

def isLeapYear (y : Nat) : Bool :=
  y % 4 == 0 && (y % 100 != 0 || y % 400 == 0)

def daysInMonth (y : Nat) : Nat → Nat
  | 2 => if isLeapYear y then 29 else 28
  | 4 => 30
  | 6 => 30
  | 9 => 30
  | 11 => 30
  | _ => 31

/-- The days of the first months of a year. -/
def daysBefore (y : Nat) : Nat → Nat
  | 0 => 0
  | m + 1 => daysBefore y m + daysInMonth y (m + 1)

def daysInYear (y : Nat) : Nat :=
  if isLeapYear y then 366 else 365

/-- The number of the first day of a year. -/
def dayFromYear (y : Nat) : Int :=
  365 * ((y : Int) - 1970) + ((y : Int) - 1969) / 4 - ((y : Int) - 1901) / 100 +
    ((y : Int) - 1601) / 400

/-- The number of a day of a month, which may lie outside of the month. -/
def makeDay (y m : Nat) (day : Int) : Int :=
  dayFromYear y + daysBefore y (m - 1) + day - 1

variable {y : Nat}

theorem isLeapYear_iff : isLeapYear y = true ↔ y % 4 = 0 ∧ (y % 100 ≠ 0 ∨ y % 400 = 0) := by
  simp [isLeapYear]

theorem dayFromYear_succ (y : Nat) : dayFromYear (y + 1) = dayFromYear y + daysInYear y := by
  have hleap := isLeapYear_iff (y := y)
  unfold dayFromYear daysInYear
  split
  · next h =>
      have := hleap.1 h
      omega
  · next h =>
      have := mt hleap.2 h
      omega

theorem dayFromYear_mono {y' : Nat} (h : y < y') :
    dayFromYear y + daysInYear y ≤ dayFromYear y' := by
  induction y', h using Nat.le_induction with
  | base => exact (dayFromYear_succ y).ge
  | succ n _ ih =>
      rw [dayFromYear_succ]
      omega

theorem daysBefore_mono {m m' : Nat} (h : m ≤ m') : daysBefore y m ≤ daysBefore y m' := by
  induction m', h using Nat.le_induction with
  | base => exact Nat.le_refl _
  | succ n _ ih => exact ih.trans (Nat.le_add_right _ _)

theorem daysBefore_twelve (y : Nat) : daysBefore y 12 = daysInYear y := by
  unfold daysInYear
  simp only [daysBefore, daysInMonth]
  split <;> rfl

/-! ### Dates -/

/-- A date that exists. -/
structure CalendarDate where
  year : Nat
  month : Nat
  day : Nat
  month_pos : 1 ≤ month
  month_le : month ≤ 12
  day_pos : 1 ≤ day
  day_le : day ≤ daysInMonth year month
deriving DecidableEq

namespace CalendarDate

variable {a b : CalendarDate} {day : Int}

/-- Dates are ordered by year, month and day. -/
def key (c : CalendarDate) : Nat ×ₗ Nat ×ₗ Nat :=
  toLex (c.year, toLex (c.month, c.day))

theorem key_injective : Function.Injective key := by
  rintro ⟨y, m, d, _, _, _, _⟩ ⟨y', m', d', _, _, _, _⟩ h
  simp only [key, EmbeddingLike.apply_eq_iff_eq, Prod.mk.injEq] at h
  obtain ⟨rfl, rfl, rfl⟩ := h
  rfl

instance : LinearOrder CalendarDate :=
  LinearOrder.lift' key key_injective

theorem lt_iff :
    a < b ↔ a.year < b.year ∨ a.year = b.year ∧ (a.month < b.month ∨
      a.month = b.month ∧ a.day < b.day) := by
  change key a < key b ↔ _
  simp [key, Prod.Lex.toLex_lt_toLex]

/-- Days since the first of January 1970. -/
def dayNumber (c : CalendarDate) : Int :=
  makeDay c.year c.month c.day

theorem daysBefore_month (c : CalendarDate) :
    daysBefore c.year (c.month - 1) + c.day ≤ daysBefore c.year c.month := by
  have hday := c.day_le
  obtain ⟨m, hm⟩ := Nat.exists_eq_add_one.2 c.month_pos
  rw [hm] at hday ⊢
  exact Nat.add_le_add_left hday _

theorem dayOfYear_le (c : CalendarDate) :
    daysBefore c.year (c.month - 1) + c.day ≤ daysInYear c.year := by
  rw [← daysBefore_twelve]
  exact c.daysBefore_month.trans (daysBefore_mono c.month_le)

theorem dayNumber_strictMono (h : a < b) : a.dayNumber < b.dayNumber := by
  have ha := a.dayOfYear_le
  have hmonth := a.daysBefore_month
  have hpos := b.day_pos
  unfold dayNumber makeDay
  rcases lt_iff.1 h with hyear | ⟨hyear, hmonths | ⟨hmonths, hdays⟩⟩
  · have := dayFromYear_mono hyear
    omega
  · have hle := daysBefore_mono (y := a.year) (show a.month ≤ b.month - 1 by omega)
    rw [← hyear]
    omega
  · rw [← hyear, ← hmonths]
    omega

/-- Later dates have larger numbers. -/
theorem lt_iff_dayNumber_lt : a < b ↔ a.dayNumber < b.dayNumber := by
  refine ⟨dayNumber_strictMono, fun h => ?_⟩
  by_contra hle
  rcases (not_lt.1 hle).lt_or_eq with hlt | rfl
  · exact absurd (dayNumber_strictMono hlt) h.not_gt
  · exact lt_irrefl _ h

theorem dayNumber_injective : Function.Injective dayNumber := by
  intro a b h
  rcases lt_trichotomy a b with hlt | heq | hlt
  · exact absurd h (dayNumber_strictMono hlt).ne
  · exact heq
  · exact absurd h (dayNumber_strictMono hlt).ne'

/-- The day after. -/
def next (c : CalendarDate) : CalendarDate :=
  if hday : c.day + 1 ≤ daysInMonth c.year c.month then
    { c with day := c.day + 1, day_pos := Nat.le_add_left 1 c.day, day_le := hday }
  else if hmonth : c.month + 1 ≤ 12 then
    { year := c.year, month := c.month + 1, day := 1, month_pos := Nat.le_add_left 1 c.month,
      month_le := hmonth, day_pos := Nat.le_refl 1, day_le := by unfold daysInMonth; split <;> grind }
  else
    { year := c.year + 1, month := 1, day := 1, month_pos := Nat.le_refl 1, month_le := by decide,
      day_pos := Nat.le_refl 1, day_le := show 1 ≤ 31 by decide }

theorem dayNumber_next (c : CalendarDate) : c.next.dayNumber = c.dayNumber + 1 := by
  have hday := c.day_le
  have hmonth := c.month_le
  have hpos := c.month_pos
  unfold next
  split
  · simp only [dayNumber, makeDay]
    push_cast
    omega
  · next hlast =>
      have hfull : c.day = daysInMonth c.year c.month := by omega
      obtain ⟨m, hm⟩ := Nat.exists_eq_add_one.2 hpos
      split
      · simp only [dayNumber, makeDay, hm, Nat.add_sub_cancel, daysBefore, hfull]
        push_cast
        omega
      · have htwelve := daysBefore_twelve c.year
        have hyear := dayFromYear_succ c.year
        have hnone : daysBefore (c.year + 1) 0 = 0 := rfl
        obtain rfl : m = 11 := by omega
        simp only [dayNumber, makeDay, hm, Nat.add_sub_cancel, Nat.sub_self, hfull, hnone]
        rw [daysBefore] at htwelve
        omega

theorem next_le_iff : a.next ≤ b ↔ a < b := by
  rw [← not_lt, lt_iff_dayNumber_lt, lt_iff_dayNumber_lt, dayNumber_next]
  omega

instance : SuccOrder CalendarDate :=
  SuccOrder.ofSuccLeIff next next_le_iff

instance : NoMaxOrder CalendarDate where
  exists_gt a := ⟨a.next, next_le_iff.1 (le_refl _)⟩

theorem succ_eq_next (c : CalendarDate) : Order.succ c = c.next := rfl

/-! ### The date of a day -/

/-- The year of a day: the last one that has begun. -/
def yearFromDay (day : Int) : Nat :=
  Nat.findGreatest (fun y => dayFromYear y ≤ day) ((day + 719528) / 365).toNat

theorem dayFromYear_yearFromDay (h : dayFromYear 0 ≤ day) : dayFromYear (yearFromDay day) ≤ day :=
  Nat.findGreatest_spec (P := fun y => dayFromYear y ≤ day) (Nat.zero_le _) h

theorem lt_dayFromYear_succ (day : Int) : day < dayFromYear (yearFromDay day + 1) := by
  by_contra hle
  rw [not_lt] at hle
  -- a year that has begun is within the bound of the search
  have hbound : yearFromDay day + 1 ≤ ((day + 719528) / 365).toNat := by
    unfold dayFromYear at hle
    omega
  exact Nat.findGreatest_is_greatest (Nat.lt_succ_self _) hbound hle

/-- The months that are over on a day of the year. -/
def monthsOver (y rest : Nat) : Nat :=
  Nat.findGreatest (fun m => daysBefore y m ≤ rest) 11

theorem daysBefore_monthsOver (y rest : Nat) : daysBefore y (monthsOver y rest) ≤ rest :=
  Nat.findGreatest_spec (P := fun m => daysBefore y m ≤ rest) (Nat.zero_le _) (Nat.zero_le _)

theorem lt_daysBefore_succ {y rest : Nat} (h : rest < daysInYear y) :
    rest < daysBefore y (monthsOver y rest + 1) := by
  by_contra hle
  rw [not_lt] at hle
  rcases (Nat.findGreatest_le (P := fun m => daysBefore y m ≤ rest) 11).lt_or_eq with hlt | heq
  · exact Nat.findGreatest_is_greatest (Nat.lt_succ_self _) hlt hle
  · rw [monthsOver, heq, daysBefore_twelve] at hle
    exact absurd h hle.not_gt

/-- The day of the year, from zero. -/
def dayWithinYear (day : Int) : Nat :=
  (day - dayFromYear (yearFromDay day)).toNat

theorem dayWithinYear_lt (day : Int) : dayWithinYear day < daysInYear (yearFromDay day) := by
  have hlt := lt_dayFromYear_succ day
  have hpos : 0 < daysInYear (yearFromDay day) := by unfold daysInYear; split <;> decide
  rw [dayFromYear_succ] at hlt
  unfold dayWithinYear
  omega

/-- The date of a day. -/
def ofDay (day : Int) : CalendarDate where
  year := yearFromDay day
  month := monthsOver (yearFromDay day) (dayWithinYear day) + 1
  day := dayWithinYear day - daysBefore (yearFromDay day)
    (monthsOver (yearFromDay day) (dayWithinYear day)) + 1
  month_pos := Nat.le_add_left _ _
  month_le := Nat.succ_le_succ (Nat.findGreatest_le _)
  day_pos := Nat.le_add_left _ _
  day_le := by
    have hlt := lt_daysBefore_succ (dayWithinYear_lt day)
    have hle := daysBefore_monthsOver (yearFromDay day) (dayWithinYear day)
    rw [daysBefore] at hlt
    omega

/-- Every day from the year zero on is the day of its date. -/
theorem dayNumber_ofDay (h : dayFromYear 0 ≤ day) : (ofDay day).dayNumber = day := by
  have hyear := dayFromYear_yearFromDay h
  have hle := daysBefore_monthsOver (yearFromDay day) (dayWithinYear day)
  simp only [dayNumber, makeDay, ofDay, Nat.add_sub_cancel]
  unfold dayWithinYear at hle ⊢
  omega

end CalendarDate

/-! ### Texts -/

def digitChar (n : Nat) : Char :=
  Char.ofNat (48 + n)

/-- The last digits of a number. -/
def padded : Nat → Nat → List Char
  | 0, _ => []
  | width + 1, n => padded width (n / 10) ++ [digitChar (n % 10)]

@[simp] theorem length_padded (width n : Nat) : (padded width n).length = width := by
  induction width generalizing n with
  | zero => rfl
  | succ width ih => rw [padded, List.length_append, ih, List.length_singleton]

variable {n k : Nat}

theorem digitChar_lt_iff (hn : n < 10) (hk : k < 10) : digitChar n < digitChar k ↔ n < k := by
  have hdigits : ∀ n k : Fin 10, digitChar n < digitChar k ↔ n < k := by decide
  exact hdigits ⟨n, hn⟩ ⟨k, hk⟩

theorem digitChar_inj (hn : n < 10) (hk : k < 10) (h : digitChar n = digitChar k) : n = k := by
  have hdigits : ∀ n k : Fin 10, digitChar n = digitChar k → n = k := by decide
  exact congrArg Fin.val (hdigits ⟨n, hn⟩ ⟨k, hk⟩ h)

/-- Texts of one length are compared by their fronts first. -/
theorem append_lt_append_iff {α : Type*} [LinearOrder α] {l l' m m' : List α}
    (h : l.length = l'.length) : l ++ m < l' ++ m' ↔ l < l' ∨ l = l' ∧ m < m' := by
  induction l generalizing l' with
  | nil =>
      obtain rfl := List.length_eq_zero_iff.1 h.symm
      simp
  | cons a l ih =>
      cases l' with
      | nil => cases h
      | cons b l' =>
          have hlength : l.length = l'.length := Nat.succ.inj h
          rw [List.cons_append, List.cons_append, List.cons_lt_cons_iff, List.cons_lt_cons_iff,
            ih hlength, List.cons.injEq]
          tauto

variable {width : Nat}

theorem padded_inj (hn : n < 10 ^ width) (hk : k < 10 ^ width) (h : padded width n = padded width k) :
    n = k := by
  induction width generalizing n k with
  | zero => omega
  | succ width ih =>
      obtain ⟨hfront, hlast⟩ := List.append_inj' h rfl
      have hdiv := ih (by omega) (by omega) hfront
      have hmod := digitChar_inj (by omega) (by omega) (List.cons.inj hlast).1
      omega

/-- Padded numbers are ordered as the numbers. -/
theorem padded_lt_iff (hn : n < 10 ^ width) (hk : k < 10 ^ width) :
    padded width n < padded width k ↔ n < k := by
  induction width generalizing n k with
  | zero =>
      refine iff_of_false (List.not_lt_nil _) ?_
      omega
  | succ width ih =>
      have hdigit : digitChar (n % 10) < digitChar (k % 10) ↔ n % 10 < k % 10 :=
        digitChar_lt_iff (by omega) (by omega)
      have hfront : padded width (n / 10) = padded width (k / 10) ↔ n / 10 = k / 10 :=
        ⟨padded_inj (by omega) (by omega), congrArg _⟩
      rw [padded, padded, append_lt_append_iff (by simp), ih (by omega) (by omega), hfront,
        List.cons_lt_cons_iff, hdigit]
      simp only [List.not_lt_nil, and_false, or_false]
      omega

def parseDigit (c : Char) : Option Nat :=
  if '0' ≤ c ∧ c ≤ '9' then some (c.toNat - 48) else none

/-- The number that some digits make. -/
def parseNumber (digits : List Char) : Option Nat :=
  digits.foldlM (fun n c => (parseDigit c).map (n * 10 + ·)) 0

theorem parseDigit_digitChar (h : n < 10) : parseDigit (digitChar n) = some n := by
  have hdigits : ∀ n : Fin 10, parseDigit (digitChar n) = some n.val := by decide
  exact hdigits ⟨n, h⟩

theorem parseNumber_padded (h : n < 10 ^ width) : parseNumber (padded width n) = some n := by
  induction width generalizing n with
  | zero =>
      obtain rfl : n = 0 := by omega
      rfl
  | succ width ih =>
      have hfront : List.foldlM (fun n c => (parseDigit c).map (n * 10 + ·)) 0
          (padded width (n / 10)) = some (n / 10) := ih (by omega)
      have hdigit := parseDigit_digitChar (n := n % 10) (by omega)
      rw [parseNumber, padded, List.foldlM_append, hfront]
      simp only [Option.bind_eq_bind, Option.bind_some, List.foldlM_cons, List.foldlM_nil, hdigit,
        Option.map_some]
      exact congrArg some (by omega)

namespace CalendarDate

/-- The text of a date. Years of more than four digits have a sign and six. -/
def iso (c : CalendarDate) : List Char :=
  (if c.year ≤ 9999 then padded 4 c.year else '+' :: padded 6 c.year) ++
    ('-' :: padded 2 c.month ++ ('-' :: padded 2 c.day))

theorem day_le_thirtyOne (c : CalendarDate) : c.day ≤ 31 := by
  have h := c.day_le
  unfold daysInMonth at h
  split at h <;> grind

theorem iso_lt_iff {a b : CalendarDate} (ha : a.year ≤ 9999) (hb : b.year ≤ 9999) :
    a.iso < b.iso ↔ a < b := by
  have hmonths := a.month_le
  have hmonths' := b.month_le
  have hdays := a.day_le_thirtyOne
  have hdays' := b.day_le_thirtyOne
  have hyear : padded 4 a.year = padded 4 b.year ↔ a.year = b.year :=
    ⟨padded_inj (by omega) (by omega), congrArg _⟩
  have hmonth : padded 2 a.month = padded 2 b.month ↔ a.month = b.month :=
    ⟨padded_inj (by omega) (by omega), congrArg _⟩
  rw [iso, iso, if_pos ha, if_pos hb, append_lt_append_iff (by simp), hyear,
    padded_lt_iff (by omega) (by omega), lt_iff]
  simp only [List.cons_append, List.cons_lt_cons_iff, lt_irrefl, false_or, true_and]
  rw [append_lt_append_iff (by simp), hmonth, padded_lt_iff (by omega) (by omega)]
  simp only [List.cons_lt_cons_iff, lt_irrefl, false_or, true_and]
  rw [padded_lt_iff (by omega) (by omega)]

end CalendarDate
