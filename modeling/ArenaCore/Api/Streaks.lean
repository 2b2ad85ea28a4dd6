import Mathlib.Data.List.Dedup
import Mathlib.Data.List.Sort
import ArenaCore.Lib.Calendar
import ArenaCore.Lib.Stretches

/-!
# Streaks

`streaks` of `profiles.ts`: the longest stretch of days with contributions and the
one that is still going on. The code works on texts `YYYY-MM-DD`: it makes a set of
them, sorts it, and asks for each pair of neighbours whether their midnights are a
day apart.

Texts of dates are ordered as the dates and midnights are a day apart exactly where
one date is next to the other, so the sorted texts are the sorted dates of a set and
the loops measure its stretches.

A clock counts milliseconds from 1970. `Date.UTC` reads the years 0 to 99 as those
of the last century; no reading of the clock lies there.

## Main definitions

* `dateParse`, `dateUtc`, `toISOString`: The runtime's functions on dates.
* `streaks`: Both streaks.
* `Active`: A date with a positive count.
* `Streak`: Some dates in a row that all are active.

## Theorems

* `days_eq`: The sorted texts are those of the active dates in order.
* `streaks_correct`: What the two numbers are.
-/

namespace ArenaCore

open Stretches

variable {a b c : CalendarDate} {l : List String}

/-! ### Dates in the runtime -/

def msPerDay : Nat := 86400000

/-- The midnight at which a date begins, from the digits of its text. -/
def midnight (year month day : List Char) : Option Int := do
  let y ← parseNumber year
  let m ← parseNumber month
  let d ← parseNumber day
  if 1 ≤ m ∧ m ≤ 12 ∧ 1 ≤ d ∧ d ≤ daysInMonth y m then some (makeDay y m d * msPerDay) else none

/-- `Date.parse` of a text that ends in `T00:00:00Z`. -/
def dateParse (text : String) : Option Int :=
  match text.toList with
  | [y₁, y₂, y₃, y₄, '-', m₁, m₂, '-', d₁, d₂, 'T', '0', '0', ':', '0', '0', ':', '0', '0', 'Z'] =>
      midnight [y₁, y₂, y₃, y₄] [m₁, m₂] [d₁, d₂]
  | _ => none

/-- `Date.UTC` of a date whose day may be zero. -/
def dateUtc (year month : Nat) (day : Int) : Int :=
  makeDay (if year ≤ 99 then 1900 + year else year) month day * msPerDay

/-- `toISOString` of a time. -/
def toISOString (time : Int) : String :=
  let rest := (time % msPerDay).toNat
  String.ofList ((CalendarDate.ofDay (time / msPerDay)).iso ++
    ('T' :: padded 2 (rest / 3600000) ++ (':' :: padded 2 (rest / 60000 % 60) ++
      (':' :: padded 2 (rest / 1000 % 60) ++ ('.' :: padded 3 (rest % 1000) ++ ['Z'])))))

/-- `toISOString().slice(0, 10)`. -/
def dateKey (time : Int) : String :=
  String.ofList ((toISOString time).toList.take 10)

/-! ### The function -/

/-- A date with the number of submissions. Its year has four digits. -/
structure ContributionDay where
  date : CalendarDate
  fourDigits : date.year ≤ 9999
  count : Nat

/-- The text of a date. -/
def dateText (c : CalendarDate) : String :=
  String.ofList c.iso

/-- The days with a positive count, as a sorted list of texts without repeats. -/
def contributionDays (contributions : List ContributionDay) : List String :=
  ((contributions.filter fun day => decide (0 < day.count)).map
    fun day => dateText day.date).dedup.insertionSort (· ≤ ·)

/-- The midnight of one day is a day after that of another. -/
def Adjacent (previous day : String) : Prop :=
  ((dateParse (day ++ "T00:00:00Z")).bind fun time =>
    (dateParse (previous ++ "T00:00:00Z")).map (time - ·)) = some 86400000

instance : DecidableRel Adjacent := fun _ _ =>
  inferInstanceAs (Decidable (_ = some _))

/-- One round of the loop over the days. The empty text stands for no day. -/
def streakRound (state : Nat × Nat × String) (day : String) : Nat × Nat × String :=
  let (longest, run, previous) := state
  let run := if previous ≠ "" ∧ Adjacent previous day then run + 1 else 1
  (max longest run, run, day)

/-- The loop back from the last day. -/
def currentLoop : List String → Nat
  | day :: previous :: rest =>
      if Adjacent previous day then currentLoop (previous :: rest) + 1 else 1
  | _ => 1

structure Streaks where
  currentStreak : Nat
  longestStreak : Nat
deriving DecidableEq

def streaks (clock : Nat) (contributions : List ContributionDay) : Streaks :=
  let days := contributionDays contributions
  let (longest, _, previous) := days.foldl streakRound (0, 0, "")
  let today := CalendarDate.ofDay ((clock : Int) / msPerDay)
  let todayKey := dateKey clock
  let yesterdayKey := dateKey (dateUtc today.year today.month (today.day - 1))
  if previous ≠ todayKey ∧ previous ≠ yesterdayKey then ⟨0, longest⟩
  else ⟨currentLoop days.reverse, longest⟩

/-! ### Texts and dates -/

theorem dateText_lt (ha : a.year ≤ 9999) (hb : b.year ≤ 9999) :
    dateText a < dateText b ↔ a < b := by
  rw [dateText, dateText, String.lt_iff_toList_lt, String.toList_ofList, String.toList_ofList,
    CalendarDate.iso_lt_iff ha hb]

theorem dateText_inj (ha : a.year ≤ 9999) (hb : b.year ≤ 9999) (h : dateText a = dateText b) :
    a = b := by
  rcases lt_trichotomy a b with hlt | heq | hlt
  · exact absurd h ((dateText_lt ha hb).2 hlt).ne
  · exact heq
  · exact absurd h ((dateText_lt hb ha).2 hlt).ne'

theorem padded_four (n : Nat) : padded 4 n = [digitChar (n / 10 / 10 / 10 % 10),
    digitChar (n / 10 / 10 % 10), digitChar (n / 10 % 10), digitChar (n % 10)] := rfl

theorem padded_two (n : Nat) : padded 2 n = [digitChar (n / 10 % 10), digitChar (n % 10)] := rfl

theorem dateParse_text (h : c.year ≤ 9999) :
    dateParse (dateText c ++ "T00:00:00Z") = some (c.dayNumber * msPerDay) := by
  have hyear : parseNumber (padded 4 c.year) = some c.year := parseNumber_padded (by omega)
  have hmonth : parseNumber (padded 2 c.month) = some c.month :=
    parseNumber_padded (by have := c.month_le; omega)
  have hday : parseNumber (padded 2 c.day) = some c.day :=
    parseNumber_padded (by have := c.day_le_thirtyOne; omega)
  rw [dateParse, String.toList_append, dateText, String.toList_ofList, CalendarDate.iso, if_pos h]
  rw [padded_four] at hyear ⊢
  rw [padded_two] at hmonth hday
  rw [padded_two, padded_two]
  change midnight [_, _, _, _] [_, _] [_, _] = _
  rw [midnight, hyear, hmonth, hday]
  exact if_pos ⟨c.month_pos, c.month_le, c.day_pos, c.day_le⟩

/-- Midnights are a day apart exactly where one date is next to the other. -/
theorem adjacent_iff (ha : a.year ≤ 9999) (hb : b.year ≤ 9999) :
    Adjacent (dateText a) (dateText b) ↔ Order.succ a = b := by
  rw [Adjacent, dateParse_text ha, dateParse_text hb, Option.bind_some, Option.map_some,
    Option.some.injEq, CalendarDate.succ_eq_next]
  constructor
  · intro h
    refine CalendarDate.dayNumber_injective ?_
    rw [CalendarDate.dayNumber_next]
    unfold msPerDay at h
    omega
  · intro h
    rw [← h, CalendarDate.dayNumber_next]
    unfold msPerDay
    omega

/-- The date on which a time lies. -/
def dateOf (time : Int) : CalendarDate :=
  CalendarDate.ofDay (time / msPerDay)

theorem toList_dateKey (time : Int) : (dateKey time).toList = (dateOf time).iso.take 10 := by
  have hlength : 10 ≤ (dateOf time).iso.length := by
    unfold CalendarDate.iso
    split <;> simp
  rw [dateKey, String.toList_ofList, toISOString, String.toList_ofList, ← dateOf,
    List.take_append_of_le_length hlength]

/-- The key of a time is the text of its date and of no other. -/
theorem dateText_eq_dateKey (h : c.year ≤ 9999) (time : Int) :
    dateText c = dateKey time ↔ c = dateOf time := by
  by_cases hyear : (dateOf time).year ≤ 9999
  · have hkey : dateKey time = dateText (dateOf time) := by
      have hlength : (dateOf time).iso.length = 10 := by simp [CalendarDate.iso, hyear]
      rw [← String.toList_inj, toList_dateKey, dateText, String.toList_ofList,
        List.take_of_length_le hlength.le]
    rw [hkey]
    exact ⟨dateText_inj h hyear, congrArg _⟩
  · -- a year of more digits has a sign in front
    refine iff_of_false (fun htext => ?_) (fun hdate => hyear (hdate ▸ h))
    have hlist := congrArg String.toList htext
    rw [toList_dateKey, dateText, String.toList_ofList, CalendarDate.iso, CalendarDate.iso,
      if_pos h, if_neg hyear, padded_four] at hlist
    have hdigit : ∀ n : Fin 10, digitChar n ≠ '+' := by decide
    exact hdigit ⟨_, Nat.mod_lt _ (by decide)⟩ (List.cons.inj hlist).1

/-! ### The days in order -/

/-- A date with a positive count. -/
def Active (contributions : List ContributionDay) (c : CalendarDate) : Prop :=
  ∃ day ∈ contributions, 0 < day.count ∧ day.date = c

/-- The active dates in order. -/
def activeDates (contributions : List ContributionDay) : List CalendarDate :=
  ((contributions.filter fun day => decide (0 < day.count)).map
    ContributionDay.date).dedup.insertionSort (· ≤ ·)

section

variable {contributions : List ContributionDay} {c : CalendarDate} {α : Type*}

theorem mem_activeDates : c ∈ activeDates contributions ↔ Active contributions c := by
  simp only [activeDates, List.mem_insertionSort, List.mem_dedup, List.mem_map, List.mem_filter,
    decide_eq_true_eq, Active, and_assoc]

theorem Active.year_le (h : Active contributions c) : c.year ≤ 9999 := by
  obtain ⟨day, _, _, rfl⟩ := h
  exact day.fourDigits

/-- A sorted list without repeats is strictly sorted. -/
theorem pairwise_lt_sorted [LinearOrder α] [DecidableEq α] (l : List α) :
    (l.dedup.insertionSort (· ≤ ·)).Pairwise (· < ·) := by
  have hnodup : (l.dedup.insertionSort (· ≤ ·)).Nodup :=
    (List.perm_insertionSort _ _).nodup_iff.2 l.nodup_dedup
  exact ((List.pairwise_insertionSort (· ≤ ·) l.dedup).and hnodup).imp fun h =>
    lt_of_le_of_ne h.1 h.2

/-- Sets with one sorted list are equal. -/
theorem eq_of_mem_iff [LinearOrder α] {l m : List α} (hl : l.Pairwise (· < ·))
    (hm : m.Pairwise (· < ·)) (h : ∀ a, a ∈ l ↔ a ∈ m) : l = m :=
  ((List.perm_ext_iff_of_nodup (hl.imp ne_of_lt) (hm.imp ne_of_lt)).2 h).eq_of_pairwise
    (fun _ _ _ _ hab hba => absurd hab hba.not_gt) hl hm

theorem sorted_activeDates (contributions : List ContributionDay) :
    (activeDates contributions).Pairwise (· < ·) :=
  pairwise_lt_sorted _

theorem days_eq (contributions : List ContributionDay) :
    contributionDays contributions = (activeDates contributions).map dateText := by
  refine eq_of_mem_iff (pairwise_lt_sorted _) ?_ fun text => ?_
  · refine List.pairwise_map.2 ((sorted_activeDates _).imp_of_mem fun ha hb hlt => ?_)
    exact (dateText_lt (mem_activeDates.1 ha).year_le (mem_activeDates.1 hb).year_le).2 hlt
  · simp only [contributionDays, activeDates, List.mem_insertionSort, List.mem_dedup, List.mem_map,
      exists_exists_and_eq_and]

end

/-! ### The loops -/

theorem dateText_ne_empty (c : CalendarDate) : dateText c ≠ "" := by
  intro h
  have hlength := congrArg (List.length ∘ String.toList) h
  simp [dateText, CalendarDate.iso] at hlength

/-- The loop of the code walks the days: the empty text stands for none. -/
theorem streakRound_eq (h : "" ∉ l) :
    l.foldl streakRound (0, 0, "") =
      ((l.foldl (walk Adjacent) {}).longest, (l.foldl (walk Adjacent) {}).run,
        l.getLast?.getD "") := by
  induction l using List.reverseRecOn with
  | nil => rfl
  | append_singleton l day ih =>
      have hfront : "" ∉ l := fun hmem => h (List.mem_append_left _ hmem)
      have hprevious := (walk_spec Adjacent l).previous
      rw [List.foldl_append, List.foldl_append, ih hfront, List.getLast?_concat, Option.getD_some]
      simp only [List.foldl_cons, List.foldl_nil, streakRound, walk, hprevious]
      cases hlast : l.getLast? with
      | none => simp
      | some previous =>
          have hne : previous ≠ "" := fun heq => hfront (heq ▸ List.mem_of_getLast? hlast)
          simp [hne]

/-- The loop back from the last day measures the stretch at the end. -/
theorem currentLoop_eq (h : l ≠ []) : currentLoop l = endStretch Adjacent l := by
  induction l with
  | nil => exact absurd rfl h
  | cons day rest ih =>
      cases rest with
      | nil => rfl
      | cons previous rest => rw [currentLoop, endStretch, ih (List.cons_ne_nil _ _)]

section

variable {contributions : List ContributionDay} {n : Nat}

theorem isChain_dateText {l : List CalendarDate} (h : ∀ c ∈ l, Active contributions c) :
    (l.map dateText).IsChain Adjacent ↔ Successive l := by
  rw [List.isChain_map, Successive]
  induction l with
  | nil => exact iff_of_true .nil .nil
  | cons a l ih =>
      cases l with
      | nil => exact iff_of_true (.singleton a) (.singleton a)
      | cons b l =>
          have ha := (h a List.mem_cons_self).year_le
          have hb := (h b (List.mem_cons_of_mem _ List.mem_cons_self)).year_le
          rw [List.isChain_cons_cons, List.isChain_cons_cons, adjacent_iff ha hb,
            ih fun c hc => h c (List.mem_cons_of_mem _ hc)]

/-- Dates in a row that all are active. -/
structure Streak (contributions : List ContributionDay) (l : List CalendarDate) : Prop where
  row : l.IsChain fun a b => a.next = b
  active : ∀ c ∈ l, Active contributions c

theorem innerChain_iff :
    InnerChain Adjacent (contributionDays contributions) n ↔
      ∃ l, Streak contributions l ∧ l.length = n := by
  rw [days_eq]
  constructor
  · rintro ⟨s, hs, hchain, rfl⟩
    obtain ⟨l, hl, rfl⟩ := List.infix_map_iff.1 hs
    have hactive : ∀ c ∈ l, Active contributions c := fun c hc =>
      mem_activeDates.1 (hl.subset hc)
    exact ⟨l, ⟨(isChain_dateText hactive).1 hchain, hactive⟩, by rw [List.length_map]⟩
  · rintro ⟨l, hl, rfl⟩
    exact ⟨l.map dateText, (infix_of_successive (sorted_activeDates _) hl.row fun c hc =>
      mem_activeDates.2 (hl.active c hc)).map _, (isChain_dateText hl.active).2 hl.row,
      List.length_map _⟩

theorem endChain_iff {last : CalendarDate}
    (hlast : (activeDates contributions).getLast? = some last) (hn : n ≠ 0) :
    EndChain Adjacent (contributionDays contributions) n ↔
      ∃ l, Streak contributions l ∧ l.getLast? = some last ∧ l.length = n := by
  rw [days_eq]
  constructor
  · rintro ⟨s, hs, hchain, rfl⟩
    obtain ⟨l, hl, rfl⟩ := List.suffix_map_iff.1 hs
    have hactive : ∀ c ∈ l, Active contributions c := fun c hc =>
      mem_activeDates.1 (hl.subset hc)
    refine ⟨l, ⟨(isChain_dateText hactive).1 hchain, hactive⟩, ?_, by rw [List.length_map]⟩
    obtain ⟨front, hfront⟩ := hl
    have hne : l ≠ [] := by
      rintro rfl
      exact hn rfl
    rwa [← hfront, List.getLast?_append_of_ne_nil _ hne] at hlast
  · rintro ⟨l, hl, hend, rfl⟩
    exact ⟨l.map dateText, (suffix_of_successive (sorted_activeDates _) hl.row (fun c hc =>
      mem_activeDates.2 (hl.active c hc)) hend hlast).map _, (isChain_dateText hl.active).2 hl.row,
      List.length_map _⟩

end

/-! ### Today and yesterday -/

def today (clock : Nat) : CalendarDate :=
  dateOf clock

def yesterday (clock : Nat) : CalendarDate :=
  CalendarDate.ofDay ((clock : Int) / msPerDay - 1)

theorem day_nonneg (clock : Nat) : 0 ≤ (clock : Int) / msPerDay :=
  Int.ediv_nonneg (Int.natCast_nonneg clock) (by decide)

theorem dayNumber_today (clock : Nat) : (today clock).dayNumber = (clock : Int) / msPerDay := by
  refine CalendarDate.dayNumber_ofDay ?_
  have hzero : dayFromYear 0 = -719528 := rfl
  have hday := day_nonneg clock
  omega

theorem dayNumber_yesterday (clock : Nat) :
    (yesterday clock).dayNumber = (clock : Int) / msPerDay - 1 := by
  refine CalendarDate.dayNumber_ofDay ?_
  have hzero : dayFromYear 0 = -719528 := rfl
  have hday := day_nonneg clock
  omega

theorem next_yesterday (clock : Nat) : (yesterday clock).next = today clock := by
  refine CalendarDate.dayNumber_injective ?_
  rw [CalendarDate.dayNumber_next, dayNumber_yesterday, dayNumber_today]
  omega

/-- The clock has left the first century behind. -/
theorem year_today (clock : Nat) : ¬ (today clock).year ≤ 99 := by
  intro h
  have hnumber := dayNumber_today clock
  have hday := (today clock).dayOfYear_le
  have hyears := dayFromYear_mono (show (today clock).year < 100 by omega)
  have hcentury : dayFromYear 100 = -683003 := rfl
  have hclock := day_nonneg clock
  rw [CalendarDate.dayNumber, makeDay] at hnumber
  omega

theorem dateOf_dateUtc (clock : Nat) :
    dateOf (dateUtc (today clock).year (today clock).month ((today clock).day - 1)) =
      yesterday clock := by
  have hnumber := dayNumber_today clock
  rw [CalendarDate.dayNumber, makeDay] at hnumber
  rw [dateOf, dateUtc, if_neg (year_today clock), Int.mul_ediv_cancel _ (by decide), yesterday,
    makeDay]
  exact congrArg _ (by omega)

/-! ### Both numbers -/

section

variable (clock : Nat) (contributions : List ContributionDay)

theorem empty_notMem_days : "" ∉ contributionDays contributions := by
  rw [days_eq]
  intro h
  obtain ⟨c, _, hc⟩ := List.mem_map.1 h
  exact dateText_ne_empty c hc

theorem getLast_days : (contributionDays contributions).getLast? =
    (activeDates contributions).getLast?.map dateText := by
  rw [days_eq, List.getLast?_map]

theorem longestStreak_eq : (streaks clock contributions).longestStreak =
    ((contributionDays contributions).foldl (walk Adjacent) {}).longest := by
  rw [streaks, streakRound_eq (empty_notMem_days contributions)]
  dsimp only
  split <;> rfl

theorem dateKey_ne_empty (time : Int) : dateKey time ≠ "" := by
  intro h
  have hlength := congrArg List.length ((toList_dateKey time).symm.trans (congrArg _ h))
  simp [CalendarDate.iso] at hlength

/-- A streak goes on if the last active date is today or yesterday. -/
theorem currentStreak_eq : (streaks clock contributions).currentStreak =
    if (activeDates contributions).getLast? = some (today clock) ∨
        (activeDates contributions).getLast? = some (yesterday clock) then
      endStretch Adjacent (contributionDays contributions).reverse
    else 0 := by
  rw [streaks, streakRound_eq (empty_notMem_days contributions)]
  dsimp only
  rw [show CalendarDate.ofDay ((clock : Int) / msPerDay) = today clock from rfl, getLast_days]
  cases hlast : (activeDates contributions).getLast? with
  | none =>
      rw [if_pos ⟨(dateKey_ne_empty _).symm, (dateKey_ne_empty _).symm⟩, if_neg (by simp)]
  | some last =>
      have hyear := (mem_activeDates.1 (List.mem_of_getLast? hlast)).year_le
      have hne : (contributionDays contributions).reverse ≠ [] := by
        rw [days_eq, Ne, List.reverse_eq_nil_iff, List.map_eq_nil_iff]
        rintro hnil
        rw [hnil] at hlast
        cases hlast
      simp only [Option.map_some, Option.getD_some, ne_eq, dateText_eq_dateKey hyear,
        dateOf_dateUtc, Option.some.injEq, ← not_or, ite_not]
      rw [show dateOf clock = today clock from rfl, currentLoop_eq hne]
      split <;> rfl

/-- The stretch at the end is the longest run that ends with the last active date. -/
theorem isGreatest_endStretch_days {last : CalendarDate}
    (hlast : (activeDates contributions).getLast? = some last) :
    IsGreatest {n | ∃ l, Streak contributions l ∧ l.getLast? = some last ∧ l.length = n}
      (endStretch Adjacent (contributionDays contributions).reverse) := by
  have hgreatest := isGreatest_endStretch Adjacent (contributionDays contributions)
  have hone : ∃ l, Streak contributions l ∧ l.getLast? = some last ∧ l.length = 1 := by
    refine ⟨[last], ⟨.singleton last, fun c hc => ?_⟩, rfl, rfl⟩
    rw [List.mem_singleton.1 hc]
    exact mem_activeDates.1 (List.mem_of_getLast? hlast)
  have hpos : endStretch Adjacent (contributionDays contributions).reverse ≠ 0 := by
    have hle := hgreatest.2 ((endChain_iff hlast Nat.one_ne_zero).2 hone)
    omega
  refine ⟨(endChain_iff hlast hpos).1 hgreatest.1, ?_⟩
  rintro n ⟨l, hl, hend, rfl⟩
  have hne : l.length ≠ 0 := by
    rintro hzero
    rw [List.length_eq_zero_iff.1 hzero] at hend
    cases hend
  exact hgreatest.2 ((endChain_iff hlast hne).2 ⟨l, hl, hend, rfl⟩)

theorem currentStreak_le : (streaks clock contributions).currentStreak ≤
    (streaks clock contributions).longestStreak := by
  rw [currentStreak_eq, longestStreak_eq]
  split
  · obtain ⟨s, hs, hchain, hlength⟩ :=
      (isGreatest_endStretch Adjacent (contributionDays contributions)).1
    exact (walk_spec Adjacent _).longest.2 ⟨s, hs.isInfix, hchain, hlength⟩
  · exact Nat.zero_le _

end

variable {cs : List ContributionDay}

/-- Both numbers depend on the active dates only. -/
theorem streaks_congr (clock : Nat) {cs' : List ContributionDay}
    (h : ∀ c, Active cs c ↔ Active cs' c) : streaks clock cs = streaks clock cs' := by
  have hdates : activeDates cs = activeDates cs' :=
    eq_of_mem_iff (sorted_activeDates _) (sorted_activeDates _) fun c =>
      mem_activeDates.trans ((h c).trans mem_activeDates.symm)
  rw [streaks, streaks, days_eq, days_eq, hdates]

/-- The last active date, where none lies in the future. -/
theorem getLast_activeDates (h : Active cs c) (hlast : ∀ c', Active cs c' → c' ≤ c) :
    (activeDates cs).getLast? = some c := by
  obtain ⟨last, hend⟩ : ∃ last, (activeDates cs).getLast? = some last := by
    rw [← Option.isSome_iff_exists, List.getLast?_isSome]
    exact List.ne_nil_of_mem (mem_activeDates.2 h)
  obtain ⟨front, hfront⟩ := List.getLast?_eq_some_iff.1 hend
  rw [hend, Option.some.injEq]
  refine le_antisymm (hlast last (mem_activeDates.1 (List.mem_of_getLast? hend))) ?_
  have hmem := mem_activeDates.2 h
  have hsorted := sorted_activeDates cs
  rw [hfront] at hmem hsorted
  rcases List.mem_append.1 hmem with hc | hc
  · exact ((List.pairwise_append.1 hsorted).2.2 c hc last List.mem_cons_self).le
  · exact (List.mem_singleton.1 hc).le

/-- The longest streak is the longest row of active dates. The current one is the row
    that ends today or yesterday if no active date lies in the future, and it is never
    longer. Neither depends on the order of the entries, on repetitions or on entries
    without contributions. -/
theorem streaks_correct (clock : Nat) (contributions : List ContributionDay) :
    (yesterday clock).next = today clock ∧
    IsGreatest {n | ∃ l, Streak contributions l ∧ l.length = n}
      (streaks clock contributions).longestStreak ∧
    ((∀ c, Active contributions c → c ≤ today clock) →
      (Active contributions (today clock) →
        IsGreatest {n | ∃ l, Streak contributions l ∧ l.getLast? = some (today clock) ∧
          l.length = n} (streaks clock contributions).currentStreak) ∧
      (¬ Active contributions (today clock) → Active contributions (yesterday clock) →
        IsGreatest {n | ∃ l, Streak contributions l ∧ l.getLast? = some (yesterday clock) ∧
          l.length = n} (streaks clock contributions).currentStreak) ∧
      (¬ Active contributions (today clock) → ¬ Active contributions (yesterday clock) →
        (streaks clock contributions).currentStreak = 0)) ∧
    (streaks clock contributions).currentStreak ≤ (streaks clock contributions).longestStreak ∧
    (∀ others, others.Perm contributions → streaks clock others = streaks clock contributions) ∧
    (∀ day ∈ contributions,
      streaks clock (day :: contributions) = streaks clock contributions) ∧
    ∀ day : ContributionDay, day.count = 0 →
      streaks clock (day :: contributions) = streaks clock contributions := by
  refine ⟨next_yesterday clock, ?longest, fun hpast => ⟨?today, ?yesterday, ?neither⟩,
    currentStreak_le clock contributions, ?perm, ?again, ?zero⟩
  case longest =>
    have hlongest := (walk_spec Adjacent (contributionDays contributions)).longest
    rw [← longestStreak_eq clock] at hlongest
    exact ⟨innerChain_iff.1 hlongest.1, fun n hn => hlongest.2 (innerChain_iff.2 hn)⟩
  case today =>
    intro htoday
    have hlast := getLast_activeDates htoday hpast
    rw [currentStreak_eq, if_pos (.inl hlast)]
    exact isGreatest_endStretch_days contributions hlast
  case yesterday =>
    intro htoday hyesterday
    have hlast : (activeDates contributions).getLast? = some (yesterday clock) := by
      refine getLast_activeDates hyesterday fun c hc => ?_
      -- what is not today is before it, and yesterday is next to today
      have hlt : c < today clock := lt_of_le_of_ne (hpast c hc) fun heq => htoday (heq ▸ hc)
      rwa [← next_yesterday, ← CalendarDate.succ_eq_next, Order.lt_succ_iff] at hlt
    rw [currentStreak_eq, if_pos (.inr hlast)]
    exact isGreatest_endStretch_days contributions hlast
  case neither =>
    intro htoday hyesterday
    rw [currentStreak_eq, if_neg]
    rintro (hlast | hlast)
    · exact htoday (mem_activeDates.1 (List.mem_of_getLast? hlast))
    · exact hyesterday (mem_activeDates.1 (List.mem_of_getLast? hlast))
  case perm =>
    intro others hperm
    refine streaks_congr clock fun c => ?_
    simp only [Active, hperm.mem_iff]
  case again =>
    intro day hday
    refine streaks_congr clock fun c => ⟨?_, ?_⟩
    · rintro ⟨other, hother, hcount, rfl⟩
      rcases List.mem_cons.1 hother with rfl | hother
      · exact ⟨other, hday, hcount, rfl⟩
      · exact ⟨other, hother, hcount, rfl⟩
    · rintro ⟨other, hother, hcount, rfl⟩
      exact ⟨other, List.mem_cons_of_mem _ hother, hcount, rfl⟩
  case zero =>
    intro day hday
    refine streaks_congr clock fun c => ⟨?_, ?_⟩
    · rintro ⟨other, hother, hcount, rfl⟩
      rcases List.mem_cons.1 hother with rfl | hother
      · omega
      · exact ⟨other, hother, hcount, rfl⟩
    · rintro ⟨other, hother, hcount, rfl⟩
      exact ⟨other, List.mem_cons_of_mem _ hother, hcount, rfl⟩

/-- Over the end of February of a leap year, the second of March not yet begun. -/
example : streaks (19784 * 86400000 + 5)
    [⟨⟨2024, 3, 1, by decide, by decide, by decide, by decide⟩, by decide, 2⟩,
      ⟨⟨2024, 2, 28, by decide, by decide, by decide, by decide⟩, by decide, 1⟩,
      ⟨⟨2024, 2, 29, by decide, by decide, by decide, by decide⟩, by decide, 1⟩,
      ⟨⟨2024, 2, 26, by decide, by decide, by decide, by decide⟩, by decide, 4⟩] = ⟨3, 3⟩ := by
  decide +kernel

end ArenaCore
