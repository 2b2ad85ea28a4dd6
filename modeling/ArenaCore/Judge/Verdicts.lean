import ArenaCore.Judge
import ArenaCore.Store.System

/-!
# Verdicts

What the judge decides, said without its loops. An observation is admitted by
checks that do not look at the plan; its cases are then compared with the
selected ones. They have to be a front of them, in order, every one with an
exit code or a failure, a failure only at the end, and one there if the front
is proper. The verdict is that of the first case that does not pass.

The checks of the loop are recast as `Aligned`, its verdict as
`firstVerdict`, and the rest of the judge as one case distinction
(`judgeSelected_eq_ok_iff`), from which each part of `judge_sound_complete` is
read off.

## Main definitions

* `Passes`, `Classifies`: A case that is accepted, and the verdict on one that
  is not.
* `Admitted`: The checks on an observation as a whole.
* `Fronts`: The observed cases are a front of the selected ones.

## Theorems

* `selectCases_spec`: The selected cases, in ascending order.
* `selectCases_perm`: The order of a plan does not matter.
* `judgeCases_ok_iff`, `judgeCases_verdict`: The loop.
* `judgeSelected_eq_ok_iff`: When there is a verdict, and which.
* `judge_sound_complete`: The judge as a whole.
-/

namespace ArenaCore

/-! ### Specification -/

/-- The case ran to its end with exit code zero and the expected output. -/
def Passes (o : ObservedCase) (test : JudgeCase) : Prop :=
  o.caseId = test.id ∧ o.failure = none ∧ o.exitCode = some 0 ∧
    compareOutput o.stdout test.expectedOutput = true

/-- The verdict on a case that does not pass: its failure if it has one, then
    its exit code, then its output. -/
def Classifies (o : ObservedCase) (test : JudgeCase) (verdict : Verdict) : Prop :=
  (∃ failure, o.failure = some failure ∧ verdict = failure.verdict) ∨
    (o.failure = none ∧ o.exitCode ≠ some 0 ∧ verdict = .runtimeError) ∨
    (o.failure = none ∧ o.exitCode = some 0 ∧
      compareOutput o.stdout test.expectedOutput = false ∧ verdict = .wrongAnswer)

/-- A valid observation of moderate size that was not cancelled, with
    compilation evidence exactly for Java. -/
structure Admitted (language : Language) (observed : JudgeObservation) : Prop where
  schema : observationSchema observed = true
  bounded : outputBytes observed ≤ 1024 * 1024
  uncancelled : observed.cancellationConfirmed = false
  evidence : observed.compilation.isSome = true ↔ language = .java

/-- The compiler rejected the program. -/
def CompilationFailed (observed : JudgeObservation) : Prop :=
  ∃ c, observed.compilation = some c ∧ c.ok = false

/-- The observed cases are the first of the selected ones, each with an exit
    code or a failure. A failure ends the observation, and only a failure lets
    it end early. -/
structure Fronts (observed : List ObservedCase) (selected : List JudgeCase) : Prop where
  nonempty : observed ≠ []
  ids : observed.map ObservedCase.caseId <+: selected.map JudgeCase.id
  ended : ∀ o ∈ observed, o.failure = none → o.exitCode.isSome = true
  lastOnly : ∀ o ∈ observed.dropLast, o.failure = none
  partialFails : observed.length ≠ selected.length →
    ∃ o, observed.getLast? = some o ∧ o.failure.isSome = true

/-! ### Selection -/

/-- The cases of a mode, in ascending order of their ordinals. -/
theorem selectCases_spec {plan : JudgePlan} {mode : ExecutionMode} {selected : List JudgeCase}
    (h : selectCases plan mode = .ok selected) :
    selected ≠ [] ∧ selected.Pairwise (fun a b => a.ordinal < b.ordinal) ∧
      ∀ c, c ∈ selected ↔ c ∈ plan.cases ∧ (mode = .submit ∨ c.visibility = .publicCase) := by
  obtain ⟨hordinals, heq⟩ := selectCases_eq_ok h
  have hmem : ∀ c, c ∈ selected ↔ c ∈ plan.cases ∧
      (mode = .submit ∨ c.visibility = .publicCase) := by
    intro c
    rw [heq, List.mem_insertionSort, List.mem_filter, Bool.or_eq_true, decide_eq_true_eq,
      decide_eq_true_eq]
  refine ⟨?_, ?_, hmem⟩
  · unfold selectCases at h
    rintro rfl
    split at h
    · cases h
    · simp only [] at h
      split at h
      · cases h
      · next hempty =>
          rw [← heq] at hempty
          exact hempty rfl
  · -- Sorted, and no two ordinals are equal.
    have hsorted : selected.Pairwise byOrdinal := heq ▸ List.pairwise_insertionSort byOrdinal _
    have hnodup : (selected.map (·.ordinal)).Nodup := by
      have hperm : selected.Perm (plan.cases.filter fun c =>
          decide (mode = .submit) || decide (c.visibility = .publicCase)) :=
        heq ▸ List.perm_insertionSort byOrdinal _
      rw [(hperm.map _).nodup_iff]
      exact hordinals.sublist (List.filter_sublist.map _)
    rw [List.Nodup, List.pairwise_map] at hnodup
    exact (hsorted.and hnodup).imp fun hboth => lt_of_le_of_ne hboth.1 hboth.2

/-- The shape of a plan does not depend on the order of its cases. -/
theorem planAccepted_perm {plan : JudgePlan} {cases : List JudgeCase}
    (h : cases.Perm plan.cases) : planAccepted { plan with cases := cases } = planAccepted plan := by
  have hempty : cases.isEmpty = plan.cases.isEmpty := by
    rw [Bool.eq_iff_iff, List.isEmpty_iff, List.isEmpty_iff]
    exact ⟨fun e => (e ▸ h).nil_eq.symm, fun e => (e ▸ h).eq_nil⟩
  have hall : (cases.all fun c => isUuid c.id && decide (0 ≤ c.ordinal))
      = plan.cases.all fun c => isUuid c.id && decide (0 ≤ c.ordinal) := by
    rw [Bool.eq_iff_iff, List.all_eq_true, List.all_eq_true]
    exact ⟨fun hc c hmem => hc c (h.mem_iff.2 hmem), fun hc c hmem => hc c (h.mem_iff.1 hmem)⟩
  simp only [planAccepted, hempty, hall, h.length_eq, (h.map (·.id)).nodup_iff,
    (h.map (·.ordinal)).nodup_iff]

/-- Nor does what is selected from it. -/
theorem selectCases_perm {plan : JudgePlan} {mode : ExecutionMode} {selected cases : List JudgeCase}
    (hselect : selectCases plan mode = .ok selected) (h : cases.Perm plan.cases) :
    selectCases { plan with cases := cases } mode = .ok selected := by
  obtain ⟨hordinals, heq⟩ := selectCases_eq_ok hselect
  have hsorted : (cases.filter fun c => decide (mode = .submit) ||
      decide (c.visibility = .publicCase)).insertionSort byOrdinal = selected := by
    have hperm := h.filter fun c => decide (mode = .submit) || decide (c.visibility = .publicCase)
    rw [heq]
    refine ((List.perm_insertionSort byOrdinal _).trans
      (hperm.trans (List.perm_insertionSort byOrdinal _).symm)).eq_of_pairwise
      (fun a b ha hb hab hba => ?_) (List.pairwise_insertionSort byOrdinal _)
      (List.pairwise_insertionSort byOrdinal _)
    rw [List.mem_insertionSort] at ha hb
    exact List.inj_on_of_nodup_map hordinals (h.mem_iff.1 (List.mem_of_mem_filter ha))
      (List.mem_of_mem_filter hb) (Int.le_antisymm hab hba)
  have hnonempty := (selectCases_spec hselect).1
  unfold selectCases at hselect ⊢
  rw [planAccepted_perm h]
  split
  · next haccepted => rw [if_pos haccepted] at hselect; cases hselect
  · simp only [hsorted, List.isEmpty_iff, hnonempty, if_false]

/-! ### The loop -/

/-- What the loop asks of each pair, and of every pair but the last. -/
structure Aligned (pairs : List (ObservedCase × JudgeCase)) : Prop where
  each : ∀ p ∈ pairs, p.1.caseId = p.2.id ∧ (p.1.failure = none → p.1.exitCode.isSome = true)
  lastOnly : ∀ p ∈ pairs.dropLast, p.1.failure = none

/-- The verdict on the first pair that is not accepted. -/
def firstVerdict (pairs : List (ObservedCase × JudgeCase)) : Verdict :=
  ((pairs.map fun p => caseVerdict p.1 p.2).find? (· ≠ .accepted)).getD .accepted

theorem aligned_cons {o : ObservedCase} {test : JudgeCase}
    {rest : List (ObservedCase × JudgeCase)} :
    Aligned ((o, test) :: rest) ↔
      ¬ (o.caseId ≠ test.id ∨ (o.failure = none ∧ o.exitCode = none) ∨
        (o.failure.isSome = true ∧ rest ≠ [])) ∧ Aligned rest := by
  have hexit : (o.failure = none → o.exitCode.isSome = true) ↔
      ¬ (o.failure = none ∧ o.exitCode = none) := by
    rw [not_and]
    exact forall_congr' fun _ => Option.isSome_iff_ne_none
  constructor
  · rintro ⟨heach, hlast⟩
    obtain ⟨hid, hcode⟩ := heach (o, test) List.mem_cons_self
    refine ⟨?_, fun p hp => heach p (List.mem_cons_of_mem _ hp), ?_⟩
    · rintro (h | h | ⟨hfail, hrest⟩)
      · exact h hid
      · exact hexit.1 hcode h
      · have hmem : (o, test) ∈ ((o, test) :: rest).dropLast := by
          rw [List.dropLast_cons_of_ne_nil hrest]
          exact List.mem_cons_self
        rw [hlast _ hmem] at hfail
        cases hfail
    · intro p hp
      have hrest : rest ≠ [] := by
        rintro rfl
        cases hp
      refine hlast p ?_
      rw [List.dropLast_cons_of_ne_nil hrest]
      exact List.mem_cons_of_mem _ hp
  · rintro ⟨hgood, heach, hlast⟩
    rw [not_or, not_or, not_not, ← hexit] at hgood
    obtain ⟨hid, hcode, hend⟩ := hgood
    refine ⟨?_, ?_⟩
    · rintro p hp
      rcases List.mem_cons.1 hp with rfl | hp
      · exact ⟨hid, hcode⟩
      · exact heach p hp
    · intro p hp
      by_cases hrest : rest = []
      · subst hrest
        cases hp
      · rw [List.dropLast_cons_of_ne_nil hrest] at hp
        rcases List.mem_cons.1 hp with rfl | hp
        · exact Option.not_isSome_iff_eq_none.1 fun hfail => hend ⟨hfail, hrest⟩
        · exact hlast p hp

/-- One round of the loop: the checks, then the rest with the verdict so far. -/
theorem judgeCases_cons (strip : String → String) (mode : ExecutionMode) (o : ObservedCase)
    (test : JudgeCase) (rest : List (ObservedCase × JudgeCase)) (acc : Judging) :
    ∃ next : Judging,
      next.verdict = (if acc.verdict = .accepted then caseVerdict o test else acc.verdict) ∧
      judgeCases strip mode ((o, test) :: rest) acc =
        if o.caseId ≠ test.id ∨ (o.failure = none ∧ o.exitCode = none) ∨
          (o.failure.isSome = true ∧ rest ≠ []) then .error .protocol
        else judgeCases strip mode rest next := by
  have hverdict : (if acc.verdict = .accepted ∧ caseVerdict o test ≠ .accepted
      then caseVerdict o test else acc.verdict)
      = if acc.verdict = .accepted then caseVerdict o test else acc.verdict := by
    by_cases hacc : acc.verdict = .accepted <;> by_cases hcase : caseVerdict o test = .accepted <;>
      simp [hacc, hcase]
  rw [judgeCases]
  cases mode with
  | submit | run => exact ⟨_, hverdict, rfl⟩

/-- The loop ends without an error exactly on aligned pairs. -/
theorem judgeCases_ok_iff (strip : String → String) (mode : ExecutionMode)
    (pairs : List (ObservedCase × JudgeCase)) (acc : Judging) :
    (∃ judged, judgeCases strip mode pairs acc = .ok judged) ↔ Aligned pairs := by
  induction pairs generalizing acc with
  | nil =>
      refine iff_of_true ⟨acc, rfl⟩ ⟨fun p hp => ?_, fun p hp => ?_⟩ <;> cases hp
  | cons pair rest ih =>
      obtain ⟨o, test⟩ := pair
      obtain ⟨next, _, heq⟩ := judgeCases_cons strip mode o test rest acc
      rw [aligned_cons, ← ih next, heq]
      split
      · next hbad => simp [hbad]
      · next hgood => simp only [hgood, not_false_eq_true, true_and]

/-- Its verdict is the first that is not `ACCEPTED`. -/
theorem judgeCases_verdict {strip : String → String} {mode : ExecutionMode}
    {pairs : List (ObservedCase × JudgeCase)} {acc judged : Judging}
    (h : judgeCases strip mode pairs acc = .ok judged) :
    judged.verdict = if acc.verdict = .accepted then firstVerdict pairs else acc.verdict := by
  induction pairs generalizing acc with
  | nil =>
      cases h
      by_cases hacc : judged.verdict = .accepted
      · rw [if_pos hacc, hacc]
        rfl
      · rw [if_neg hacc]
  | cons pair rest ih =>
      obtain ⟨o, test⟩ := pair
      obtain ⟨next, hnext, heq⟩ := judgeCases_cons strip mode o test rest acc
      rw [heq] at h
      split at h
      · cases h
      · rw [ih h, hnext]
        clear heq hnext h
        by_cases hacc : acc.verdict = .accepted <;>
          by_cases hcase : caseVerdict o test = .accepted <;>
          simp [hacc, hcase, firstVerdict]

/-! ### One case -/

theorem caseVerdict_accepted_iff {o : ObservedCase} {test : JudgeCase} :
    caseVerdict o test = .accepted ↔ o.failure = none ∧ o.exitCode = some 0 ∧
      compareOutput o.stdout test.expectedOutput = true := by
  unfold caseVerdict
  cases hfail : o.failure with
  | some failure => cases failure <;> simp [ObservedFailure.verdict]
  | none =>
      by_cases hexit : o.exitCode = some 0 <;>
        by_cases hout : compareOutput o.stdout test.expectedOutput = true <;> simp [hexit, hout]

theorem classifies_caseVerdict {o : ObservedCase} {test : JudgeCase}
    (h : caseVerdict o test ≠ .accepted) : Classifies o test (caseVerdict o test) := by
  unfold Classifies
  cases hfail : o.failure with
  | some failure => exact .inl ⟨failure, rfl, by simp only [caseVerdict, hfail]⟩
  | none =>
      by_cases hexit : o.exitCode = some 0
      · have hout : compareOutput o.stdout test.expectedOutput = false := by
          rw [Bool.eq_false_iff]
          exact fun hout => h (caseVerdict_accepted_iff.2 ⟨hfail, hexit, hout⟩)
        exact .inr (.inr ⟨rfl, hexit, hout, by simp [caseVerdict, hfail, hexit, hout]⟩)
      · exact .inr (.inl ⟨rfl, hexit, by simp [caseVerdict, hfail, hexit]⟩)

/-- No case has the verdict of a failed compilation. -/
theorem caseVerdict_ne_compilationError (o : ObservedCase) (test : JudgeCase) :
    caseVerdict o test ≠ .compilationError := by
  by_cases h : caseVerdict o test = .accepted
  · simp [h]
  · rcases classifies_caseVerdict h with ⟨failure, _, hv⟩ | ⟨_, _, hv⟩ | ⟨_, _, _, hv⟩ <;> rw [hv]
    · cases failure <;> simp [ObservedFailure.verdict]
    · simp
    · simp

theorem firstVerdict_accepted_iff {pairs : List (ObservedCase × JudgeCase)} :
    firstVerdict pairs = .accepted ↔ ∀ p ∈ pairs, caseVerdict p.1 p.2 = .accepted := by
  unfold firstVerdict
  cases hfind : (pairs.map fun p => caseVerdict p.1 p.2).find? (· ≠ .accepted) with
  | none =>
      rw [List.find?_eq_none] at hfind
      refine iff_of_true rfl fun p hp => ?_
      simpa using hfind _ (List.mem_map.2 ⟨p, hp, rfl⟩)
  | some verdict =>
      have hne : verdict ≠ .accepted := by simpa using List.find?_some hfind
      obtain ⟨p, hp, heq⟩ := List.mem_map.1 (List.mem_of_find?_eq_some hfind)
      refine iff_of_false hne fun hall => ?_
      exact hne (heq.symm.trans (hall p hp))

/-- Otherwise it is the verdict on the first pair that does not pass. -/
theorem firstVerdict_split {pairs : List (ObservedCase × JudgeCase)}
    (h : firstVerdict pairs ≠ .accepted) :
    ∃ passed o test rest, pairs = passed ++ (o, test) :: rest ∧
      (∀ p ∈ passed, caseVerdict p.1 p.2 = .accepted) ∧ caseVerdict o test ≠ .accepted ∧
      firstVerdict pairs = caseVerdict o test := by
  induction pairs with
  | nil => exact absurd rfl h
  | cons pair pairs ih =>
      obtain ⟨o, test⟩ := pair
      by_cases hcase : caseVerdict o test = .accepted
      · have hfirst : firstVerdict ((o, test) :: pairs) = firstVerdict pairs := by
          simp [firstVerdict, hcase]
        rw [hfirst] at h ⊢
        obtain ⟨passed, o', test', rest, rfl, hpassed, hne, heq⟩ := ih h
        refine ⟨(o, test) :: passed, o', test', rest, rfl, fun p hp => ?_, hne, heq⟩
        rcases List.mem_cons.1 hp with rfl | hp
        · exact hcase
        · exact hpassed p hp
      · refine ⟨[], o, test, pairs, rfl, fun p hp => absurd hp List.not_mem_nil, hcase, ?_⟩
        simp [firstVerdict, hcase]

/-! ### The whole observation -/

/-- The identifiers of a front agree pair by pair. -/
theorem ids_prefix_iff {observed : List ObservedCase} {selected : List JudgeCase} :
    observed.map ObservedCase.caseId <+: selected.map JudgeCase.id ↔
      observed.length ≤ selected.length ∧ ∀ p ∈ observed.zip selected, p.1.caseId = p.2.id := by
  induction observed generalizing selected with
  | nil => simp
  | cons o observed ih =>
      cases selected with
      | nil => simp
      | cons test selected =>
          rw [List.map_cons, List.map_cons, List.cons_prefix_cons, ih, List.zip_cons_cons,
            List.forall_mem_cons, List.length_cons, List.length_cons, Nat.add_le_add_iff_right]
          exact and_left_comm

/-- The front condition, as the judge checks it. -/
theorem fronts_iff {observed : List ObservedCase} {selected : List JudgeCase} :
    Fronts observed selected ↔ observed ≠ [] ∧ observed.length ≤ selected.length ∧
      (observed.length ≠ selected.length →
        ∃ o, observed.getLast? = some o ∧ o.failure.isSome = true) ∧
      Aligned (observed.zip selected) := by
  have hpairs : observed.length ≤ selected.length →
      ((∀ o ∈ observed, o.failure = none → o.exitCode.isSome = true) ↔
        ∀ p ∈ observed.zip selected, p.1.failure = none → p.1.exitCode.isSome = true) ∧
      ((∀ o ∈ observed.dropLast, o.failure = none) ↔
        ∀ p ∈ (observed.zip selected).dropLast, p.1.failure = none) := by
    intro hlen
    have hfst : (observed.zip selected).map Prod.fst = observed := List.map_fst_zip hlen
    constructor
    · conv_lhs => rw [← hfst]
      exact List.forall_mem_map
    · conv_lhs => rw [← hfst, ← List.map_dropLast]
      exact List.forall_mem_map
  constructor
  · rintro ⟨hne, hids, hended, hlast, hpartial⟩
    obtain ⟨hlen, hid⟩ := ids_prefix_iff.1 hids
    refine ⟨hne, hlen, hpartial, fun p hp => ⟨hid p hp, ?_⟩, (hpairs hlen).2.1 hlast⟩
    exact (hpairs hlen).1.1 hended p hp
  · rintro ⟨hne, hlen, hpartial, heach, hlast⟩
    exact ⟨hne, ids_prefix_iff.2 ⟨hlen, fun p hp => (heach p hp).1⟩,
      (hpairs hlen).1.2 fun p hp => (heach p hp).2, (hpairs hlen).2.2 hlast, hpartial⟩

theorem compilationFailed_iff {observed : JudgeObservation} :
    CompilationFailed observed ↔ observed.compilation.any (fun c => !c.ok) = true := by
  unfold CompilationFailed
  cases observed.compilation <;> simp

/-- The verdict that an observation deserves, if it deserves one. -/
def Deserves (selected : List JudgeCase) (language : Language) (observed : JudgeObservation)
    (verdict : Verdict) : Prop :=
  Admitted language observed ∧
    ((CompilationFailed observed ∧ observed.cases = [] ∧ verdict = .compilationError) ∨
      (¬ CompilationFailed observed ∧ Fronts observed.cases selected ∧
        verdict = firstVerdict (observed.cases.zip selected)))

/-- When the judge has a verdict on an observation, and which it is. -/
theorem judgeSelected_eq_ok_iff {strip : String → String} {selected : List JudgeCase}
    {mode : ExecutionMode} {language : Language} {observed : JudgeObservation} {verdict : Verdict} :
    (∃ result, judgeSelected strip selected mode language (some observed) = .ok result ∧
        result.verdict = verdict) ↔ Deserves selected language observed verdict := by
  unfold Deserves
  rw [compilationFailed_iff, fronts_iff]
  constructor
  · rintro ⟨result, h, rfl⟩
    rw [judgeSelected] at h
    split at h
    · cases h
    next hschema =>
    split at h
    · cases h
    next hbounded =>
    split at h
    · cases h
    next huncancelled =>
    split at h
    · cases h
    next hevidence =>
    have hadmitted : Admitted language observed := by
      refine ⟨by simpa using hschema, by omega, by simpa using huncancelled, ?_⟩
      cases hc : observed.compilation <;> simp_all
    refine ⟨hadmitted, ?_⟩
    split at h
    · next hfailed =>
        split at h
        · next hempty =>
            cases h
            exact .inl ⟨hfailed, List.isEmpty_iff.1 hempty, rfl⟩
        · cases h
    next hcompiled =>
    split at h
    · cases h
    next hlength =>
    split at h
    · cases h
    next hpartial =>
    obtain ⟨judged, hjudged, hresult⟩ := Transaction.bind_eq_ok.1 h
    cases hresult
    rw [not_or, List.isEmpty_iff, not_lt] at hlength
    refine .inr ⟨hcompiled, ⟨hlength.1, hlength.2, fun hne => ?_, ?_⟩, ?_⟩
    · have hsome := List.getLast?_eq_some_getLast hlength.1
      refine ⟨_, hsome, ?_⟩
      rw [hsome, Option.any_some] at hpartial
      simpa [hne, Option.isSome_iff_ne_none] using hpartial
    · exact (judgeCases_ok_iff strip mode _ {}).1 ⟨judged, hjudged⟩
    · exact judgeCases_verdict hjudged
  · rintro ⟨⟨hschema, hbounded, huncancelled, hevidence⟩, h⟩
    have hwithout : ¬ ((language = .java ∧ observed.compilation.isNone = true) ∨
        (language ≠ .java ∧ observed.compilation.isSome = true)) := by
      cases hc : observed.compilation <;> simp_all
    rw [judgeSelected, if_neg (by simp [hschema]), if_neg (by omega), if_neg (by simp [huncancelled]),
      if_neg hwithout]
    rcases h with ⟨hfailed, hempty, rfl⟩ | ⟨hcompiled, ⟨hne, hlen, hpartial, haligned⟩, rfl⟩
    · rw [if_pos hfailed, hempty]
      exact ⟨_, rfl, rfl⟩
    · have hlast : ¬ (observed.cases.length ≠ selected.length ∧
          observed.cases.getLast?.any (fun c => c.failure.isNone) = true) := by
        rintro ⟨hlength, hany⟩
        obtain ⟨o, ho, hfail⟩ := hpartial hlength
        rw [ho, Option.any_some, Option.isNone_iff_eq_none] at hany
        rw [hany] at hfail
        cases hfail
      obtain ⟨judged, hjudged⟩ := (judgeCases_ok_iff strip mode _ {}).2 haligned
      rw [if_neg hcompiled, if_neg (by simp [hne, hlen]), if_neg hlast, hjudged]
      exact ⟨_, rfl, judgeCases_verdict hjudged⟩

/-! ### The judge -/

theorem forall₂_passes_iff {observed : List ObservedCase} {selected : List JudgeCase}
    (hselected : selected ≠ []) :
    List.Forall₂ Passes observed selected ↔ Fronts observed selected ∧
      firstVerdict (observed.zip selected) = .accepted := by
  rw [fronts_iff, firstVerdict_accepted_iff, List.forall₂_iff_zip]
  constructor
  · rintro ⟨hlen, hall⟩
    have hpass : ∀ p ∈ observed.zip selected, Passes p.1 p.2 := fun p hp => hall hp
    refine ⟨⟨?_, hlen.le, fun hne => absurd hlen hne, fun p hp => ?_, fun p hp => ?_⟩,
      fun p hp => ?_⟩
    · rintro rfl
      exact hselected (List.length_eq_zero_iff.1 hlen.symm)
    · obtain ⟨hid, _, hexit, _⟩ := hpass p hp
      exact ⟨hid, fun _ => by rw [hexit]; rfl⟩
    · exact (hpass p (List.dropLast_subset _ hp)).2.1
    · exact caseVerdict_accepted_iff.2 (hpass p hp).2
  · rintro ⟨⟨hne, hlen, hpartial, heach, _⟩, haccepted⟩
    have hpass : ∀ p ∈ observed.zip selected, Passes p.1 p.2 := fun p hp =>
      ⟨(heach p hp).1, caseVerdict_accepted_iff.1 (haccepted p hp)⟩
    refine ⟨?_, fun hp => hpass _ hp⟩
    -- A proper front would end in a failure, which is not accepted.
    by_contra hlength
    obtain ⟨o, ho, hfail⟩ := hpartial hlength
    have hmem : o ∈ (observed.zip selected).map Prod.fst := by
      rw [List.map_fst_zip hlen]
      exact List.mem_of_getLast? ho
    obtain ⟨p, hp, rfl⟩ := List.mem_map.1 hmem
    rw [(hpass p hp).2.1] at hfail
    cases hfail

theorem firstVerdict_ne_compilationError (pairs : List (ObservedCase × JudgeCase)) :
    firstVerdict pairs ≠ .compilationError := by
  by_cases h : firstVerdict pairs = .accepted
  · simp [h]
  · obtain ⟨_, o, test, _, _, _, _, heq⟩ := firstVerdict_split h
    rw [heq]
    exact caseVerdict_ne_compilationError o test

section Selected

variable {strip : String → String} {selected : List JudgeCase} {mode : ExecutionMode}
  {language : Language} {input : Option JudgeObservation} {result : WorkerResult}

/-- A verdict is deserved by the input. -/
theorem judgeSelected_verdict {verdict : Verdict} :
    (∃ result, judgeSelected strip selected mode language input = .ok result ∧
        result.verdict = verdict) ↔
      ∃ observed, input = some observed ∧ Deserves selected language observed verdict := by
  cases input with
  | none => simp [judgeSelected]
  | some observed =>
      rw [judgeSelected_eq_ok_iff]
      simp

theorem deserves_of_ok (h : judgeSelected strip selected mode language input = .ok result) :
    ∃ observed, input = some observed ∧ Deserves selected language observed result.verdict :=
  judgeSelected_verdict.1 ⟨result, h, rfl⟩

theorem accepted_iff (hselected : selected ≠ []) :
    (∃ result, judgeSelected strip selected mode language input = .ok result ∧
        result.verdict = .accepted) ↔
      ∃ observed, input = some observed ∧ Admitted language observed ∧
        ¬ CompilationFailed observed ∧ List.Forall₂ Passes observed.cases selected := by
  rw [judgeSelected_verdict]
  simp only [Deserves, forall₂_passes_iff hselected, reduceCtorEq, and_false, false_or, eq_comm]

theorem classified_of_ok (h : judgeSelected strip selected mode language input = .ok result)
    (haccepted : result.verdict ≠ .accepted) (hcompilation : result.verdict ≠ .compilationError) :
    ∃ observed passed o test rest, input = some observed ∧
      observed.cases.zip selected = passed ++ (o, test) :: rest ∧
      (∀ p ∈ passed, Passes p.1 p.2) ∧ Classifies o test result.verdict := by
  obtain ⟨observed, rfl, _, ⟨_, _, heq⟩ | ⟨_, hfronts, heq⟩⟩ := deserves_of_ok h
  · exact absurd heq hcompilation
  · rw [heq] at haccepted ⊢
    obtain ⟨passed, o, test, rest, hsplit, hpassed, hne, hfirst⟩ := firstVerdict_split haccepted
    refine ⟨observed, passed, o, test, rest, rfl, hsplit, fun p hp => ?_, ?_⟩
    · have hmem : p ∈ observed.cases.zip selected := hsplit ▸ List.mem_append_left _ hp
      exact ⟨((fronts_iff.1 hfronts).2.2.2.each p hmem).1,
        caseVerdict_accepted_iff.1 (hpassed p hp)⟩
    · rw [hfirst]
      exact classifies_caseVerdict hne

theorem compilationError_iff :
    (∃ result, judgeSelected strip selected mode language input = .ok result ∧
        result.verdict = .compilationError) ↔
      ∃ observed, input = some observed ∧ Admitted language observed ∧
        CompilationFailed observed ∧ observed.cases = [] := by
  simp only [judgeSelected_verdict, Deserves, (firstVerdict_ne_compilationError _).symm, and_false,
    or_false, and_true]

theorem partial_of_ok {observed : JudgeObservation}
    (h : judgeSelected strip selected mode language (some observed) = .ok result)
    (hlen : observed.cases.length < selected.length) :
    (CompilationFailed observed ∧ observed.cases = []) ∨
      (observed.cases.map ObservedCase.caseId <+: selected.map JudgeCase.id ∧
        ∃ before last, observed.cases = before ++ [last] ∧ last.failure.isSome = true ∧
          ∀ o ∈ before, o.failure = none) := by
  obtain ⟨_, heq, _, ⟨hfailed, hempty, _⟩ | ⟨_, hfronts, _⟩⟩ := deserves_of_ok h <;> cases heq
  · exact .inl ⟨hfailed, hempty⟩
  · obtain ⟨last, hlast, hfail⟩ := hfronts.partialFails hlen.ne
    refine .inr ⟨hfronts.ids, observed.cases.dropLast, last, ?_, hfail, hfronts.lastOnly⟩
    exact (List.dropLast_append_getLast? last hlast).symm

theorem error_iff :
    (∃ error, judgeSelected strip selected mode language input = .error error) ↔
      ¬ ∃ observed, input = some observed ∧ Admitted language observed ∧
        ((CompilationFailed observed ∧ observed.cases = []) ∨
          (¬ CompilationFailed observed ∧ Fronts observed.cases selected)) := by
  cases hjudge : judgeSelected strip selected mode language input with
  | error error =>
      refine iff_of_true ⟨error, rfl⟩ ?_
      rintro ⟨observed, rfl, hadmitted, h⟩
      obtain ⟨verdict, hdeserves⟩ : ∃ verdict, Deserves selected language observed verdict := by
        rcases h with ⟨hfailed, hempty⟩ | ⟨hcompiled, hfronts⟩
        · exact ⟨_, hadmitted, .inl ⟨hfailed, hempty, rfl⟩⟩
        · exact ⟨_, hadmitted, .inr ⟨hcompiled, hfronts, rfl⟩⟩
      obtain ⟨result, hok, _⟩ := judgeSelected_eq_ok_iff.2 hdeserves
      rw [hjudge] at hok
      cases hok
  | ok result =>
      refine iff_of_false (by simp) (not_not_intro ?_)
      obtain ⟨observed, heq, hadmitted, h⟩ := deserves_of_ok hjudge
      refine ⟨observed, heq, hadmitted, ?_⟩
      rcases h with ⟨hfailed, hempty, _⟩ | ⟨hcompiled, hfronts, _⟩
      · exact .inl ⟨hfailed, hempty⟩
      · exact .inr ⟨hcompiled, hfronts⟩

end Selected

/-- The judge is sound and complete. For a plan with selected cases, which are
    those of the mode in ascending order:

    * the verdict is `ACCEPTED` exactly for an admitted observation, compiled
      if at all without errors, that has every selected case, in order, and
      each passed;
    * any other verdict but `COMPILATION_ERROR` is the classification of the
      first case that did not pass;
    * `COMPILATION_ERROR` is the verdict exactly for an admitted observation of
      a failed compilation without cases;
    * an observation with fewer cases that gets a verdict is of a failed
      compilation, or its cases are a front whose last one alone has a
      failure;
    * all other inputs get an exception;
    * the order of the plan's cases does not matter. -/
theorem judge_sound_complete (strip : String → String) (plan : JudgePlan) (mode : ExecutionMode)
    (language : Language) (input : Option JudgeObservation) (selected : List JudgeCase)
    (hselect : selectCases plan mode = .ok selected) :
    (selected.Pairwise (fun a b => a.ordinal < b.ordinal) ∧
      ∀ c, c ∈ selected ↔ c ∈ plan.cases ∧ (mode = .submit ∨ c.visibility = .publicCase)) ∧
    ((∃ result, judge strip plan mode language input = .ok result ∧
        result.verdict = .accepted) ↔
      ∃ observed, input = some observed ∧ Admitted language observed ∧
        ¬ CompilationFailed observed ∧ List.Forall₂ Passes observed.cases selected) ∧
    (∀ result, judge strip plan mode language input = .ok result → result.verdict ≠ .accepted →
      result.verdict ≠ .compilationError →
      ∃ observed passed o test rest, input = some observed ∧
        observed.cases.zip selected = passed ++ (o, test) :: rest ∧
        (∀ p ∈ passed, Passes p.1 p.2) ∧ Classifies o test result.verdict) ∧
    ((∃ result, judge strip plan mode language input = .ok result ∧
        result.verdict = .compilationError) ↔
      ∃ observed, input = some observed ∧ Admitted language observed ∧
        CompilationFailed observed ∧ observed.cases = []) ∧
    (∀ observed result, input = some observed →
      judge strip plan mode language input = .ok result →
      observed.cases.length < selected.length →
      (CompilationFailed observed ∧ observed.cases = []) ∨
        (observed.cases.map ObservedCase.caseId <+: selected.map JudgeCase.id ∧
          ∃ before last, observed.cases = before ++ [last] ∧ last.failure.isSome = true ∧
            ∀ o ∈ before, o.failure = none)) ∧
    ((∃ error, judge strip plan mode language input = .error error) ↔
      ¬ ∃ observed, input = some observed ∧ Admitted language observed ∧
        ((CompilationFailed observed ∧ observed.cases = []) ∨
          (¬ CompilationFailed observed ∧ Fronts observed.cases selected))) ∧
    ∀ cases, cases.Perm plan.cases →
      judge strip { plan with cases := cases } mode language input
        = judge strip plan mode language input := by
  obtain ⟨hnonempty, hsorted, hmem⟩ := selectCases_spec hselect
  have hjudge : judge strip plan mode language input
      = judgeSelected strip selected mode language input := by
    rw [judge, hselect]
    rfl
  have hperm : ∀ cases, cases.Perm plan.cases →
      judge strip { plan with cases := cases } mode language input
        = judge strip plan mode language input := by
    intro cases h
    rw [hjudge, judge, selectCases_perm hselect h]
    rfl
  rw [hjudge] at hperm ⊢
  refine ⟨⟨hsorted, hmem⟩, accepted_iff hnonempty, fun result => classified_of_ok,
    compilationError_iff, ?_, error_iff, hperm⟩
  rintro observed result rfl h hlen
  exact partial_of_ok h hlen

namespace Sample

/-- Two cases, listed out of order. -/
def plan : JudgePlan where
  versionId := versionId.text
  comparator := "EXACT_NEWLINE"
  timeMs := 1000
  memoryKiB := 65536
  cases :=
    [{ id := hiddenCase.text, ordinal := 1, visibility := .hiddenCase, input := "2 2",
       expectedOutput := "4" },
     { id := publicCase.text, ordinal := 0, visibility := .publicCase, input := "1 2",
       expectedOutput := "3" }]

/-- A program that prints something and ends normally. -/
def printed (id : Uuid) (stdout : String) : ObservedCase :=
  { caseId := id.text, stdout := stdout, stderr := "", exitCode := some 0, wallMs := some 5 }

/-- Both cases in order, with a newline at the end of each output. -/
def observation : JudgeObservation where
  cases := [printed publicCase "3\n", printed hiddenCase "4\n"]

end Sample

theorem judge_sound_complete_passed :
    ∃ result, judge (fun text => text) Sample.plan .submit .python (some Sample.observation)
      = .ok result ∧ result.verdict = .accepted := by
  refine (judge_sound_complete (fun text => text) Sample.plan .submit .python
    (some Sample.observation) Sample.plan.cases.reverse (by decide +kernel)).2.1.2
    ⟨Sample.observation, rfl, ⟨by decide +kernel, by decide +kernel, rfl, by decide⟩, ?_, ?_⟩
  · rintro ⟨c, hc, _⟩
    cases hc
  · exact .cons ⟨rfl, rfl, rfl, by decide +kernel⟩ (.cons ⟨rfl, rfl, rfl, by decide +kernel⟩ .nil)

end ArenaCore
