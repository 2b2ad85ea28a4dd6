import ArenaCore.Judge.Display
import ArenaCore.Lib.Newlines

/-!
# The Comparison of Outputs

`compareOutput` follows the law of line endings, and the judge reads the texts it
compares through it alone. The style of the line endings of an expected output is
therefore without any effect, and that of the program's output changes what is
shown and what is counted towards the limit on all output, but no verdict.

## Main definitions

* `SameLines`: Texts that differ in the style of their line endings.
* `JudgePlan.restyle`, `JudgeObservation.restyle`: The same plan with other
  expected outputs, the same observation with other outputs.

## Theorems

* `compareOutput_law`: What the comparison accepts.
* `judge_restyle_plan`: The style of the expected outputs does not matter.
* `output_comparison`: The comparison and the judge.
-/

namespace ArenaCore

/-! ### The comparison -/

theorem normalizeNewlines_eq (cs : List Char) :
    normalizeNewlines cs = Newlines.normalize '\r' '\n' cs := by
  induction cs using normalizeNewlines.induct with
  | case1 rest ih =>
      rw [normalizeNewlines, ih]
      exact (Newlines.normalize_drop (by decide) rest).symm
  | case2 c rest hnot ih =>
      have hkeep : c = '\r' → rest.head? ≠ some '\n' := by
        rintro rfl hhead
        obtain ⟨rest, rfl⟩ := List.head?_eq_some_iff.1 hhead
        exact hnot rest rfl rfl
      rw [normalizeNewlines, ih, Newlines.normalize_keep hkeep]
      exact hnot
  | case3 => rfl

theorem compareOutput_eq (a e : String) :
    compareOutput a e = Newlines.agree '\r' '\n' a.toList e.toList := by
  rw [compareOutput, Newlines.agree, normalizeNewlines_eq, normalizeNewlines_eq]

theorem compareOutput_law : Newlines.Law '\r' '\n'
    fun a e => compareOutput (String.ofList a) (String.ofList e) := by
  simp only [compareOutput_eq, String.toList_ofList]
  exact Newlines.agree_law (by decide)

/-- Texts that differ in the style of their line endings. -/
def SameLines (a b : String) : Prop :=
  Newlines.Restyled '\r' '\n' a.toList b.toList

theorem SameLines.compareOutput_eq {a a' e e' : String} (ha : SameLines a a')
    (he : SameLines e e') : compareOutput a e = compareOutput a' e' := by
  rw [ArenaCore.compareOutput_eq, ArenaCore.compareOutput_eq]
  exact (Newlines.agree_law (by decide)).restyled _ _ _ _ ha he

/-! ### The judge -/

/-- The case with another expected output. -/
def JudgeCase.expecting (style : JudgeCase → String) (c : JudgeCase) : JudgeCase :=
  { c with expectedOutput := style c }

/-- The case with another output. -/
def ObservedCase.printing (style : ObservedCase → String) (o : ObservedCase) : ObservedCase :=
  { o with stdout := style o }

def JudgePlan.restyle (style : JudgeCase → String) (plan : JudgePlan) : JudgePlan :=
  { plan with cases := plan.cases.map (JudgeCase.expecting style) }

def JudgeObservation.restyle (style : ObservedCase → String) (observed : JudgeObservation) :
    JudgeObservation :=
  { observed with cases := observed.cases.map (ObservedCase.printing style) }

theorem caseVerdict_restyle {o : ObservedCase} {test : JudgeCase} {printed : ObservedCase → String}
    {expected : JudgeCase → String} (hout : SameLines o.stdout (printed o))
    (hexpected : SameLines test.expectedOutput (expected test)) :
    caseVerdict (o.printing printed) (test.expecting expected) = caseVerdict o test := by
  unfold caseVerdict
  rw [hout.compareOutput_eq hexpected]
  rfl

section Plan

variable {strip : String → String} {plan : JudgePlan} {expected : JudgeCase → String}
  {mode : ExecutionMode}

theorem planAccepted_restyle : planAccepted (plan.restyle expected) = planAccepted plan := by
  simp only [planAccepted, JudgePlan.restyle, List.isEmpty_map, List.length_map, List.map_map,
    List.all_map]
  rfl

/-- The cases are selected by what does not change. -/
theorem selectCases_restyle : selectCases (plan.restyle expected) mode
    = (selectCases plan mode).map (List.map (JudgeCase.expecting expected)) := by
  have hsorted : ((plan.restyle expected).cases.filter fun c =>
      decide (mode = .submit) || decide (c.visibility = .publicCase)).insertionSort byOrdinal
      = ((plan.cases.filter fun c => decide (mode = .submit) ||
          decide (c.visibility = .publicCase)).insertionSort byOrdinal).map
        (JudgeCase.expecting expected) := by
    rw [List.map_insertionSort byOrdinal byOrdinal (JudgeCase.expecting expected) _
      fun a _ b _ => Iff.rfl, JudgePlan.restyle, List.filter_map]
    rfl
  unfold selectCases
  rw [planAccepted_restyle, hsorted]
  split
  · rfl
  · simp only [List.isEmpty_map]
    split <;> rfl

theorem showCase_expecting (strip : String → String) (o : ObservedCase) {test : JudgeCase}
    (budget : Nat) (h : SameLines test.expectedOutput (expected test)) :
    caseVerdict o (test.expecting expected) = caseVerdict o test ∧
      showCase strip o (test.expecting expected) budget = showCase strip o test budget := by
  have hverdict : caseVerdict o (test.expecting expected) = caseVerdict o test := by
    have hstdout : SameLines o.stdout (ObservedCase.stdout o) := .refl _
    exact caseVerdict_restyle hstdout h
  refine ⟨hverdict, ?_⟩
  unfold showCase
  rw [hverdict]
  rfl

/-- The loop reads an expected output through the verdict on its case. -/
theorem judgeCases_expecting {pairs : List (ObservedCase × JudgeCase)} (acc : Judging)
    (h : ∀ p ∈ pairs, SameLines p.2.expectedOutput (expected p.2)) :
    judgeCases strip mode (pairs.map (Prod.map id (JudgeCase.expecting expected))) acc
      = judgeCases strip mode pairs acc := by
  induction pairs generalizing acc with
  | nil => rfl
  | cons pair rest ih =>
      obtain ⟨o, test⟩ := pair
      obtain ⟨hpair, hrest⟩ := List.forall_mem_cons.1 h
      obtain ⟨hverdict, hshow⟩ := showCase_expecting strip o acc.budget hpair
      have hid : (test.expecting expected).id = test.id := rfl
      rw [List.map_cons, Prod.map_apply, id_eq, judgeCases, judgeCases]
      simp only [hverdict, hshow, hid, ne_eq, List.map_eq_nil_iff, ih _ hrest]

/-- The style of the expected outputs does not matter. -/
theorem judge_restyle_plan {language : Language} {input : Option JudgeObservation}
    (h : ∀ c ∈ plan.cases, SameLines c.expectedOutput (expected c)) :
    judge strip (plan.restyle expected) mode language input
      = judge strip plan mode language input := by
  rw [judge, judge, selectCases_restyle]
  cases hselect : selectCases plan mode with
  | error e => rfl
  | ok selected =>
      have hmem := (selectCases_spec hselect).2.2
      cases input with
      | none => rfl
      | some observed =>
          have hloop : judgeCases strip mode (observed.cases.zip (selected.map
              (JudgeCase.expecting expected))) {} = judgeCases strip mode
              (observed.cases.zip selected) {} := by
            rw [List.zip_map_right]
            exact judgeCases_expecting {} fun p hp =>
              h _ ((hmem p.2).1 (List.of_mem_zip hp).2).1
          change judgeSelected strip (selected.map _) mode language (some observed)
            = judgeSelected strip selected mode language (some observed)
          rw [judgeSelected, judgeSelected, List.length_map, hloop]

end Plan

section Observation

variable {strip : String → String} {plan : JudgePlan} {mode : ExecutionMode} {language : Language}
  {observed : JudgeObservation} {printed : ObservedCase → String} {selected : List JudgeCase}
  {result : WorkerResult}

/-- Only the size of an observation depends on the style. -/
theorem Admitted.restyle (h : Admitted language observed)
    (hbounded : outputBytes (observed.restyle printed) ≤ 1024 * 1024) :
    Admitted language (observed.restyle printed) := by
  refine ⟨?_, hbounded, h.uncancelled, h.evidence⟩
  rw [← h.schema, observationSchema, observationSchema, JudgeObservation.restyle, List.all_map,
    List.length_map]
  rfl

theorem Fronts.restyle {cases : List ObservedCase} (h : Fronts cases selected) :
    Fronts (cases.map (ObservedCase.printing printed)) selected where
  nonempty := fun hnil => h.nonempty (List.map_eq_nil_iff.1 hnil)
  ids := by
    rw [List.map_map]
    exact h.ids
  ended := List.forall_mem_map.2 h.ended
  lastOnly := by
    rw [← List.map_dropLast]
    exact List.forall_mem_map.2 h.lastOnly
  partialFails hne := by
    rw [List.length_map] at hne
    obtain ⟨o, ho, hfail⟩ := h.partialFails hne
    refine ⟨o.printing printed, ?_, hfail⟩
    rw [List.getLast?_map, ho]
    rfl

/-- The verdicts on the cases, pair by pair. -/
theorem caseVerdicts_restyle (h : ∀ o ∈ observed.cases, SameLines o.stdout (printed o)) :
    ((observed.restyle printed).cases.zip selected).map (fun p => caseVerdict p.1 p.2)
      = (observed.cases.zip selected).map fun p => caseVerdict p.1 p.2 := by
  rw [JudgeObservation.restyle, List.zip_map_left, List.map_map]
  refine List.map_congr_left fun p hp => ?_
  have hexpected : SameLines p.2.expectedOutput (JudgeCase.expectedOutput p.2) := .refl _
  exact caseVerdict_restyle (h _ (List.of_mem_zip hp).1) hexpected

theorem Deserves.restyle {verdict : Verdict} (h : Deserves selected language observed verdict)
    (hlines : ∀ o ∈ observed.cases, SameLines o.stdout (printed o))
    (hbounded : outputBytes (observed.restyle printed) ≤ 1024 * 1024) :
    Deserves selected language (observed.restyle printed) verdict := by
  obtain ⟨hadmitted, ⟨hfailed, hempty, hverdict⟩ | ⟨hcompiled, hfronts, hverdict⟩⟩ := h
  · refine ⟨hadmitted.restyle hbounded, .inl ⟨hfailed, ?_, hverdict⟩⟩
    rw [JudgeObservation.restyle, hempty]
    rfl
  · refine ⟨hadmitted.restyle hbounded, .inr ⟨hcompiled, hfronts.restyle, ?_⟩⟩
    rw [hverdict, firstVerdict, firstVerdict, caseVerdicts_restyle hlines]

section

variable (h : judge strip plan mode language (some observed) = .ok result)

include h

/-- An observation in another style gets the same verdict, if it is not too large. -/
theorem judge_restyle_observation (hlines : ∀ o ∈ observed.cases, SameLines o.stdout (printed o))
    (hbounded : outputBytes (observed.restyle printed) ≤ 1024 * 1024) :
    ∃ result', judge strip plan mode language (some (observed.restyle printed)) = .ok result' ∧
      result'.verdict = result.verdict := by
  obtain ⟨selected, hselect, h⟩ := Transaction.bind_eq_ok.1 h
  have hdeserves := judgeSelected_eq_ok_iff.1 ⟨result, h, rfl⟩
  rw [judge, hselect]
  exact judgeSelected_eq_ok_iff.2 (hdeserves.restyle hlines hbounded)

/-- What has got a verdict was not too large. -/
theorem judge_bounded : outputBytes observed ≤ 1024 * 1024 := by
  obtain ⟨selected, _, h⟩ := Transaction.bind_eq_ok.1 h
  exact (judgeSelected_eq_ok_iff.1 ⟨result, h, rfl⟩).1.bounded

/-- The verdicts on the cases of a run. -/
theorem caseResults_restyle {result' : WorkerResult}
    (h' : judge strip plan mode language (some (observed.restyle printed)) = .ok result')
    (hlines : ∀ o ∈ observed.cases, SameLines o.stdout (printed o)) :
    result'.publicCaseResults.map (List.map PublicCaseResult.verdict) =
      result.publicCaseResults.map (List.map PublicCaseResult.verdict) := by
  cases mode with
  | submit => rw [judge_submit_private h, judge_submit_private h']
  | run =>
      obtain ⟨selected, hselect, hresult⟩ := run_result h
      obtain ⟨selected', hselect', hresult'⟩ := run_result h'
      cases hselect.symm.trans hselect'
      obtain ⟨hfailed, _, rfl⟩ | ⟨hcompiled, results, _, hresults, _, hverdicts, _⟩ := hresult <;>
      obtain ⟨hfailed', _, rfl⟩ | ⟨hcompiled', results', _, hresults', _, hverdicts', _⟩ :=
        hresult'
      · rfl
      · exact absurd hfailed hcompiled'
      · exact absurd hfailed' hcompiled
      · rw [hresults, hresults', Option.map_some, Option.map_some, hverdicts, hverdicts',
          caseVerdicts_restyle hlines]

end

end Observation

/-- The comparison follows the law of line endings. A judgement is the same whatever
    the style of the expected outputs, and its verdicts whatever that of the outputs;
    an output in another style gets a verdict too unless it is too large by then. -/
theorem output_comparison (strip : String → String) (plan : JudgePlan) (mode : ExecutionMode)
    (language : Language) (observed : JudgeObservation) (expected : JudgeCase → String)
    (printed : ObservedCase → String)
    (hexpected : ∀ c ∈ plan.cases, SameLines c.expectedOutput (expected c))
    (hprinted : ∀ o ∈ observed.cases, SameLines o.stdout (printed o)) :
    Newlines.Law '\r' '\n' (fun a e => compareOutput (String.ofList a) (String.ofList e)) ∧
    (∀ input, judge strip (plan.restyle expected) mode language input
      = judge strip plan mode language input) ∧
    (∀ result, judge strip plan mode language (some observed) = .ok result →
      outputBytes (observed.restyle printed) ≤ 1024 * 1024 →
      ∃ result', judge strip (plan.restyle expected) mode language
        (some (observed.restyle printed)) = .ok result') ∧
    ∀ result result', judge strip plan mode language (some observed) = .ok result →
      judge strip (plan.restyle expected) mode language (some (observed.restyle printed))
        = .ok result' →
      result'.verdict = result.verdict ∧
      result'.publicCaseResults.map (List.map PublicCaseResult.verdict) =
        result.publicCaseResults.map (List.map PublicCaseResult.verdict) := by
  have hplan : ∀ input, judge strip (plan.restyle expected) mode language input
      = judge strip plan mode language input := fun _ => judge_restyle_plan hexpected
  refine ⟨compareOutput_law, hplan, fun result h hbounded => ?_, fun result result' h h' => ?_⟩
  · obtain ⟨result', h', _⟩ := judge_restyle_observation h hprinted hbounded
    exact ⟨result', (hplan _).trans h'⟩
  · rw [hplan] at h'
    obtain ⟨_, hother, hverdict⟩ := judge_restyle_observation h hprinted (judge_bounded h')
    cases h'.symm.trans hother
    exact ⟨hverdict, caseResults_restyle h h' hprinted⟩

/-- The sample program on a system that ends its lines in two characters. -/
theorem output_comparison_sample :
    ∃ result, judge (fun text => text) Sample.plan .submit .python
      (some (Sample.observation.restyle fun o => if o.stdout = "3\n" then "3\r\n" else "4\r\n"))
        = .ok result ∧ result.verdict = .accepted := by
  obtain ⟨result, hresult, haccepted⟩ : ∃ result, judge (fun text => text) Sample.plan .submit
      .python (some Sample.observation) = .ok result ∧ result.verdict = .accepted :=
    ⟨_, rfl, by decide +kernel⟩
  have hlines : ∀ a b : String, Newlines.normalize '\r' '\n' a.toList =
      Newlines.normalize '\r' '\n' b.toList → SameLines a b :=
    fun _ _ => (Newlines.normalize_eq_iff (by decide)).1
  obtain ⟨_, hplan, hexists, hsame⟩ := output_comparison (fun text => text) Sample.plan .submit
    .python Sample.observation JudgeCase.expectedOutput
    (fun o => if o.stdout = "3\n" then "3\r\n" else "4\r\n") (fun _ _ => .refl _)
    (fun o ho => hlines _ _ (by revert o ho; decide +kernel))
  obtain ⟨result', hresult'⟩ := hexists result hresult (by decide +kernel)
  exact ⟨result', (hplan _).symm.trans hresult', (hsame _ _ hresult hresult').1.trans haccepted⟩

end ArenaCore
