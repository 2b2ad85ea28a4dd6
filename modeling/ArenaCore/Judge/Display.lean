import ArenaCore.Judge.Verdicts

/-!
# What Is Shown of the Output

A run shows the output of its cases, cut to four KiB a stream and to 24 KiB in
all. The cases share one budget: each stream is cut to what is left, standard
output before standard error, and takes what it shows from the budget.

`LongestFront` says what the cut is, and `Displayed` follows the budget through the
cases. A budget is split into what is shown and what is left at every stream, so it
cannot fall below zero. Verdicts are given on the output as it was captured.

## Main definitions

* `LongestFront`: The longest front within a number of bytes.
* `Displayed`: The results of some cases, from a budget to the one they leave.

## Theorems

* `takeBytes_longest`: The greedy cut is the longest.
* `judgeCases_displayed`: The loop shows its cases.
* `public_output_cut`: The results of a run.
-/

namespace ArenaCore

variable {strip : String → String} {bytes budget left : Nat} {os : List ObservedCase}
  {rs : List PublicCaseResult} {language : Language} {result : WorkerResult}

/-! ### One stream -/

/-- A front of the text, in whole characters, that fits and contains every other
    front that does. -/
structure LongestFront (text : String) (bytes : Nat) (shown : String) : Prop where
  front : shown.toList <+: text.toList
  fits : byteLength shown ≤ bytes
  longest : ∀ other : String, other.toList <+: text.toList → byteLength other ≤ bytes →
    other.toList <+: shown.toList

def charBytes (cs : List Char) : Nat :=
  (cs.map Char.utf8Size).sum

theorem byteLength_eq_charBytes (s : String) : byteLength s = charBytes s.toList := by
  rw [charBytes, ← byteLength_ofList, String.ofList_toList]

theorem takeBytes_isFront (bytes : Nat) (cs : List Char) : takeBytes bytes cs <+: cs := by
  induction cs generalizing bytes with
  | nil => exact List.prefix_refl _
  | cons c rest ih =>
      rw [takeBytes]
      split
      · exact (List.prefix_cons_inj c).2 (ih _)
      · exact List.nil_prefix

theorem takeBytes_fits (bytes : Nat) (cs : List Char) : charBytes (takeBytes bytes cs) ≤ bytes := by
  induction cs generalizing bytes with
  | nil => exact Nat.zero_le _
  | cons c rest ih =>
      rw [takeBytes]
      split
      · next hfits =>
          have hrest := ih (bytes - c.utf8Size)
          rw [charBytes, List.map_cons, List.sum_cons]
          unfold charBytes at hrest
          omega
      · exact Nat.zero_le _

/-- The cut is greedy: it stops at the first character that does not fit, and no
    longer front can go past that character. -/
theorem takeBytes_longest {cs other : List Char} (hfront : other <+: cs)
    (hfits : charBytes other ≤ bytes) : other <+: takeBytes bytes cs := by
  induction cs generalizing bytes other with
  | nil => exact hfront
  | cons c rest ih =>
      cases other with
      | nil => exact List.nil_prefix
      | cons c' other =>
          obtain ⟨rfl, hrest⟩ := List.cons_prefix_cons.1 hfront
          rw [charBytes, List.map_cons, List.sum_cons] at hfits
          rw [takeBytes, if_pos (by omega)]
          refine (List.prefix_cons_inj c').2 (ih hrest ?_)
          rw [charBytes]
          omega

theorem display_longestFront (strip : String → String) (text : String) (bytes : Nat) :
    LongestFront (sanitized strip text) bytes (display strip text bytes) where
  front := by
    rw [display, String.toList_ofList]
    exact takeBytes_isFront _ _
  fits := by
    rw [display, byteLength_eq_charBytes, String.toList_ofList]
    exact takeBytes_fits _ _
  longest other hfront hfits := by
    rw [display, String.toList_ofList]
    exact takeBytes_longest hfront (byteLength_eq_charBytes other ▸ hfits)

/-- A front that is as long as the text is the text. -/
theorem LongestFront.lt_iff {text shown : String} (h : LongestFront text bytes shown) :
    byteLength shown < byteLength text ↔ shown ≠ text := by
  obtain ⟨rest, hrest⟩ := h.front
  have hsum : byteLength text = byteLength shown + charBytes rest := by
    rw [byteLength_eq_charBytes, byteLength_eq_charBytes, ← hrest, charBytes, List.map_append,
      List.sum_append]
    rfl
  constructor
  · rintro hlt rfl
    exact absurd hlt (Nat.lt_irrefl _)
  · intro hne
    cases rest with
    | nil =>
        rw [List.append_nil] at hrest
        exact absurd (String.toList_inj.1 hrest) hne
    | cons c rest =>
        have hc := c.utf8Size_pos
        rw [charBytes, List.map_cons, List.sum_cons] at hsum
        omega

/-! ### All streams -/

/-- The results show the output of the cases. Each stream is the longest front
    within four KiB and what is left of the budget. -/
inductive Displayed (strip : String → String) :
    Nat → List ObservedCase → List PublicCaseResult → Nat → Prop
  | nil (budget : Nat) : Displayed strip budget [] [] budget
  | cons {budget afterStdout afterStderr left : Nat} {o : ObservedCase} {r : PublicCaseResult}
      {os : List ObservedCase} {rs : List PublicCaseResult} (stdout stderr : String)
      (showsStdout : r.stdout = some stdout) (showsStderr : r.stderr = some stderr)
      (stdoutCut : LongestFront (sanitized strip o.stdout) (min 4096 budget) stdout)
      (stdoutPaid : budget = byteLength stdout + afterStdout)
      (stderrCut : LongestFront (sanitized strip o.stderr) (min 4096 afterStdout) stderr)
      (stderrPaid : afterStdout = byteLength stderr + afterStderr)
      (truncated : r.outputTruncated =
        if stdout ≠ sanitized strip o.stdout ∨ stderr ≠ sanitized strip o.stderr then some true
        else none)
      (rest : Displayed strip afterStderr os rs left) :
      Displayed strip budget (o :: os) (r :: rs) left

/-- The bytes that some results show. -/
def shownBytes (results : List PublicCaseResult) : Nat :=
  (results.map fun r => byteLength (r.stdout.getD "") + byteLength (r.stderr.getD "")).sum

theorem Displayed.shown_add_left (h : Displayed strip budget os rs left) :
    shownBytes rs + left = budget := by
  induction h with
  | nil budget => exact Nat.zero_add budget
  | cons stdout stderr showsStdout showsStderr _ stdoutPaid _ stderrPaid _ _ ih =>
      rw [shownBytes, List.map_cons, List.sum_cons, showsStdout, showsStderr, Option.getD_some,
        Option.getD_some]
      unfold shownBytes at ih
      omega

theorem showCase_displayed {o : ObservedCase} {test : JudgeCase}
    (h : Displayed strip (showCase strip o test budget).2 os rs left) :
    Displayed strip budget (o :: os) ((showCase strip o test budget).1 :: rs) left := by
  have hstdout := display_longestFront strip o.stdout (min 4096 budget)
  have hstderr := display_longestFront strip o.stderr
    (min 4096 (budget - byteLength (display strip o.stdout (min 4096 budget))))
  have hout := hstdout.fits
  have herr := hstderr.fits
  have hbudget : (showCase strip o test budget).2 = budget -
      byteLength (display strip o.stdout (min 4096 budget)) - byteLength (display strip o.stderr
        (min 4096 (budget - byteLength (display strip o.stdout (min 4096 budget))))) := rfl
  refine .cons _ _ rfl rfl hstdout (Nat.add_sub_cancel' (by omega)).symm hstderr ?_ ?_ h
  · omega
  · simp only [showCase, Bool.or_eq_true, decide_eq_true_eq, hstdout.lt_iff, hstderr.lt_iff]

/-- The loop of a run shows its cases and gives each the verdict on its captured
    output. -/
theorem judgeCases_displayed {pairs : List (ObservedCase × JudgeCase)} {acc judged : Judging}
    (h : judgeCases strip .run pairs acc = .ok judged) :
    ∃ results, judged.results = results.reverse ++ acc.results ∧
      Displayed strip acc.budget (pairs.map Prod.fst) results judged.budget ∧
      results.map PublicCaseResult.verdict = pairs.map fun p => caseVerdict p.1 p.2 := by
  induction pairs generalizing acc with
  | nil =>
      cases h
      exact ⟨[], rfl, .nil _, rfl⟩
  | cons pair rest ih =>
      obtain ⟨o, test⟩ := pair
      rw [judgeCases] at h
      split at h
      · cases h
      · obtain ⟨results, hresults, hdisplayed, hverdicts⟩ := ih h
        refine ⟨(showCase strip o test acc.budget).1 :: results, ?_,
          showCase_displayed hdisplayed, ?_⟩
        · rw [hresults, List.reverse_cons, List.append_assoc]
          rfl
        · rw [List.map_cons, List.map_cons, hverdicts]
          rfl

/-! ### The judge -/

/-- Where a result comes from: a compilation that has failed, or the loop. -/
theorem judgeSelected_result {selected : List JudgeCase} {mode : ExecutionMode}
    {input : Option JudgeObservation}
    (h : judgeSelected strip selected mode language input = .ok result) :
    ∃ observed, input = some observed ∧
      ((CompilationFailed observed ∧ observed.cases = [] ∧
          result = { verdict := .compilationError }) ∨
        (¬ CompilationFailed observed ∧ observed.cases.length ≤ selected.length ∧
          ∃ judged, judgeCases strip mode (observed.cases.zip selected) {} = .ok judged ∧
          result.verdict = judged.verdict ∧
          (mode = .run → result.publicCaseResults = some judged.results.reverse))) := by
  obtain ⟨observed, rfl, _⟩ := deserves_of_ok h
  refine ⟨observed, rfl, ?_⟩
  rw [compilationFailed_iff]
  rw [judgeSelected] at h
  -- a malformed, oversized, cancelled or inconsistent observation is an exception
  iterate 4
    split at h
    · cases h
  split at h
  · next hfailed =>
      split at h
      · next hempty =>
          cases h
          exact .inl ⟨hfailed, List.isEmpty_iff.1 hempty, rfl⟩
      · cases h
  next hcompiled =>
  split at h
  · cases h
  next hlength =>
  split at h
  · cases h
  obtain ⟨judged, hjudged, hresult⟩ := Transaction.bind_eq_ok.1 h
  cases hresult
  rw [not_or, not_lt] at hlength
  refine .inr ⟨hcompiled, hlength.2, judged, hjudged, rfl, ?_⟩
  rintro rfl
  rfl

/-- What the results of a run say. -/
theorem run_result {plan : JudgePlan} {observed : JudgeObservation}
    (h : judge strip plan .run language (some observed) = .ok result) :
    ∃ selected, selectCases plan .run = .ok selected ∧
      ((CompilationFailed observed ∧ observed.cases = [] ∧
          result = { verdict := .compilationError }) ∨
        (¬ CompilationFailed observed ∧ ∃ results left,
          result.publicCaseResults = some results ∧
          Displayed strip (24 * 1024) observed.cases results left ∧
          results.map PublicCaseResult.verdict =
            (observed.cases.zip selected).map (fun p => caseVerdict p.1 p.2) ∧
          result.verdict = firstVerdict (observed.cases.zip selected))) := by
  obtain ⟨selected, hselect, h⟩ := Transaction.bind_eq_ok.1 h
  refine ⟨selected, hselect, ?_⟩
  obtain ⟨_, heq, hfailed | ⟨hcompiled, hlength, judged, hjudged, hverdict, hresults⟩⟩ :=
    judgeSelected_result h
  · cases heq
    exact .inl hfailed
  · cases heq
    obtain ⟨results, hreverse, hdisplayed, hverdicts⟩ := judgeCases_displayed hjudged
    refine .inr ⟨hcompiled, results, judged.budget, ?_, ?_, hverdicts, ?_⟩
    · rw [hresults rfl, hreverse, List.append_nil, List.reverse_reverse]
    · rwa [List.map_fst_zip hlength] at hdisplayed
    · rw [hverdict, judgeCases_verdict hjudged]
      rfl

/-- The results of a run show the output of its cases, and its verdicts are those on
    the output as it was captured. -/
theorem public_output_cut (strip : String → String) (plan : JudgePlan) (language : Language)
    (observed : JudgeObservation) (result : WorkerResult)
    (h : judge strip plan .run language (some observed) = .ok result) :
    ((CompilationFailed observed ∧ observed.cases = [] ∧ result.publicCaseResults = none) ∨
      ∃ selected results left, selectCases plan .run = .ok selected ∧
        result.publicCaseResults = some results ∧
        Displayed strip (24 * 1024) observed.cases results left ∧
        shownBytes results + left = 24 * 1024 ∧
        results.map PublicCaseResult.verdict =
          (observed.cases.zip selected).map (fun p => caseVerdict p.1 p.2) ∧
        result.verdict = firstVerdict (observed.cases.zip selected)) ∧
    ∀ strip' result', judge strip' plan .run language (some observed) = .ok result' →
      result'.verdict = result.verdict ∧
      result'.publicCaseResults.map (List.map PublicCaseResult.verdict) =
        result.publicCaseResults.map (List.map PublicCaseResult.verdict) := by
  obtain ⟨selected, hselect, hresult⟩ := run_result h
  refine ⟨?_, fun strip' result' h' => ?_⟩
  · obtain ⟨hfailed, hempty, rfl⟩ | ⟨_, results, left, hresults, hdisplayed, hverdicts, hverdict⟩ :=
      hresult
    · exact .inl ⟨hfailed, hempty, rfl⟩
    · exact .inr ⟨selected, results, left, hselect, hresults, hdisplayed,
        hdisplayed.shown_add_left, hverdicts, hverdict⟩
  · -- another way to clean the output sees the same cases
    obtain ⟨selected', hselect', hresult'⟩ := run_result h'
    cases hselect.symm.trans hselect'
    obtain ⟨hfailed, _, rfl⟩ | ⟨hcompiled, results, _, hresults, _, hverdicts, hverdict⟩ :=
      hresult <;>
    obtain ⟨hfailed', _, rfl⟩ | ⟨hcompiled', results', _, hresults', _, hverdicts', hverdict'⟩ :=
      hresult'
    · exact ⟨rfl, rfl⟩
    · exact absurd hfailed hcompiled'
    · exact absurd hfailed' hcompiled
    · rw [hverdict, hverdict', hresults, hresults', Option.map_some, Option.map_some, hverdicts,
        hverdicts']
      exact ⟨rfl, rfl⟩

/-- A case that prints more than is shown of a stream. -/
theorem Displayed.cut {o : ObservedCase} (h : Displayed strip budget [o] rs left)
    (hlarge : 4096 < byteLength (sanitized strip o.stdout)) :
    rs.map PublicCaseResult.outputTruncated = [some true] := by
  cases h with
  | cons stdout stderr _ _ stdoutCut _ _ _ truncated rest =>
      cases rest
      have hcut : stdout ≠ sanitized strip o.stdout := by
        intro heq
        have hfits := stdoutCut.fits
        rw [heq] at hfits
        omega
      rw [List.map_singleton, truncated, if_pos (.inl hcut)]

namespace Sample

/-- The output of a loop. -/
def flood (n : Nat) : String :=
  String.ofList (List.replicate n 'x')

theorem byteLength_flood (n : Nat) : byteLength (flood n) = n := by
  rw [flood, byteLength_ofList, List.map_replicate, List.sum_replicate_nat]
  exact Nat.mul_one n

theorem sanitized_flood (n : Nat) : sanitized id (flood n) = flood n := by
  rw [sanitized, printable, flood, id, String.toList_ofList, List.filter_replicate]
  rfl

/-- The public case alone, as a run observes it. -/
def runObservation (stdout : String) : JudgeObservation where
  cases := [printed publicCase stdout]

/-- Whatever it prints, up to a MiB, is judged. -/
theorem judge_runObservation (strip : String → String) {text : String}
    (h : byteLength text ≤ 1024 * 1024) :
    ∃ result, judge strip plan .run .python (some (runObservation text)) = .ok result := by
  have hschema : observationSchema (runObservation text) = true :=
    (by decide +kernel : observationSchema (runObservation "") = true)
  have hsmall : ¬ 1024 * 1024 < outputBytes (runObservation text) := by
    have hempty : byteLength "" = 0 := by decide
    change ¬ 1024 * 1024 < byteLength text + byteLength "" + 0 + 0
    omega
  change ∃ result, judgeSelected strip _ .run .python (some (runObservation text)) = .ok result
  simp only [judgeSelected]
  rw [if_neg (by rw [hschema]; decide), if_neg hsmall]
  exact ⟨_, rfl⟩

end Sample

/-- Output of more than four KiB is cut, and the result says so. -/
theorem public_output_cut_sample :
    ∃ result results left, judge id Sample.plan .run .python
        (some (Sample.runObservation (Sample.flood 5000))) = .ok result ∧
      result.publicCaseResults = some results ∧
      Displayed id (24 * 1024) (Sample.runObservation (Sample.flood 5000)).cases results left ∧
      results.map PublicCaseResult.outputTruncated = [some true] := by
  obtain ⟨result, hresult⟩ := Sample.judge_runObservation id
    (by rw [Sample.byteLength_flood 5000]; decide)
  obtain ⟨_, hempty, _⟩ | ⟨_, results, left, _, hresults, hdisplayed, _⟩ :=
    (public_output_cut _ _ _ _ _ hresult).1
  · cases hempty
  · have hlarge : 4096 < byteLength (sanitized id (Sample.flood 5000)) := by
      rw [Sample.sanitized_flood, Sample.byteLength_flood]
      decide
    exact ⟨result, results, left, hresult, hresults, hdisplayed, hdisplayed.cut hlarge⟩

end ArenaCore
