import Mathlib.Data.List.Sort
import ArenaCore.Store.JobStore

/-!
# The Judge

`packages/judge`: which cases of a plan are run, and the verdict on what the
sandbox observed. The observation comes from another process and is checked
before it is used; anything out of line is a protocol error rather than a
verdict. The cases are judged in order with a budget for the output that is
shown, and only a `RUN` result carries per-case results at all.

The judge reads a plan through `selectCases` only, which in `RUN` mode keeps
the public cases. Hidden cases therefore cannot influence the result of a run,
and a `SUBMIT` result says nothing but the verdict and two metrics.

## Main definitions

* `JudgePlan`, `selectCases`: The cases of a version and those that are run.
* `JudgeObservation`, `observationSchema`: What the sandbox reports.
* `compareOutput`, `display`: Comparing and showing output.
* `judgeCases`: The loop over the observed cases.
* `judge`: The result.

## Theorems

* `selectCases_run_eq`: A run sees the public cases only.
* `judge_run_eq`: Hidden cases do not influence the result of a run.
* `judge_submit_private`: A submission's result has no per-case part.
-/

namespace ArenaCore

variable {a b : List JudgeCase}

structure JudgeCase where
  id : String
  ordinal : Int
  visibility : Visibility
  input : String
  files : List (String × String) := []
  expectedOutput : String
deriving DecidableEq

structure JudgePlan where
  versionId : String
  comparator : String
  timeMs : Nat
  memoryKiB : Nat
  cases : List JudgeCase

inductive ObservedFailure where
  | timeLimitExceeded
  | memoryLimitExceeded
  | outputLimitExceeded
deriving DecidableEq, Repr

def ObservedFailure.verdict : ObservedFailure → Verdict
  | timeLimitExceeded => .timeLimitExceeded
  | memoryLimitExceeded => .memoryLimitExceeded
  | outputLimitExceeded => .outputLimitExceeded

/-- What the sandbox reports about one case. A wall time that is no finite
    number is `none`. -/
structure ObservedCase where
  caseId : String
  stdout : String
  stderr : String
  exitCode : Option Int := none
  failure : Option ObservedFailure := none
  wallMs : Option Rat
  cpuMs : Option Int := none
  memoryKiB : Option Int := none

structure Compilation where
  ok : Bool
  stdout : String
  stderr : String
deriving DecidableEq

structure JudgeObservation where
  cancellationConfirmed : Bool := false
  compilation : Option Compilation := none
  cases : List ObservedCase

/-- The exceptions of the judge. -/
inductive JudgeError where
  | protocol
  | sandboxCancelled
deriving DecidableEq, Repr

/-- One reported case: numbers in range, and both metrics or neither. -/
def observedCaseSchema (c : ObservedCase) : Bool :=
  isUuid c.caseId && c.exitCode.all (fun x => decide (0 ≤ x) && decide (x ≤ 255)) &&
    c.wallMs.any (fun w => decide (0 ≤ w)) && nonnegative c.cpuMs && nonnegative c.memoryKiB &&
    c.cpuMs.isNone == c.memoryKiB.isNone

def observationSchema (o : JudgeObservation) : Bool :=
  o.cases.all observedCaseSchema && decide (o.cases.length ≤ 100)

def byOrdinal (a b : JudgeCase) : Prop :=
  a.ordinal ≤ b.ordinal

instance : DecidableRel byOrdinal := fun a b =>
  inferInstanceAs (Decidable (a.ordinal ≤ b.ordinal))

/-- The shape a plan must have before any of its cases are run. -/
def planAccepted (plan : JudgePlan) : Bool :=
  plan.comparator == "EXACT_NEWLINE" && !plan.cases.isEmpty && decide (plan.cases.length ≤ 100) &&
    decide (plan.cases.map (·.id)).Nodup && decide (plan.cases.map (·.ordinal)).Nodup &&
    plan.cases.all fun c => isUuid c.id && decide (0 ≤ c.ordinal)

/-- The cases that are run, in order. -/
def selectCases (plan : JudgePlan) (mode : ExecutionMode) : Except JudgeError (List JudgeCase) :=
  if planAccepted plan = false then .error .protocol
  else
    let cases := (plan.cases.filter fun c =>
      decide (mode = .submit) || decide (c.visibility = .publicCase)).insertionSort byOrdinal
    if cases.isEmpty then .error .protocol else .ok cases

/-- `\r\n` becomes `\n`. -/
def normalizeNewlines : List Char → List Char
  | '\r' :: '\n' :: rest => '\n' :: normalizeNewlines rest
  | c :: rest => c :: normalizeNewlines rest
  | [] => []

/-- Equal up to line endings and one newline at the end. -/
def compareOutput (actual expected : String) : Bool :=
  let a := normalizeNewlines actual.toList
  let e := normalizeNewlines expected.toList
  a == e || a == e ++ ['\n'] || a ++ ['\n'] == e

/-- The longest front that fits into a number of bytes. -/
def takeBytes : Nat → List Char → List Char
  | _, [] => []
  | bytes, c :: rest =>
      if c.utf8Size ≤ bytes then c :: takeBytes (bytes - c.utf8Size) rest else []

/-- Output as it can be shown, by the same rules as `safeConsole`. -/
def sanitized (strip : String → String) (text : String) : String :=
  printable strip text

/-- Output as it is shown. -/
def display (strip : String → String) (text : String) (bytes : Nat) : String :=
  String.ofList (takeBytes bytes (sanitized strip text).toList)

/-- What the loop carries: the first verdict that is not `ACCEPTED`, the bytes
    left to show, and the results so far, newest first. -/
structure Judging where
  verdict : Verdict := .accepted
  budget : Nat := 24 * 1024
  results : List PublicCaseResult := []

/-- The verdict on one case. -/
def caseVerdict (o : ObservedCase) (test : JudgeCase) : Verdict :=
  match o.failure with
  | some failure => failure.verdict
  | none =>
      if o.exitCode ≠ some 0 then .runtimeError
      else if compareOutput o.stdout test.expectedOutput then .accepted else .wrongAnswer

/-- The per-case result of a run, and the budget it leaves. -/
def showCase (strip : String → String) (o : ObservedCase) (test : JudgeCase) (budget : Nat) :
    PublicCaseResult × Nat :=
  let stdout := display strip o.stdout (min 4096 budget)
  let budget := budget - byteLength stdout
  let stderr := display strip o.stderr (min 4096 budget)
  let outputTruncated := decide (byteLength stdout < byteLength (sanitized strip o.stdout)) ||
    decide (byteLength stderr < byteLength (sanitized strip o.stderr))
  ({ caseId := test.id, verdict := caseVerdict o test, stdout := some stdout,
     stderr := some stderr, outputTruncated := if outputTruncated then some true else none,
     exitCode := o.exitCode, runtimeMs := o.cpuMs,
     memoryKiB := if o.cpuMs.isSome then o.memoryKiB else none },
    budget - byteLength stderr)

/-- Judge the observed cases against the selected ones. A failure ends the
    observation, so it may stand at the end only. -/
def judgeCases (strip : String → String) (mode : ExecutionMode) :
    List (ObservedCase × JudgeCase) → Judging → Except JudgeError Judging
  | [], acc => .ok acc
  | (o, test) :: rest, acc =>
      if o.caseId ≠ test.id ∨ (o.failure = none ∧ o.exitCode = none) ∨
          (o.failure.isSome ∧ rest ≠ []) then .error .protocol
      else
        let current := caseVerdict o test
        let acc := { acc with
          verdict := if acc.verdict = .accepted ∧ current ≠ .accepted then current
            else acc.verdict }
        match mode with
        | .submit => judgeCases strip mode rest acc
        | .run =>
            let (result, budget) := showCase strip o test acc.budget
            judgeCases strip mode rest
              { acc with budget := budget, results := result :: acc.results }

/-- The largest of some numbers that are not negative. -/
def maxOf (ns : List Int) : Int :=
  ns.foldl max 0

/-- All bytes the program printed. -/
def outputBytes (o : JudgeObservation) : Nat :=
  (o.cases.map fun c => byteLength c.stdout + byteLength c.stderr).sum +
    match o.compilation with
    | none => 0
    | some c => byteLength c.stdout + byteLength c.stderr

/-- The judge after the cases are selected. -/
def judgeSelected (strip : String → String) (cases : List JudgeCase) (mode : ExecutionMode)
    (language : Language) (input : Option JudgeObservation) : Except JudgeError WorkerResult :=
  match input with
  | none => .error .protocol
  | some observed =>
      if observationSchema observed = false then .error .protocol
      else if 1024 * 1024 < outputBytes observed then .error .protocol
      else if observed.cancellationConfirmed then .error .sandboxCancelled
      else if (language = .java ∧ observed.compilation.isNone) ∨
          (language ≠ .java ∧ observed.compilation.isSome) then .error .protocol
      else if observed.compilation.any (fun c => !c.ok) then
        if observed.cases.isEmpty then .ok { verdict := .compilationError } else .error .protocol
      else if observed.cases.isEmpty ∨ cases.length < observed.cases.length then .error .protocol
      else if observed.cases.length ≠ cases.length ∧
          observed.cases.getLast?.any (fun c => c.failure.isNone) then .error .protocol
      else do
        let judged ← judgeCases strip mode (observed.cases.zip cases) {}
        let measured := observed.cases.all fun c => c.cpuMs.isSome && c.memoryKiB.isSome
        .ok
          { verdict := judged.verdict,
            runtimeMs := if measured then some (maxOf (observed.cases.filterMap (·.cpuMs))) else none,
            memoryKiB :=
              if measured then some (maxOf (observed.cases.filterMap (·.memoryKiB))) else none,
            publicCaseResults :=
              match mode with
              | .run => some judged.results.reverse
              | .submit => none }

/-- The result of an execution. An input that is not of the observation's
    shape is `none`. -/
def judge (strip : String → String) (plan : JudgePlan) (mode : ExecutionMode)
    (language : Language) (input : Option JudgeObservation) : Except JudgeError WorkerResult := do
  let cases ← selectCases plan mode
  judgeSelected strip cases mode language input

/-! ### What a result depends on -/

instance : Std.Total byOrdinal where
  total a b := Int.le_total a.ordinal b.ordinal

instance : IsTrans JudgeCase byOrdinal where
  trans _ _ _ hab hbc := Int.le_trans hab hbc

variable {plan : JudgePlan}

/-- The cases an accepted plan runs, and that their ordinals tell them apart. -/
theorem selectCases_eq_ok {mode : ExecutionMode} {cases : List JudgeCase}
    (h : selectCases plan mode = .ok cases) :
    (plan.cases.map (·.ordinal)).Nodup ∧ cases = (plan.cases.filter fun c =>
      decide (mode = .submit) || decide (c.visibility = .publicCase)).insertionSort byOrdinal := by
  unfold selectCases at h
  split at h
  · cases h
  rename_i haccepted
  simp only [planAccepted, Bool.not_eq_false, Bool.and_eq_true, decide_eq_true_eq] at haccepted
  simp only [] at h
  split at h
  · cases h
  · cases h
    exact ⟨haccepted.1.2, rfl⟩

variable {p q : JudgePlan}

/-- A run sees the public cases only, whatever their order in the plan. -/
theorem selectCases_run_eq
    (hpublic : (p.cases.filter fun c => decide (c.visibility = .publicCase)).Perm
      (q.cases.filter fun c => decide (c.visibility = .publicCase)))
    (hp : selectCases p .run = .ok a) (hq : selectCases q .run = .ok b) : a = b := by
  rcases selectCases_eq_ok hp with ⟨hordinals, ha⟩
  rcases selectCases_eq_ok hq with ⟨_, hb⟩
  simp only [reduceCtorEq, decide_false, Bool.false_or] at ha hb
  have hperm : a.Perm b := by
    rw [ha, hb]
    exact (List.perm_insertionSort byOrdinal _).trans
      (hpublic.trans (List.perm_insertionSort byOrdinal _).symm)
  have hplan : ∀ c ∈ a, c ∈ p.cases := by
    intro c hc
    rw [ha, List.mem_insertionSort] at hc
    exact (List.mem_filter.mp hc).1
  -- both are sorted, and no two cases of a plan have the same ordinal
  refine hperm.eq_of_pairwise (fun c c' hc hc' hle hle' => ?_)
    (ha ▸ List.pairwise_insertionSort byOrdinal _) (hb ▸ List.pairwise_insertionSort byOrdinal _)
  exact List.inj_on_of_nodup_map hordinals (hplan c hc) (hplan c' (hperm.mem_iff.mpr hc'))
    (Int.le_antisymm hle hle')

/-- Hidden cases do not influence the result of a run. -/
theorem judge_run_eq (strip : String → String)
    (hpublic : (p.cases.filter fun c => decide (c.visibility = .publicCase)).Perm
      (q.cases.filter fun c => decide (c.visibility = .publicCase)))
    (hp : selectCases p .run = .ok a) (hq : selectCases q .run = .ok b) (language : Language)
    (input : Option JudgeObservation) :
    judge strip p .run language input = judge strip q .run language input := by
  unfold judge
  rw [hp, hq, selectCases_run_eq hpublic hp hq]

/-- A submission's result has no per-case part. -/
theorem judge_submit_private {strip : String → String} {language : Language}
    {input : Option JudgeObservation} {result : WorkerResult}
    (h : judge strip plan .submit language input = .ok result) :
    result.publicCaseResults = none := by
  rcases Transaction.bind_eq_ok.mp h with ⟨cases, _, h⟩
  unfold judgeSelected at h
  -- a missing, malformed, oversized or cancelled observation is an exception
  iterate 5
    split at h
    · cases h
  split at h
  · split at h
    · cases h
      rfl
    · cases h
  iterate 2
    split at h
    · cases h
  rcases Transaction.bind_eq_ok.mp h with ⟨judged, _, hresult⟩
  cases hresult
  rfl

end ArenaCore
