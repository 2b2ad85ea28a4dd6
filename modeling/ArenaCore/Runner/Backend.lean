import Mathlib.Data.List.Sort
import ArenaCore.Judge
import ArenaCore.Problems.Tables

/-!
# The Judging Backend

`apps/runner/src/judging-backend.ts`: a plan is loaded from a published
version, its cases are selected, and a sandbox request is built from them and
checked. What the sandbox returns goes to the judge.

The database sorts names by a collation of its own, which is a parameter.

## Main definitions

* `loadJudgePlan`: The plan of a published version.
* `ExecutionContext`: What the backend is told about an execution.
* `sandboxRequest`: The request built from a plan.
* `JudgingBackend.prepare`: Everything up to the call of the sandbox.
-/

namespace ArenaCore

/-- A row of a case with its files, as the query returns it. -/
def TestRow.toJudgeCase (nameLe : String → String → Bool) (s : ProblemTables) (t : TestRow) :
    JudgeCase where
  id := t.id.text
  ordinal := t.ordinal
  visibility := t.visibility
  input := t.input
  files := ((s.files.filter fun f => decide (f.testCaseId = t.id)).insertionSort
    fun f g => nameLe f.name g.name = true).map fun f => (f.name, f.content)
  expectedOutput := t.expectedOutput

/-- The cases of a version that a mode asks for. -/
def planTests (s : ProblemTables) (versionId : Uuid) (mode : ExecutionMode) : List TestRow :=
  (s.tests.filter fun t => decide (t.problemVersionId = versionId) &&
    (decide (mode = .submit) || decide (t.visibility = .publicCase))).insertionSort
    fun t u => t.ordinal ≤ u.ordinal

/-- The plan of a published version. Limits are positive in the table. -/
def loadJudgePlan (nameLe : String → String → Bool) (s : ProblemTables) (versionId : Uuid)
    (mode : ExecutionMode) : Except Error JudgePlan :=
  match s.versions.find? fun v => decide (v.id = versionId) && v.published with
  | none => .error (.thrown "JUDGE_PLAN_UNAVAILABLE")
  | some version =>
      if version.comparator ≠ "EXACT_NEWLINE" then .error (.thrown "JUDGE_PLAN_UNAVAILABLE")
      else .ok
        { versionId := version.id.text
          comparator := version.comparator
          timeMs := version.timeMs.toNat
          memoryKiB := version.memoryKiB.toNat
          cases := (planTests s versionId mode).map (TestRow.toJudgeCase nameLe s) }

/-- What the backend is told about an execution. -/
structure ExecutionContext where
  id : Uuid
  attempt : Int
  problemVersionId : Uuid
  language : Language
  mode : ExecutionMode
  sourceCode : String

def sandboxRequest (e : ExecutionContext) (plan : JudgePlan) (selected : List JudgeCase) :
    SandboxRequest where
  executionId := e.id.text
  attempt := e.attempt
  language := e.language
  sourceCode := e.sourceCode
  cases := selected.map fun c => ⟨c.id, c.input, c.files⟩
  timeMs := plan.timeMs
  memoryMiB := (plan.memoryKiB : Rat) / 1024

namespace JudgingBackend

/-- The request for an execution, or why there is none. -/
def prepare (e : ExecutionContext) (plan : JudgePlan) : Except Error AcceptedRequest :=
  if plan.versionId ≠ e.problemVersionId.text then .error (.thrown "JUDGE_VERSION_MISMATCH")
  else
    match selectCases plan e.mode with
    | .error _ => .error (.thrown "INVALID_JUDGE_PROTOCOL")
    | .ok selected =>
        if h : sandboxRequestSchema (sandboxRequest e plan selected) = true then .ok ⟨_, h⟩
        else .error .schema

end JudgingBackend

end ArenaCore
