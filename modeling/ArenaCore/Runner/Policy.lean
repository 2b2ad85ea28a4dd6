import Mathlib.Data.Rat.Defs
import ArenaCore.Contracts

/-!
# The Runtime Policy

The limits of the sandbox and `sandboxRequestSchema`, which every request has
to pass before a container is created for it. Memory is asked for in whole
mebibytes, but callers compute it by a division, so the field is a rational
number that the schema requires to be an integer.

## Main definitions

* `Caps`: The limits, as in `CAPS`.
* `inputFileNameSchema`: The names an input file may have.
* `SandboxCase`, `SandboxRequest`: A request before it is checked.
* `sandboxRequestSchema`: The check.
* `AcceptedRequest`: A request that has passed it.

## Theorems

* `AcceptedRequest.tests`, `AcceptedRequest.source`, `AcceptedRequest.count`: What
  such a request is known to satisfy.
-/

namespace ArenaCore

/-! ### Limits -/

namespace Caps

def sourceBytes : Nat := maxSourceBytes
def outputBytes : Nat := 256 * 1024
def artifactBytes : Nat := 8 * 1024 * 1024
def artifactFiles : Nat := 256
def inputBytes : Nat := 256 * 1024
def inputFiles : Nat := 16
def maxCases : Nat := 100
def pids : Nat := 64
def compileMs : Nat := 15000
def totalMs : Nat := 30000
def caseMs : Nat := 10000
def compileMemoryMiB : Nat := 512
def maxMemoryMiB : Nat := 1024
def maxFileBytes : Nat := 8 * 1024 * 1024

/-- The bytes all inputs of a request may have together. -/
def inputBudget : Nat := 1024 * 1024

end Caps

/-! ### File names -/

def isAlphanumeric (c : Char) : Bool :=
  ('A' ≤ c && c ≤ 'Z') || ('a' ≤ c && c ≤ 'z') || ('0' ≤ c && c ≤ '9')

/-- The pattern `^[A-Za-z0-9][A-Za-z0-9._-]*$`. -/
def isPlainFileName : List Char → Bool
  | [] => false
  | first :: rest =>
      isAlphanumeric first &&
        rest.all fun c => isAlphanumeric c || c == '.' || c == '_' || c == '-'

/-- The names the sandbox uses itself. -/
def reservedFileNames : List String :=
  ["Solution.java", "Solution.class", "solution.py", "solution.js"]

/-- The text ends in `.class`. -/
def endsWithClass (name : String) : Bool :=
  ".class".toList.isSuffixOf name.toList

/-- Plain names of up to a hundred characters that nothing else uses. The rule
    is written out twice in the source, for authors and for the sandbox. -/
def isInputFileName (name : String) : Bool :=
  hasLength 1 100 name && isPlainFileName name.toList && !reservedFileNames.contains name &&
    !endsWithClass name

def inputFileNameSchema (name : String) : Bool :=
  isInputFileName name

/-! ### Requests -/

structure SandboxCase where
  id : String
  input : String
  files : List (String × String)
deriving DecidableEq

structure SandboxRequest where
  executionId : String
  attempt : Int
  language : Language
  sourceCode : String
  cases : List SandboxCase
  timeMs : Int
  memoryMiB : Rat
deriving DecidableEq

/-- The bytes a case brings in. -/
def SandboxCase.bytes (test : SandboxCase) : Nat :=
  byteLength test.input + (test.files.map fun file => byteLength file.2).sum

def sandboxFileSchema (file : String × String) : Bool :=
  inputFileNameSchema file.1 && decide (byteLength file.2 ≤ Caps.inputBytes)

def sandboxCaseSchema (test : SandboxCase) : Bool :=
  isUuid test.id && decide (byteLength test.input ≤ Caps.inputBytes) &&
    decide (test.files.length ≤ Caps.inputFiles) && test.files.all sandboxFileSchema &&
    decide (test.files.map Prod.fst).Nodup

def sandboxRequestSchema (r : SandboxRequest) : Bool :=
  isUuid r.executionId && isSafeInteger r.attempt && decide (0 < r.attempt) &&
    decide (0 < byteLength r.sourceCode) && decide (byteLength r.sourceCode ≤ Caps.sourceBytes) &&
    decide (1 ≤ r.cases.length) && decide (r.cases.length ≤ Caps.maxCases) &&
    r.cases.all sandboxCaseSchema &&
    decide (1 ≤ r.timeMs) && decide (r.timeMs ≤ Caps.caseMs) &&
    decide (r.memoryMiB.den = 1) && decide (32 ≤ r.memoryMiB) &&
    decide (r.memoryMiB ≤ Caps.maxMemoryMiB) &&
    decide (r.cases.map SandboxCase.id).Nodup &&
    decide ((r.cases.map SandboxCase.bytes).sum ≤ Caps.inputBudget)

/-- A request the schema has accepted. -/
structure AcceptedRequest extends SandboxRequest where
  accepted : sandboxRequestSchema toSandboxRequest = true

theorem AcceptedRequest.tests (request : AcceptedRequest) :
    ∀ test ∈ request.cases, sandboxCaseSchema test = true := by
  have h := request.accepted
  simp only [sandboxRequestSchema, Bool.and_eq_true, decide_eq_true_eq] at h
  exact List.all_eq_true.1 h.1.1.1.1.1.1.1.2

theorem AcceptedRequest.source (request : AcceptedRequest) :
    byteLength request.sourceCode ≤ Caps.sourceBytes := by
  have h := request.accepted
  simp only [sandboxRequestSchema, Bool.and_eq_true, decide_eq_true_eq] at h
  exact h.1.1.1.1.1.1.1.1.1.1.2

theorem AcceptedRequest.count (request : AcceptedRequest) :
    request.cases.length ≤ Caps.maxCases := by
  have h := request.accepted
  simp only [sandboxRequestSchema, Bool.and_eq_true, decide_eq_true_eq] at h
  exact h.1.1.1.1.1.1.1.1.2

end ArenaCore
