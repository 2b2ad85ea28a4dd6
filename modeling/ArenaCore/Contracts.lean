import ArenaCore.Lib.Json

/-!
# Contracts

The vocabulary every component shares: the lifecycle states and their graph,
verdicts and failure codes, the public event stream, and the request a learner
submits. It follows `packages/contracts`.

Identifiers come in two forms. A `Uuid` is what a PostgreSQL `uuid` column
holds, one value per identifier, printed in lower case. A caller's text is
only checked against the shape `z.uuid()` accepts, which admits upper case as
well; `Uuid.ofText?` is the cast the database applies to such a text. The two
are kept apart because some comparisons of the program are made on texts and
some on column values.

Times are milliseconds since the epoch throughout, the resolution of a
`TIMESTAMP(3)` column.

The events of an execution form a discriminated union. `EventFields` holds
what a caller chooses, `PublicExecutionEvent` adds the identity the store
stamps on it.

## Main definitions

* `ExecutionState`, `transitions`, `isTerminal`, `canTransition`: The lifecycle.
* `Uuid`, `isUuid`, `Uuid.ofText?`: Identifiers and their texts.
* `PublicExecutionEvent`, `publicExecutionEventSchema`: The event stream.
* `CreateExecution`: A submitted request, with the limits it was checked for.

## Theorems

* `Uuid.ofText?_text`: The cast undoes printing.
* `canonical_of_isUuid`: The schema accepts only what can be cast.
-/

namespace ArenaCore

variable {c : Char}

inductive Language where
  | java
  | python
  | javascript
deriving DecidableEq, Repr

inductive ExecutionMode where
  | run
  | submit
deriving DecidableEq, Repr

inductive ExecutionState where
  | queued
  | compiling
  | running
  | finished
  | cancelled
  | internalError
deriving DecidableEq, Repr

inductive Verdict where
  | accepted
  | wrongAnswer
  | compilationError
  | runtimeError
  | timeLimitExceeded
  | memoryLimitExceeded
  | outputLimitExceeded
  | cancelled
  | internalError
deriving DecidableEq, Repr

inductive ExecutionFailureCode where
  | queueTimeout
  | jobFailure
  | leaseExpired
  | jobTimeout
  | cancellationTimeout
deriving DecidableEq, Repr

namespace ExecutionState

def text : ExecutionState → String
  | queued => "QUEUED"
  | compiling => "COMPILING"
  | running => "RUNNING"
  | finished => "FINISHED"
  | cancelled => "CANCELLED"
  | internalError => "INTERNAL_ERROR"

end ExecutionState

namespace Verdict

def text : Verdict → String
  | accepted => "ACCEPTED"
  | wrongAnswer => "WRONG_ANSWER"
  | compilationError => "COMPILATION_ERROR"
  | runtimeError => "RUNTIME_ERROR"
  | timeLimitExceeded => "TIME_LIMIT_EXCEEDED"
  | memoryLimitExceeded => "MEMORY_LIMIT_EXCEEDED"
  | outputLimitExceeded => "OUTPUT_LIMIT_EXCEEDED"
  | cancelled => "CANCELLED"
  | internalError => "INTERNAL_ERROR"

/-- A verdict a worker may report: `verdictSchema.exclude([...])` leaves out
    the two outcomes that belong to the infrastructure. -/
def learner : Verdict → Bool
  | cancelled => false
  | internalError => false
  | _ => true

end Verdict

namespace ExecutionFailureCode

def text : ExecutionFailureCode → String
  | queueTimeout => "QUEUE_TIMEOUT"
  | jobFailure => "JOB_FAILURE"
  | leaseExpired => "LEASE_EXPIRED"
  | jobTimeout => "JOB_TIMEOUT"
  | cancellationTimeout => "CANCELLATION_TIMEOUT"

end ExecutionFailureCode

open ExecutionState in
/-- The edges of the lifecycle graph. -/
def transitions : ExecutionState → List ExecutionState
  | queued => [compiling, cancelled, internalError]
  | compiling => [running, finished, cancelled, internalError]
  | running => [finished, cancelled, internalError]
  | finished => []
  | cancelled => []
  | internalError => []

/-- The states that count against an owner's and the global capacity. -/
def activeStates : List ExecutionState :=
  [.queued, .compiling, .running]

/-- A state without outgoing edges. -/
def isTerminal (state : ExecutionState) : Bool :=
  (transitions state).length == 0

def canTransition (source target : ExecutionState) : Bool :=
  (transitions source).contains target

theorem isTerminal_iff (state : ExecutionState) :
    isTerminal state = true ↔
      state = .finished ∨ state = .cancelled ∨ state = .internalError := by
  cases state <;> decide

theorem not_isTerminal_iff (state : ExecutionState) :
    isTerminal state = false ↔ state = .queued ∨ state = .compiling ∨ state = .running := by
  cases state <;> decide

/-! ### Identifiers -/

/-- A lower-case hexadecimal digit. -/
def isHexLower (c : Char) : Bool :=
  ('0' ≤ c && c ≤ '9') || ('a' ≤ c && c ≤ 'f')

/-- A hexadecimal digit in either case. -/
def isHex (c : Char) : Bool :=
  isHexLower c || ('A' ≤ c && c ≤ 'F')

/-- Thirty-six characters with hyphens after digits 8, 12, 16 and 20, and
    digits of the given kind everywhere else. -/
def uuidShape (digit : Char → Bool) (cs : List Char) : Bool :=
  cs.length == 36 &&
    cs.zipIdx.all fun (c, i) =>
      if i == 8 || i == 13 || i == 18 || i == 23 then c == '-' else digit c

/-- The value of a `uuid` column, known by the text PostgreSQL prints. -/
structure Uuid where
  text : String
  canonical : uuidShape isHexLower text.toList = true
deriving DecidableEq

theorem Uuid.length_text (u : Uuid) : u.text.toList.length = 36 := by
  have h := u.canonical
  simp only [uuidShape, Bool.and_eq_true, beq_iff_eq] at h
  exact h.1

/-- The texts `z.uuid()` accepts: an RFC 9562 version and variant, or one of
    the two special values. Upper case digits pass. -/
def isUuid (s : String) : Bool :=
  (uuidShape isHex s.toList &&
    ['1', '2', '3', '4', '5', '6', '7', '8'].contains (s.toList.getD 14 '-') &&
    ['8', '9', 'a', 'b', 'A', 'B'].contains (s.toList.getD 19 '-')) ||
  s == "00000000-0000-0000-0000-000000000000" ||
  s == "ffffffff-ffff-ffff-ffff-ffffffffffff"

/-- The cast `::uuid` of a text with hyphens: letter case is not kept. -/
def Uuid.ofText? (s : String) : Option Uuid :=
  if h : uuidShape isHexLower (String.ofList (s.toList.map Char.toLower)).toList = true then
    some ⟨String.ofList (s.toList.map Char.toLower), h⟩
  else none

theorem toLower_of_isHexLower (h : isHexLower c = true) : c.toLower = c := by
  have hupper : ¬ ('A'.val ≤ c.val ∧ c.val ≤ 'Z'.val) := by
    intro ⟨hlow, hhigh⟩
    simp only [isHexLower, Bool.or_eq_true, Bool.and_eq_true, decide_eq_true_eq, Char.le_def,
      UInt32.le_iff_toNat_le] at h hlow hhigh
    have hcodes : 'A'.val.toNat = 65 ∧ 'Z'.val.toNat = 90 ∧ '0'.val.toNat = 48 ∧
        '9'.val.toNat = 57 ∧ 'a'.val.toNat = 97 ∧ 'f'.val.toNat = 102 := by decide
    omega
  unfold Char.toLower
  exact dif_neg hupper

/-- Casting the text PostgreSQL prints gives the value back. -/
theorem Uuid.ofText?_text (u : Uuid) : Uuid.ofText? u.text = some u := by
  -- every character is a hyphen or a lower-case digit, which the cast keeps
  have hchars : u.text.toList.map Char.toLower = u.text.toList := by
    have hshape := u.canonical
    simp only [uuidShape, Bool.and_eq_true, List.all_eq_true] at hshape
    refine (List.map_congr_left fun c hc => ?_).trans (List.map_id _)
    rcases List.mem_iff_getElem?.mp hc with ⟨i, hi⟩
    have hdigit := hshape.2 (c, i) (List.mk_mem_zipIdx_iff_getElem?.mpr hi)
    split at hdigit
    · have hyphen : c = '-' := beq_iff_eq.mp hdigit
      rw [hyphen]
      rfl
    · exact toLower_of_isHexLower hdigit
  have htext : String.ofList (u.text.toList.map Char.toLower) = u.text := by
    rw [hchars, String.ofList_toList]
  unfold Uuid.ofText?
  simp only [htext]
  exact dif_pos u.canonical

theorem isHexLower_toLower (h : isHex c = true) : isHexLower c.toLower = true := by
  rw [isHex, Bool.or_eq_true] at h
  rcases h with h | h
  · rwa [toLower_of_isHexLower h]
  · simp only [Bool.and_eq_true, decide_eq_true_eq, Char.le_def, UInt32.le_iff_toNat_le] at h
    have hcodes : 'A'.val.toNat = 65 ∧ 'F'.val.toNat = 70 := by decide
    have hc : c = Char.ofNat c.val.toNat := (Char.ofNat_toNat c).symm
    have hcases : c.val.toNat = 65 ∨ c.val.toNat = 66 ∨ c.val.toNat = 67 ∨ c.val.toNat = 68 ∨
        c.val.toNat = 69 ∨ c.val.toNat = 70 := by omega
    rw [hc]
    rcases hcases with hn | hn | hn | hn | hn | hn <;> rw [hn] <;> decide

/-- Every text the schema accepts can be cast. -/
theorem uuidShape_toLower {cs : List Char} (h : uuidShape isHex cs = true) :
    uuidShape isHexLower (cs.map Char.toLower) = true := by
  simp only [uuidShape, Bool.and_eq_true, beq_iff_eq, List.all_eq_true] at h ⊢
  refine ⟨by rw [List.length_map]; exact h.1, ?_⟩
  rintro ⟨c, i⟩ hmem
  rw [List.zipIdx_map, List.mem_map] at hmem
  obtain ⟨⟨b, k⟩, hb, heq⟩ := hmem
  cases heq
  have hdigit := h.2 (b, k) hb
  simp only [id_eq] at hdigit ⊢
  split at hdigit
  · next hk =>
      rw [if_pos hk, beq_iff_eq.1 hdigit]
      decide
  · next hk =>
      rw [if_neg hk]
      exact isHexLower_toLower hdigit

theorem canonical_of_isUuid {s : String} (h : isUuid s = true) :
    uuidShape isHexLower (String.ofList (s.toList.map Char.toLower)).toList = true := by
  rw [String.toList_ofList]
  simp only [isUuid, Bool.or_eq_true, Bool.and_eq_true, beq_iff_eq] at h
  rcases h with (⟨⟨h, _⟩, _⟩ | rfl) | rfl
  · exact uuidShape_toLower h
  · decide +kernel
  · decide +kernel

/-! ### Public events -/

inductive Stream where
  | stdout
  | stderr
deriving DecidableEq, Repr

def Stream.text : Stream → String
  | stdout => "stdout"
  | stderr => "stderr"

/-- What a caller of the store puts into an event; the store adds the
    execution, the attempt and the sequence number. -/
inductive EventFields where
  | executionStatus (state : ExecutionState) (cancellationRequested : Option Bool)
  | consoleOutput (caseId : String) (stream : Stream) (text : String)
  | finalVerdict (state : ExecutionState) (verdict : Verdict)
      (failureCode : Option ExecutionFailureCode)
deriving DecidableEq, Repr

inductive EventKind where
  | executionStatus
  | consoleOutput
  | finalVerdict
deriving DecidableEq, Repr

def EventKind.text : EventKind → String
  | executionStatus => "execution_status"
  | consoleOutput => "console_output"
  | finalVerdict => "final_verdict"

def EventFields.kind : EventFields → EventKind
  | executionStatus .. => .executionStatus
  | consoleOutput .. => .consoleOutput
  | finalVerdict .. => .finalVerdict

structure PublicExecutionEvent where
  executionId : String
  attempt : Nat
  sequence : Nat
  fields : EventFields
deriving DecidableEq, Repr

/-- The shape a public event must have; the enumerations and counters are
    already enforced by the types, which leaves the texts. -/
def publicExecutionEventSchema (e : PublicExecutionEvent) : Bool :=
  isUuid e.executionId && decide (0 < e.sequence) &&
    match e.fields with
    | .executionStatus .. => true
    | .consoleOutput caseId _ text => isUuid caseId && decide (byteLength text ≤ 4096)
    | .finalVerdict .. => true

/-- The members of the event object in schema order. -/
def EventFields.members : EventFields → List (String × Json)
  | .executionStatus state cancellationRequested =>
      ("state", .str state.text) ::
        Json.optional "cancellationRequested" Json.bool cancellationRequested
  | .consoleOutput caseId stream text =>
      [("caseId", .str caseId), ("stream", .str stream.text), ("text", .str text)]
  | .finalVerdict state verdict failureCode =>
      ("state", .str state.text) :: ("verdict", .str verdict.text) ::
        Json.optional "failureCode" (fun code => Json.str code.text) failureCode

def PublicExecutionEvent.toJson (e : PublicExecutionEvent) : Json :=
  .obj (("executionId", .str e.executionId) :: ("attempt", .num e.attempt) ::
    ("sequence", .num e.sequence) :: ("kind", .str e.fields.kind.text) :: e.fields.members)

/-- The members of a status or verdict event take few bytes, whatever they
    say. -/
theorem EventFields.members_le (fields : EventFields) (h : fields.kind ≠ .consoleOutput) :
    (fields.members.map fun f => byteLength (Json.quote f.1) + byteLength f.2.stringify + 2).sum
      ≤ 200 := by
  have hstate : ∀ s : ExecutionState, byteLength (Json.quote s.text) ≤ 20 := by
    intro s; cases s <;> decide
  have hverdict : ∀ v : Verdict, byteLength (Json.quote v.text) ≤ 30 := by
    intro v; cases v <;> decide
  have hcode : ∀ c : ExecutionFailureCode, byteLength (Json.quote c.text) ≤ 30 := by
    intro c; cases c <;> decide
  have hnames : byteLength (Json.quote "state") = 7 ∧ byteLength (Json.quote "verdict") = 9 ∧
      byteLength (Json.quote "failureCode") = 13 ∧
      byteLength (Json.quote "cancellationRequested") = 23 := by decide
  cases fields with
  | executionStatus state requested =>
      have hs := hstate state
      rcases requested with _ | _ | _ <;>
        simp only [members, Json.optional, Json.stringify, List.map_cons, List.map_nil,
          List.sum_cons, List.sum_nil] <;>
        have htrue : byteLength "true" = 4 ∧ byteLength "false" = 5 := (by decide) <;> omega
  | consoleOutput caseId stream text => exact absurd rfl h
  | finalVerdict state verdict failureCode =>
      have hs := hstate state
      have hv := hverdict verdict
      cases failureCode with
      | none =>
          simp only [members, Json.optional, Json.stringify, List.map_cons, List.map_nil,
            List.sum_cons, List.sum_nil]
          omega
      | some code =>
          have hc := hcode code
          simp only [members, Json.optional, Json.stringify, List.map_cons, List.map_nil,
            List.sum_cons, List.sum_nil]
          omega

/-- A status or a verdict of an execution is a short event. -/
theorem byteLength_toJson_le (e : PublicExecutionEvent) (u : Uuid) (hid : e.executionId = u.text)
    (h : e.fields.kind ≠ .consoleOutput) : byteLength e.toJson.stringify ≤ 16384 := by
  have hmembers := e.fields.members_le h
  have huuid := Json.byteLength_quote_le u.text
  rw [u.length_text] at huuid
  have hattempt := Json.byteLength_number_le e.attempt
  have hsequence := Json.byteLength_number_le e.sequence
  have hkind : byteLength (Json.quote e.fields.kind.text) ≤ 20 := by
    cases e.fields.kind <;> decide
  have hnames : byteLength (Json.quote "executionId") = 13 ∧ byteLength (Json.quote "attempt") = 9 ∧
      byteLength (Json.quote "sequence") = 10 ∧ byteLength (Json.quote "kind") = 6 := by decide
  have hbraces : byteLength "\x7b" = 1 ∧ byteLength "\x7d" = 1 := by decide
  have hfields := Json.byteLength_stringifyFields_le
    (("executionId", .str e.executionId) :: ("attempt", .num e.attempt) ::
      ("sequence", .num e.sequence) :: ("kind", .str e.fields.kind.text) :: e.fields.members)
  simp only [List.map_cons, List.sum_cons, Json.stringify, hid] at hfields
  simp only [PublicExecutionEvent.toJson, Json.stringify, byteLength_append, hid]
  omega

/-! ### Requests and results -/

/-- Remove terminal control sequences, with the function `strip` of the
    runtime, then the control, C1 and bidirectional characters that survive;
    tab and newline stay. -/
def printable (strip : String → String) (text : String) : String :=
  String.ofList ((strip text).toList.filter fun c =>
    !(c.toNat ≤ 0x08 || (0x0b ≤ c.toNat && c.toNat ≤ 0x1f) || (0x7f ≤ c.toNat && c.toNat ≤ 0x9f) ||
      (0x202a ≤ c.toNat && c.toNat ≤ 0x202e) || (0x2066 ≤ c.toNat && c.toNat ≤ 0x2069)))

def maxSourceBytes : Nat := 64 * 1024
def maxOutputBytes : Nat := 256 * 1024

/-- What `String.prototype.trim` removes. -/
def isBlank (c : Char) : Bool :=
  [0x09, 0x0a, 0x0b, 0x0c, 0x0d, 0x20, 0xa0, 0x1680, 0x2028, 0x2029, 0x202f, 0x205f, 0x3000,
    0xfeff].contains c.toNat || (0x2000 ≤ c.toNat && c.toNat ≤ 0x200a)

def trim (s : String) : String :=
  String.ofList ((s.toList.dropWhile isBlank).reverse.dropWhile isBlank).reverse

/-- `z.string().min(low).max(high)`, in code points. -/
def hasLength (low high : Nat) (s : String) : Bool :=
  decide (low ≤ s.toList.length) && decide (s.toList.length ≤ high)

def isSlugChar (c : Char) : Bool :=
  ('a' ≤ c && c ≤ 'z') || ('0' ≤ c && c ≤ '9')

/-- An integer that `z.number().int()` accepts. -/
def isSafeInteger (n : Int) : Bool :=
  decide (-9007199254740991 ≤ n) && decide (n ≤ 9007199254740991)

/-- A request `createExecutionSchema` has accepted. The problem is named by
    the text that was sent. -/
structure CreateExecution where
  problemId : String
  language : Language
  mode : ExecutionMode
  sourceCode : String
  competitionSlug : Option String
  sourceNonempty : 0 < byteLength sourceCode
  sourceBounded : byteLength sourceCode ≤ maxSourceBytes
  problemIdValid : isUuid problemId = true

/-- The problem a request names. -/
def CreateExecution.problem (input : CreateExecution) : Uuid :=
  ⟨_, canonical_of_isUuid input.problemIdValid⟩

structure PublicCaseResult where
  caseId : String
  verdict : Verdict
  outputTruncated : Option Bool := none
  stdout : Option String := none
  stderr : Option String := none
  exitCode : Option Int := none
  runtimeMs : Option Int := none
  memoryKiB : Option Int := none
deriving DecidableEq, Repr

def PublicCaseResult.toJson (r : PublicCaseResult) : Json :=
  .obj (("caseId", .str r.caseId) :: ("verdict", .str r.verdict.text) ::
    (Json.optional "outputTruncated" Json.bool r.outputTruncated ++
      Json.optional "stdout" Json.str r.stdout ++ Json.optional "stderr" Json.str r.stderr ++
      Json.optional "exitCode" Json.num r.exitCode ++
      Json.optional "runtimeMs" Json.num r.runtimeMs ++
      Json.optional "memoryKiB" Json.num r.memoryKiB))

/-- What the owner of an execution may see of its row. -/
structure ExecutionSnapshot where
  executionId : Uuid
  problemId : Uuid
  language : Language
  mode : ExecutionMode
  state : ExecutionState
  attempt : Nat
  lastSequence : Nat
  cancellationRequested : Option Bool
  verdict : Option Verdict
  runtimeMs : Option Int
  memoryKiB : Option Int
  failureCode : Option ExecutionFailureCode
  publicCaseResults : Option (List PublicCaseResult)
deriving DecidableEq

structure ExecutionReceipt where
  executionId : Uuid
  state : ExecutionState
  cancellationRequested : Option Bool := none
deriving DecidableEq

end ArenaCore
