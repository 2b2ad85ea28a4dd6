import ArenaCore.Lib.Sql
import ArenaCore.Store.Rows

/-!
# The Database Guard

What PostgreSQL checks on every write, whoever issues it: the final version of
the `protect_execution_lifecycle` trigger, the `CHECK` constraints of
`Execution` and `ExecutionEvent`, and the unique keys of the child tables. It
is a second description of the lifecycle, written independently of the job
store, and the store's operations run against it: a rejected write aborts the
whole transaction.

Conditions are SQL conditions, with `NULL` columns making them unknown. The
trigger raises only on a true condition and a `CHECK` rejects only on a false
one, so the two are modelled with `Sql.raises` and `Sql.checks` rather than
with Booleans.

## Main definitions

* `RequestColumns`: The columns fixed at insertion.
* `protectInsert`, `protectUpdate`: The two halves of the trigger.
* `executionChecks`: The `CHECK` constraints of `Execution`, by name.
* `guardInsert`, `guardUpdate`: The first violation a write meets, if any.
* `guardEvent`, `guardOutbox`: The same for the child tables.

## Theorems

* `firstViolation_eq_none`: No violation means that every constraint holds.
* `guardInsert_eq_none`, `guardUpdate_eq_none`, `guardEvent_eq_none`: What an
  accepted write has passed.
-/

namespace ArenaCore

open Sql

/-- The immutable request columns, compared as one row value. -/
structure RequestColumns where
  id : Uuid
  userId : Uuid
  problemVersionId : Uuid
  competitionRoundId : Option Uuid
  language : Language
  mode : ExecutionMode
  sourceCode : String
  payloadHash : String
  idempotencyKey : String
  createdAt : Nat
  queueExpiresAt : Nat
deriving DecidableEq

def Execution.request (row : Execution) : RequestColumns where
  id := row.id
  userId := row.userId
  problemVersionId := row.problemVersionId
  competitionRoundId := row.competitionRoundId
  language := row.language
  mode := row.mode
  sourceCode := row.sourceCode
  payloadHash := row.payloadHash
  idempotencyKey := row.idempotencyKey
  createdAt := row.createdAt
  queueExpiresAt := row.queueExpiresAt

/-- The trigger on `INSERT`. -/
def protectInsert (cat : Catalog) (new : Execution) : Option String :=
  if raises (ne (some new.state) (some .queued)) then some "executions must start queued"
  else if (cat new.problemVersionId).isNone then some "execution version must be published"
  else none

/-- A lease may be replaced only by a claim of the next attempt after expiry. -/
def replacesExpiredLease (clock : Nat) (old new : Execution) : Truth :=
  Truth.all
    [isIn (some old.state) [.compiling, .running], le old.leaseExpiresAt (some clock),
      eq (some new.state) (some .compiling), eq (some new.attempt) (some (old.attempt + 1)),
      ne new.leaseToken old.leaseToken]

/-- The state changes the trigger lets through. -/
def allowedTransition (clock : Nat) (old new : Execution) : Truth :=
  Truth.any
    [Truth.and (eq (some old.state) (some .queued))
        (isIn (some new.state) [.compiling, .cancelled, .internalError]),
      Truth.and (eq (some old.state) (some .compiling))
        (isIn (some new.state) [.running, .finished, .cancelled, .internalError]),
      Truth.and (eq (some old.state) (some .running))
        (isIn (some new.state) [.finished, .cancelled, .internalError]),
      Truth.all
        [eq (some old.state) (some .running), eq (some new.state) (some .compiling),
          le old.leaseExpiresAt (some clock), eq (some new.attempt) (some (old.attempt + 1)),
          distinct new.leaseToken old.leaseToken]]

/-- The trigger on `UPDATE`, with its own reading of the clock. -/
def protectUpdate (clock : Nat) (old new : Execution) : Option String :=
  if raises (distinct new.request old.request) then
    some "execution request and version snapshot are immutable"
  else if raises (Truth.and (isNotNull old.cancellationRequestedAt)
      (distinct new.cancellationRequestedAt old.cancellationRequestedAt)) then
    some "cancellation request is immutable"
  else if raises (Truth.all [isNotNull old.leaseToken, isNotNull new.leaseToken,
      distinct (new.leaseToken, new.attempt) (old.leaseToken, old.attempt),
      Truth.not (replacesExpiredLease clock old new)]) then
    some "lease replacement requires expired authority and a new attempt"
  else if raises (Truth.and (isIn (some old.state) [.finished, .cancelled, .internalError])
      (distinct new old)) then
    some "terminal executions are immutable"
  else if raises (Truth.and (ne (some new.state) (some old.state))
      (Truth.not (allowedTransition clock old new))) then
    some "invalid execution state transition"
  else if raises (Truth.or (some (decide (new.attempt < old.attempt)))
      (Truth.and (eq (some new.attempt) (some old.attempt))
        (some (decide (new.lastSequence < old.lastSequence))))) then
    some "execution attempt and sequence cannot regress"
  else if raises (Truth.and (eq new.failureCode (some .queueTimeout))
      (Truth.not (Truth.and (eq (some old.state) (some .queued))
        (eq (some new.state) (some .internalError))))) then
    some "queue timeout requires queued execution"
  else none

/-- A 32-bit integer column. -/
def fitsInteger (n : Option Int) : Truth :=
  n.map fun x => decide (-2147483648 ≤ x ∧ x ≤ 2147483647)

/-- `CHECK` constraint `valid_execution_terminal_fields`. -/
def validTerminalFields (row : Execution) : Truth :=
  Truth.any
    [Truth.all [isIn (some row.state) [.queued, .compiling, .running],
        Truth.not (isNotNull row.verdict), Truth.not (isNotNull row.finishedAt),
        Truth.not (isNotNull row.failureCode)],
      Truth.all [eq (some row.state) (some .finished), isNotNull row.verdict,
        Truth.not (isIn row.verdict [.cancelled, .internalError]), isNotNull row.finishedAt,
        Truth.not (isNotNull row.failureCode)],
      Truth.all [eq (some row.state) (some .cancelled), eq row.verdict (some .cancelled),
        isNotNull row.verdict, isNotNull row.finishedAt, Truth.not (isNotNull row.failureCode)],
      Truth.all [eq (some row.state) (some .internalError), eq row.verdict (some .internalError),
        isNotNull row.verdict, isNotNull row.finishedAt]]

/-- `CHECK` constraint `valid_execution_lease_pair`. -/
def validLeasePair (row : Execution) : Truth :=
  Truth.or
    (Truth.and (Truth.not (isNotNull row.leaseToken)) (Truth.not (isNotNull row.leaseExpiresAt)))
    (Truth.all [isNotNull row.leaseToken, isNotNull row.leaseExpiresAt,
      isIn (some row.state) [.compiling, .running]])

/-- A nullable metric that is not negative. -/
def nonnegativeMetric (n : Option Int) : Truth :=
  Truth.or (Truth.not (isNotNull n)) (n.map fun x => decide (0 ≤ x))

/-- The constraints of the `Execution` table, in the order of their migrations,
    after the range of its two metric columns. -/
def executionChecks (row : Execution) : List (String × Truth) :=
  [("integer out of range", Truth.and (fitsInteger row.runtimeMs) (fitsInteger row.memoryKiB)),
    ("source_byte_cap", some (decide (1 ≤ byteLength row.sourceCode ∧
      byteLength row.sourceCode ≤ 65536))),
    ("nonnegative_metrics",
      Truth.and (nonnegativeMetric row.runtimeMs) (nonnegativeMetric row.memoryKiB)),
    ("private_submit_results",
      Truth.or (eq (some row.mode) (some .run)) (Truth.not (isNotNull row.publicResults))),
    ("valid_execution_terminal_fields", validTerminalFields row),
    ("valid_execution_counters", some (decide (0 ≤ row.attempt ∧ 0 ≤ row.lastSequence))),
    ("valid_queue_deadline", some (decide (row.createdAt < row.queueExpiresAt))),
    ("valid_execution_lease_pair", validLeasePair row)]

/-- The name of the first constraint a row violates. -/
def firstViolation : List (String × Truth) → Option String
  | [] => none
  | (name, p) :: rest => if checks p then firstViolation rest else some name

/-- What an `INSERT` into `Execution` is refused for, if anything. -/
def guardInsert (cat : Catalog) (new : Execution) : Option String :=
  (protectInsert cat new).or (firstViolation (executionChecks new))

/-- What an `UPDATE` of an `Execution` row is refused for, if anything. -/
def guardUpdate (clock : Nat) (old new : Execution) : Option String :=
  (protectUpdate clock old new).or (firstViolation (executionChecks new))

/-- What an `INSERT` into `ExecutionEvent` is refused for, if anything. -/
def guardEvent (events : List ExecutionEvent) (new : ExecutionEvent) : Option String :=
  (firstViolation
    [("ExecutionEvent_attempt_check", some (decide (0 ≤ new.attempt))),
      ("ExecutionEvent_sequence_check", some (decide (0 < new.sequence))),
      ("ExecutionEvent_kind_check", some (["execution_status", "console_output",
        "final_verdict"].contains new.kind.text)),
      ("ExecutionEvent_bytes_check", some (decide (0 < new.bytes ∧ new.bytes ≤ 16384)))]).or
  (if events.any fun e => e.attempt == new.attempt && e.sequence == new.sequence then
    some "ExecutionEvent_executionId_attempt_sequence_key" else none)

/-- What an `INSERT` into `OutboxEvent` is refused for, if anything. -/
def guardOutbox (outbox : List OutboxEvent) (new : OutboxEvent) : Option String :=
  if outbox.any fun o => o.kind == new.kind && o.generation == new.generation then
    some "OutboxEvent_executionId_kind_generation_key" else none

/-- No violation is found exactly when every constraint admits the row. -/
theorem firstViolation_eq_none {constraints : List (String × Truth)} :
    firstViolation constraints = none ↔ ∀ c ∈ constraints, checks c.2 = true := by
  induction constraints with
  | nil => exact ⟨fun _ c hc => (by cases hc), fun _ => rfl⟩
  | cons c rest ih =>
      rcases c with ⟨name, p⟩
      simp only [firstViolation, List.forall_mem_cons]
      by_cases hp : checks p = true
      · rw [if_pos hp, ih]
        simp only [hp, true_and]
      · rw [if_neg hp]
        simp only [reduceCtorEq, hp, Bool.false_eq_true, false_and]

/-- What an accepted event has passed; its kind is always a known one. -/
theorem guardEvent_eq_none {events : List ExecutionEvent} {new : ExecutionEvent} :
    guardEvent events new = none ↔ 0 < new.sequence ∧ 0 < new.bytes ∧ new.bytes ≤ 16384 ∧
      ∀ e ∈ events, e.attempt = new.attempt → e.sequence ≠ new.sequence := by
  have hkind : ["execution_status", "console_output", "final_verdict"].contains new.kind.text
      = true := by cases new.kind <;> decide
  have hunique : (if events.any fun e => e.attempt == new.attempt && e.sequence == new.sequence then
        some "ExecutionEvent_executionId_attempt_sequence_key" else none) = none ↔
      ∀ e ∈ events, e.attempt = new.attempt → e.sequence ≠ new.sequence := by
    simp only [ite_eq_right_iff, reduceCtorEq, imp_false, List.any_eq_true, Bool.and_eq_true,
      beq_iff_eq, not_exists, not_and, ne_eq]
  rw [guardEvent, Option.or_eq_none_iff, firstViolation_eq_none, hunique]
  simp only [List.forall_mem_cons, checks_some, decide_eq_true_eq, hkind, Nat.zero_le, true_and,
    List.not_mem_nil, false_imp_iff, implies_true, and_true, and_assoc]

theorem guardInsert_eq_none {cat : Catalog} {new : Execution} :
    guardInsert cat new = none ↔
      protectInsert cat new = none ∧ ∀ c ∈ executionChecks new, checks c.2 = true := by
  rw [guardInsert, Option.or_eq_none_iff, firstViolation_eq_none]

theorem guardUpdate_eq_none {clock : Nat} {old new : Execution} :
    guardUpdate clock old new = none ↔
      protectUpdate clock old new = none ∧ ∀ c ∈ executionChecks new, checks c.2 = true := by
  rw [guardUpdate, Option.or_eq_none_iff, firstViolation_eq_none]

end ArenaCore
