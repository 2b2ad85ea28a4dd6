import ArenaCore.Contracts

/-!
# Rows of the Executions Store

The columns the job store reads and writes. An execution owns its events, its
outbox intents and its result notification through foreign keys, and every
operation locks the execution before touching them, so the four are kept
together as a `Job`. Columns that nothing here reads (`updatedAt`,
`runtimeImage`, surrogate keys) are left out; an event is identified by its
attempt and sequence, an intent by its kind and generation, which are the
unique keys of the two tables.

`Job.journal` and `Job.evicted` are history, not columns. The journal is every
event that was ever inserted for the execution, newest first, whether or not
the row still exists, and `evicted` is every event the replay caps discarded.
No operation reads either.

The catalog is the published part of the problem tables. A published version
and its test cases cannot change, so it is a parameter of the whole
development rather than part of the state.

## Main definitions

* `Execution`, `ExecutionEvent`, `OutboxEvent`, `Notification`: Rows.
* `Job`: An execution with the rows that belong to it.
* `TestCase`, `ProblemVersion`, `Catalog`: The problem tables.
* `Lease`: The authority a successful claim hands out.
-/

namespace ArenaCore

/-- The authority to act for one attempt of an execution. -/
structure Lease where
  executionId : Uuid
  attempt : Nat
  token : Uuid
deriving DecidableEq

structure Execution where
  id : Uuid
  userId : Uuid
  problemVersionId : Uuid
  competitionRoundId : Option Uuid
  language : Language
  mode : ExecutionMode
  sourceCode : String
  payloadHash : String
  idempotencyKey : String
  createdAt : Nat
  queueExpiresAt : Nat
  state : ExecutionState := .queued
  verdict : Option Verdict := none
  attempt : Nat := 0
  lastSequence : Nat := 0
  leaseToken : Option Uuid := none
  leaseExpiresAt : Option Nat := none
  runtimeMs : Option Int := none
  memoryKiB : Option Int := none
  publicResults : Option (List PublicCaseResult) := none
  finishedAt : Option Nat := none
  failureCode : Option ExecutionFailureCode := none
  cancellationRequestedAt : Option Nat := none
deriving DecidableEq

structure ExecutionEvent where
  attempt : Nat
  sequence : Nat
  kind : EventKind
  payload : PublicExecutionEvent
  bytes : Nat
  expiresAt : Nat
deriving DecidableEq

inductive OutboxKind where
  | executionCreated
  | executionRecovery
  | executionCancelled
  | executionExpired
deriving DecidableEq, Repr

structure OutboxEvent where
  kind : OutboxKind
  generation : Nat := 0
  createdAt : Nat
  publishedAt : Option Nat := none
  dispatchToken : Option Uuid := none
  dispatchExpiresAt : Option Nat := none
  nextDispatchAt : Nat
  dispatchAttempts : Nat := 0
deriving DecidableEq

structure Notification where
  userId : Uuid
  title : String
  body : String
  href : String
  dedupeKey : String
deriving DecidableEq

/-- An execution row with the rows its foreign keys tie to it. -/
structure Job where
  row : Execution
  events : List ExecutionEvent := []
  outbox : List OutboxEvent := []
  notifications : List Notification := []
  journal : List ExecutionEvent := []
  evicted : List ExecutionEvent := []
deriving DecidableEq

inductive Visibility where
  | publicCase
  | hiddenCase
deriving DecidableEq, Repr

structure TestCase where
  id : Uuid
  ordinal : Nat
  visibility : Visibility
  input : String
  files : List (String × String) := []
  expectedOutput : String
deriving DecidableEq

structure ProblemVersion where
  problemId : Uuid
  slug : String
  title : String
  comparator : String
  timeMs : Nat
  memoryKiB : Nat
  testCases : List TestCase
  /-- `id` is the primary key of the table. -/
  distinct : (testCases.map (·.id)).Nodup
deriving DecidableEq

/-- The published versions, by identifier. -/
abbrev Catalog := Uuid → Option ProblemVersion

/-- The identifiers of the public cases of a version; none if it is unknown. -/
def Catalog.publicCases (cat : Catalog) (versionId : Uuid) : List Uuid :=
  match cat versionId with
  | none => []
  | some version =>
      (version.testCases.filter fun test => test.visibility = .publicCase).map (·.id)

/-- What a failed call reports: an API error, a plain exception, a rejected
    schema, or a write the database refused. -/
inductive Error where
  | api (status : Nat) (code message : String) (retryAfterSeconds : Option Nat := none)
  | thrown (message : String)
  | schema
  | guard (violation : String)
deriving DecidableEq

end ArenaCore
