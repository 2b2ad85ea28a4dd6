import ArenaCore.Lib.Table
import ArenaCore.Store.JobStore

/-!
# Creating Executions

`Executions.create` with the admission checks it makes. A retry with a known
idempotency key returns the execution it created the first time, or a conflict
if the request differs; a new request passes the owner's limit, the problem
and competition checks, the global limit and three rate counters before
anything is written. The row, its first event and its dispatch intent are one
transaction, so a rejected request leaves no trace in the tables.

The problem and competition tables are edited by other parts of the program at
any time. What one call reads of them comes with the call as a `Registry`.

## Main definitions

* `Store`: The tables, and the last reading of the database clock.
* `Registry`: What a call reads of the problem and competition tables.
* `payloadHash`: The digest that identifies a request's content.
* `competitionRound`: The checks on a competition submission.
* `reserve`: Global capacity and the three rate counters.
* `create`: The whole operation.
-/

namespace ArenaCore

structure RateCounter where
  count : Nat := 1
  expiresAt : Nat
deriving DecidableEq

/-- The tables the executions component owns. -/
structure Store where
  clock : Nat := 0
  jobs : Table Uuid Job := ∅
  rateLimits : Table String RateCounter := ∅

structure CompetitionRound where
  id : Uuid
  startsAt : Nat
  endsAt : Nat
  problems : List Uuid

structure Competition where
  startsAt : Nat
  endsAt : Nat
  registered : Uuid → Bool
  rounds : List CompetitionRound

/-- What a call reads of the tables other components maintain: the current
    version of a problem, and the published competition with a slug. -/
structure Registry where
  currentVersion : Uuid → Option Uuid
  competition : String → Option Competition

/-- A request to create an execution. The identifier is the one the database
    client generates for the new row. -/
structure CreateCall where
  userId : Uuid
  input : CreateExecution
  key : String
  ip : String
  id : Uuid
  registry : Registry

def Language.text : Language → String
  | java => "java"
  | python => "python"
  | javascript => "javascript"

def ExecutionMode.text : ExecutionMode → String
  | run => "RUN"
  | submit => "SUBMIT"

namespace Executions

/-- Explicit field order, so the order of the transport's members is
    irrelevant. -/
def payloadHash (d : Deployment) (input : CreateExecution) : String :=
  d.sha256 (Json.arr
    [.str input.problemId, .str input.language.text, .str input.mode.text,
      .str input.sourceCode,
      match input.competitionSlug with
      | none => .null
      | some slug => .str slug]).stringify

/-- The round a competition submission belongs to, or why there is none. -/
def competitionRound (registry : Registry) (userId problemId : Uuid) (slug : String)
    (now : Nat) : Except Error Uuid :=
  match registry.competition slug with
  | none => .error (.api 404 "NOT_FOUND" "Competition not found.")
  | some competition =>
      if now < competition.startsAt then
        .error (.api 409 "COMPETITION_NOT_STARTED" "This competition has not started yet.")
      else if competition.endsAt ≤ now then
        .error (.api 409 "COMPETITION_FINISHED" "This competition has finished.")
      else if competition.registered userId = false then
        .error (.api 403 "REGISTRATION_REQUIRED"
          "Register for this competition before solving its problems.")
      else
        match competition.rounds.find? fun round =>
            decide (round.startsAt ≤ now) && decide (now < round.endsAt) &&
              round.problems.contains problemId with
        | none => .error (.api 409 "ROUND_NOT_ACTIVE"
            "This problem is not available in an active round.")
        | some round => .ok round.id

/-- The round column of the new row; an empty slug counts as none given. -/
def roundColumn (t : Moment) (call : CreateCall) : Except Error (Option Uuid) :=
  match call.input.competitionSlug with
  | none => .ok none
  | some slug =>
      if slug = "" then .ok none
      else
        (competitionRound call.registry call.userId call.input.problem slug t.app).map some

/-- The number of jobs in a state that counts against a limit. -/
def activeJobs (jobs : Table Uuid Job) (counts : Execution → Bool) : Nat :=
  jobs.entries.countP fun e => activeStates.contains e.2.row.state && counts e.2.row

def executionRateKey (d : Deployment) (window : Nat) (scope : String) : String :=
  d.hmacSha256 d.config.executionRateLimitKey
    ("execution:create:v1:" ++ toString window ++ ":" ++ scope)

/-- Count one creation in a scope's window, or refuse it. -/
def countCreation (d : Deployment) (t : Moment) (scope : String) (limit : Nat)
    (rateLimits : Table String RateCounter) : Except Error (Table String RateCounter) :=
  let window := t.app / 60000
  let expiresAt := (window + 1) * 60000
  let key := executionRateKey d window scope
  let counter : RateCounter :=
    match rateLimits.lookup key with
    | none => { expiresAt := expiresAt }
    | some counter => { counter with count := counter.count + 1 }
  if limit < counter.count then
    .error (.api 429 "EXECUTION_RATE_LIMIT" "Too many new executions. Please wait and retry."
      (some (max 1 ((expiresAt - t.app + 999) / 1000))))
  else .ok (rateLimits.insert key counter)

/-- `ExecutionAdmission.reserve`, under the admission lock. -/
def reserve (d : Deployment) (t : Moment) (userId : Uuid) (ip : String) (s : Store) :
    Except Error Store :=
  if d.config.maxActiveJobsGlobal ≤ activeJobs s.jobs (fun _ => true) then
    .error (.api 503 "EXECUTION_CAPACITY" "Execution capacity is full. Please retry later."
      (some 5))
  else do
    let limits ← countCreation d t "global" d.config.executionGlobalCreationsPerMinute s.rateLimits
    let limits ← countCreation d t ("ip:" ++ ip) d.config.executionIpCreationsPerMinute limits
    let limits ← countCreation d t ("user:" ++ userId.text) d.config.executionCreationsPerMinute
      limits
    .ok { s with rateLimits := limits }

/-- The row a new execution starts as. -/
def newRow (d : Deployment) (t : Moment) (call : CreateCall) (versionId : Uuid)
    (round : Option Uuid) : Execution :=
  { id := call.id, userId := call.userId, problemVersionId := versionId,
    competitionRoundId := round, language := call.input.language, mode := call.input.mode,
    sourceCode := call.input.sourceCode, payloadHash := payloadHash d call.input,
    idempotencyKey := call.key, createdAt := t.now,
    queueExpiresAt := t.app + d.config.queueTtlSeconds * 1000 }

/-- `execution.create` against the keys of the table and the trigger. -/
def insertRow (d : Deployment) (row : Execution) (s : Store) : Except Error Job :=
  if row.id ∈ s.jobs then .error (.guard "Execution_pkey")
  else if s.jobs.entries.any fun e =>
      e.2.row.userId == row.userId && e.2.row.idempotencyKey == row.idempotencyKey then
    .error (.guard "Execution_userId_idempotencyKey_key")
  else
    match guardInsert d.catalog row with
    | none => .ok { row := row }
    | some violation => .error (.guard violation)

/-- The writes of a new execution: row, first event, dispatch intent. -/
def insertJob (d : Deployment) (t : Moment) (row : Execution) (s : Store) : Except Error Job := do
  let j ← insertRow d row s
  let (sequence, j) ← JobStore.event t row (.executionStatus .queued none) j
  let j ← j.update t { j.row with lastSequence := sequence }
  j.createOutbox { kind := .executionCreated, createdAt := t.now, nextDispatchAt := t.now }

def create (d : Deployment) (t : Moment) (call : CreateCall) (s : Store) :
    Except Error (ExecutionReceipt × Store) :=
  if d.config.executionsEnabled = false then
    .error (.api 503 "EXECUTIONS_DISABLED" "Code execution is not available yet.")
  else
    match s.jobs.entries.find? fun e =>
        e.2.row.userId == call.userId && e.2.row.idempotencyKey == call.key with
    | some previous =>
        if previous.2.row.payloadHash ≠ payloadHash d call.input then
          .error (.api 409 "IDEMPOTENCY_CONFLICT"
            "This request key was already used with different content.")
        else .ok ({ executionId := previous.2.row.id, state := previous.2.row.state }, s)
    | none =>
        if d.config.maxActiveJobsPerUser ≤
            activeJobs s.jobs (fun row => row.userId == call.userId) then
          .error (.api 429 "ACTIVE_JOB_LIMIT" "Wait for your active execution to finish." (some 5))
        else
          match call.registry.currentVersion call.input.problem with
          | none => .error (.api 404 "NOT_FOUND" "Problem not found.")
          | some versionId =>
              if (d.catalog versionId).isNone then
                .error (.api 404 "NOT_FOUND" "Problem not found.")
              else do
                let round ← roundColumn t call
                let s ← reserve d t call.userId call.ip s
                let row := newRow d t call versionId round
                let j ← insertJob d t row s
                .ok ({ executionId := row.id, state := row.state },
                  { s with jobs := s.jobs.insert row.id j })

end Executions

end ArenaCore
