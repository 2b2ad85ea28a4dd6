import Mathlib.Data.List.Sort
import ArenaCore.Lib.Retention
import ArenaCore.Lib.Transaction
import ArenaCore.Store.Guard

/-!
# The Job Store

The operations of `JobStore` on one execution, each the body of a transaction
that holds the row lock. A body receives the job as it was locked and returns
its result with the job to commit, or the exception that rolls everything
back. Row lookup and commit are left to the store.

The code keeps two copies of the row: the one it read under the lock, which it
also mutates while it works, and the one in the database, which only the
`update` statements change. The model keeps the same two. `row` is the local
copy, `j.row` the database's; `event` numbers events from the local one, and
the notification function looks at the database's.

Every write passes the database guard. Time is read in three places and the
readings need not agree, so a `Moment` carries all three: the database clock
that came with the locked row, the process clock behind `new Date()`, and the
reading the trigger takes while a write is applied.

## Main definitions

* `Deployment`: What stays fixed while the system runs.
* `Moment`: The clock readings and preferences one operation sees.
* `valid`, `deadline`: When a lease has authority.
* `event`, `terminal`: The two helpers every operation writes through.
* `claim`, `renew`, `markRunning`, `console`, `finish`, `fail`, `recover`,
  `cancel`: The operations.
* `maintainRow`, `reofferIntents`, `sweepEvents`: The parts of `maintain` that
  concern one execution.
* `expireQueuedRow`: The part of `expireQueuedJobs` that concerns one.
-/

namespace ArenaCore

/-- The limits of the configuration that the store and admission read. -/
structure Config where
  executionsEnabled : Bool
  maxActiveJobsPerUser : Nat
  maxActiveJobsGlobal : Nat
  executionCreationsPerMinute : Nat
  executionIpCreationsPerMinute : Nat
  executionGlobalCreationsPerMinute : Nat
  executionRateLimitKey : String
  queueTtlSeconds : Nat

/-- What does not change while the system runs: configuration, published
    problems, and the library functions whose code lives elsewhere. -/
structure Deployment where
  config : Config
  catalog : Catalog
  stripVTControlCharacters : String → String
  sha256 : String → String
  hmacSha256 : String → String → String

/-- What one operation reads besides its own tables. -/
structure Moment where
  /-- `clock_timestamp()`, read with the locked row. -/
  now : Nat
  /-- `Date.now()` in the calling process. -/
  app : Nat
  /-- `clock_timestamp()` as the trigger reads it during a write. -/
  trigger : Nat
  /-- The `productNotifications` preference of each user. -/
  productNotifications : Uuid → Bool

def leaseMs : Nat := 30000
def cancelGraceMs : Nat := 15000
def maxAttempts : Nat := 3
def replayRows : Nat := 256
def replayBytes : Nat := 256 * 1024
def replayTtlMs : Nat := 600000

/-- Console text as it is stored. -/
def safeConsole (d : Deployment) (text : String) : String :=
  printable d.stripVTControlCharacters text

/-- The result a worker submits. -/
structure WorkerResult where
  verdict : Verdict
  runtimeMs : Option Int := none
  memoryKiB : Option Int := none
  publicCaseResults : Option (List PublicCaseResult) := none
deriving DecidableEq

def nonnegative (n : Option Int) : Bool :=
  n.all fun x => isSafeInteger x && decide (0 ≤ x)

/-- What `resultSchema` asks of a worker's result. -/
def resultSchema (r : WorkerResult) : Bool :=
  r.verdict.learner && nonnegative r.runtimeMs && nonnegative r.memoryKiB &&
    r.publicCaseResults.all fun results =>
      decide (results.length ≤ 100) && results.all fun c =>
        isUuid c.caseId && c.verdict.learner && c.exitCode.all isSafeInteger &&
          nonnegative c.runtimeMs && nonnegative c.memoryKiB

def WorkerResult.toJson (r : WorkerResult) : Json :=
  .obj (("verdict", .str r.verdict.text) ::
    (Json.optional "runtimeMs" Json.num r.runtimeMs ++
      Json.optional "memoryKiB" Json.num r.memoryKiB ++
      Json.optional "publicCaseResults"
        (fun results => Json.arr (results.map PublicCaseResult.toJson)) r.publicCaseResults))

inductive Renewal where
  | active
  | cancel
  | lost
deriving DecidableEq, Repr

namespace Job

/-- `execution.update`: the guard compares with the row in the database. -/
def update (t : Moment) (new : Execution) (j : Job) : Except Error Job :=
  match guardUpdate t.trigger j.row new with
  | none => .ok { j with row := new }
  | some violation => .error (.guard violation)

/-- `executionEvent.create`. -/
def createEvent (e : ExecutionEvent) (j : Job) : Except Error Job :=
  match guardEvent j.events e with
  | none => .ok { j with events := e :: j.events, journal := e :: j.journal }
  | some violation => .error (.guard violation)

/-- `outboxEvent.create`. -/
def createOutbox (o : OutboxEvent) (j : Job) : Except Error Job :=
  match guardOutbox j.outbox o with
  | none => .ok { j with outbox := o :: j.outbox }
  | some violation => .error (.guard violation)

/-- `executionEvent.deleteMany` of the rows the replay caps push out. -/
def discard (old : List ExecutionEvent) (j : Job) : Job :=
  { j with events := j.events.filter (· ∉ old), evicted := old ++ j.evicted }

end Job

/-- Newest first: `orderBy: [{attempt:'desc'}, {sequence:'desc'}]`. -/
def newerFirst (a b : ExecutionEvent) : Prop :=
  b.attempt < a.attempt ∨ (b.attempt = a.attempt ∧ b.sequence ≤ a.sequence)

instance : DecidableRel newerFirst := fun a b =>
  inferInstanceAs (Decidable (b.attempt < a.attempt ∨ _))

/-- The rows beyond the row cap or the byte cap, walking from the newest with
    the index and the bytes seen so far. -/
def overflow : Nat → Nat → List ExecutionEvent → List ExecutionEvent :=
  Retention.overflow replayRows replayBytes ExecutionEvent.bytes

namespace JobStore

/-- The end of an execution's life, ten minutes after it leaves the queue at
    the latest. -/
def deadline (row : Execution) : Nat :=
  row.queueExpiresAt + 600000

/-- Whether a lease has authority over the row at this moment. -/
def valid (row : Execution) (now : Nat) (lease : Lease) : Bool :=
  !isTerminal row.state && row.state != .queued && row.attempt == lease.attempt &&
    row.leaseToken == some lease.token && row.leaseExpiresAt.any (fun e => decide (now < e)) &&
    decide (now < deadline row)

/-- `create_execution_result_notification`: it checks the attempt and the
    token against the row in the database, which the caller has not updated
    yet, and writes at most one row per execution. -/
def createExecutionResultNotification (d : Deployment) (t : Moment) (attempt : Nat)
    (token : Uuid) (verdict : Verdict) (j : Job) : Except Error Job :=
  if verdict = .cancelled then .error (.guard "invalid execution notification verdict")
  else
    match d.catalog j.row.problemVersionId with
    | none => .ok j
    | some version =>
        if j.row.mode = .submit ∧ (j.row.state = .compiling ∨ j.row.state = .running) ∧
            j.row.attempt = attempt ∧ j.row.leaseToken = some token ∧
            t.productNotifications j.row.userId = true ∧ j.notifications = [] then
          .ok { j with notifications :=
            [{ userId := j.row.userId, title := "Submission judged",
               body := version.title ++ ": " ++ String.ofList (verdict.text.toList.map
                 fun c => if c = '_' then ' ' else c.toLower) ++ ".",
               href := "/problems/" ++ version.slug ++ "?tab=submissions",
               dedupeKey := "execution:" ++ j.row.id.text ++ ":result" }] }
        else .ok j

/-- Tell the owner of a submission about its outcome, if the row the caller
    locked still carried a lease. -/
def notifyExecution (d : Deployment) (t : Moment) (row : Execution) (verdict : Verdict)
    (j : Job) : Except Error Job :=
  match row.leaseToken with
  | none => .ok j
  | some token =>
      if row.mode ≠ .submit ∨ verdict = .cancelled then .ok j
      else createExecutionResultNotification d t row.attempt token verdict j

/-- The payload of the event after the row's last one. -/
def nextPayload (row : Execution) (fields : EventFields) : PublicExecutionEvent where
  executionId := row.id.text
  attempt := row.attempt
  sequence := row.lastSequence + 1
  fields := fields

/-- The row inserted for that event. -/
def nextEvent (t : Moment) (row : Execution) (fields : EventFields) : ExecutionEvent where
  attempt := row.attempt
  sequence := row.lastSequence + 1
  kind := fields.kind
  payload := nextPayload row fields
  bytes := byteLength (nextPayload row fields).toJson.stringify
  expiresAt := t.app + replayTtlMs

/-- Append one public event after the row's last one, then let the caps push
    out the oldest. The caller owns the row lock and writes the new sequence
    number to the row itself. -/
def event (t : Moment) (row : Execution) (fields : EventFields) (j : Job) :
    Except Error (Nat × Job) :=
  if publicExecutionEventSchema (nextPayload row fields) = false then .error .schema
  else if 16384 < (nextEvent t row fields).bytes then .error (.thrown "PUBLIC_EVENT_TOO_LARGE")
  else do
    let j ← j.createEvent (nextEvent t row fields)
    let events := j.events.insertionSort newerFirst
    .ok (row.lastSequence + 1, j.discard (overflow 0 0 events))

/-- The two outcomes the infrastructure decides. -/
inductive Outcome where
  | internalError
  | cancelled
deriving DecidableEq, Repr

def Outcome.state : Outcome → ExecutionState
  | internalError => .internalError
  | cancelled => .cancelled

def Outcome.verdict : Outcome → Verdict
  | internalError => .internalError
  | cancelled => .cancelled

/-- Write the final event and make the row terminal. -/
def terminal (d : Deployment) (t : Moment) (row : Execution) (outcome : Outcome)
    (failureCode : Option ExecutionFailureCode) (j : Job) : Except Error Job := do
  let (seq, j) ← event t row (.finalVerdict outcome.state outcome.verdict failureCode) j
  let j ← notifyExecution d t row outcome.verdict j
  j.update t
    { j.row with
      state := outcome.state, verdict := some outcome.verdict, failureCode := failureCode,
      finishedAt := some t.app, leaseToken := none, leaseExpiresAt := none, lastSequence := seq }

/-- What a successful claim returns. -/
structure Claimed where
  lease : Lease
  execution : Execution
deriving DecidableEq

/-- Take authority over a queued execution, or over an active one whose lease
    has run out. A claim that finds the job past its limits ends it instead. -/
def claim (d : Deployment) (t : Moment) (id token : Uuid) (j : Job) :
    Except Error (Option Claimed × Job) :=
  let row := j.row
  if isTerminal row.state then .ok (none, j)
  else if row.state = .queued ∧ row.queueExpiresAt ≤ t.now then do
    let j ← terminal d t row .internalError (some .queueTimeout) j
    .ok (none, j)
  else if row.state ≠ .queued ∧ row.leaseExpiresAt.any (fun e => decide (t.now < e)) then
    .ok (none, j)
  else if row.cancellationRequestedAt.isSome then do
    let j ← terminal d t row .internalError (some .cancellationTimeout) j
    .ok (none, j)
  else if deadline row ≤ t.now ∨ maxAttempts ≤ row.attempt then do
    let j ← terminal d t row .internalError
      (some (if maxAttempts ≤ row.attempt then .leaseExpired else .jobTimeout)) j
    .ok (none, j)
  else do
    -- the local row starts the next attempt before the database does
    let row := { row with attempt := row.attempt + 1, lastSequence := 0, state := .compiling }
    let j := { j with events := [] }
    let (sequence, j) ← event t row (.executionStatus .compiling none) j
    let j ← j.update t
      { j.row with
        state := .compiling, attempt := row.attempt, lastSequence := sequence,
        leaseToken := some token,
        leaseExpiresAt := some (min (t.now + leaseMs) (deadline row)) }
    .ok (some { lease := ⟨id, row.attempt, token⟩, execution := j.row }, j)

/-- The end of a renewed lease: a pending cancellation caps it as well. -/
def renewalEnd (row : Execution) (now : Nat) : Nat :=
  match row.cancellationRequestedAt with
  | none => min (now + leaseMs) (deadline row)
  | some requested => min (min (now + leaseMs) (deadline row)) (requested + cancelGraceMs)

def renew (t : Moment) (lease : Lease) (j : Job) : Except Error (Renewal × Job) :=
  let row := j.row
  if valid row t.now lease = false then .ok (.lost, j)
  else if renewalEnd row t.now ≤ t.now then .ok (.lost, j)
  else do
    let j ← j.update t { j.row with leaseExpiresAt := some (renewalEnd row t.now) }
    .ok (if row.cancellationRequestedAt.isSome then .cancel else .active, j)

def markRunning (t : Moment) (lease : Lease) (j : Job) : Except Error (Bool × Job) :=
  let row := j.row
  if valid row t.now lease = false ∨ row.cancellationRequestedAt.isSome ∨
      row.state ≠ .compiling then .ok (false, j)
  else do
    let (sequence, j) ← event t row (.executionStatus .running none) j
    let j ← j.update t { j.row with state := .running, lastSequence := sequence }
    .ok (true, j)

/-- The arguments `console` throws on before it opens a transaction. -/
def consoleRejects (caseId : String) (text : String) : Bool :=
  !isUuid caseId || decide (4096 < byteLength text)

/-- The lookup `testCase.findFirst`: a `uuid` column compares by value. -/
def isPublicCase (d : Deployment) (versionId : Uuid) (caseId : String) : Bool :=
  (d.catalog.publicCases versionId).any fun id => Uuid.ofText? caseId = some id

def console (d : Deployment) (t : Moment) (lease : Lease) (caseId : String) (stream : Stream)
    (text : String) (j : Job) : Except Error (Bool × Job) :=
  let row := j.row
  if valid row t.now lease = false ∨ row.cancellationRequestedAt.isSome then .ok (false, j)
  else if row.mode ≠ .run ∨ isPublicCase d row.problemVersionId caseId = false then
    .error (.thrown "PRIVATE_OUTPUT_REJECTED")
  else do
    let (sequence, j) ← event t row (.consoleOutput caseId stream (safeConsole d text)) j
    let j ← j.update t { j.row with lastSequence := sequence }
    .ok (true, j)

/-- The exception `finish` throws on its argument before it opens a
    transaction. -/
def finishRejects (result : WorkerResult) : Option Error :=
  if resultSchema result = false then some .schema
  else if maxOutputBytes < byteLength result.toJson.stringify then
    some (.thrown "PUBLIC_RESULT_TOO_LARGE")
  else none

/-- The per-case results name distinct public cases of the pinned version:
    the set of texts has no repeats and the count in the table matches. -/
def publicResultsAllowed (d : Deployment) (row : Execution) (results : List PublicCaseResult) :
    Bool :=
  let ids := results.map (·.caseId)
  row.mode == .run && decide ids.Nodup &&
    ((d.catalog.publicCases row.problemVersionId).countP
      fun id => ids.any fun text => Uuid.ofText? text = some id) == ids.length

def sanitizeResult (d : Deployment) (r : PublicCaseResult) : PublicCaseResult :=
  { r with stdout := r.stdout.map (safeConsole d), stderr := r.stderr.map (safeConsole d) }

def finish (d : Deployment) (t : Moment) (lease : Lease) (result : WorkerResult) (j : Job) :
    Except Error (Bool × Job) :=
  let row := j.row
  if valid row t.now lease = false then .ok (false, j)
  else if row.cancellationRequestedAt.isSome then do
    let j ← terminal d t row .cancelled none j
    .ok (true, j)
  else if result.publicCaseResults.any (fun results => !publicResultsAllowed d row results) then
    .error (.thrown "PRIVATE_OUTPUT_REJECTED")
  else do
    let (seq, j) ← event t row (.finalVerdict .finished result.verdict none) j
    let results := result.publicCaseResults.map fun rs => rs.map (sanitizeResult d)
    let j ← notifyExecution d t row result.verdict j
    let j ← j.update t
      { j.row with
        state := .finished, verdict := some result.verdict, finishedAt := some t.app,
        lastSequence := seq, leaseToken := none, leaseExpiresAt := none,
        runtimeMs := result.runtimeMs.or j.row.runtimeMs,
        memoryKiB := result.memoryKiB.or j.row.memoryKiB,
        publicResults := results.or j.row.publicResults }
    .ok (true, j)

def fail (d : Deployment) (t : Moment) (lease : Lease) (cleanupConfirmed : Bool) (j : Job) :
    Except Error (Bool × Job) :=
  let row := j.row
  if valid row t.now lease = false then .ok (false, j)
  else do
    let requested := row.cancellationRequestedAt.isSome
    let j ← terminal d t row
      (if requested && cleanupConfirmed then .cancelled else .internalError)
      (if requested then (if cleanupConfirmed then none else some .cancellationTimeout)
        else some .jobFailure) j
    .ok (true, j)

/-- The recovery intent of an attempt. -/
def isRecovery (generation : Nat) (o : OutboxEvent) : Bool :=
  o.kind == .executionRecovery && o.generation == generation

/-- `outboxEvent.upsert` on the recovery intent of an attempt. -/
def upsertRecovery (t : Moment) (generation : Nat) (onConflict : OutboxEvent → OutboxEvent)
    (j : Job) : Except Error Job :=
  if j.outbox.any (isRecovery generation) then
    .ok { j with outbox := j.outbox.map fun o => if isRecovery generation o then onConflict o else o }
  else
    j.createOutbox
      { kind := .executionRecovery, generation := generation, createdAt := t.now,
        nextDispatchAt := t.now }

/-- Give the lease up for another attempt: it ends now, and the recovery
    intent of this attempt becomes due. -/
def recover (d : Deployment) (t : Moment) (lease : Lease) (j : Job) :
    Except Error (Bool × Job) :=
  let row := j.row
  if valid row t.now lease = false then .ok (false, j)
  else if row.cancellationRequestedAt.isSome then do
    let j ← terminal d t row .cancelled none j
    .ok (true, j)
  else if maxAttempts ≤ row.attempt then do
    let j ← terminal d t row .internalError (some .jobFailure) j
    .ok (true, j)
  else do
    let j ← j.update t { j.row with leaseExpiresAt := some t.now }
    let j ← upsertRecovery t row.attempt
      (fun o => { o with
        publishedAt := none, dispatchToken := none, dispatchExpiresAt := none,
        nextDispatchAt := t.now }) j
    .ok (true, j)

def notFound : Error :=
  .api 404 "NOT_FOUND" "Execution not found."

/-- A queued execution ends at once; an active one is asked to stop. -/
def cancel (d : Deployment) (t : Moment) (userId : Uuid) (activeAllowed : Bool) (j : Job) :
    Except Error (ExecutionReceipt × Job) :=
  let row := j.row
  if row.userId ≠ userId then .error notFound
  else if row.state = .queued then do
    let j ← terminal d t row .cancelled none j
    let j ← j.createOutbox
      { kind := .executionCancelled, createdAt := t.now, nextDispatchAt := t.now }
    .ok ({ executionId := row.id, state := .cancelled }, j)
  else if isTerminal row.state = false then
    if activeAllowed = false then
      .error (.api 503 "CANCELLATION_UNAVAILABLE"
        "Active runner cancellation is not available yet.")
    else if row.cancellationRequestedAt.isNone then do
      let (sequence, j) ← event t row (.executionStatus row.state (some true)) j
      let j ← j.update t
        { j.row with cancellationRequestedAt := some t.now, lastSequence := sequence }
      .ok ({ executionId := row.id, state := row.state, cancellationRequested := some true }, j)
    else
      .ok ({ executionId := row.id, state := row.state, cancellationRequested := some true }, j)
  else .ok ({ executionId := row.id, state := row.state }, j)

/-! ### Maintenance of one execution -/

/-- The rows `maintain` selects: an active execution whose lease has run out
    or whose cancellation has been pending for the whole grace period. -/
def maintainSelects (now : Nat) (row : Execution) : Bool :=
  (row.state == .compiling || row.state == .running) &&
    (row.leaseExpiresAt.any (fun e => decide (e ≤ now)) ||
      row.cancellationRequestedAt.any fun requested => decide (requested + 15000 ≤ now))

/-- What `maintain` does with a selected row. -/
def maintainRow (d : Deployment) (t : Moment) (j : Job) : Except Error Job :=
  let row := j.row
  if row.cancellationRequestedAt.isSome ∨ maxAttempts ≤ row.attempt ∨ deadline row ≤ t.now then
    terminal d t row .internalError
      (some (if row.cancellationRequestedAt.isSome then .cancellationTimeout
        else if maxAttempts ≤ row.attempt then .leaseExpired else .jobTimeout)) j
  else upsertRecovery t row.attempt id j

/-- A published intent that still has work to offer and is due again. -/
def reofferable (now : Nat) (row : Execution) (o : OutboxEvent) : Bool :=
  o.publishedAt.any (fun p => decide (p + 10000 < now)) &&
    ((row.state == .queued && o.kind == .executionCreated) ||
      ((row.state == .compiling || row.state == .running) &&
        row.leaseExpiresAt.any (fun e => decide (e ≤ now)) && isRecovery row.attempt o))

/-- Clear `publishedAt` of the chosen intents. -/
def reofferIntents (chosen : OutboxEvent → Bool) (j : Job) : Job :=
  { j with outbox := j.outbox.map fun o => if chosen o then { o with publishedAt := none } else o }

/-- Delete the expired events a bounded pass reaches. -/
def sweepEvents (now : Nat) (reached : ExecutionEvent → Bool) (j : Job) : Job :=
  { j with events := j.events.filter fun e => !(decide (e.expiresAt < now) && reached e) }

/-- The rows `expireQueuedJobs` selects, by the process clock. -/
def expireSelects (app : Nat) (row : Execution) : Bool :=
  row.state == .queued && decide (row.queueExpiresAt ≤ app)

/-- What `expireQueuedJobs` does with a selected row. It writes the final event
    and the row itself rather than through `terminal`. -/
def expireQueuedRow (t : Moment) (j : Job) : Except Error Job := do
  let row := j.row
  let (sequence, j) ← event t row
    (.finalVerdict .internalError .internalError (some .queueTimeout)) j
  let j ← j.update t
    { j.row with
      state := .internalError, verdict := some .internalError, failureCode := some .queueTimeout,
      finishedAt := some t.app, lastSequence := sequence }
  j.createOutbox { kind := .executionExpired, createdAt := t.now, nextDispatchAt := t.now }

end JobStore

end ArenaCore
