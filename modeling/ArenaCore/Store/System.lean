import ArenaCore.Lib.Runs
import ArenaCore.Store.Create

/-!
# Runs of the Store

The store as a machine. A `Call` is one transaction: how far the database
clock moved since the previous one, what the other clocks show, and the
operation with its arguments. Calls are atomic, since each holds the row lock
of what it writes until it commits, so a list of calls is an interleaving and
quantifying over lists is quantifying over schedules. The clock moves by an
amount and can therefore never go backwards.

Maintenance passes are bounded and skip rows that are locked elsewhere. Which
rows those are, the order in which an unordered `SELECT ... LIMIT` meets its
candidates, and which expired events a bounded delete reaches are all outside
the program's control, so a call to `maintain` carries them.

## Main definitions

* `Op`, `Call`: Operations and when they run.
* `Answer`: What a call returns.
* `maintain`, `expireQueuedJobs`: The maintenance passes over the whole store.
* `step`: One transaction.
* `Store.run`: The store after a list of calls, from empty tables.
* `Sample`: A deployment small enough to evaluate.
-/

namespace ArenaCore

/-- An intent of the outbox, named by its unique key. -/
structure IntentKey where
  executionId : Uuid
  kind : OutboxKind
  generation : Nat
deriving DecidableEq

/-- What the environment decides about one maintenance pass. -/
structure Pass where
  /-- Executions another transaction has locked. -/
  locked : List Uuid := []
  /-- Intents another transaction has locked. -/
  lockedIntents : List IntentKey := []
  /-- The order in which the unordered re-offer query meets its candidates. -/
  scan : List IntentKey := []
  /-- The expired events the bounded delete reaches. -/
  reached : Uuid → ExecutionEvent → Bool := fun _ _ => true

inductive Op where
  | create (call : CreateCall)
  | claim (id token : Uuid)
  | renew (lease : Lease)
  | markRunning (lease : Lease)
  | console (lease : Lease) (caseId : String) (stream : Stream) (text : String)
  | finish (lease : Lease) (result : WorkerResult)
  | fail (lease : Lease) (cleanupConfirmed : Bool)
  | recover (lease : Lease)
  | cancel (userId id : Uuid) (activeAllowed : Bool)
  | maintain (pass : Pass)
  | expireQueuedJobs (locked : List Uuid)

/-- One transaction: the time since the previous one, the clocks it sees, and
    what it does. The trigger reads its clock `lag` after the row was read. -/
structure Call where
  elapsed : Nat := 0
  app : Nat := 0
  lag : Nat := 0
  productNotifications : Uuid → Bool := fun _ => true
  op : Op

inductive Answer where
  | receipt (receipt : ExecutionReceipt)
  | claimed (claimed : Option JobStore.Claimed)
  | renewal (renewal : Renewal)
  | flag (b : Bool)
  | count (n : Nat)
  | done

/-- The moment at which a call runs. -/
def Call.moment (s : Store) (call : Call) : Moment where
  now := s.clock + call.elapsed
  app := call.app
  trigger := s.clock + call.elapsed + call.lag
  productNotifications := call.productNotifications

namespace JobStore

/-- Ascending order of a nullable column: `NULL` comes last. -/
def nullsLast : Option Nat → Option Nat → Bool
  | some x, some y => decide (x ≤ y)
  | _, none => true
  | none, some _ => false

/-- Earlier lease ends come first. -/
def leaseBefore (a b : Sigma fun _ : Uuid => Job) : Prop :=
  nullsLast a.2.row.leaseExpiresAt b.2.row.leaseExpiresAt = true

instance : DecidableRel leaseBefore := fun a b =>
  inferInstanceAs (Decidable (nullsLast a.2.row.leaseExpiresAt b.2.row.leaseExpiresAt = true))

/-- The rows one pass of `maintain` locks: at most a hundred, by lease end. -/
def maintainRows (now : Nat) (locked : List Uuid) (jobs : Table Uuid Job) : List Uuid :=
  (((jobs.entries.filter fun e => maintainSelects now e.2.row && !locked.contains e.1).insertionSort
    leaseBefore).take 100).map (·.1)

/-- The intents that may be offered again. -/
def reofferCandidates (now : Nat) (jobs : Table Uuid Job) : List IntentKey :=
  jobs.entries.flatMap fun e =>
    (e.2.outbox.filter (reofferable now e.2.row)).map fun o => ⟨e.1, o.kind, o.generation⟩

/-- The intents one pass offers again: at most a hundred, in scan order. -/
def reofferChosen (now : Nat) (pass : Pass) (jobs : Table Uuid Job) : List IntentKey :=
  ((pass.scan ++ reofferCandidates now jobs).dedup.filter fun key =>
    (reofferCandidates now jobs).contains key && !pass.lockedIntents.contains key).take 100

/-- Reconcile expired leases, offer stale intents again, drop expired events. -/
def maintain (d : Deployment) (t : Moment) (pass : Pass) (jobs : Table Uuid Job) :
    Except Error (Table Uuid Job) := do
  let jobs ← Table.forEach (maintainRow d t) (maintainRows t.now pass.locked jobs) jobs
  let chosen := reofferChosen t.now pass jobs
  let jobs := Table.mapValues
    (fun id j => reofferIntents (fun o => chosen.contains ⟨id, o.kind, o.generation⟩) j) jobs
  .ok (Table.mapValues (fun id j => sweepEvents t.now (pass.reached id) j) jobs)

/-- Earlier queue deadlines come first, then smaller identifiers. -/
def queuedBefore (a b : Sigma fun _ : Uuid => Job) : Prop :=
  a.2.row.queueExpiresAt < b.2.row.queueExpiresAt ∨
    (a.2.row.queueExpiresAt = b.2.row.queueExpiresAt ∧ ¬ b.1.text < a.1.text)

instance : DecidableRel queuedBefore := fun a b =>
  inferInstanceAs (Decidable (a.2.row.queueExpiresAt < b.2.row.queueExpiresAt ∨ _))

/-- The rows one pass of `expireQueuedJobs` locks. -/
def expireRows (app : Nat) (locked : List Uuid) (jobs : Table Uuid Job) : List Uuid :=
  (((jobs.entries.filter fun e => expireSelects app e.2.row && !locked.contains e.1).insertionSort
    queuedBefore).take 100).map (·.1)

/-- End the queued executions whose time in the queue is over. -/
def expireQueuedJobs (t : Moment) (locked : List Uuid) (jobs : Table Uuid Job) :
    Except Error (Nat × Table Uuid Job) := do
  let ids := expireRows t.app locked jobs
  let jobs ← Table.forEach (expireQueuedRow t) ids jobs
  .ok (ids.length, jobs)

/-- Run an operation on one locked row; a missing row has its own answer. -/
def onRow {α : Type} (id : Uuid) (absent : Except Error α)
    (body : Job → Except Error (α × Job)) (jobs : Table Uuid Job) :
    Except Error (α × Table Uuid Job) :=
  match jobs.lookup id with
  | none => absent.map fun a => (a, jobs)
  | some j => do
      let (a, j) ← body j
      .ok (a, Table.set id j jobs)

end JobStore

open JobStore in
/-- The body of an operation's transaction. -/
def Op.body (d : Deployment) (t : Moment) (s : Store) : Op → Except Error (Answer × Store)
  | .create call => (Executions.create d t call s).map fun (r, s) => (.receipt r, s)
  | .claim id token =>
      (onRow id (.ok none) (JobStore.claim d t id token) s.jobs).map fun (c, jobs) =>
        (.claimed c, { s with jobs := jobs })
  | .renew lease =>
      (onRow lease.executionId (.ok .lost) (JobStore.renew t lease) s.jobs).map fun (r, jobs) =>
        (.renewal r, { s with jobs := jobs })
  | .markRunning lease =>
      (onRow lease.executionId (.ok false) (JobStore.markRunning t lease) s.jobs).map
        fun (b, jobs) => (.flag b, { s with jobs := jobs })
  | .console lease caseId stream text =>
      if consoleRejects caseId text then .error (.thrown "INVALID_PUBLIC_OUTPUT")
      else
        (onRow lease.executionId (.ok false) (JobStore.console d t lease caseId stream text)
          s.jobs).map fun (b, jobs) => (.flag b, { s with jobs := jobs })
  | .finish lease result =>
      match finishRejects result with
      | some e => .error e
      | none =>
          (onRow lease.executionId (.ok false) (JobStore.finish d t lease result) s.jobs).map
            fun (b, jobs) => (.flag b, { s with jobs := jobs })
  | .fail lease cleanupConfirmed =>
      (onRow lease.executionId (.ok false) (JobStore.fail d t lease cleanupConfirmed) s.jobs).map
        fun (b, jobs) => (.flag b, { s with jobs := jobs })
  | .recover lease =>
      (onRow lease.executionId (.ok false) (JobStore.recover d t lease) s.jobs).map
        fun (b, jobs) => (.flag b, { s with jobs := jobs })
  | .cancel userId id activeAllowed =>
      (onRow id (.error notFound) (JobStore.cancel d t userId activeAllowed) s.jobs).map
        fun (r, jobs) => (.receipt r, { s with jobs := jobs })
  | .maintain pass =>
      (JobStore.maintain d t pass s.jobs).map fun jobs => (.done, { s with jobs := jobs })
  | .expireQueuedJobs locked =>
      (JobStore.expireQueuedJobs t locked s.jobs).map fun (n, jobs) =>
        (.count n, { s with jobs := jobs })

/-- One transaction: the clock moves, then the body commits or rolls back. -/
def step (d : Deployment) (s : Store) (call : Call) : Store × Except Error Answer :=
  let s' := { s with clock := s.clock + call.elapsed }
  Transaction.settle s' (call.op.body d (call.moment s) s')

/-- The store after a list of calls, from empty tables. -/
def Store.run (d : Deployment) (calls : List Call) : Store :=
  Runs.run (step d) {} calls

/-! ### A sample deployment

One problem version with a public and a hidden case, one owner, and the calls
that take a single execution through its life. -/

namespace Sample

/-- The identifiers of the sample end in a digit. -/
def uuid (n : Nat) (h : uuidShape isHexLower
    ("00000000-0000-4000-8000-00000000000" ++ toString n).toList = true := by decide) : Uuid :=
  ⟨_, h⟩

def problem : Uuid := uuid 1
def versionId : Uuid := uuid 2
def publicCase : Uuid := uuid 3
def hiddenCase : Uuid := uuid 4
def owner : Uuid := uuid 5
def execution : Uuid := uuid 6
def token : Uuid := uuid 7

def version : ProblemVersion where
  problemId := problem
  slug := "sum"
  title := "Sum"
  comparator := "EXACT_NEWLINE"
  timeMs := 1000
  memoryKiB := 65536
  testCases :=
    [{ id := publicCase, ordinal := 0, visibility := .publicCase, input := "1 2",
       expectedOutput := "3" },
     { id := hiddenCase, ordinal := 1, visibility := .hiddenCase, input := "2 2",
       expectedOutput := "4" }]
  distinct := by decide

def deployment : Deployment where
  config := ⟨true, 1, 1000, 10, 60, 300, "", 120⟩
  catalog := fun id => if id = versionId then some version else none
  stripVTControlCharacters := id
  sha256 := id
  hmacSha256 := fun key text => key ++ text

theorem problem_valid : isUuid problem.text = true := by
  decide

theorem program_nonempty : 0 < byteLength "print(3)" := by
  decide

theorem program_bounded : byteLength "print(3)" ≤ maxSourceBytes := by
  decide

/-- A request to run or submit a program. -/
def input (mode : ExecutionMode) : CreateExecution :=
  ⟨problem.text, .python, mode, "print(3)", none, program_nonempty, program_bounded,
    problem_valid⟩

/-- The owner submits a program. -/
def created (mode : ExecutionMode) : Call where
  elapsed := 1000
  app := 1000
  op := .create
    { userId := owner, input := input mode,
      key := "key", ip := "ip", id := execution,
      registry := ⟨fun _ => some versionId, fun _ => none⟩ }

/-- A worker takes the execution. -/
def claimed : Call where
  elapsed := 10
  app := 1010
  op := .claim execution token

/-- The first lease. -/
def lease : Lease := ⟨execution, 1, token⟩

/-- An operation the worker calls ten milliseconds later. -/
def acted (op : Op) : Call where
  elapsed := 10
  app := 1020
  op := op

end Sample

end ArenaCore
