import ArenaCore.Store.System

/-!
# Snapshots and Replay

What the owner of an execution reads. `publicSnapshot` turns a row into the
object the API returns, and `replay` answers a cursor, an attempt and a
sequence number, with the events after it. Replay does not trust the table: it
reads at most as many rows as the cap allows, checks each payload again, and
answers with events only if they are the whole stretch from the cursor to the
row's last number. Otherwise the reader gets the snapshot alone.

The identifier of the execution is the text the reader sent. The database
compares it as a `uuid`, the check of the payloads compares it as a text.

## Main definitions

* `publicResultsSchema`, `publicSnapshot`: The row as its owner sees it.
* `replayRowsAfter`: The rows a replay reads.
* `replay`: The answer to a cursor.
-/

namespace ArenaCore

/-- What the serializer asks of the stored results. -/
def publicResultsSchema (results : List PublicCaseResult) : Bool :=
  results.all fun r => r.exitCode.all isSafeInteger &&
    r.runtimeMs.all (fun x => decide (0 ≤ x)) && r.memoryKiB.all fun x => decide (0 ≤ x)

/-- The row as its owner sees it. Results of cases that are not public are
    dropped, even if they were stored. -/
def publicSnapshot (d : Deployment) (row : Execution) : Except Error ExecutionSnapshot :=
  match d.catalog row.problemVersionId with
  | none => .error (.thrown "Inconsistent query result")
  | some version =>
      let dto : ExecutionSnapshot :=
        { executionId := row.id, problemId := version.problemId, language := row.language,
          mode := row.mode, state := row.state, attempt := row.attempt,
          lastSequence := row.lastSequence,
          cancellationRequested := row.cancellationRequestedAt.map fun _ => true,
          verdict := row.verdict, runtimeMs := row.runtimeMs, memoryKiB := row.memoryKiB,
          failureCode := row.failureCode, publicCaseResults := none }
      match row.mode, row.publicResults with
      | .run, some results =>
          if publicResultsSchema results = false then .error .schema
          else
            let publicIds := (d.catalog.publicCases row.problemVersionId).map Uuid.text
            .ok { dto with
              publicCaseResults := some (results.filter fun r => publicIds.contains r.caseId) }
      | _, _ => .ok dto

/-- What a reader gets for a cursor. -/
structure Replay where
  snapshot : ExecutionSnapshot
  replayAvailable : Bool
  events : List PublicExecutionEvent
deriving DecidableEq

namespace JobStore

/-- Ascending sequence numbers. -/
def olderFirst (a b : ExecutionEvent) : Prop :=
  a.sequence ≤ b.sequence

instance : DecidableRel olderFirst := fun a b =>
  inferInstanceAs (Decidable (a.sequence ≤ b.sequence))

/-- The rows a replay reads: the current attempt after the cursor, not expired
    by the process clock, in order, up to the cap. -/
def replayRowsAfter (app : Nat) (after : Nat) (j : Job) : List ExecutionEvent :=
  ((j.events.filter fun e => decide (e.attempt = j.row.attempt) && decide (after < e.sequence) &&
    decide (app < e.expiresAt)).insertionSort olderFirst).take replayRows

/-- The check of one stored payload against the row it was read with. -/
def replaySafe (d : Deployment) (id : String) (row : Execution) (e : ExecutionEvent) : Bool :=
  publicExecutionEventSchema e.payload && e.payload.executionId == id &&
    e.payload.attempt == row.attempt && e.payload.sequence == e.sequence &&
    match e.payload.fields with
    | .consoleOutput caseId _ _ =>
        row.mode == .run &&
          ((d.catalog.publicCases row.problemVersionId).map Uuid.text).contains caseId
    | _ => true

/-- Whether the rows read are exactly what lies between the cursor and the
    row's last event. -/
def replayContiguous (d : Deployment) (id : String) (row : Execution) (attempt after : Nat)
    (events : List ExecutionEvent) : Bool :=
  events.all (replaySafe d id row) && attempt == row.attempt &&
    decide (after ≤ row.lastSequence) && events.length == row.lastSequence - after &&
    events.zipIdx.all fun (e, i) => e.sequence == after + i + 1

/-- The events after a cursor, or the snapshot alone if they cannot be given
    without a gap. -/
def replay (d : Deployment) (app : Nat) (userId : Uuid) (id : String) (attempt after : Nat)
    (s : Store) : Except Error Replay :=
  match Uuid.ofText? id with
  | none => .error (.thrown "invalid input syntax for type uuid")
  | some key =>
      match s.jobs.lookup key with
      | none => .error notFound
      | some j =>
          if j.row.userId ≠ userId then .error notFound
          else do
            let events := replayRowsAfter app after j
            let contiguous := replayContiguous d id j.row attempt after events
            let snapshot ← publicSnapshot d j.row
            .ok { snapshot := snapshot, replayAvailable := contiguous,
                  events := if contiguous then events.map (·.payload) else [] }

end JobStore

end ArenaCore
