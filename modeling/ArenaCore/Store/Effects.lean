import Mathlib.Logic.Relation
import ArenaCore.Store.System

/-!
# What a Transaction Does to One Execution

Every invariant of the store is about one execution at a time, and every
operation, whatever it computes, changes an execution in one of a few ways.
`Grant` is the effect of a successful claim. `Quiet` lists all others: a
renewal, a status or console event, a terminal outcome, a lease given up, a
change of the outbox, a sweep of expired events. An operation that does
several of these in one transaction, as `maintain` does, is a chain of them.

`Store.StepEffect` makes one inversion lemma of these, and the invariants are
proved from that. Only here the operations are opened.

## Main definitions

* `Recordable`: When an event can be written.
* `Grant`, `Quiet`: The effects.
* `Intents`: How the outbox of an execution can change.

## Theorems

* `event_eq_ok`: An event is written exactly when it is recordable.
* `claim_effect` ... `maintainRow_effect`: One inversion per operation.
-/

namespace ArenaCore

open Transaction

variable {j j' : Job}

/-- A job after an event was inserted and the replay caps were applied. -/
def Job.record (e : ExecutionEvent) (j : Job) : Job :=
  Job.discard (overflow 0 0 ((e :: j.events).insertionSort newerFirst))
    { j with events := e :: j.events, journal := e :: j.journal }

/-- The unique key of an intent within its execution. -/
def OutboxEvent.key (o : OutboxEvent) : OutboxKind × Nat :=
  (o.kind, o.generation)

@[simp] theorem Job.record_row (e : ExecutionEvent) (j : Job) : (j.record e).row = j.row := rfl

@[simp] theorem Job.record_outbox (e : ExecutionEvent) (j : Job) :
    (j.record e).outbox = j.outbox := rfl

@[simp] theorem Job.record_journal (e : ExecutionEvent) (j : Job) :
    (j.record e).journal = e :: j.journal := rfl

@[simp] theorem Job.record_notifications (e : ExecutionEvent) (j : Job) :
    (j.record e).notifications = j.notifications := rfl

theorem Job.update_eq_ok {t : Moment} {new : Execution} :
    j.update t new = .ok j' ↔
      guardUpdate t.trigger j.row new = none ∧ j' = { j with row := new } := by
  unfold Job.update
  cases guardUpdate t.trigger j.row new with
  | none =>
      constructor
      · intro h; cases h; exact ⟨rfl, rfl⟩
      · rintro ⟨_, rfl⟩; rfl
  | some violation =>
      constructor
      · intro h; cases h
      · rintro ⟨h, _⟩; cases h

theorem Job.update_bind {α : Type} {t : Moment} {new : Execution} {f : Job → Except Error α} {a : α}
    (h : (j.update t new >>= f) = .ok a) : f { j with row := new } = .ok a := by
  obtain ⟨_, hupdate, h⟩ := bind_eq_ok.1 h
  obtain ⟨-, rfl⟩ := Job.update_eq_ok.1 hupdate
  exact h

theorem Job.createOutbox_eq_ok {o : OutboxEvent} :
    j.createOutbox o = .ok j' ↔
      o.key ∉ j.outbox.map OutboxEvent.key ∧ j' = { j with outbox := o :: j.outbox } := by
  have hkey : (j.outbox.any fun p => p.kind == o.kind && p.generation == o.generation) = true ↔
      o.key ∈ j.outbox.map OutboxEvent.key := by
    simp only [List.any_eq_true, Bool.and_eq_true, beq_iff_eq, List.mem_map, OutboxEvent.key,
      Prod.mk.injEq]
  unfold Job.createOutbox guardOutbox
  by_cases h : (j.outbox.any fun p => p.kind == o.kind && p.generation == o.generation) = true
  · rw [if_pos h]
    constructor
    · intro hc; cases hc
    · rintro ⟨hn, _⟩; exact absurd (hkey.mp h) hn
  · rw [if_neg h]
    constructor
    · intro hc; cases hc; exact ⟨fun hm => h (hkey.mpr hm), rfl⟩
    · rintro ⟨_, rfl⟩; rfl

namespace JobStore

variable {t : Moment} {row : Execution} {j j' : Job} {d : Deployment} {now : Nat} {lease : Lease}
  {b : Bool} {outcome : Outcome} {code : Option ExecutionFailureCode} {result : WorkerResult}

/-- The conditions under which `event` writes: the payload has the public
    shape and size, and the database accepts the row. -/
structure Recordable (t : Moment) (row : Execution) (fields : EventFields) (j : Job) : Prop where
  shape : publicExecutionEventSchema (nextPayload row fields) = true
  size : (nextEvent t row fields).bytes ≤ 16384
  accepted : guardEvent j.events (nextEvent t row fields) = none

theorem event_eq_ok {fields : EventFields} {seq : Nat} :
    event t row fields j = .ok (seq, j') ↔
      Recordable t row fields j ∧ seq = row.lastSequence + 1 ∧
        j' = j.record (nextEvent t row fields) := by
  unfold event Job.createEvent
  constructor
  · intro h
    split at h
    · cases h
    · rename_i hshape
      split at h
      · cases h
      · rename_i hsize
        rcases bind_eq_ok.mp h with ⟨j₁, hj₁, h₂⟩
        split at hj₁
        · rename_i hacc
          cases hj₁
          cases h₂
          exact ⟨⟨by simpa only [Bool.not_eq_false] using hshape, by omega, hacc⟩, rfl, rfl⟩
        · cases hj₁
  · rintro ⟨⟨hshape, hsize, hacc⟩, rfl, rfl⟩
    rw [if_neg (by rw [hshape]; decide), if_neg (by omega), hacc]
    rfl

theorem event_bind {α : Type} {fields : EventFields} {f : Nat × Job → Except Error α} {a : α}
    (h : (event t row fields j >>= f) = .ok a) : Recordable t row fields j ∧
      f (row.lastSequence + 1, j.record (nextEvent t row fields)) = .ok a := by
  obtain ⟨⟨_, _⟩, hevent, h⟩ := bind_eq_ok.1 h
  obtain ⟨hrecordable, rfl, rfl⟩ := event_eq_ok.1 hevent
  exact ⟨hrecordable, h⟩

/-- A notification never fails: the one verdict the database function rejects
    is filtered out before it is called. -/
theorem notifyExecution_eq (d : Deployment) (t : Moment) (row : Execution) (verdict : Verdict)
    (j : Job) : ∃ notices, notifyExecution d t row verdict j = .ok { j with notifications := notices } := by
  unfold notifyExecution
  cases row.leaseToken with
  | none => exact ⟨j.notifications, rfl⟩
  | some token =>
      simp only []
      by_cases hskip : row.mode ≠ .submit ∨ verdict = .cancelled
      · rw [if_pos hskip]
        exact ⟨j.notifications, rfl⟩
      · rw [if_neg hskip]
        have hv : verdict ≠ .cancelled := fun hc => hskip (Or.inr hc)
        unfold createExecutionResultNotification
        rw [if_neg hv]
        cases d.catalog j.row.problemVersionId with
        | none => exact ⟨j.notifications, rfl⟩
        | some version =>
            simp only []
            split
            · exact ⟨_, rfl⟩
            · exact ⟨j.notifications, rfl⟩

/-- The row a terminal outcome leaves behind. -/
def endedRow (t : Moment) (row : Execution) (outcome : Outcome)
    (code : Option ExecutionFailureCode) : Execution :=
  { row with
    state := outcome.state, verdict := some outcome.verdict, failureCode := code,
    finishedAt := some t.app, leaseToken := none, leaseExpiresAt := none,
    lastSequence := row.lastSequence + 1 }

/-- The event a terminal outcome is announced with. -/
def endedEvent (t : Moment) (row : Execution) (outcome : Outcome)
    (code : Option ExecutionFailureCode) : ExecutionEvent :=
  nextEvent t row (.finalVerdict outcome.state outcome.verdict code)

theorem terminal_effect (h : terminal d t j.row outcome code j = .ok j') :
    Recordable t j.row (.finalVerdict outcome.state outcome.verdict code) j ∧
      ∃ notices, j' = { j.record (endedEvent t j.row outcome code) with
        row := endedRow t j.row outcome code, notifications := notices } := by
  unfold terminal at h
  rcases event_bind h with ⟨hrec, h⟩
  rcases bind_eq_ok.mp h with ⟨j₂, hn, h⟩
  rcases notifyExecution_eq d t j.row outcome.verdict (j.record (nextEvent t j.row
    (.finalVerdict outcome.state outcome.verdict code))) with ⟨notices, hn'⟩
  rw [hn'] at hn
  cases hn
  rcases Job.update_eq_ok.mp h with ⟨_, rfl⟩
  exact ⟨hrec, notices, rfl⟩

/-! ### The effects -/

/-- When a claim may hand out a new attempt. -/
structure Claimable (row : Execution) (now : Nat) : Prop where
  nonterminal : isTerminal row.state = false
  inTime : row.state = .queued → now < row.queueExpiresAt
  expired : row.state ≠ .queued → ∀ e, row.leaseExpiresAt = some e → e ≤ now
  uncancelled : row.cancellationRequestedAt = none
  beforeDeadline : now < deadline row
  attemptsLeft : row.attempt < maxAttempts

/-- The local row a claim writes its first event from. -/
def restarted (row : Execution) : Execution :=
  { row with attempt := row.attempt + 1, lastSequence := 0, state := .compiling }

/-- The row a successful claim leaves behind. -/
def grantedRow (t : Moment) (token : Uuid) (row : Execution) : Execution :=
  { row with
    state := .compiling, attempt := row.attempt + 1, lastSequence := 1,
    leaseToken := some token, leaseExpiresAt := some (min (t.now + leaseMs) (deadline row)) }

/-- The event a new attempt starts with. -/
def grantedEvent (t : Moment) (row : Execution) : ExecutionEvent :=
  nextEvent t (restarted row) (.executionStatus .compiling none)

/-- A successful claim: the old events go, a new attempt begins. -/
structure Grant (t : Moment) (token : Uuid) (j j' : Job) : Prop where
  claimable : Claimable j.row t.now
  recordable : Recordable t (restarted j.row) (.executionStatus .compiling none)
    { j with events := [] }
  result : j' = { Job.record (grantedEvent t j.row) { j with events := [] } with
    row := grantedRow t token j.row }

/-- When and how an execution may be ended. -/
structure Ends (row : Execution) (outcome : Outcome) (code : Option ExecutionFailureCode) :
    Prop where
  nonterminal : isTerminal row.state = false
  codeless : code = none ↔ outcome = .cancelled
  queueTimeout : code = some .queueTimeout → row.state = .queued
  pending : row.cancellationRequestedAt.isSome = true → row.state ≠ .queued →
    code = none ∨ code = some .cancellationTimeout

/-- How the outbox of an execution may change. -/
inductive Intents (j : Job) : List OutboxEvent → Prop where
  | kept {outbox : List OutboxEvent}
      (keys : outbox.map OutboxEvent.key = j.outbox.map OutboxEvent.key) : Intents j outbox
  | recovery {o : OutboxEvent} (key : o.key = (.executionRecovery, j.row.attempt))
      (active : j.row.state = .compiling ∨ j.row.state = .running)
      (fresh : o.key ∉ j.outbox.map OutboxEvent.key) : Intents j (o :: j.outbox)
  | closing {o : OutboxEvent} (key : o.key = (.executionCancelled, 0) ∨ o.key = (.executionExpired, 0))
      (terminal : isTerminal j.row.state = true)
      (fresh : o.key ∉ j.outbox.map OutboxEvent.key) : Intents j (o :: j.outbox)

/-- The row a finished execution leaves behind. -/
def finishedRow (d : Deployment) (t : Moment) (result : WorkerResult) (row : Execution) :
    Execution :=
  { row with
    state := .finished, verdict := some result.verdict, finishedAt := some t.app,
    lastSequence := row.lastSequence + 1, leaseToken := none, leaseExpiresAt := none,
    runtimeMs := result.runtimeMs.or row.runtimeMs,
    memoryKiB := result.memoryKiB.or row.memoryKiB,
    publicResults := (result.publicCaseResults.map fun rs => rs.map (sanitizeResult d)).or
      row.publicResults }

/-- Every other way an operation changes an execution. Only a call of `console`
    prints, and under the case it names. -/
inductive Quiet (d : Deployment) (t : Moment) (op : Op) : Job → Job → Prop where
  | renewed (j : Job) (lease : Lease) (authority : valid j.row t.now lease = true)
      (later : t.now < renewalEnd j.row t.now) :
      Quiet d t op j { j with row := { j.row with
        leaseExpiresAt := some (renewalEnd j.row t.now) } }
  | started (j : Job) (lease : Lease) (authority : valid j.row t.now lease = true)
      (uncancelled : j.row.cancellationRequestedAt = none) (compiling : j.row.state = .compiling)
      (recordable : Recordable t j.row (.executionStatus .running none) j) :
      Quiet d t op j { j.record (nextEvent t j.row (.executionStatus .running none)) with
        row := { j.row with state := .running, lastSequence := j.row.lastSequence + 1 } }
  | printed (j : Job) (lease : Lease) (caseId : String) (stream : Stream) (text : String)
      (authority : valid j.row t.now lease = true)
      (uncancelled : j.row.cancellationRequestedAt = none) (mode : j.row.mode = .run)
      (publicCase : isPublicCase d j.row.problemVersionId caseId = true)
      (recordable : Recordable t j.row (.consoleOutput caseId stream (safeConsole d text)) j)
      (call : op = .console lease caseId stream text) :
      Quiet d t op j
        { j.record (nextEvent t j.row (.consoleOutput caseId stream (safeConsole d text))) with
          row := { j.row with lastSequence := j.row.lastSequence + 1 } }
  | requested (j : Job) (active : j.row.state = .compiling ∨ j.row.state = .running)
      (uncancelled : j.row.cancellationRequestedAt = none)
      (recordable : Recordable t j.row (.executionStatus j.row.state (some true)) j) :
      Quiet d t op j { j.record (nextEvent t j.row (.executionStatus j.row.state (some true))) with
        row := { j.row with
          cancellationRequestedAt := some t.now, lastSequence := j.row.lastSequence + 1 } }
  | finished (j : Job) (lease : Lease) (result : WorkerResult) (notices : List Notification)
      (authority : valid j.row t.now lease = true)
      (uncancelled : j.row.cancellationRequestedAt = none)
      (shape : resultSchema result = true)
      (allowed : ∀ results, result.publicCaseResults = some results →
        publicResultsAllowed d j.row results = true)
      (recordable : Recordable t j.row (.finalVerdict .finished result.verdict none) j) :
      Quiet d t op j { j.record (nextEvent t j.row (.finalVerdict .finished result.verdict none)) with
        row := finishedRow d t result j.row, notifications := notices }
  | ended (j : Job) (outcome : Outcome) (code : Option ExecutionFailureCode)
      (notices : List Notification) (ends : Ends j.row outcome code)
      (recordable : Recordable t j.row (.finalVerdict outcome.state outcome.verdict code) j) :
      Quiet d t op j { j.record (endedEvent t j.row outcome code) with
        row := endedRow t j.row outcome code, notifications := notices }
  | expired (j : Job) (queued : j.row.state = .queued)
      (recordable : Recordable t j.row
        (.finalVerdict .internalError .internalError (some .queueTimeout)) j) :
      Quiet d t op j { j.record (nextEvent t j.row
          (.finalVerdict .internalError .internalError (some .queueTimeout))) with
        row := { j.row with
          state := .internalError, verdict := some .internalError,
          failureCode := some .queueTimeout, finishedAt := some t.app,
          lastSequence := j.row.lastSequence + 1 } }
  | yielded (j : Job) (lease : Lease) (authority : valid j.row t.now lease = true)
      (uncancelled : j.row.cancellationRequestedAt = none)
      (attemptsLeft : j.row.attempt < maxAttempts) :
      Quiet d t op j { j with row := { j.row with leaseExpiresAt := some t.now } }
  | intents (j : Job) (outbox : List OutboxEvent) (change : Intents j outbox) :
      Quiet d t op j { j with outbox := outbox }
  | swept (j : Job) (reached : ExecutionEvent → Bool) :
      Quiet d t op j (sweepEvents t.now reached j)

/-- A chain of quiet effects within one transaction. -/
abbrev Quiets (d : Deployment) (t : Moment) (op : Op) : Job → Job → Prop :=
  Relation.ReflTransGen (Quiet d t op)

variable {op : Op}

/-! ### One inversion per operation -/

/-- Facts a valid lease carries about its row. -/
theorem valid_iff :
    valid row now lease = true ↔
      (row.state = .compiling ∨ row.state = .running) ∧ row.attempt = lease.attempt ∧
        row.leaseToken = some lease.token ∧ (∃ e, row.leaseExpiresAt = some e ∧ now < e) ∧
        now < deadline row := by
  have hstate : (!isTerminal row.state && row.state != .queued) = true ↔
      (row.state = .compiling ∨ row.state = .running) := by
    cases row.state <;> decide
  have hlease : row.leaseExpiresAt.any (fun e => decide (now < e)) = true ↔
      ∃ e, row.leaseExpiresAt = some e ∧ now < e := by
    cases row.leaseExpiresAt <;> simp
  unfold valid
  simp only [Bool.and_eq_true, beq_iff_eq, decide_eq_true_eq] at hstate ⊢
  rw [hstate, hlease]
  tauto

theorem valid_active (h : valid row now lease = true) :
    row.state = .compiling ∨ row.state = .running :=
  (valid_iff.mp h).1

theorem active_not_terminal (h : row.state = .compiling ∨ row.state = .running) :
    isTerminal row.state = false := by
  rcases h with h | h <;> rw [h] <;> rfl

theorem active_ne_queued (h : row.state = .compiling ∨ row.state = .running) :
    row.state ≠ .queued := by
  rcases h with h | h <;> rw [h] <;> decide

/-- Ending a job through `terminal` is one quiet step. -/
theorem terminal_quiet (h : terminal d t j.row outcome code j = .ok j')
    (ends : Ends j.row outcome code) : Quiet d t op j j' := by
  rcases terminal_effect h with ⟨hrec, notices, rfl⟩
  exact Quiet.ended j outcome code notices ends hrec

/-- The last branch of `claim` is reached exactly by a claimable row. -/
theorem claimable_of_branches (hopen : isTerminal row.state = false)
    (hqueue : ¬ (row.state = .queued ∧ row.queueExpiresAt ≤ now))
    (hlease : ¬ (row.state ≠ .queued ∧ row.leaseExpiresAt.any (fun e => decide (now < e)) = true))
    (hcancel : ¬ row.cancellationRequestedAt.isSome = true)
    (hlimits : ¬ (deadline row ≤ now ∨ maxAttempts ≤ row.attempt)) : Claimable row now := by
  rw [not_or, not_le, not_le] at hlimits
  refine ⟨hopen, fun hqs => ?_, fun hqs e he => ?_, ?_, hlimits.1, hlimits.2⟩
  · by_contra hle
    exact hqueue ⟨hqs, Nat.le_of_not_lt hle⟩
  · by_contra hlt
    refine hlease ⟨hqs, ?_⟩
    rw [he]
    simpa only [Option.any_some, decide_eq_true_eq] using Nat.lt_of_not_le hlt
  · simpa only [Option.isSome_iff_ne_none, ne_eq, not_not] using hcancel

theorem claim_effect {id token : Uuid} {r : Option Claimed} (h : claim d t id token j = .ok (r, j')) :
    (r = none ∧ Quiets d t op j j') ∨
      (r = some ⟨⟨id, j.row.attempt + 1, token⟩, j'.row⟩ ∧ Grant t token j j') := by
  unfold claim at h
  simp only [] at h
  split at h
  · -- a terminal row is left alone
    cases h
    exact Or.inl ⟨rfl, .refl⟩
  rename_i hterm
  have hopen : isTerminal j.row.state = false := by simpa only [Bool.not_eq_true] using hterm
  split at h
  · rename_i hq
    rcases bind_eq_ok.mp h with ⟨j₁, hj₁, h⟩
    cases h
    refine Or.inl ⟨rfl, .single (terminal_quiet hj₁ ⟨hopen, ?_, fun _ => hq.1, ?_⟩)⟩
    · constructor <;> intro hc <;> cases hc
    · intro _ hnq; exact absurd hq.1 hnq
  rename_i hnq
  split at h
  · cases h
    exact Or.inl ⟨rfl, .refl⟩
  rename_i hexp
  split at h
  · rcases bind_eq_ok.mp h with ⟨j₁, hj₁, h⟩
    cases h
    refine Or.inl ⟨rfl, .single (terminal_quiet hj₁ ⟨hopen, ?_, ?_, fun _ _ => Or.inr rfl⟩)⟩
    · constructor <;> intro hc <;> cases hc
    · intro hc; cases hc
  rename_i hcan
  have hnone := Option.not_isSome_iff_eq_none.1 hcan
  split at h
  · rcases bind_eq_ok.mp h with ⟨j₁, hj₁, h⟩
    cases h
    refine Or.inl ⟨rfl, .single (terminal_quiet hj₁ ⟨hopen, ?_, ?_, ?_⟩)⟩
    · constructor <;> intro hc <;> cases hc
    · intro hc
      split at hc <;> cases hc
    · intro hsome
      rw [hnone] at hsome
      cases hsome
  rename_i hlim
  -- the remaining branch starts a new attempt
  rcases event_bind h with ⟨hrec, h⟩
  replace h := Job.update_bind h
  cases h
  exact Or.inr ⟨rfl, ⟨claimable_of_branches hopen hnq hexp hcan hlim, hrec, rfl⟩⟩

theorem renew_effect {r : Renewal} (d : Deployment) (h : renew t lease j = .ok (r, j')) :
    Quiets d t op j j' := by
  unfold renew at h
  simp only [] at h
  split at h
  · cases h; exact .refl
  rename_i hv
  split at h
  · cases h; exact .refl
  rename_i hend
  replace h := Job.update_bind h
  cases h
  exact .single (Quiet.renewed j lease (by simpa only [Bool.not_eq_false] using hv) (by omega))

theorem markRunning_effect (d : Deployment) (h : markRunning t lease j = .ok (b, j')) :
    Quiets d t op j j' := by
  unfold markRunning at h
  simp only [] at h
  split at h
  · cases h; exact .refl
  rename_i hcond
  simp only [not_or, Bool.not_eq_false, Option.isSome_iff_ne_none, ne_eq, not_not] at hcond
  rcases event_bind h with ⟨hrec, h⟩
  replace h := Job.update_bind h
  cases h
  exact .single (Quiet.started j lease hcond.1 hcond.2.1 hcond.2.2 hrec)

theorem console_effect {caseId text : String} {stream : Stream}
    (h : console d t lease caseId stream text j = .ok (b, j')) :
    Quiets d t (.console lease caseId stream text) j j' := by
  unfold console at h
  simp only [] at h
  split at h
  · cases h; exact .refl
  rename_i hcond
  split at h
  · cases h
  rename_i hpriv
  simp only [not_or, Bool.not_eq_false, Option.isSome_iff_ne_none, ne_eq, not_not] at hcond hpriv
  rcases event_bind h with ⟨hrec, h⟩
  replace h := Job.update_bind h
  cases h
  exact .single
    (Quiet.printed j lease caseId stream text hcond.1 hcond.2 hpriv.1 hpriv.2 hrec rfl)

/-- Ending a cancelled job whose worker has confirmed cleanup. -/
theorem ends_cancelled (h : isTerminal row.state = false) : Ends row .cancelled none :=
  ⟨h, by simp only, fun hc => (by cases hc), fun _ _ => Or.inl rfl⟩

/-- Ending a job as an infrastructure failure other than a queue timeout. -/
theorem ends_internal {code : ExecutionFailureCode} (h : isTerminal row.state = false)
    (hcode : code ≠ .queueTimeout)
    (hpending : row.cancellationRequestedAt.isSome = true → code = .cancellationTimeout) :
    Ends row .internalError (some code) :=
  ⟨h, by simp only [reduceCtorEq], fun hc => absurd (Option.some.inj hc) hcode,
    fun hs _ => Or.inr (by rw [hpending hs])⟩

theorem finishRejects_none (h : finishRejects result = none) :
    resultSchema result = true ∧ byteLength result.toJson.stringify ≤ maxOutputBytes := by
  unfold finishRejects at h
  split at h
  · cases h
  rename_i hshape
  split at h
  · cases h
  rename_i hsize
  exact ⟨by simpa only [Bool.not_eq_false] using hshape, Nat.le_of_not_lt hsize⟩

theorem finish_effect (hshape : resultSchema result = true)
    (h : finish d t lease result j = .ok (b, j')) : Quiets d t op j j' := by
  unfold finish at h
  simp only [] at h
  split at h
  · cases h; exact .refl
  rename_i hv
  have hauth := (Bool.not_eq_false _).mp hv
  split at h
  · rcases bind_eq_ok.mp h with ⟨j₁, hj₁, h⟩
    cases h
    exact .single (terminal_quiet hj₁ (ends_cancelled (active_not_terminal (valid_active hauth))))
  rename_i hcan
  split at h
  · cases h
  rename_i hpriv
  rcases event_bind h with ⟨hrec, h⟩
  rcases bind_eq_ok.mp h with ⟨j₂, hn, h⟩
  rcases notifyExecution_eq d t j.row result.verdict (j.record (nextEvent t j.row
    (.finalVerdict .finished result.verdict none))) with ⟨notices, hn'⟩
  rw [hn'] at hn
  cases hn
  replace h := Job.update_bind h
  cases h
  have hnone := Option.not_isSome_iff_eq_none.1 hcan
  refine .single (Quiet.finished j lease result notices hauth hnone hshape ?_ hrec)
  intro results hresults
  rw [hresults] at hpriv
  simpa only [Option.any_some, Bool.not_eq_true', Bool.not_eq_false] using hpriv

/-- The outcome `fail` chooses. -/
theorem fail_ends (hopen : isTerminal row.state = false) (cleanupConfirmed : Bool) :
    Ends row
      (if row.cancellationRequestedAt.isSome && cleanupConfirmed then .cancelled
        else .internalError)
      (if row.cancellationRequestedAt.isSome then
        (if cleanupConfirmed then none else some .cancellationTimeout) else some .jobFailure) := by
  cases hreq : row.cancellationRequestedAt.isSome with
  | false =>
      simp only [Bool.false_and, Bool.false_eq_true, if_false]
      exact ends_internal hopen (by decide) (fun hc => by rw [hreq] at hc; cases hc)
  | true =>
      cases cleanupConfirmed with
      | false =>
          simp only [Bool.and_false, Bool.false_eq_true, if_false, if_true]
          exact ends_internal hopen (by decide) (fun _ => rfl)
      | true =>
          simp only [Bool.and_self, if_true]
          exact ends_cancelled hopen

theorem fail_effect {cleanupConfirmed : Bool} (h : fail d t lease cleanupConfirmed j = .ok (b, j')) :
    Quiets d t op j j' := by
  unfold fail at h
  simp only [] at h
  split at h
  · cases h; exact .refl
  rename_i hv
  have hopen : isTerminal j.row.state = false :=
    active_not_terminal (valid_active (by simpa only [Bool.not_eq_false] using hv))
  rcases bind_eq_ok.mp h with ⟨j₁, hj₁, h⟩
  cases h
  exact .single (terminal_quiet hj₁ (fail_ends hopen cleanupConfirmed))

theorem upsertRecovery_effect {onConflict : OutboxEvent → OutboxEvent} (d : Deployment)
    (h : upsertRecovery t j.row.attempt onConflict j = .ok j')
    (hkey : ∀ o, (onConflict o).key = o.key)
    (hactive : j.row.state = .compiling ∨ j.row.state = .running) : Quiet d t op j j' := by
  unfold upsertRecovery at h
  split at h
  · cases h
    refine Quiet.intents j _ (Intents.kept ?_)
    rw [List.map_map]
    refine List.map_congr_left fun o _ => ?_
    simp only [Function.comp_apply]
    split
    · exact hkey o
    · rfl
  · rcases Job.createOutbox_eq_ok.mp h with ⟨hfresh, rfl⟩
    exact Quiet.intents j _ (Intents.recovery rfl hactive hfresh)

theorem recover_effect (h : recover d t lease j = .ok (b, j')) : Quiets d t op j j' := by
  unfold recover at h
  simp only [] at h
  split at h
  · cases h; exact .refl
  rename_i hv
  have hauth := (Bool.not_eq_false _).mp hv
  have hopen := active_not_terminal (valid_active hauth)
  split at h
  · rcases bind_eq_ok.mp h with ⟨j₁, hj₁, h⟩
    cases h
    exact .single (terminal_quiet hj₁ (ends_cancelled hopen))
  rename_i hcan
  have hnone := Option.not_isSome_iff_eq_none.1 hcan
  split at h
  · rcases bind_eq_ok.mp h with ⟨j₁, hj₁, h⟩
    cases h
    exact .single (terminal_quiet hj₁ (ends_internal hopen (by decide)
      (fun hc => by rw [hnone] at hc; cases hc)))
  rename_i hatt
  replace h := Job.update_bind h
  rcases bind_eq_ok.mp h with ⟨j₂, hups, h⟩
  cases h
  refine .tail (.single (Quiet.yielded j lease hauth hnone (Nat.lt_of_not_le hatt))) ?_
  have hactive := valid_active hauth
  exact upsertRecovery_effect (j := { j with row := { j.row with leaseExpiresAt := some t.now } })
    d hups (fun _ => rfl) hactive

theorem cancel_effect {userId : Uuid} {activeAllowed : Bool} {r : ExecutionReceipt}
    (h : cancel d t userId activeAllowed j = .ok (r, j')) : Quiets d t op j j' := by
  unfold cancel at h
  simp only [] at h
  split at h
  · cases h
  split at h
  · rename_i hq
    rcases bind_eq_ok.mp h with ⟨j₁, hj₁, h⟩
    rcases bind_eq_ok.mp h with ⟨j₂, ho, h⟩
    cases h
    rcases terminal_effect hj₁ with ⟨hrec, notices, rfl⟩
    rcases Job.createOutbox_eq_ok.mp ho with ⟨hfresh, rfl⟩
    have hends : Ends j.row .cancelled none := ends_cancelled (by rw [hq]; rfl)
    exact .tail (.single (Quiet.ended j .cancelled none notices hends hrec))
      (Quiet.intents _ _ (Intents.closing (Or.inl rfl) rfl hfresh))
  rename_i hq
  split at h
  · rename_i hopen
    split at h
    · cases h
    split at h
    · rename_i hnone
      rcases event_bind h with ⟨hrec, h⟩
      replace h := Job.update_bind h
      cases h
      have hactive : j.row.state = .compiling ∨ j.row.state = .running := by
        rcases (not_isTerminal_iff _).mp hopen with hc | hc
        · exact absurd hc hq
        · exact hc
      exact .single (Quiet.requested j hactive (by simpa using hnone) hrec)
    · cases h; exact .refl
  · cases h; exact .refl

theorem maintainSelects_active (h : maintainSelects now row = true) :
    row.state = .compiling ∨ row.state = .running := by
  simp only [maintainSelects, Bool.and_eq_true, Bool.or_eq_true, beq_iff_eq] at h
  exact h.1

theorem maintainRow_effect (hsel : maintainSelects t.now j.row = true)
    (h : maintainRow d t j = .ok j') : Quiet d t op j j' := by
  have hactive := maintainSelects_active hsel
  unfold maintainRow at h
  simp only [] at h
  split at h
  · refine terminal_quiet h (ends_internal (active_not_terminal hactive) ?_ ?_)
    · split
      · decide
      · split <;> decide
    · intro hs
      rw [if_pos hs]
  · exact upsertRecovery_effect d h (fun _ => rfl) hactive

theorem expireQueuedRow_effect (hsel : expireSelects t.app j.row = true)
    (h : expireQueuedRow t j = .ok j') : Quiets d t op j j' := by
  simp only [expireSelects, Bool.and_eq_true, beq_iff_eq] at hsel
  unfold expireQueuedRow at h
  rcases event_bind h with ⟨hrec, h⟩
  replace h := Job.update_bind h
  rcases Job.createOutbox_eq_ok.mp h with ⟨hfresh, rfl⟩
  exact .tail (.single (Quiet.expired j hsel.1 hrec))
    (Quiet.intents _ _ (Intents.closing (Or.inr rfl) rfl hfresh))

theorem reofferIntents_effect (d : Deployment) (t : Moment) (chosen : OutboxEvent → Bool)
    (j : Job) : Quiet d t op j (reofferIntents chosen j) := by
  refine Quiet.intents j _ (Intents.kept ?_)
  rw [List.map_map]
  refine List.map_congr_left fun o _ => ?_
  simp only [Function.comp_apply]
  split <;> rfl

end JobStore

end ArenaCore
