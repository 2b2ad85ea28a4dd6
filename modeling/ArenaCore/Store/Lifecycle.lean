import ArenaCore.Store.StepEffect

/-!
# The Lifecycle of a Row

The invariant of a single `Execution` row, in two parts. `RequestInv` is about
the columns fixed at insertion and needs no argument beyond their being fixed.
`RowInv` ties the columns that change to the state: a queued row has never
been leased, an active one carries a lease that ends by the deadline, a
terminal one has given it up and carries exactly the outcome fields its state
calls for.

The bound on the lease is what limits the life of a job. Three operations
write a lease end and each takes its own minimum; the invariant is what the
three have in common.

## Main definitions

* `RequestInv`: The columns fixed at insertion.
* `Decided`: The outcome fields a terminal state calls for.
* `RowInv`: The columns that change.
* `Lifecycle`: Both, for the job under a key.

## Theorems

* `lifecycle_invariant`: The lifecycle is a job invariant.
* `lifecycle_run`: It holds of every job of every run.
-/

namespace ArenaCore

open JobStore

variable {t : Moment} {d : Deployment} {j : Job} {j' : Job} {id : Uuid}

namespace JobStore

variable {d : Deployment} {t : Moment} {op : Op} {j j' : Job}

theorem Quiet.request (h : Quiet d t op j j') : j'.row.request = j.row.request := by
  cases h <;> rfl

theorem Quiets.request (h : Quiets d t op j j') : j'.row.request = j.row.request := by
  induction h with
  | refl => rfl
  | tail _ hlast ih => rw [hlast.request, ih]

/-- Only a claim starts an attempt. -/
theorem Quiet.attempt (h : Quiet d t op j j') : j'.row.attempt = j.row.attempt := by
  cases h <;> rfl

theorem Quiets.attempt (h : Quiets d t op j j') : j'.row.attempt = j.row.attempt := by
  induction h with
  | refl => rfl
  | tail _ hlast ih => rw [hlast.attempt, ih]

theorem Grant.request {token : Uuid} (h : Grant t token j j') : j'.row.request = j.row.request := by
  rw [h.result]
  rfl

end JobStore

/-- What insertion establishes about the columns that never change. -/
structure RequestInv (d : Deployment) (id : Uuid) (request : RequestColumns) : Prop where
  key : request.id = id
  published : (d.catalog request.problemVersionId).isSome = true
  sourceBytes : 1 ≤ byteLength request.sourceCode ∧ byteLength request.sourceCode ≤ 65536
  queueDeadline : request.createdAt < request.queueExpiresAt

/-- The outcome fields that go with a terminal state. -/
def Decided (row : Execution) : Prop :=
  row.finishedAt.isSome = true ∧
    match row.state with
    | .finished => (∃ v, row.verdict = some v ∧ v.learner = true) ∧ row.failureCode = none
    | .cancelled => row.verdict = some .cancelled ∧ row.failureCode = none
    | .internalError => row.verdict = some .internalError ∧ row.failureCode.isSome = true
    | _ => False

/-- What the state of a row says about its other columns. -/
structure RowInv (clock : Nat) (row : Execution) : Prop where
  attempts : row.attempt ≤ maxAttempts
  undecided : isTerminal row.state = false → row.verdict = none ∧ row.finishedAt = none ∧
    row.failureCode = none ∧ row.runtimeMs = none ∧ row.memoryKiB = none ∧ row.publicResults = none
  waiting : row.state = .queued → row.attempt = 0 ∧ row.leaseToken = none ∧
    row.leaseExpiresAt = none ∧ row.cancellationRequestedAt = none
  leased : row.state = .compiling ∨ row.state = .running → 1 ≤ row.attempt ∧
    (∃ token, row.leaseToken = some token) ∧ ∃ e, row.leaseExpiresAt = some e ∧ e ≤ deadline row
  released : isTerminal row.state = true → row.leaseToken = none ∧ row.leaseExpiresAt = none
  decided : isTerminal row.state = true → Decided row
  requestedAt : ∀ r, row.cancellationRequestedAt = some r → r ≤ clock

/-- The lifecycle invariant of the job under a key. -/
structure Lifecycle (d : Deployment) (id : Uuid) (clock : Nat) (j : Job) : Prop where
  request : RequestInv d id j.row.request
  row : RowInv clock j.row

namespace RowInv

variable {clock : Nat} {row : Execution}

theorem later {clock' : Nat} (hle : clock ≤ clock') (h : RowInv clock row) : RowInv clock' row :=
  { h with requestedAt := fun r hr => Nat.le_trans (h.requestedAt r hr) hle }

/-- An open row is queued or carries a lease. -/
theorem nonterminal_cases (hopen : isTerminal row.state = false) :
    row.state = .queued ∨ row.state = .compiling ∨ row.state = .running :=
  (not_isTerminal_iff row.state).mp hopen

/-- A pending cancellation is about an active row. -/
theorem active_of_requested (h : RowInv clock row) (hopen : isTerminal row.state = false)
    (hreq : row.cancellationRequestedAt.isSome = true) :
    row.state = .compiling ∨ row.state = .running := by
  rcases nonterminal_cases hopen with hq | hactive
  · rw [(h.waiting hq).2.2.2] at hreq
    cases hreq
  · exact hactive

/-- The invariant of an active row, from the columns it is about. -/
theorem of_active (hactive : row.state = .compiling ∨ row.state = .running)
    (hattempts : 1 ≤ row.attempt ∧ row.attempt ≤ maxAttempts)
    (hundecided : row.verdict = none ∧ row.finishedAt = none ∧ row.failureCode = none ∧
      row.runtimeMs = none ∧ row.memoryKiB = none ∧ row.publicResults = none)
    (htoken : ∃ token, row.leaseToken = some token)
    (hend : ∃ e, row.leaseExpiresAt = some e ∧ e ≤ deadline row)
    (hrequested : ∀ r, row.cancellationRequestedAt = some r → r ≤ clock) : RowInv clock row := by
  have hopen := active_not_terminal hactive
  constructor
  · exact hattempts.2
  · exact fun _ => hundecided
  · exact fun hq => absurd hq (active_ne_queued hactive)
  · exact fun _ => ⟨hattempts.1, htoken, hend⟩
  · intro hterm; rw [hopen] at hterm; cases hterm
  · intro hterm; rw [hopen] at hterm; cases hterm
  · exact hrequested

/-- The invariant of a terminal row, from the columns it is about. -/
theorem of_terminal (hattempts : row.attempt ≤ maxAttempts)
    (hreleased : row.leaseToken = none ∧ row.leaseExpiresAt = none) (hdecided : Decided row)
    (hrequested : ∀ r, row.cancellationRequestedAt = some r → r ≤ clock) : RowInv clock row := by
  have hterm : isTerminal row.state = true := by
    have hmatch := hdecided.2
    cases hstate : row.state <;> rw [hstate] at hmatch <;> first | rfl | exact hmatch.elim
  constructor
  · exact hattempts
  · intro hopen; rw [hterm] at hopen; cases hopen
  · intro hq; rw [hq] at hterm; cases hterm
  · intro hactive; rw [active_not_terminal hactive] at hterm; cases hterm
  · exact fun _ => hreleased
  · exact fun _ => hdecided
  · exact hrequested

/-- What an active row brings to the row that replaces it. -/
theorem active_columns (h : RowInv clock row)
    (hactive : row.state = .compiling ∨ row.state = .running) :
    (1 ≤ row.attempt ∧ row.attempt ≤ maxAttempts) ∧
      (row.verdict = none ∧ row.finishedAt = none ∧ row.failureCode = none ∧
        row.runtimeMs = none ∧ row.memoryKiB = none ∧ row.publicResults = none) ∧
      (∃ token, row.leaseToken = some token) ∧
      ∃ e, row.leaseExpiresAt = some e ∧ e ≤ deadline row :=
  ⟨⟨(h.leased hactive).1, h.attempts⟩, h.undecided (active_not_terminal hactive),
    (h.leased hactive).2.1, (h.leased hactive).2.2⟩

end RowInv

/-- A renewed lease ends by the deadline. -/
theorem renewalEnd_le_deadline (row : Execution) (now : Nat) :
    renewalEnd row now ≤ deadline row := by
  unfold renewalEnd
  cases row.cancellationRequestedAt with
  | none => exact Nat.min_le_right _ _
  | some r => exact Nat.le_trans (Nat.min_le_left _ _) (Nat.min_le_right _ _)

/-- The outcome fields `terminal` writes. -/
theorem endedRow_decided {row : Execution} {outcome : Outcome} {code : Option ExecutionFailureCode}
    (h : Ends row outcome code) : Decided (endedRow t row outcome code) := by
  refine ⟨rfl, ?_⟩
  cases outcome with
  | internalError =>
      refine ⟨rfl, Option.isSome_iff_ne_none.mpr fun hnone => ?_⟩
      exact absurd (h.codeless.mp hnone) (by decide)
  | cancelled => exact ⟨rfl, h.codeless.mpr rfl⟩

theorem JobStore.Quiet.rowInv {op : Op} (step : Quiet d t op j j') (h : RowInv t.now j.row) :
    RowInv t.now j'.row := by
  cases step with
  | renewed lease authority later =>
      have hactive := valid_active authority
      rcases h.active_columns hactive with ⟨hatt, hopen, htok, _⟩
      exact .of_active hactive hatt hopen htok
        ⟨_, rfl, renewalEnd_le_deadline j.row t.now⟩ h.requestedAt
  | started lease authority uncancelled compiling recordable =>
      rcases h.active_columns (valid_active authority) with ⟨hatt, hopen, htok, hend⟩
      exact .of_active (Or.inr rfl) hatt hopen htok hend h.requestedAt
  | printed lease caseId stream text authority uncancelled mode publicCase recordable =>
      have hactive := valid_active authority
      rcases h.active_columns hactive with ⟨hatt, hopen, htok, hend⟩
      exact .of_active hactive hatt hopen htok hend h.requestedAt
  | requested active uncancelled recordable =>
      rcases h.active_columns active with ⟨hatt, hopen, htok, hend⟩
      refine .of_active active hatt hopen htok hend fun r hr => ?_
      cases hr
      exact Nat.le_refl _
  | finished lease result notices authority uncancelled shape allowed recordable =>
      rcases h.active_columns (valid_active authority) with ⟨hatt, hopen, _, _⟩
      refine .of_terminal hatt.2 ⟨rfl, rfl⟩ ⟨rfl, ⟨_, rfl, ?_⟩, hopen.2.2.1⟩ h.requestedAt
      simp only [resultSchema, Bool.and_eq_true] at shape
      exact shape.1.1.1
  | ended outcome code notices ends recordable =>
      exact .of_terminal h.attempts ⟨rfl, rfl⟩ (endedRow_decided ends) h.requestedAt
  | expired queued recordable =>
      have hwait := h.waiting queued
      exact .of_terminal h.attempts ⟨hwait.2.1, hwait.2.2.1⟩ ⟨rfl, rfl, rfl⟩ h.requestedAt
  | yielded lease authority uncancelled attemptsLeft =>
      have hactive := valid_active authority
      rcases h.active_columns hactive with ⟨hatt, hopen, htok, _⟩
      refine .of_active hactive hatt hopen htok ⟨_, rfl, ?_⟩ h.requestedAt
      exact Nat.le_of_lt (valid_iff.mp authority).2.2.2.2
  | intents outbox change => exact h
  | swept reached => exact h

theorem JobStore.Grant.rowInv {token : Uuid} (grant : Grant t token j j') (h : RowInv t.now j.row) :
    RowInv t.now j'.row := by
  rw [grant.result]
  refine .of_active (Or.inl rfl) ⟨Nat.le_add_left 1 _, grant.claimable.attemptsLeft⟩
    (h.undecided grant.claimable.nonterminal) ⟨token, rfl⟩ ⟨_, rfl, Nat.min_le_right _ _⟩ ?_
  exact h.requestedAt

/-- Insertion establishes what the request columns promise. -/
theorem Created.requestInv (new : Created d t id j) : RequestInv d id j.row.request := by
  rcases new with ⟨call, versionId, round, hid, hver, ⟨haccepted, _, rfl⟩⟩
  have hchecks := (guardInsert_eq_none.mp haccepted).2
  simp only [executionChecks, List.forall_mem_cons, Sql.checks_some, decide_eq_true_eq] at hchecks
  rcases hchecks with ⟨_, hsource, _, _, _, _, hqueue, _⟩
  exact ⟨hid, hver, hsource, hqueue⟩

theorem newRow_rowInv (d : Deployment) (t : Moment) (call : CreateCall) (versionId : Uuid)
    (round : Option Uuid) : RowInv t.now (Executions.newRow d t call versionId round) := by
  constructor
  · exact Nat.zero_le _
  · exact fun _ => ⟨rfl, rfl, rfl, rfl, rfl, rfl⟩
  · exact fun _ => ⟨rfl, rfl, rfl, rfl⟩
  · rintro (h | h) <;> cases h
  · intro h; cases h
  · intro h; cases h
  · intro r h; cases h

theorem Created.rowInv (new : Created d t id j) : RowInv t.now j.row := by
  rcases new with ⟨call, versionId, round, _, _, ⟨_, _, rfl⟩⟩
  have h := newRow_rowInv d t call versionId round
  exact ⟨h.attempts, h.undecided, h.waiting, h.leased, h.released, h.decided, h.requestedAt⟩

theorem lifecycle_invariant (d : Deployment) : JobInvariant d (Lifecycle d) where
  later hle h := ⟨h.request, h.row.later hle⟩
  created new := ⟨new.requestInv, new.rowInv⟩
  granted grant h := ⟨grant.request ▸ h.request, grant.rowInv h.row⟩
  quiet step h := ⟨step.request ▸ h.request, step.rowInv h.row⟩

/-- The lifecycle invariant holds of every job of every run. -/
theorem lifecycle_run (d : Deployment) (calls : List Call) (id : Uuid) (j : Job)
    (hj : (Store.run d calls).jobs.lookup id = some j) :
    Lifecycle d id (Store.run d calls).clock j :=
  (lifecycle_invariant d).run calls id j hj

end ArenaCore
