import ArenaCore.Store.Admissible
import ArenaCore.Store.Fencing
import ArenaCore.Store.Intents
import ArenaCore.Store.Stream

/-!
# The Store Refines the Database Guard

The lifecycle is described twice: by the operations of the store, and by the
trigger, constraints and unique keys of the database. The second is a safety
net, and here it is shown never to catch anything. From every reachable state,
every row and event an operation writes is one the guard lets through, so no
operation is ever aborted by it.

`Admissible` has done this for the effects. What remains is to walk the
operations and find that whatever they write is such an effect, that the
number of the event they append is free, and that so is the key of the intent
they add.

What the program cannot see is assumed of the call: generated identifiers do
not repeat, a new row's deadline lies ahead of the database clock, and a
worker's metrics fit their columns.

## Main definitions

* `JobInv`: All invariants of a job.
* `Unguarded`: A computation that is not aborted by the guard.
* `Generated`: The identifiers a run generates do not repeat.
* `CallFits`: What is assumed of one call.

## Theorems

* `claim_unguarded` ... `create_unguarded`: One lemma per operation.
* `known_run`: The identifiers in the tables were generated by earlier calls.
* `never_aborted`: No step of any run is aborted by the guard.
-/

namespace ArenaCore

open JobStore Sql Transaction

variable {j : Job} {jobs : Table Uuid Job} {s : Store} {t : Moment} {row : Execution} {clock : Nat}
  {id : Uuid} {result : WorkerResult}

/-! ### Operations on one row -/

/-- All invariants of a job that its operations rely on. -/
structure JobInv (d : Deployment) (id : Uuid) (clock : Nat) (j : Job) : Prop where
  lifecycle : Lifecycle d id clock j
  stream : StreamInv clock j
  outbox : OutboxInv j

theorem job_invariant (d : Deployment) : JobInvariant d (JobInv d) where
  later hle h := ⟨(lifecycle_invariant d).later hle h.lifecycle, h.stream.later hle, h.outbox⟩
  created new := ⟨(lifecycle_invariant d).created new, new.streamInv, new.outboxInv⟩
  granted grant h := ⟨(lifecycle_invariant d).granted grant h.lifecycle, grant.streamInv h.stream,
    grant.outboxInv h.outbox⟩
  quiet step h := ⟨(lifecycle_invariant d).quiet step h.lifecycle, step.streamInv h.stream,
    step.outboxInv h.lifecycle.row h.outbox⟩

/-- A computation the guard does not abort. -/
def Unguarded {α : Type} (r : Except Error α) : Prop :=
  ∀ violation, r ≠ .error (.guard violation)

namespace Unguarded

variable {α β : Type} {x : Except Error α}

theorem ok (a : α) : Unguarded (.ok a : Except Error α) := fun _ h => nomatch h

theorem of_ok {r : Except Error α} (h : ∃ a, r = .ok a) : Unguarded r := by
  rcases h with ⟨a, rfl⟩
  exact ok a

theorem bind {f : α → Except Error β} (hx : Unguarded x) (hf : ∀ a, x = .ok a → Unguarded (f a)) :
    Unguarded (x >>= f) := by
  intro violation h
  rcases bind_eq_error.mp h with herr | ⟨a, ha, herr⟩
  · exact hx violation herr
  · exact hf a ha violation herr

theorem map (f : α → β) (hx : Unguarded x) : Unguarded (x.map f) := by
  cases x with
  | ok a => exact ok _
  | error e =>
      intro violation h
      cases h
      exact hx violation rfl

end Unguarded

theorem event_unguarded {fields : EventFields}
    (h : ∀ e ∈ j.events, e.attempt = row.attempt → e.sequence ≠ row.lastSequence + 1) :
    Unguarded (event t row fields j) := by
  by_cases hshape : publicExecutionEventSchema (nextPayload row fields) = false
  · rw [event, if_pos hshape]
    exact fun _ hc => nomatch hc
  by_cases hsize : 16384 < (nextEvent t row fields).bytes
  · rw [event, if_neg hshape, if_pos hsize]
    exact fun _ hc => nomatch hc
  · have hle := Nat.le_of_not_lt hsize
    exact .of_ok ⟨_, event_eq_ok.mpr ⟨⟨by simpa only [Bool.not_eq_false] using hshape, hle,
      guardEvent_eq_none.mpr ⟨Nat.succ_pos _, nextEvent_bytes_pos t _ _, hle, h⟩⟩, rfl, rfl⟩⟩

/-- The next number of the attempt is free. -/
theorem StreamInv.next_free (h : StreamInv clock j) :
    ∀ e ∈ j.events, e.attempt = j.row.attempt → e.sequence ≠ j.row.lastSequence + 1 :=
  fun _ he _ => Nat.ne_of_lt (Nat.lt_succ_of_le (h.sequence_bounds (h.table.subset he)).2)

theorem update_unguarded {new : Execution} (h : guardUpdate t.trigger j.row new = none) :
    Unguarded (j.update t new) :=
  .of_ok ⟨_, Job.update_eq_ok.mpr ⟨h, rfl⟩⟩

/-- The metrics of an open row are not set, so they fit. -/
theorem open_range {d : Deployment} (h : Lifecycle d id clock j)
    (hopen : isTerminal j.row.state = false) :
    checks (Truth.and (fitsInteger j.row.runtimeMs) (fitsInteger j.row.memoryKiB)) = true := by
  rcases h.row.undecided hopen with ⟨_, _, _, hr, hm, _⟩
  rw [hr, hm]
  rfl

variable {d : Deployment} {t : Moment} {id : Uuid} {j : Job}

section

variable (h : JobInv d id t.now j)

include h

/-- An open row can always be ended. -/
theorem terminal_ok {outcome : Outcome} {code : Option ExecutionFailureCode}
    (ends : Ends j.row outcome code) : ∃ j', terminal d t j.row outcome code j = .ok j' := by
  have hrec : Recordable t j.row (.finalVerdict outcome.state outcome.verdict code) j :=
    recordable_of_kind h.stream t nofun
  rcases notifyExecution_eq d t j.row outcome.verdict
    (j.record (endedEvent t j.row outcome code)) with ⟨notices, hnotify⟩
  have hrange := open_range h.lifecycle ends.nonterminal
  have hguard := (Quiet.ended (d := d) j outcome code notices ends hrec).accepted (.maintain {})
    h.lifecycle ends.nonterminal hrange
  refine ⟨_, bind_eq_ok.mpr ⟨_, event_eq_ok.mpr ⟨hrec, rfl, rfl⟩, bind_eq_ok.mpr
    ⟨_, hnotify, Job.update_eq_ok.mpr ⟨hguard, rfl⟩⟩⟩⟩

theorem claim_unguarded (hclock : t.now ≤ t.trigger) {token : Uuid}
    (hfresh : j.row.leaseToken ≠ some token) : Unguarded (claim d t id token j) := by
  unfold claim
  simp only []
  split
  · exact .ok _
  rename_i hterm
  have hopen : isTerminal j.row.state = false := by simpa only [Bool.not_eq_true] using hterm
  split
  · rename_i hq
    exact .bind (.of_ok (terminal_ok h ⟨hopen, by simp only [reduceCtorEq], fun _ => hq.1,
      fun _ hne => absurd hq.1 hne⟩)) fun _ _ => .ok _
  rename_i hnq
  split
  · exact .ok _
  rename_i hexp
  split
  · exact .bind (.of_ok (terminal_ok h (ends_internal hopen (by decide) fun _ => rfl)))
      fun _ _ => .ok _
  rename_i hcan
  have hnone := Option.not_isSome_iff_eq_none.1 hcan
  split
  · refine .bind (.of_ok (terminal_ok h (ends_internal hopen ?_ ?_))) fun _ _ => .ok _
    · split <;> decide
    · intro hsome
      rw [hnone] at hsome
      cases hsome
  rename_i hlim
  have hclaim := claimable_of_branches hopen hnq hexp hcan hlim
  refine .bind (event_unguarded fun e he => by cases he) fun r hr => ?_
  rcases r with ⟨seq, j₁⟩
  rcases event_eq_ok.mp hr with ⟨_, rfl, rfl⟩
  refine .bind (update_unguarded ?_) fun _ _ => .ok _
  simp only [Job.record_row]
  exact grant_accepted h.lifecycle hclaim hclock hfresh

theorem renew_unguarded (lease : Lease) : Unguarded (renew t lease j) := by
  unfold renew
  simp only []
  split
  · exact .ok _
  rename_i hv
  have hauth := (Bool.not_eq_false _).mp hv
  have hopen := active_not_terminal (valid_active hauth)
  split
  · exact .ok _
  rename_i hend
  have hrange := open_range h.lifecycle hopen
  exact .bind (update_unguarded ((Quiet.renewed (d := d) j lease hauth
    (Nat.lt_of_not_le hend)).accepted (.renew lease) h.lifecycle hopen hrange)) fun _ _ => .ok _

theorem markRunning_unguarded (lease : Lease) : Unguarded (markRunning t lease j) := by
  unfold markRunning
  simp only []
  split
  · exact .ok _
  rename_i hcond
  simp only [not_or, Bool.not_eq_false, Option.isSome_iff_ne_none, ne_eq, not_not] at hcond
  have hopen := active_not_terminal (valid_active hcond.1)
  refine .bind (event_unguarded h.stream.next_free) fun r hr => ?_
  rcases r with ⟨seq, j₁⟩
  rcases event_eq_ok.mp hr with ⟨hrec, rfl, rfl⟩
  have hrange := open_range h.lifecycle hopen
  have hguard := (Quiet.started (d := d) j lease hcond.1 hcond.2.1 hcond.2.2 hrec).accepted
    (.markRunning lease) h.lifecycle hopen hrange
  exact .bind (update_unguarded hguard) fun _ _ => .ok _

theorem console_unguarded (lease : Lease) (caseId : String) (stream : Stream) (text : String) :
    Unguarded (console d t lease caseId stream text j) := by
  unfold console
  simp only []
  split
  · exact .ok _
  rename_i hcond
  split
  · exact fun _ hc => nomatch hc
  rename_i hpriv
  simp only [not_or, Bool.not_eq_false, Option.isSome_iff_ne_none, ne_eq, not_not] at hcond hpriv
  have hopen := active_not_terminal (valid_active hcond.1)
  refine .bind (event_unguarded h.stream.next_free) fun r hr => ?_
  rcases r with ⟨seq, j₁⟩
  rcases event_eq_ok.mp hr with ⟨hrec, rfl, rfl⟩
  have hrange := open_range h.lifecycle hopen
  exact .bind (update_unguarded ((Quiet.printed (d := d) j lease caseId stream text hcond.1 hcond.2
    hpriv.1 hpriv.2 hrec rfl).accepted _ h.lifecycle hopen hrange)) fun _ _ => .ok _

theorem finish_unguarded (lease : Lease) (hshape : resultSchema result = true)
    (hrange : checks (Truth.and (fitsInteger result.runtimeMs) (fitsInteger result.memoryKiB))
      = true) : Unguarded (finish d t lease result j) := by
  unfold finish
  simp only []
  split
  · exact .ok _
  rename_i hv
  have hauth := (Bool.not_eq_false _).mp hv
  have hopen := active_not_terminal (valid_active hauth)
  split
  · exact .bind (.of_ok (terminal_ok h (ends_cancelled hopen))) fun _ _ => .ok _
  rename_i hcan
  split
  · exact fun _ hc => nomatch hc
  rename_i hpriv
  have hnone := Option.not_isSome_iff_eq_none.1 hcan
  have hallowed : ∀ results, result.publicCaseResults = some results →
      publicResultsAllowed d j.row results = true := by
    intro results hresults
    rw [hresults] at hpriv
    simpa only [Option.any_some, Bool.not_eq_true', Bool.not_eq_false] using hpriv
  refine .bind (event_unguarded h.stream.next_free) fun r hr => ?_
  rcases r with ⟨seq, j₁⟩
  rcases event_eq_ok.mp hr with ⟨hrec, rfl, rfl⟩
  rcases notifyExecution_eq d t j.row result.verdict (j.record (nextEvent t j.row
    (.finalVerdict .finished result.verdict none))) with ⟨notices, hnotify⟩
  refine .bind (.of_ok ⟨_, hnotify⟩) fun j₂ hj₂ => ?_
  rw [hnotify] at hj₂
  cases hj₂
  refine .bind (update_unguarded ((Quiet.finished (d := d) j lease result notices hauth hnone hshape
    hallowed hrec).accepted (.finish lease result) h.lifecycle hopen ?_)) fun _ _ => .ok _
  rcases h.lifecycle.row.undecided hopen with ⟨_, _, _, hr, hm, _⟩
  simp only [finishedRow, hr, hm, Option.or_none]
  exact hrange

theorem fail_unguarded (lease : Lease) (cleanupConfirmed : Bool) :
    Unguarded (fail d t lease cleanupConfirmed j) := by
  unfold fail
  simp only []
  split
  · exact .ok _
  rename_i hv
  have hopen : isTerminal j.row.state = false :=
    active_not_terminal (valid_active (by simpa only [Bool.not_eq_false] using hv))
  exact .bind (.of_ok (terminal_ok h (fail_ends hopen cleanupConfirmed))) fun _ _ => .ok _

end

theorem upsertRecovery_ok (t : Moment) (generation : Nat) (onConflict : OutboxEvent → OutboxEvent)
    (j : Job) : ∃ j', upsertRecovery t generation onConflict j = .ok j' := by
  unfold upsertRecovery
  split
  · exact ⟨_, rfl⟩
  · rename_i hnone
    refine ⟨_, Job.createOutbox_eq_ok.mpr ⟨fun hmem => hnone ?_, rfl⟩⟩
    rcases List.mem_map.mp hmem with ⟨o, ho, hkey⟩
    simp only [OutboxEvent.key, Prod.mk.injEq] at hkey
    refine List.any_eq_true.mpr ⟨o, ho, ?_⟩
    simp only [isRecovery, hkey.1, hkey.2, beq_self_eq_true, Bool.and_self]

theorem recover_unguarded (h : JobInv d id t.now j) (lease : Lease) :
    Unguarded (recover d t lease j) := by
  unfold recover
  simp only []
  split
  · exact .ok _
  rename_i hv
  have hauth := (Bool.not_eq_false _).mp hv
  have hopen := active_not_terminal (valid_active hauth)
  split
  · exact .bind (.of_ok (terminal_ok h (ends_cancelled hopen))) fun _ _ => .ok _
  rename_i hcan
  have hnone := Option.not_isSome_iff_eq_none.1 hcan
  split
  · exact .bind (.of_ok (terminal_ok h (ends_internal hopen (by decide)
      (fun hc => by rw [hnone] at hc; cases hc)))) fun _ _ => .ok _
  rename_i hatt
  have hrange := open_range h.lifecycle hopen
  refine .bind (update_unguarded ((Quiet.yielded (d := d) j lease hauth hnone
    (Nat.lt_of_not_le hatt)).accepted (.recover lease) h.lifecycle hopen hrange)) fun j₁ _ => ?_
  exact .bind (.of_ok (upsertRecovery_ok t _ _ j₁)) fun _ _ => .ok _

/-- The intent that closes an open row finds its key free, also after the row
    was ended. -/
theorem createOutbox_closing_ok (h : OutboxInv j) (hopen : isTerminal j.row.state = false)
    {j₁ : Job} (hsame : j₁.outbox = j.outbox) {o : OutboxEvent}
    (hkey : o.key = (.executionCancelled, 0) ∨ o.key = (.executionExpired, 0)) :
    ∃ j', j₁.createOutbox o = .ok j' := by
  refine ⟨_, Job.createOutbox_eq_ok.mpr ⟨?_, rfl⟩⟩
  rw [hsame]
  exact h.closing_fresh hopen hkey

theorem cancel_unguarded (h : JobInv d id t.now j) (userId : Uuid) (activeAllowed : Bool) :
    Unguarded (cancel d t userId activeAllowed j) := by
  unfold cancel
  simp only []
  split
  · exact fun _ hc => nomatch hc
  split
  · rename_i hq
    have hopen : isTerminal j.row.state = false := by rw [hq]; rfl
    refine .bind (.of_ok (terminal_ok h (ends_cancelled hopen))) fun j₁ hj₁ => ?_
    rcases terminal_effect hj₁ with ⟨_, notices, rfl⟩
    refine .bind (.of_ok ?_) fun _ _ => .ok _
    exact createOutbox_closing_ok h.outbox hopen (by rfl) (Or.inl (by rfl))
  rename_i hq
  split
  · rename_i hopen
    split
    · exact fun _ hc => nomatch hc
    split
    · rename_i hnone
      have hactive : j.row.state = .compiling ∨ j.row.state = .running := by
        rcases (not_isTerminal_iff _).mp hopen with hc | hc
        · exact absurd hc hq
        · exact hc
      refine .bind (event_unguarded h.stream.next_free) fun r hr => ?_
      rcases r with ⟨seq, j₁⟩
      rcases event_eq_ok.mp hr with ⟨hrec, rfl, rfl⟩
      have hrange := open_range h.lifecycle hopen
      exact .bind (update_unguarded ((Quiet.requested (d := d) j hactive
        (by simpa only [Option.isNone_iff_eq_none] using hnone) hrec).accepted
        (.cancel userId id activeAllowed) h.lifecycle hopen hrange)) fun _ _ => .ok _
    · exact .ok _
  · exact .ok _

/-- The failure `maintain` ends a row with. -/
theorem maintain_ends (hactive : j.row.state = .compiling ∨ j.row.state = .running) :
    Ends j.row .internalError (some (if j.row.cancellationRequestedAt.isSome
      then .cancellationTimeout
      else if maxAttempts ≤ j.row.attempt then .leaseExpired else .jobTimeout)) := by
  refine ends_internal (active_not_terminal hactive) ?_ fun hs => by rw [if_pos hs]
  split
  · decide
  · split <;> decide

theorem maintainRow_ok (h : JobInv d id t.now j) (hsel : maintainSelects t.now j.row = true) :
    ∃ j', maintainRow d t j = .ok j' := by
  unfold maintainRow
  simp only []
  split
  · exact terminal_ok h (maintain_ends (maintainSelects_active hsel))
  · exact upsertRecovery_ok t _ _ j

theorem expireQueuedRow_ok (h : JobInv d id t.now j) (hq : j.row.state = .queued) :
    ∃ j', expireQueuedRow t j = .ok j' := by
  have hopen : isTerminal j.row.state = false := by rw [hq]; rfl
  have hrec : Recordable t j.row
      (.finalVerdict .internalError .internalError (some .queueTimeout)) j :=
    recordable_of_kind h.stream t nofun
  have hrange := open_range h.lifecycle hopen
  have hguard := (Quiet.expired (d := d) j hq hrec).accepted (.expireQueuedJobs []) h.lifecycle hopen
    hrange
  have hrest : ∃ j', Job.createOutbox
      { kind := .executionExpired, createdAt := t.now, nextDispatchAt := t.now }
      { j.record (nextEvent t j.row
          (.finalVerdict .internalError .internalError (some .queueTimeout))) with
        row := { j.row with
          state := .internalError, verdict := some .internalError,
          failureCode := some .queueTimeout, finishedAt := some t.app,
          lastSequence := j.row.lastSequence + 1 } } = .ok j' :=
    createOutbox_closing_ok h.outbox hopen (by rfl) (Or.inr (by rfl))
  rcases hrest with ⟨j', hj'⟩
  exact ⟨j', bind_eq_ok.mpr ⟨_, event_eq_ok.mpr ⟨hrec, rfl, rfl⟩,
    bind_eq_ok.mpr ⟨_, Job.update_eq_ok.mpr ⟨hguard, rfl⟩, hj'⟩⟩⟩

/-! ### Whole transactions -/

theorem onRow_unguarded {α : Type} {absent : Except Error α} {body : Job → Except Error (α × Job)}
    (habsent : Unguarded absent) (hbody : ∀ j, jobs.lookup id = some j → Unguarded (body j)) :
    Unguarded (onRow id absent body jobs) := by
  unfold onRow
  cases hl : jobs.lookup id with
  | none => exact habsent.map _
  | some j => exact .bind (hbody j hl) fun _ _ => .ok _

theorem maintain_ok (h : ∀ id j, jobs.lookup id = some j →
    JobInv d id t.now j) (pass : Pass) : ∃ jobs', maintain d t pass jobs = .ok jobs' := by
  rcases maintainRows_spec t.now pass.locked jobs with ⟨hnodup, hsel⟩
  rcases Table.forEach_eq_ok (maintainRow d t) (maintainRows t.now pass.locked jobs) jobs hnodup
    (fun key hkey j hj => by
      rcases hsel key hkey with ⟨i, hi, hs⟩
      rw [hj] at hi
      cases hi
      exact maintainRow_ok (h key j hj) hs) with ⟨jobs', hjobs'⟩
  exact ⟨_, bind_eq_ok.mpr ⟨jobs', hjobs', rfl⟩⟩

theorem expireQueuedJobs_ok (h : ∀ id j, jobs.lookup id = some j →
    JobInv d id t.now j) (locked : List Uuid) : ∃ r, expireQueuedJobs t locked jobs = .ok r := by
  rcases expireRows_spec t.app locked jobs with ⟨hnodup, hsel⟩
  rcases Table.forEach_eq_ok (expireQueuedRow t) (expireRows t.app locked jobs) jobs hnodup
    (fun key hkey j hj => by
      rcases hsel key hkey with ⟨i, hi, hs⟩
      rw [hj] at hi
      cases hi
      simp only [expireSelects, Bool.and_eq_true, beq_iff_eq] at hs
      exact expireQueuedRow_ok (h key j hj) hs.1) with ⟨jobs', hjobs'⟩
  exact ⟨_, bind_eq_ok.mpr ⟨jobs', hjobs', rfl⟩⟩

theorem countCreation_unguarded (scope : String) (limit : Nat)
    (rateLimits : Table String RateCounter) :
    Unguarded (Executions.countCreation d t scope limit rateLimits) := by
  unfold Executions.countCreation
  simp only []
  repeat' split
  all_goals first | exact .ok _ | exact fun _ hc => nomatch hc

/-- A new row that meets the invariant is inserted, unless its first event is
    malformed. -/
theorem insertJob_unguarded (hrow : RowInv t.now row) (hreq : RequestInv d row.id row.request)
    (hstate : row.state = .queued) (hnew : row.id ∉ s.jobs)
    (hkey : (s.jobs.entries.any fun e => e.2.row.userId == row.userId &&
      e.2.row.idempotencyKey == row.idempotencyKey) = false) :
    Unguarded (Executions.insertJob d t row s) := by
  have hopen : isTerminal row.state = false := by rw [hstate]; rfl
  rcases hrow.undecided hopen with ⟨_, _, hcode, hr, hm, hpub⟩
  have hinsert : guardInsert d.catalog row = none := by
    refine guardInsert_eq_none.mpr ⟨?_, executionChecks_admit hrow hreq (metricsFit_of_none hr hm)
      (Or.inr hpub)⟩
    have hpublished : (d.catalog row.problemVersionId).isNone = false := by
      rw [← Option.not_isSome]
      exact congrArg _ hreq.published
    simp only [protectInsert, hstate, ne, lift, ne_eq, not_true_eq_false, decide_false, raises_some,
      hpublished, Bool.false_eq_true, if_false]
  have hins : Executions.insertRow d row s = .ok { row := row } := by
    simp only [Executions.insertRow, if_neg hnew, hkey, Bool.false_eq_true, if_false, hinsert]
  refine .bind (.of_ok ⟨_, hins⟩) fun j₀ hj₀ => ?_
  rw [hins] at hj₀
  cases hj₀
  refine .bind (event_unguarded fun e he => by cases he) fun r hev => ?_
  rcases r with ⟨seq, j₁⟩
  rcases event_eq_ok.mp hev with ⟨hrec, rfl, rfl⟩
  have hnumbered : RowInv t.now { row with lastSequence := row.lastSequence + 1 } :=
    ⟨hrow.attempts, hrow.undecided, hrow.waiting, hrow.leased, hrow.released, hrow.decided,
      hrow.requestedAt⟩
  have hguard : guardUpdate t.trigger row { row with lastSequence := row.lastSequence + 1 } = none := by
    refine guardUpdate_of_rowInv hreq rfl hnumbered (metricsFit_of_none hr hm) (Or.inr hpub) ?_
    refine protectUpdate_eq_none rfl (Or.inr rfl) (Or.inr (Or.inl (hrow.waiting hstate).2.1)) hopen
      (Or.inl rfl) (Or.inr ⟨rfl, Nat.le_succ _⟩) (Or.inl ?_)
    rw [hcode]
    exact Option.some_ne_none _ ∘ Eq.symm
  refine .bind (update_unguarded (by simp only [Job.record_row]; exact hguard)) fun j₂ hup => ?_
  rcases Job.update_eq_ok.mp hup with ⟨_, rfl⟩
  exact .of_ok ⟨_, Job.createOutbox_eq_ok.mpr ⟨fun hmem => (by cases hmem), rfl⟩⟩

theorem create_unguarded {call : CreateCall} (hid : call.id ∉ s.jobs)
    (hdeadline : t.now < t.app + d.config.queueTtlSeconds * 1000) :
    Unguarded (Executions.create d t call s) := by
  unfold Executions.create
  split
  · exact fun _ hc => nomatch hc
  split
  · split
    · exact fun _ hc => nomatch hc
    · exact .ok _
  rename_i hfind
  split
  · exact fun _ hc => nomatch hc
  split
  · exact fun _ hc => nomatch hc
  rename_i versionId _
  split
  · exact fun _ hc => nomatch hc
  rename_i hver
  have hunguarded : ∀ {slug}, Unguarded
      (Executions.competitionRound call.registry call.userId call.input.problem slug t.app) := by
    intro slug
    unfold Executions.competitionRound
    repeat' split
    all_goals exact fun _ hc => nomatch hc
  refine .bind ?_ fun round _ => .bind ?_ fun s₁ hres => ?_
  · unfold Executions.roundColumn
    split
    · exact .ok _
    · split
      · exact .ok _
      · exact hunguarded.map _
  · unfold Executions.reserve
    split
    · exact fun _ hc => nomatch hc
    · exact .bind (countCreation_unguarded _ _ _) fun _ _ => .bind (countCreation_unguarded _ _ _)
        fun _ _ => .bind (countCreation_unguarded _ _ _) fun _ _ => .ok _
  · have hsome : (d.catalog versionId).isSome = true := by
      simpa only [Option.isNone_iff_eq_none, Option.isSome_iff_ne_none] using hver
    refine .bind (insertJob_unguarded (newRow_rowInv d t call versionId round)
      ⟨rfl, hsome, ⟨call.input.sourceNonempty, call.input.sourceBounded⟩, hdeadline⟩ rfl ?_ ?_)
      fun _ _ => .ok _
    · rw [reserve_jobs hres]; exact hid
    · rw [reserve_jobs hres, List.any_eq_false]
      intro e he
      exact List.find?_eq_none.mp hfind e he

/-! ### Generated identifiers -/

/-- The lease token a call generates. -/
def Op.token? : Op → Option Uuid
  | .claim _ token => some token
  | _ => none

/-- The execution identifier a call generates. -/
def Op.newId? : Op → Option Uuid
  | .create call => some call.id
  | _ => none

/-- Generated identifiers do not repeat along a run. -/
structure Generated (calls : List Call) : Prop where
  tokens : (calls.filterMap fun call => call.op.token?).Nodup
  ids : (calls.filterMap fun call => call.op.newId?).Nodup

/-- Every identifier in the tables was generated by an earlier call. -/
def Known (past : List Call) (s : Store) : Prop :=
  ∀ id j, s.jobs.lookup id = some j → id ∈ past.filterMap (fun call => call.op.newId?) ∧
    ∀ token, j.row.leaseToken = some token → token ∈ past.filterMap fun call => call.op.token?

theorem known_step (d : Deployment) (past : List Call) (s : Store) (call : Call)
    (h : Known past s) : Known (past ++ [call]) (step d s call).1 := by
  intro id j hj
  obtain ⟨_, _, hbefore, heffect⟩ := step_effect_before hj
  simp only [List.filterMap_append, List.mem_append]
  cases heffect with
  | created c _ hop hid new =>
      refine ⟨Or.inr ?_, fun token htoken => ?_⟩
      · simp only [List.filterMap_cons, hop, Op.newId?, hid, List.filterMap_nil,
          List.mem_singleton]
      · rcases new with ⟨_, _, _, _, _, ⟨_, _, rfl⟩⟩
        cases htoken
  | granted token i _ hop grant =>
      refine ⟨Or.inl (h id i hbefore).1, fun token' htoken => Or.inr ?_⟩
      rw [grant.result] at htoken
      cases htoken
      simp only [List.filterMap_cons, hop, Op.token?, List.filterMap_nil, List.mem_singleton]
  | quiet i _ chain =>
      refine ⟨Or.inl (h id i hbefore).1, fun token htoken => Or.inl ?_⟩
      exact (h id i hbefore).2 token (chain.leaseToken htoken)

theorem known_run (d : Deployment) (calls : List Call) : Known calls (Store.run d calls) :=
  Runs.run_inputs_induction (step d) (P := fun s past => Known past s)
    (fun s past call h => known_step d past s call h) calls {} [] (fun _ _ hj => by cases hj)

/-! ### The refinement -/

/-- The assumptions about one call: a new row's deadline lies ahead of the
    database clock, and a worker's metrics fit their columns. -/
def CallFits (d : Deployment) (s : Store) (call : Call) : Prop :=
  match call.op with
  | .create _ => (call.moment s).now < call.app + d.config.queueTtlSeconds * 1000
  | .finish _ result => (∀ n, result.runtimeMs = some n → n ≤ 2147483647) ∧
      ∀ n, result.memoryKiB = some n → n ≤ 2147483647
  | _ => True

theorem fitsInteger_of_bounds {n : Option Int} (hlow : nonnegative n = true)
    (hhigh : ∀ x, n = some x → x ≤ 2147483647) : fitsInteger n = none ∨ fitsInteger n = some true := by
  cases n with
  | none => exact Or.inl rfl
  | some x =>
      simp only [nonnegative, Option.all_some, Bool.and_eq_true, decide_eq_true_eq] at hlow
      have hzero := hlow.2
      have hx := hhigh x rfl
      refine Or.inr ?_
      simp only [fitsInteger, Option.map_some, Option.some.injEq, decide_eq_true_eq]
      omega

theorem result_range (hshape : resultSchema result = true)
    (hr : ∀ n, result.runtimeMs = some n → n ≤ 2147483647)
    (hm : ∀ n, result.memoryKiB = some n → n ≤ 2147483647) :
    checks (Truth.and (fitsInteger result.runtimeMs) (fitsInteger result.memoryKiB)) = true := by
  simp only [resultSchema, Bool.and_eq_true] at hshape
  rcases fitsInteger_of_bounds hshape.1.1.2 hr with h | h <;>
    rcases fitsInteger_of_bounds hshape.1.2 hm with h' | h' <;> rw [h, h'] <;> rfl

theorem body_unguarded {op : Op} (hclock : t.now ≤ t.trigger)
    (hinv : ∀ id j, s.jobs.lookup id = some j → JobInv d id t.now j)
    (htoken : ∀ id token j, op = .claim id token → s.jobs.lookup id = some j →
      j.row.leaseToken ≠ some token) (hcreate : ∀ call, op = .create call →
      call.id ∉ s.jobs ∧ t.now < t.app + d.config.queueTtlSeconds * 1000)
    (hmetrics : ∀ lease result, op = .finish lease result →
      (∀ n, result.runtimeMs = some n → n ≤ 2147483647) ∧
        ∀ n, result.memoryKiB = some n → n ≤ 2147483647) : Unguarded (op.body d t s) := by
  cases op with
  | create call =>
      rcases hcreate call rfl with ⟨hid, hdeadline⟩
      exact (create_unguarded hid hdeadline).map _
  | claim id token =>
      refine (onRow_unguarded (.ok _) fun j hj => ?_).map _
      exact claim_unguarded (hinv id j hj) hclock (htoken id token j rfl hj)
  | renew lease =>
      exact (onRow_unguarded (.ok _) fun j hj => renew_unguarded (hinv _ j hj) lease).map _
  | markRunning lease =>
      exact (onRow_unguarded (.ok _) fun j hj => markRunning_unguarded (hinv _ j hj) lease).map _
  | console lease caseId stream text =>
      simp only [Op.body]
      split
      · intro violation hc
        cases hc
      · refine (onRow_unguarded (.ok _) fun j hj => ?_).map _
        exact console_unguarded (hinv _ j hj) lease caseId stream text
  | finish lease result =>
      simp only [Op.body]
      cases hrejects : finishRejects result with
      | some e =>
          intro violation hc
          unfold finishRejects at hrejects
          cases hc
          split at hrejects
          · cases hrejects
          · split at hrejects <;> cases hrejects
      | none =>
          have hshape := (finishRejects_none hrejects).1
          rcases hmetrics lease result rfl with ⟨hr, hm⟩
          refine (onRow_unguarded (.ok _) fun j hj => ?_).map _
          exact finish_unguarded (hinv _ j hj) lease hshape (result_range hshape hr hm)
  | fail lease cleanupConfirmed =>
      exact (onRow_unguarded (.ok _) fun j hj =>
        fail_unguarded (hinv _ j hj) lease cleanupConfirmed).map _
  | recover lease =>
      exact (onRow_unguarded (.ok _) fun j hj => recover_unguarded (hinv _ j hj) lease).map _
  | cancel userId id activeAllowed =>
      exact (onRow_unguarded (by intro _ hc; cases hc) fun j hj =>
        cancel_unguarded (hinv id j hj) userId activeAllowed).map _
  | maintain pass => exact (Unguarded.of_ok (maintain_ok hinv pass)).map _
  | expireQueuedJobs locked => exact (Unguarded.of_ok (expireQueuedJobs_ok hinv locked)).map _

/-- The store refines the database guard: whatever the interleaving, no step
    of any operation is aborted by the trigger, a constraint or a unique key. -/
theorem never_aborted (d : Deployment) (calls : List Call) (call : Call)
    (hgenerated : Generated (calls ++ [call])) (hfits : CallFits d (Store.run d calls) call)
    (violation : String) : (step d (Store.run d calls) call).2 ≠ .error (.guard violation) := by
  have hunguarded : Unguarded (call.op.body d (call.moment (Store.run d calls))
      { Store.run d calls with clock := (Store.run d calls).clock + call.elapsed }) := by
    refine body_unguarded (Nat.le_add_right _ _) (fun id j hj => ?_) (fun id token j hop hj hc => ?_)
      (fun c hop => ⟨fun hmem => ?_, ?_⟩) (fun lease result hop => ?_)
    · exact (job_invariant d).moment calls _ id j hj
    · -- the row's token comes from an earlier claim
      have hknown := (known_run d calls id j hj).2 token hc
      have hnodup := hgenerated.tokens
      rw [List.filterMap_append] at hnodup
      refine (List.nodup_append.mp hnodup).2.2 token hknown token ?_ rfl
      simp only [List.filterMap_cons, hop, Op.token?, List.filterMap_nil, List.mem_singleton]
    · -- the key is that of an earlier creation
      rcases Option.isSome_iff_exists.mp (AList.lookup_isSome.mpr hmem) with ⟨j, hj⟩
      have hknown := (known_run d calls c.id j hj).1
      have hnodup := hgenerated.ids
      rw [List.filterMap_append] at hnodup
      refine (List.nodup_append.mp hnodup).2.2 c.id hknown c.id ?_ rfl
      simp only [List.filterMap_cons, hop, Op.newId?, List.filterMap_nil, List.mem_singleton]
    · simp only [CallFits, hop] at hfits
      exact hfits
    · simp only [CallFits, hop] at hfits
      exact hfits
  intro herr
  cases hbody : call.op.body d (call.moment (Store.run d calls))
      { Store.run d calls with clock := (Store.run d calls).clock + call.elapsed } with
  | error e =>
      rw [step_of_error hbody] at herr
      cases herr
      exact hunguarded violation hbody
  | ok r =>
      rcases r with ⟨a, s'⟩
      rw [step_of_ok hbody] at herr
      cases herr

/-- A claimed submission is finished with metrics. -/
theorem never_aborted_finish :
    Generated ([Sample.created .submit, Sample.claimed] ++
        [Sample.acted (.finish Sample.lease { verdict := .accepted, runtimeMs := some 12 })]) ∧
      ∀ violation, (step Sample.deployment
        (Store.run Sample.deployment [Sample.created .submit, Sample.claimed])
        (Sample.acted (.finish Sample.lease { verdict := .accepted, runtimeMs := some 12 }))).2
          ≠ .error (.guard violation) := by
  have hgenerated : Generated ([Sample.created .submit, Sample.claimed] ++
      [Sample.acted (.finish Sample.lease { verdict := .accepted, runtimeMs := some 12 })]) :=
    ⟨by decide, by decide⟩
  refine ⟨hgenerated, never_aborted _ _ _ hgenerated ⟨fun n hn => ?_, fun n hn => ?_⟩⟩
  · cases hn; decide
  · cases hn

end ArenaCore
