import ArenaCore.Store.Refinement

/-!
# Cancellation Is Final

A cancelled execution is asked to stop, not stopped: between the request and
the end its worker may renew, print, finish or fail, its lease may run out,
and two maintenance loops may pick it up. Each of these branches on the
request by itself. Together they make sure that the request stays, that
nothing but a final verdict is written after it, that the lease is never
extended past the grace period, and that the outcome is a cancellation or a
cancellation timeout.

A queued execution has no worker to wait for and ends at once.

## Main definitions

* `OnlyFinals`, `GraceEnd`: What a request lets be written, and to where a
  lease may still extend.
* `Pending`: What holds from a cancellation request on.
* `CancelInv`: The outcomes of a row with a request.

## Theorems

* `pending_run`: Every continuation of a run.
* `cancel_queued`: A queued execution is cancelled at once.
* `cancellation_final`: Both, for every run.
-/

namespace ArenaCore

open JobStore Transaction

variable {d : Deployment} {t : Moment} {op : Op} {j j' : Job}

/-- The outcomes a row with a cancellation request can reach. -/
def CancelInv (row : Execution) : Prop :=
  row.cancellationRequestedAt.isSome = true → isTerminal row.state = true →
    (row.state = .cancelled ∧ row.failureCode = none) ∨
      (row.state = .internalError ∧ row.failureCode = some .cancellationTimeout)

theorem JobStore.Quiet.cancelInv (step : Quiet d t op j j') (hrow : RowInv t.now j.row)
    (h : CancelInv j.row) : CancelInv j'.row := by
  intro hreq hterm
  cases step with
  | renewed => exact h hreq hterm
  | started => cases hterm
  | printed => exact h hreq hterm
  | requested active _ _ =>
      have hopen := active_not_terminal active
      rw [hopen] at hterm
      cases hterm
  | finished _ _ _ _ uncancelled _ _ _ =>
      change j.row.cancellationRequestedAt.isSome = true at hreq
      rw [uncancelled] at hreq
      cases hreq
  | ended outcome code notices ends recordable =>
      have hactive := hrow.active_of_requested ends.nonterminal hreq
      rcases ends.pending hreq (active_ne_queued hactive) with hcode | hcode
      · rw [ends.codeless.mp hcode]
        exact Or.inl ⟨rfl, hcode⟩
      · cases outcome with
        | internalError => exact Or.inr ⟨rfl, hcode⟩
        | cancelled =>
            rw [ends.codeless.mpr rfl] at hcode
            cases hcode
  | expired queued _ =>
      change j.row.cancellationRequestedAt.isSome = true at hreq
      rw [(hrow.waiting queued).2.2.2] at hreq
      cases hreq
  | yielded => exact h hreq hterm
  | intents => exact h hreq hterm
  | swept => exact h hreq hterm

theorem cancel_invariant (d : Deployment) :
    JobInvariant d fun _ clock j => RowInv clock j.row ∧ CancelInv j.row where
  later hle h := ⟨h.1.later hle, h.2⟩
  created := by
    intro t id j new
    refine ⟨new.rowInv, ?_⟩
    rcases new with ⟨call, versionId, round, _, _, ⟨_, _, rfl⟩⟩
    intro hreq
    cases hreq
  granted := by
    intro t id token j j' grant h
    refine ⟨grant.rowInv h.1, ?_⟩
    rw [grant.result]
    intro _ hterm
    cases hterm
  quiet step h := ⟨step.rowInv h.1, step.cancelInv h.1 h.2⟩

/-! ### From the request on -/

/-- Only final verdicts were added to a journal. -/
def OnlyFinals (before after : List ExecutionEvent) : Prop :=
  ∃ new, after = new ++ before ∧ ∀ e ∈ new, e.kind = .finalVerdict

theorem OnlyFinals.refl (journal : List ExecutionEvent) : OnlyFinals journal journal :=
  ⟨[], rfl, fun _ he => absurd he List.not_mem_nil⟩

theorem OnlyFinals.trans {a b c : List ExecutionEvent} (h : OnlyFinals a b)
    (h' : OnlyFinals b c) : OnlyFinals a c := by
  rcases h with ⟨new, rfl, hkind⟩
  rcases h' with ⟨new', rfl, hkind'⟩
  refine ⟨new' ++ new, by rw [List.append_assoc], fun e he => ?_⟩
  rcases List.mem_append.mp he with hm | hm
  · exact hkind' e hm
  · exact hkind e hm

/-- A lease end that is unchanged, gone, or within the grace period. -/
def GraceEnd (r : Nat) (before after : Option Nat) : Prop :=
  after = before ∨ after = none ∨ ∃ e, after = some e ∧ e ≤ r + cancelGraceMs

/-- What one effect does to a row with a cancellation request. -/
theorem JobStore.Quiet.pending (step : Quiet d t op j j') (hrow : RowInv t.now j.row) {r : Nat}
    (hreq : j.row.cancellationRequestedAt = some r) :
    j'.row.cancellationRequestedAt = some r ∧
      OnlyFinals j.journal j'.journal ∧
      GraceEnd r j.row.leaseExpiresAt j'.row.leaseExpiresAt := by
  have hsome : j.row.cancellationRequestedAt ≠ none := by rw [hreq]; exact nofun
  cases step with
  | renewed =>
      refine ⟨hreq, OnlyFinals.refl _, Or.inr (Or.inr ⟨_, rfl, ?_⟩)⟩
      simp only [renewalEnd, hreq]
      exact Nat.min_le_right _ _
  | started _ _ uncancelled | printed _ _ _ _ _ uncancelled | requested _ uncancelled
  | finished _ _ _ _ uncancelled | yielded _ _ uncancelled => exact absurd uncancelled hsome
  | ended outcome code notices ends recordable =>
      refine ⟨hreq, ⟨[endedEvent t j.row outcome code], rfl, fun e he => ?_⟩, Or.inr (Or.inl rfl)⟩
      rw [List.mem_singleton.mp he]
      rfl
  | expired queued _ => exact absurd (hrow.waiting queued).2.2.2 hsome
  | intents | swept => exact ⟨hreq, OnlyFinals.refl _, Or.inl rfl⟩

theorem JobStore.Quiets.pending (chain : Quiets d t op j j') (hrow : RowInv t.now j.row) {r : Nat}
    (hreq : j.row.cancellationRequestedAt = some r) :
    RowInv t.now j'.row ∧ j'.row.cancellationRequestedAt = some r ∧
      OnlyFinals j.journal j'.journal ∧
      GraceEnd r j.row.leaseExpiresAt j'.row.leaseExpiresAt := by
  induction chain with
  | refl => exact ⟨hrow, hreq, OnlyFinals.refl _, Or.inl rfl⟩
  | tail _ hlast ih =>
      rcases ih with ⟨hrow₁, hreq₁, hwritten₁, hend₁⟩
      rcases hlast.pending hrow₁ hreq₁ with ⟨hreq₂, hwritten₂, hend₂⟩
      refine ⟨hlast.rowInv hrow₁, hreq₂, hwritten₁.trans hwritten₂, ?_⟩
      rcases hend₂ with heq | hgone
      · rw [GraceEnd, heq]
        exact hend₁
      · exact Or.inr hgone

/-- What holds of an execution from a cancellation request on: `start` is the
    job at the request, `j` the job now. -/
structure Pending (r : Nat) (start j : Job) : Prop where
  requested : j.row.cancellationRequestedAt = some r
  written : OnlyFinals start.journal j.journal
  outcome : isTerminal j.row.state = true →
    (j.row.state = .cancelled ∧ j.row.failureCode = none) ∨
      (j.row.state = .internalError ∧ j.row.failureCode = some .cancellationTimeout)

/-- One call on an execution with a cancellation request: it hands out no
    lease, extends none past the grace period, and the request stays. -/
theorem pending_step (d : Deployment) (s : Store) (call : Call) (id : Uuid) (start j : Job)
    (r : Nat) (hall : ∀ i, s.jobs.lookup id = some i → RowInv s.clock i.row ∧ CancelInv i.row)
    (hj : s.jobs.lookup id = some j) (h : Pending r start j) :
    grantedTo id (step d s call).2 = none ∧ ∃ j', (step d s call).1.jobs.lookup id = some j' ∧
      Pending r start j' ∧ GraceEnd r j.row.leaseExpiresAt j'.row.leaseExpiresAt := by
  have heffect := step_effect d s call id
  rw [hj] at heffect
  have hrow : RowInv (call.moment s).now j.row := (hall j hj).1.later (Nat.le_add_right _ _)
  generalize grantedTo id (step d s call).2 = lease at heffect ⊢
  generalize (step d s call).1.jobs.lookup id = after at heffect ⊢
  cases heffect with
  | granted token _ j' _ grant =>
      have huncancelled := grant.claimable.uncancelled
      rw [h.requested] at huncancelled
      cases huncancelled
  | quiet _ j' chain =>
      rcases chain.pending hrow h.requested with ⟨_, hreq, hwritten, hend⟩
      refine ⟨rfl, j', rfl, ⟨hreq, h.written.trans hwritten, ?_⟩, hend⟩
      have hcancel := ((cancel_invariant d).quiets id chain ⟨hrow, (hall j hj).2⟩).2
      exact hcancel (by rw [hreq]; rfl)

/-- Every continuation of a run after a request. -/
theorem pending_run (d : Deployment) (calls more : List Call) (id : Uuid) (j : Job) (r : Nat)
    (hj : (Store.run d calls).jobs.lookup id = some j)
    (hreq : j.row.cancellationRequestedAt = some r) :
    grants d id (calls ++ more) = grants d id calls ∧
      ∃ j', (Store.run d (calls ++ more)).jobs.lookup id = some j' ∧ Pending r j j' := by
  have hcancel := (cancel_invariant d).run calls id j hj
  have hstart : Pending r j j :=
    ⟨hreq, OnlyFinals.refl _, hcancel.2 (by rw [hreq]; rfl)⟩
  have hall := Runs.run_outputs_induction (step d)
    (P := fun s outs => (∀ i j, s.jobs.lookup i = some j → RowInv s.clock j.row ∧ CancelInv j.row) ∧
      outs.filterMap (grantedTo id) = [] ∧ ∃ j', s.jobs.lookup id = some j' ∧ Pending r j j')
    (fun s outs call h => by
      rcases h with ⟨hinv, hnone, i, hi, hp⟩
      rcases pending_step d s call id j i r (hinv id) hi hp with ⟨hgrant, j', hj', hp', _⟩
      refine ⟨(cancel_invariant d).step s call hinv, ?_, j', hj', hp'⟩
      rw [List.filterMap_append, hnone, List.nil_append, List.filterMap_cons, hgrant]
      rfl)
    more (Store.run d calls) [] ⟨(cancel_invariant d).run calls, rfl, j, hj, hstart⟩
  rw [Store.run, Runs.run_append]
  refine ⟨?_, hall.2.2⟩
  rw [grants, Runs.outputs_append, List.filterMap_append]
  rw [List.nil_append] at hall
  exact (congrArg (_ ++ ·) hall.2.1).trans (List.append_nil _)

/-! ### Queued executions -/

theorem cancel_queued {id : Uuid} (h : JobInv d id t.now j) (hq : j.row.state = .queued)
    (activeAllowed : Bool) :
    ∃ r j', cancel d t j.row.userId activeAllowed j = .ok (r, j') ∧ j'.row.state = .cancelled := by
  have hopen : isTerminal j.row.state = false := by rw [hq]; rfl
  rcases terminal_ok h (ends_cancelled hopen) with ⟨j₁, hj₁⟩
  rcases terminal_effect hj₁ with ⟨_, notices, heq⟩
  have hout : j₁.outbox = j.outbox := by rw [heq]; rfl
  rcases createOutbox_closing_ok h.outbox hopen hout (o := ⟨.executionCancelled, 0, t.now, none,
    none, none, t.now, 0⟩) (Or.inl rfl) with ⟨j₂, hj₂⟩
  refine ⟨{ executionId := j.row.id, state := .cancelled }, j₂, ?_, ?_⟩
  · simp only [cancel, ne_eq, not_true_eq_false, if_false, hq, if_true]
    exact bind_eq_ok.mpr ⟨j₁, hj₁, bind_eq_ok.mpr ⟨j₂, hj₂, rfl⟩⟩
  · rcases Job.createOutbox_eq_ok.mp hj₂ with ⟨_, rfl⟩
    rw [heq]
    rfl

/-- The call that cancels a queued execution ends it. -/
theorem step_cancel_queued (d : Deployment) (calls : List Call) (call : Call) (id : Uuid) (j : Job)
    (activeAllowed : Bool) (hj : (Store.run d calls).jobs.lookup id = some j)
    (hq : j.row.state = .queued) (hop : call.op = .cancel j.row.userId id activeAllowed) :
    ∃ j', (Store.run d (calls ++ [call])).jobs.lookup id = some j' ∧ j'.row.state = .cancelled := by
  have hinv := (job_invariant d).moment calls call id j hj
  rcases cancel_queued hinv hq activeAllowed with ⟨r, j', hbody, hstate⟩
  refine ⟨j', ?_, hstate⟩
  have hok : call.op.body d (call.moment (Store.run d calls))
      { Store.run d calls with clock := (Store.run d calls).clock + call.elapsed } = .ok (.receipt r,
        { Store.run d calls with
          clock := (Store.run d calls).clock + call.elapsed,
          jobs := Table.set id j' (Store.run d calls).jobs }) := by
    rw [hop]
    exact map_eq_ok.mpr ⟨_, onRow_eq_ok.mpr (Or.inr ⟨j, j', hj, hbody, rfl⟩), rfl⟩
  rw [Store.run, Runs.run_append, Runs.run_cons, Runs.run_nil]
  rw [← Store.run, step_of_ok hok]
  exact Table.lookup_set_self hj

/-- An accepted cancellation is final. From the state in which an execution
    carries a request on, in every continuation: the request stays as it is, no
    claim succeeds, only final verdicts are written, no call moves the end of
    the lease past the grace period, and the only outcomes are a cancellation
    without a failure code and a cancellation timeout. A queued execution is
    cancelled by the call itself and never claimed. -/
theorem cancellation_final (d : Deployment) (calls : List Call) (id : Uuid) (j : Job)
    (hj : (Store.run d calls).jobs.lookup id = some j) :
    (∀ r, j.row.cancellationRequestedAt = some r → ∀ more,
      grants d id (calls ++ more) = grants d id calls ∧
        ∃ j', (Store.run d (calls ++ more)).jobs.lookup id = some j' ∧ Pending r j j' ∧
          ∀ call j'', (Store.run d (calls ++ more ++ [call])).jobs.lookup id = some j'' →
            GraceEnd r j'.row.leaseExpiresAt j''.row.leaseExpiresAt) ∧
    (j.row.state = .queued → ∀ (call : Call) (activeAllowed : Bool),
      call.op = .cancel j.row.userId id activeAllowed →
        (∃ j', (Store.run d (calls ++ [call])).jobs.lookup id = some j' ∧
          j'.row.state = .cancelled) ∧
        ∀ more, grants d id (calls ++ [call] ++ more) = []) := by
  constructor
  · intro r hreq more
    rcases pending_run d calls more id j r hj hreq with ⟨hgrants, j', hj', hp⟩
    refine ⟨hgrants, j', hj', hp, fun call j'' hj'' => ?_⟩
    rcases pending_step d (Store.run d (calls ++ more)) call id j j' r
      ((cancel_invariant d).run (calls ++ more) id) hj' hp with ⟨_, i, hi, _, hend⟩
    rw [Store.run, Runs.run_append, Runs.run_cons, Runs.run_nil, ← Store.run, hi] at hj''
    cases hj''
    exact hend
  · intro hq call activeAllowed hop
    rcases step_cancel_queued d calls call id j activeAllowed hj hq hop with ⟨j', hj', hstate⟩
    refine ⟨⟨j', hj', hstate⟩, fun more => ?_⟩
    -- a cancelled row is frozen with the attempt it had in the queue
    have hterm : isTerminal j'.row.state = true := by rw [hstate]; rfl
    rcases terminal_forever d (calls ++ [call]) more id j' hj' hterm with ⟨i, hi, hrow, _⟩
    have hhist := (grantHistory_run d (calls ++ [call] ++ more) id).attempts i hi
    have hzero : j'.row.attempt = 0 := by
      have heffect := step_effect d (Store.run d calls) call id
      have hafter : (step d (Store.run d calls) call).1.jobs.lookup id = some j' := by
        rw [← hj', Store.run, Store.run, Runs.run_append]
        rfl
      rw [hafter, hj] at heffect
      generalize grantedTo id (step d (Store.run d calls) call).2 = lease at heffect
      cases heffect with
      | granted token _ _ hclaim _ =>
          rw [hop] at hclaim
          cases hclaim
      | quiet _ _ chain =>
          rw [chain.attempt]
          exact ((lifecycle_run d calls id j hj).row.waiting hq).1
    rw [hrow, hzero] at hhist
    exact List.map_eq_nil_iff.mp hhist

/-- A running submission is cancelled, then its worker submits an accepted
    result. -/
theorem cancellation_final_accepted :
    ∃ j j', (Store.run Sample.deployment
        [Sample.created .submit, Sample.claimed, Sample.acted (.cancel Sample.owner Sample.execution
          true)]).jobs.lookup Sample.execution = some j ∧
      (Store.run Sample.deployment
        ([Sample.created .submit, Sample.claimed, Sample.acted (.cancel Sample.owner Sample.execution
          true)] ++ [Sample.acted (.finish Sample.lease { verdict := .accepted })])).jobs.lookup
            Sample.execution = some j' ∧ Pending 1020 j j' := by
  have hrequested : ((Store.run Sample.deployment
      [Sample.created .submit, Sample.claimed, Sample.acted (.cancel Sample.owner Sample.execution
        true)]).jobs.lookup Sample.execution).map (·.row.cancellationRequestedAt)
      = some (some 1020) := by decide +kernel
  rcases Option.map_eq_some_iff.mp hrequested with ⟨j, hj, hreq⟩
  rcases (cancellation_final _ _ _ j hj).1 1020 hreq
    [Sample.acted (.finish Sample.lease { verdict := .accepted })] with ⟨_, j', hj', hp, _⟩
  exact ⟨j, j', hj, hj', hp⟩

end ArenaCore
