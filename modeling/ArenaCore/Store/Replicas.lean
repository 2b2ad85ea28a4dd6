import ArenaCore.Lib.Locks
import ArenaCore.Store.Outcome

/-!
# Creation, Statement by Statement

Several processes serve creations at the same time, and a creation is not one
step but a transaction of many statements. Between two of them other
transactions commit, the clock moves, and a maintenance pass may delete expired
rate counters. What keeps creations apart is two locks, each held until the
transaction ends: the row of the owner, and the advisory lock of the admission
checks.

A pending creation is at a `Phase` that remembers what its statements have
read. `Creation.statement` is the next statement: it waits for a lock, moves to
the next phase, ends the transaction with an answer, or commits. Reads see what
is committed at that moment, and what the transaction has written itself.
Writes become visible on commit. All other operations of the store are single
transactions that run in between.

## Main definitions

* `Phase`, `Creation`: A transaction in progress.
* `Lock`, `Creation.holds`: The two kinds of locks.
* `Replicas`: The tables, the pending creations, and a record of those that
  committed.
* `Creation.statement`, `Move`: The next statement and its outcome.
* `Replicas.step`: One statement, or another transaction.

## Theorems

* `Replicas.step_happens`: Everything a step can do.
* `Happens.exclusive`: Locks stay exclusive.
-/

namespace ArenaCore

open Executions

variable {d : Deployment} {s : Store} {call : Call} {id : Uuid}

/-- Where a creation stands. Each phase names what has been read so far. -/
inductive Phase where
  | begun
  | owned
  | fresh
  | limited
  | located (versionId : Uuid)
  | placed (versionId : Uuid) (round : Option Uuid)
  | locked (versionId : Uuid) (round : Option Uuid)
  | counted (versionId : Uuid) (round : Option Uuid)
  | charging (versionId : Uuid) (round : Option Uuid) (window : Nat)
      (left : List (String × Nat)) (writes : List (String × RateCounter))
  | inserted (job : Job) (window : Nat) (writes : List (String × RateCounter))

namespace Phase

/-- The number of phases before this one. -/
def rank : Phase → Nat
  | begun => 0
  | owned => 1
  | fresh => 2
  | limited => 3
  | located _ => 4
  | placed _ _ => 5
  | locked _ _ => 6
  | counted _ _ => 7
  | charging _ _ _ _ _ => 8
  | inserted _ _ _ => 9

/-- The counters written so far, newest first. -/
def writes : Phase → List (String × RateCounter)
  | charging _ _ _ _ writes | inserted _ _ writes => writes
  | _ => []

end Phase

structure Creation where
  call : CreateCall
  phase : Phase := .begun

inductive Lock where
  | owner (userId : Uuid)
  | admission
deriving DecidableEq

/-- The owner's row is locked by the first statement, the advisory lock is
    taken by `reserve`. -/
def Creation.holds (c : Creation) : Lock → Bool
  | .owner userId => decide (1 ≤ c.phase.rank) && decide (c.call.userId = userId)
  | .admission => decide (6 ≤ c.phase.rank)

/-- A creation that committed, with the window its reservation computed. -/
structure Admission where
  call : CreateCall
  window : Nat

/-- The committed tables, the transactions in progress, and the creations that
    have committed, newest first. -/
structure Replicas where
  store : Store := {}
  pending : Table Nat Creation := ∅
  admitted : List Admission := []

/-- The outcome of a statement. -/
inductive Move where
  | wait
  | enter (phase : Phase)
  | answer (result : Except Error ExecutionReceipt)
  | commit (job : Job) (window : Nat) (writes : List (String × RateCounter))

/-- The counters as a transaction sees them. -/
def applyWrites (writes : List (String × RateCounter)) (limits : Table String RateCounter) :
    Table String RateCounter :=
  writes.foldr (fun w limits => limits.insert w.1 w.2) limits

/-- The scopes of a creation and their limits. -/
def rateScopes (d : Deployment) (call : CreateCall) : List (String × Nat) :=
  [("global", d.config.executionGlobalCreationsPerMinute),
    ("ip:" ++ call.ip, d.config.executionIpCreationsPerMinute),
    ("user:" ++ call.userId.text, d.config.executionCreationsPerMinute)]

/-- The row of an upsert that counts one more. -/
def countedUp (expiresAt : Nat) : Option RateCounter → RateCounter
  | none => { expiresAt := expiresAt }
  | some counter => { counter with count := counter.count + 1 }

/-- The execution a key was used for. -/
def previousJob (jobs : Table Uuid Job) (call : CreateCall) : Option Job :=
  (jobs.entries.find? fun e =>
    e.2.row.userId == call.userId && e.2.row.idempotencyKey == call.key).map (·.2)

def idempotencyConflict : Error :=
  .api 409 "IDEMPOTENCY_CONFLICT" "This request key was already used with different content."

/-- The next statement of a creation. -/
def Creation.statement (d : Deployment) (t : Moment) (s : Replicas) (c : Creation) : Move :=
  match c.phase with
  | .begun =>
      if Locks.isFree Creation.holds s.pending (.owner c.call.userId) then .enter .owned else .wait
  | .owned =>
      match previousJob s.store.jobs c.call with
      | some previous =>
          if previous.row.payloadHash ≠ payloadHash d c.call.input then
            .answer (.error idempotencyConflict)
          else .answer (.ok { executionId := previous.row.id, state := previous.row.state })
      | none => .enter .fresh
  | .fresh =>
      if d.config.maxActiveJobsPerUser ≤
          activeJobs s.store.jobs (fun row => row.userId == c.call.userId) then
        .answer (.error (.api 429 "ACTIVE_JOB_LIMIT" "Wait for your active execution to finish."
          (some 5)))
      else .enter .limited
  | .limited =>
      match c.call.registry.currentVersion c.call.input.problem with
      | none => .answer (.error (.api 404 "NOT_FOUND" "Problem not found."))
      | some versionId =>
          if (d.catalog versionId).isNone then
            .answer (.error (.api 404 "NOT_FOUND" "Problem not found."))
          else .enter (.located versionId)
  | .located versionId =>
      match roundColumn t c.call with
      | .error e => .answer (.error e)
      | .ok round => .enter (.placed versionId round)
  | .placed versionId round =>
      if Locks.isFree Creation.holds s.pending .admission then .enter (.locked versionId round)
      else .wait
  | .locked versionId round =>
      if d.config.maxActiveJobsGlobal ≤ activeJobs s.store.jobs (fun _ => true) then
        .answer (.error (.api 503 "EXECUTION_CAPACITY"
          "Execution capacity is full. Please retry later." (some 5)))
      else .enter (.counted versionId round)
  | .counted versionId round =>
      .enter (.charging versionId round (t.app / 60000) (rateScopes d c.call) [])
  | .charging versionId round window ((scope, limit) :: left) writes =>
      let expiresAt := (window + 1) * 60000
      let key := executionRateKey d window scope
      let counter := countedUp expiresAt ((applyWrites writes s.store.rateLimits).lookup key)
      if limit < counter.count then
        .answer (.error (.api 429 "EXECUTION_RATE_LIMIT"
          "Too many new executions. Please wait and retry."
          (some (max 1 ((expiresAt - t.app + 999) / 1000)))))
      else .enter (.charging versionId round window left ((key, counter) :: writes))
  | .charging versionId round window [] writes =>
      match insertJob d t (newRow d t c.call versionId round) s.store with
      | .error e => .answer (.error e)
      | .ok job => .enter (.inserted job window writes)
  | .inserted job window writes => .commit job window writes

/-- What happens next. A statement of a creation comes with the reading of its
    process's clock and the delay until a trigger reads the database's; a
    maintenance pass deletes what had expired at some time. -/
inductive Event where
  | tick (elapsed : Nat)
  | operation (call : Call)
  | sweep (time : Nat)
  | begin (tx : Nat) (call : CreateCall)
  | advance (tx : Nat) (app lag : Nat)
  | abort (tx : Nat)

/-- What a caller is told. -/
abbrev Reply := CreateCall × Except Error ExecutionReceipt

/-- Creations are the business of `begin` and `advance`. -/
def Op.isCreate : Op → Bool
  | .create _ => true
  | _ => false

namespace Replicas

variable (d : Deployment) (s : Replicas)

/-- The counters that a pending transaction has locked by writing them. -/
def lockedCounters : List String :=
  s.pending.entries.flatMap fun e => e.2.phase.writes.map Prod.fst

/-- `deleteMany` of the expired counters. Those that are locked have to wait
    for a later pass. -/
def sweep (time : Nat) : Replicas :=
  { s with store := { s.store with
      rateLimits := s.store.rateLimits.filter fun key counter =>
        decide (time < counter.expiresAt) || s.lockedCounters.contains key } }

/-- The moment of a statement. -/
def moment (app lag : Nat) : Moment where
  now := s.store.clock
  app := app
  trigger := s.store.clock + lag
  productNotifications := fun _ => true

/-- The writes of a creation become visible and its locks are released. -/
def commit (tx : Nat) (call : CreateCall) (job : Job) (window : Nat)
    (writes : List (String × RateCounter)) : Replicas where
  store := { s.store with
    jobs := s.store.jobs.insert call.id job,
    rateLimits := applyWrites writes s.store.rateLimits }
  pending := s.pending.erase tx
  admitted := ⟨call, window⟩ :: s.admitted

/-- The outcome of a statement of a pending creation. -/
def apply (tx : Nat) (c : Creation) : Move → Replicas × Option Reply
  | .wait => (s, none)
  | .enter phase => ({ s with pending := s.pending.insert tx { c with phase := phase } }, none)
  | .answer result => ({ s with pending := s.pending.erase tx }, some (c.call, result))
  | .commit job window writes =>
      (s.commit tx c.call job window writes,
        some (c.call, .ok { executionId := c.call.id, state := .queued }))

/-- One statement of a creation, another transaction, or the passing of time. -/
def step : Event → Replicas × Option Reply
  | .tick elapsed =>
      ({ s with store := { s.store with clock := s.store.clock + elapsed } }, none)
  | .operation call =>
      if call.op.isCreate then (s, none)
      else ({ s with store := (ArenaCore.step d s.store call).1 }, none)
  | .sweep time => (s.sweep time, none)
  | .begin tx call =>
      if d.config.executionsEnabled = false then
        (s, some (call, .error (.api 503 "EXECUTIONS_DISABLED"
          "Code execution is not available yet.")))
      else if tx ∈ s.pending then (s, none)
      else ({ s with pending := s.pending.insert tx { call := call } }, none)
  | .advance tx app lag =>
      match s.pending.lookup tx with
      | none => (s, none)
      | some c => s.apply tx c (c.statement d (s.moment app lag) s)
  | .abort tx => ({ s with pending := s.pending.erase tx }, none)

/-- The state after a list of events, from empty tables. -/
def run (events : List Event) : Replicas :=
  Runs.run (step d) {} events

end Replicas

/-! ### What a statement can do -/

/-- How a creation moves from one phase to the next, and what it has read. -/
inductive Enters (d : Deployment) (t : Moment) (s : Replicas) (call : CreateCall) :
    Phase → Phase → Prop where
  | owned (free : Locks.isFree Creation.holds s.pending (.owner call.userId) = true) :
      Enters d t s call .begun .owned
  | fresh (unused : previousJob s.store.jobs call = none) : Enters d t s call .owned .fresh
  | limited (below : activeJobs s.store.jobs (fun row => row.userId == call.userId)
      < d.config.maxActiveJobsPerUser) : Enters d t s call .fresh .limited
  | located (versionId : Uuid) (published : (d.catalog versionId).isSome = true) :
      Enters d t s call .limited (.located versionId)
  | placed (versionId : Uuid) (round : Option Uuid) :
      Enters d t s call (.located versionId) (.placed versionId round)
  | locked (versionId : Uuid) (round : Option Uuid)
      (free : Locks.isFree Creation.holds s.pending .admission = true) :
      Enters d t s call (.placed versionId round) (.locked versionId round)
  | counted (versionId : Uuid) (round : Option Uuid)
      (below : activeJobs s.store.jobs (fun _ => true) < d.config.maxActiveJobsGlobal) :
      Enters d t s call (.locked versionId round) (.counted versionId round)
  | opened (versionId : Uuid) (round : Option Uuid) :
      Enters d t s call (.counted versionId round)
        (.charging versionId round (t.app / 60000) (rateScopes d call) [])
  | charged (versionId : Uuid) (round : Option Uuid) (window : Nat) (scope : String) (limit : Nat)
      (left : List (String × Nat)) (writes : List (String × RateCounter)) (counter : RateCounter)
      (counts : counter = countedUp ((window + 1) * 60000)
        ((applyWrites writes s.store.rateLimits).lookup (executionRateKey d window scope)))
      (within : counter.count ≤ limit) :
      Enters d t s call (.charging versionId round window ((scope, limit) :: left) writes)
        (.charging versionId round window left ((executionRateKey d window scope, counter) :: writes))
  | inserted (versionId : Uuid) (round : Option Uuid) (window : Nat)
      (writes : List (String × RateCounter)) (job : Job)
      (accepted : insertJob d t (newRow d t call versionId round) s.store = .ok job) :
      Enters d t s call (.charging versionId round window [] writes) (.inserted job window writes)

/-- How a creation ends without writing: with the execution of its key, or
    with an error. -/
inductive Answers (d : Deployment) (s : Replicas) (c : Creation) :
    Except Error ExecutionReceipt → Prop where
  | retried (previous : Job) (phase : c.phase = .owned)
      (found : previousJob s.store.jobs c.call = some previous)
      (same : previous.row.payloadHash = payloadHash d c.call.input) :
      Answers d s c (.ok { executionId := previous.row.id, state := previous.row.state })
  | conflict (previous : Job) (phase : c.phase = .owned)
      (found : previousJob s.store.jobs c.call = some previous)
      (differs : previous.row.payloadHash ≠ payloadHash d c.call.input) :
      Answers d s c (.error idempotencyConflict)
  | failed (e : Error) (later : 2 ≤ c.phase.rank) : Answers d s c (.error e)

section Statements

variable {d : Deployment} {t : Moment} {s : Replicas} {c : Creation}

theorem statement_enter {phase : Phase} (h : c.statement d t s = .enter phase) :
    Enters d t s c.call c.phase phase := by
  unfold Creation.statement at h
  split at h
  · next hphase =>
      rw [hphase]
      split at h <;> cases h
      exact .owned ‹_›
  · next hphase =>
      rw [hphase]
      split at h
      · split at h <;> cases h
      · cases h
        exact .fresh ‹_›
  · next hphase =>
      rw [hphase]
      split at h <;> cases h
      exact .limited (not_le.1 ‹_›)
  · next hphase =>
      rw [hphase]
      split at h
      · cases h
      · split at h <;> cases h
        exact .located _ (by rw [← Option.not_isNone]; simp [*])
  · next hphase =>
      rw [hphase]
      split at h <;> cases h
      exact .placed _ _
  · next hphase =>
      rw [hphase]
      split at h <;> cases h
      exact .locked _ _ ‹_›
  · next hphase =>
      rw [hphase]
      split at h <;> cases h
      exact .counted _ _ (not_le.1 ‹_›)
  · next hphase =>
      rw [hphase]
      cases h
      exact .opened _ _
  · next hphase =>
      rw [hphase]
      simp only [] at h
      split at h <;> cases h
      exact .charged _ _ _ _ _ _ _ _ rfl (not_lt.1 ‹_›)
  · next hphase =>
      rw [hphase]
      split at h <;> cases h
      exact .inserted _ _ _ _ _ ‹_›
  · cases h

theorem statement_answer {result : Except Error ExecutionReceipt}
    (h : c.statement d t s = .answer result) : Answers d s c result := by
  unfold Creation.statement at h
  split at h
  · split at h <;> cases h
  · next hphase =>
      split at h
      · split at h <;> cases h
        · exact .conflict _ hphase ‹_› ‹_›
        · exact .retried _ hphase ‹_› (not_not.1 ‹_›)
      · cases h
  · next hphase =>
      split at h <;> cases h
      exact .failed _ (by simp [hphase, Phase.rank])
  · next hphase =>
      have hrank : 2 ≤ c.phase.rank := by simp [hphase, Phase.rank]
      split at h
      · cases h
        exact .failed _ hrank
      · split at h <;> cases h
        exact .failed _ hrank
  · next hphase =>
      split at h <;> cases h
      exact .failed _ (by simp [hphase, Phase.rank])
  · split at h <;> cases h
  · next hphase =>
      split at h <;> cases h
      exact .failed _ (by simp [hphase, Phase.rank])
  · cases h
  · next hphase =>
      simp only [] at h
      split at h <;> cases h
      exact .failed _ (by simp [hphase, Phase.rank])
  · next hphase =>
      split at h <;> cases h
      exact .failed _ (by simp [hphase, Phase.rank])
  · cases h

theorem statement_commit {job : Job} {window : Nat} {writes : List (String × RateCounter)}
    (h : c.statement d t s = .commit job window writes) :
    c.phase = .inserted job window writes := by
  unfold Creation.statement at h
  split at h
  case h_11 =>
    cases h
    assumption
  all_goals
    try simp only [] at h
    repeat' split at h
    all_goals cases h

end Statements

/-- What an event can do. -/
inductive Happens (d : Deployment) (s : Replicas) : Event → Replicas → Option Reply → Prop where
  | idle (e : Event) : Happens d s e s none
  | refused (tx : Nat) (call : CreateCall) (error : Error)
      (disabled : d.config.executionsEnabled = false) :
      Happens d s (.begin tx call) s (some (call, .error error))
  | ticked (elapsed : Nat) :
      Happens d s (.tick elapsed)
        { s with store := { s.store with clock := s.store.clock + elapsed } } none
  | operated (call : Call) (other : call.op.isCreate = false) :
      Happens d s (.operation call) { s with store := (step d s.store call).1 } none
  | swept (time : Nat) : Happens d s (.sweep time) (s.sweep time) none
  | began (tx : Nat) (call : CreateCall) (enabled : d.config.executionsEnabled = true)
      (new : tx ∉ s.pending) :
      Happens d s (.begin tx call) { s with pending := s.pending.insert tx { call := call } } none
  | entered (tx app lag : Nat) (c : Creation) (phase : Phase)
      (pending : s.pending.lookup tx = some c)
      (enters : Enters d (s.moment app lag) s c.call c.phase phase) :
      Happens d s (.advance tx app lag)
        { s with pending := s.pending.insert tx { c with phase := phase } } none
  | answered (tx app lag : Nat) (c : Creation) (result : Except Error ExecutionReceipt)
      (pending : s.pending.lookup tx = some c) (answers : Answers d s c result) :
      Happens d s (.advance tx app lag) { s with pending := s.pending.erase tx }
        (some (c.call, result))
  | committed (tx app lag : Nat) (c : Creation) (job : Job) (window : Nat)
      (writes : List (String × RateCounter)) (pending : s.pending.lookup tx = some c)
      (phase : c.phase = .inserted job window writes) :
      Happens d s (.advance tx app lag) (s.commit tx c.call job window writes)
        (some (c.call, .ok { executionId := c.call.id, state := .queued }))
  | aborted (tx : Nat) : Happens d s (.abort tx) { s with pending := s.pending.erase tx } none

theorem Replicas.step_happens (d : Deployment) (s : Replicas) (e : Event) :
    Happens d s e (s.step d e).1 (s.step d e).2 := by
  cases e with
  | tick elapsed => exact .ticked elapsed
  | operation call =>
      simp only [Replicas.step]
      split
      · exact .idle _
      · next hother => exact .operated call (Bool.eq_false_iff.2 hother)
  | sweep time => exact .swept time
  | begin tx call =>
      simp only [Replicas.step]
      split
      · next hdisabled => exact .refused tx call _ hdisabled
      · next henabled =>
          split
          · exact .idle _
          · next hnew => exact .began tx call (Bool.not_eq_false _ ▸ henabled) hnew
  | advance tx app lag =>
      simp only [Replicas.step]
      cases hpending : s.pending.lookup tx with
      | none => exact .idle _
      | some c =>
          simp only []
          cases hmove : c.statement d (s.moment app lag) s with
          | wait => exact .idle _
          | enter phase => exact .entered tx app lag c phase hpending (statement_enter hmove)
          | answer result => exact .answered tx app lag c result hpending (statement_answer hmove)
          | commit job window writes =>
              exact .committed tx app lag c job window writes hpending (statement_commit hmove)
  | abort tx => exact .aborted tx

/-- A property of the state that no event destroys holds in every run. -/
theorem Replicas.run_invariant {P : Replicas → Prop} (hinit : P {})
    (hstep : ∀ s e s' reply, Happens d s e s' reply → P s → P s') (events : List Event) :
    P (Replicas.run d events) :=
  Runs.run_induction (Replicas.step d)
    (fun s e hs => hstep s e _ _ (s.step_happens d e) hs) {} hinit events

/-! ### Locks -/

/-- Entering a phase takes only locks that are free. -/
theorem Enters.holds {t : Moment} {s : Replicas} {c : Creation} {phase : Phase}
    (h : Enters d t s c.call c.phase phase) (lock : Lock)
    (hheld : Creation.holds { c with phase := phase } lock = true) :
    c.holds lock = true ∨ Locks.isFree Creation.holds s.pending lock = true := by
  obtain ⟨call, before⟩ := c
  cases h with
  | owned hfree =>
      right
      cases lock with
      | owner userId =>
          simp only [Creation.holds, Bool.and_eq_true, decide_eq_true_eq] at hheld
          exact hheld.2 ▸ hfree
      | admission => simp [Creation.holds, Phase.rank] at hheld
  | locked versionId round hfree =>
      cases lock with
      | owner userId =>
          left
          simpa [Creation.holds, Phase.rank] using hheld
      | admission => exact .inr hfree
  | _ =>
      left
      cases lock <;> simp_all [Creation.holds, Phase.rank]

/-- No two pending creations hold the same lock. -/
def Replicas.Exclusive (s : Replicas) : Prop :=
  Locks.Exclusive Creation.holds s.pending

theorem Happens.exclusive {s s' : Replicas} {e : Event} {reply : Option Reply}
    (h : Happens d s e s' reply) (hs : s.Exclusive) : s'.Exclusive := by
  cases h with
  | idle | refused | ticked | operated | swept => exact hs
  | began tx call =>
      refine Locks.exclusive_insert hs fun lock hheld => ?_
      cases lock <;> simp [Creation.holds, Phase.rank] at hheld
  | entered tx app lag c phase hpending henters =>
      refine Locks.exclusive_insert hs fun lock hheld => ?_
      rcases henters.holds lock hheld with hold | hfree
      · exact .inl ⟨c, hpending, hold⟩
      · exact .inr hfree
  | answered | committed | aborted => exact Locks.exclusive_erase hs _

/-! ### Other operations -/

/-- An operation other than `create` makes no execution, keeps every request,
    and revives none that has ended. -/
theorem operation_before (hother : call.op.isCreate = false) {j' : Job}
    (h : (step d s call).1.jobs.lookup id = some j') :
    ∃ j, s.jobs.lookup id = some j ∧ j'.row.request = j.row.request ∧
      (isTerminal j'.row.state = false → isTerminal j.row.state = false) := by
  obtain ⟨_, _, hbefore, heffect⟩ := step_effect_before h
  cases heffect with
  | created create _ hop => rw [hop] at hother; cases hother
  | granted token j _ _ grant =>
      exact ⟨j, hbefore, grant.request, fun _ => grant.claimable.nonterminal⟩
  | quiet j _ chain =>
      refine ⟨j, hbefore, chain.request, fun hopen => ?_⟩
      by_contra hterm
      rw [Bool.not_eq_false] at hterm
      rw [(chain.frozen hterm).1, hterm] at hopen
      cases hopen

/-- No operation removes an execution. -/
theorem operation_after (call : Call) {j : Job} (h : s.jobs.lookup id = some j) :
    ∃ j', (step d s call).1.jobs.lookup id = some j' ∧ j'.row.request = j.row.request := by
  obtain ⟨_, _, hafter, heffect⟩ := step_effect_after d call h
  cases heffect with
  | granted token _ j' _ grant => exact ⟨j', hafter, grant.request⟩
  | quiet _ j' chain => exact ⟨j', hafter, chain.request⟩

theorem body_rateLimits {t : Moment} {s' : Store} {op : Op} {a : Answer}
    (hother : op.isCreate = false) (h : op.body d t s = .ok (a, s')) :
    s'.rateLimits = s.rateLimits := by
  cases op with
  | create call => cases hother
  | console | finish =>
      simp only [Op.body] at h
      split at h
      · cases h
      · obtain ⟨⟨_, _⟩, _, hpair⟩ := Transaction.map_eq_ok.1 h
        cases hpair
        rfl
  | maintain =>
      obtain ⟨_, _, hpair⟩ := Transaction.map_eq_ok.1 h
      cases hpair
      rfl
  | claim | renew | markRunning | fail | recover | cancel | expireQueuedJobs =>
      obtain ⟨⟨_, _⟩, _, hpair⟩ := Transaction.map_eq_ok.1 h
      cases hpair
      rfl

/-- An operation other than `create` does not touch the rate counters. -/
theorem operation_rateLimits (d : Deployment) (s : Store) (hother : call.op.isCreate = false) :
    (step d s call).1.rateLimits = s.rateLimits := by
  cases hbody : call.op.body d (call.moment s) { s with clock := s.clock + call.elapsed } with
  | error e => rw [step_of_error hbody]
  | ok r =>
      obtain ⟨answer, s'⟩ := r
      rw [step_of_ok hbody]
      have hlimits := body_rateLimits hother hbody
      exact hlimits

theorem mem_of_operation (hother : call.op.isCreate = false) (h : id ∈ (step d s call).1.jobs) :
    id ∈ s.jobs := by
  obtain ⟨j', hj'⟩ := Option.isSome_iff_exists.1 (AList.lookup_isSome.2 h)
  obtain ⟨j, hj, _⟩ := operation_before hother hj'
  exact AList.lookup_isSome.1 (Option.isSome_of_eq_some hj)

/-! ### Inserted rows -/

/-- A pending creation that has inserted its row has a new job under an
    identifier that is still free. -/
def Replicas.Prepared (d : Deployment) (s : Replicas) : Prop :=
  ∀ ⦃tx c job window writes⦄, s.pending.lookup tx = some c →
    c.phase = .inserted job window writes → c.call.id ∉ s.store.jobs ∧
      ∃ t versionId round, Inserted d t (newRow d t c.call versionId round) job

theorem Happens.prepared {s s' : Replicas} {e : Event} {reply : Option Reply}
    (h : Happens d s e s' reply) (hexclusive : s.Exclusive) (hs : s.Prepared d) :
    s'.Prepared d := by
  intro tx' c' job' window' writes' hpending' hphase'
  cases h with
  | idle | refused | ticked | swept => exact hs hpending' hphase'
  | operated call hother =>
      obtain ⟨hnew, hjob⟩ := hs hpending' hphase'
      exact ⟨fun hmem => hnew (mem_of_operation hother hmem), hjob⟩
  | began tx call =>
      rcases Table.lookup_of_insert hpending' with ⟨_, rfl⟩ | ⟨_, hbefore⟩
      · cases hphase'
      · exact hs hbefore hphase'
  | entered tx app lag c phase hpending henters =>
      rcases Table.lookup_of_insert hpending' with ⟨_, rfl⟩ | ⟨_, hbefore⟩
      · subst hphase'
        generalize hfrom : c.phase = before at henters
        cases henters with
        | inserted versionId round _ _ _ hinsert =>
            obtain ⟨hnew, hinserted⟩ := insertJob_effect hinsert
            exact ⟨hnew, _, versionId, round, hinserted⟩
      · exact hs hbefore hphase'
  | answered | aborted => exact hs (Table.lookup_of_erase hpending').2 hphase'
  | committed tx app lag c job window writes hpending hphase =>
      -- Both would hold the advisory lock.
      obtain ⟨hne, hbefore⟩ := Table.lookup_of_erase hpending'
      have hheld : c'.holds .admission = true := by simp [Creation.holds, hphase', Phase.rank]
      have hheld' : c.holds .admission = true := by simp [Creation.holds, hphase, Phase.rank]
      exact absurd (hexclusive hbefore hpending hheld hheld') hne

theorem prepared_run (d : Deployment) (events : List Event) :
    (Replicas.run d events).Prepared d := by
  have hboth : (Replicas.run d events).Exclusive ∧ (Replicas.run d events).Prepared d :=
    Replicas.run_invariant (P := fun s => s.Exclusive ∧ s.Prepared d)
      ⟨Locks.exclusive_empty, fun tx c _ _ _ h => by cases h⟩
      (fun _ _ _ _ h hs => ⟨h.exclusive hs.1, h.prepared hs.1 hs.2⟩) events
  exact hboth.2

namespace Sample

/-- A request of the owner. -/
def request (id : Uuid) (key : String) : CreateCall where
  userId := owner
  input := input .run
  key := key
  ip := "ip"
  id := id
  registry := ⟨fun _ => some versionId, fun _ => none⟩

/-- A creation from its first statement to its commit, all at one time. -/
def creation (tx : Nat) (call : CreateCall) (app : Nat) : List Event :=
  .begin tx call :: List.replicate 13 (.advance tx app 0)

end Sample

end ArenaCore
