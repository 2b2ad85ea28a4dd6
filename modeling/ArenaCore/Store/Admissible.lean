import ArenaCore.Store.Lifecycle

/-!
# Updates the Database Admits

The guard describes the lifecycle a second time, independently of the store.
Here the two descriptions meet, one effect at a time: every update an effect
makes to an open row passes the trigger, and the row it leaves meets every
constraint of the table. The lemmas are about two rows and know nothing of the
operations that write them.

The trigger's conditions are dealt with one by one in `protectUpdate_eq_none`,
which asks for a reason why each stays quiet. The constraints follow from the
row invariant alone.

## Main definitions

* `MetricsFit`: The metric columns, as the constraints want them.

## Theorems

* `allowed_of_canTransition`: Lifecycle edges are allowed transitions.
* `protectUpdate_eq_none`: When the trigger lets an update pass.
* `executionChecks_admit`: The invariant of a row implies its constraints.
* `Quiet.accepted`, `grant_accepted`: Every effect is admitted.
-/

namespace ArenaCore

open JobStore Sql

variable {clock : Nat} {old new row : Execution} {d : Deployment} {id : Uuid} {t : Moment}

/-! ### What the guard lets through -/

/-- The edges of the lifecycle are transitions the trigger allows. -/
theorem allowed_of_canTransition (h : canTransition old.state new.state = true) :
    allowedTransition clock old new = some true := by
  refine any_eq_true ?_
  have hstates : ∀ a b : ExecutionState, canTransition a b = true →
      Truth.and (eq (some a) (some .queued)) (isIn (some b) [.compiling, .cancelled, .internalError])
        = some true ∨
      Truth.and (eq (some a) (some .compiling))
        (isIn (some b) [.running, .finished, .cancelled, .internalError]) = some true ∨
      Truth.and (eq (some a) (some .running))
        (isIn (some b) [.finished, .cancelled, .internalError]) = some true := by
    intro a b
    cases a <;> cases b <;> decide
  rcases hstates _ _ h with hq | hc | hr
  · rw [hq]; exact List.mem_cons_self
  · rw [hc]; exact List.mem_cons_of_mem _ List.mem_cons_self
  · rw [hr]; exact List.mem_cons_of_mem _ (List.mem_cons_of_mem _ List.mem_cons_self)

/-- The seven conditions of the trigger, each with the reason it stays quiet. -/
theorem protectUpdate_eq_none (hrequest : new.request = old.request)
    (hcancel : old.cancellationRequestedAt = none ∨
      new.cancellationRequestedAt = old.cancellationRequestedAt)
    (hlease : new.leaseToken = none ∨ old.leaseToken = none ∨
      (new.leaseToken = old.leaseToken ∧ new.attempt = old.attempt) ∨
      replacesExpiredLease clock old new = some true) (hopen : isTerminal old.state = false)
    (hedge : new.state = old.state ∨ allowedTransition clock old new = some true)
    (hcount : old.attempt < new.attempt ∨
      (new.attempt = old.attempt ∧ old.lastSequence ≤ new.lastSequence))
    (hqueue : new.failureCode ≠ some .queueTimeout ∨
      (old.state = .queued ∧ new.state = .internalError)) : protectUpdate clock old new = none := by
  have hfirst : raises (distinct new.request old.request) = false := by
    simp only [distinct, hrequest, raises_some, ne_eq, not_true_eq_false, decide_false]
  have hsecond : raises (Truth.and (isNotNull old.cancellationRequestedAt)
      (distinct new.cancellationRequestedAt old.cancellationRequestedAt)) = false := by
    rcases hcancel with h | h
    · simp only [isNotNull, h, Option.isSome_none, raises_and, raises_some, Bool.false_and]
    · simp only [distinct, h, raises_and, raises_some, ne_eq, not_true_eq_false, decide_false,
        Bool.and_false]
  have hthird : raises (Truth.all [isNotNull old.leaseToken, isNotNull new.leaseToken,
      distinct (new.leaseToken, new.attempt) (old.leaseToken, old.attempt),
      Truth.not (replacesExpiredLease clock old new)]) = false := by
    simp only [raises_all, List.all_cons, List.all_nil, Bool.and_true, isNotNull, raises_some,
      distinct]
    rcases hlease with h | h | ⟨h, h'⟩ | h
    · simp only [h, Option.isSome_none, Bool.false_and, Bool.and_false]
    · simp only [h, Option.isSome_none, Bool.false_and]
    · simp only [h, h', ne_eq, not_true_eq_false, decide_false, Bool.false_and, Bool.and_false]
    · simp only [h, Truth.not, Bool.not_true, raises_some, Bool.and_false]
  have hfourth : raises (Truth.and (isIn (some old.state) [.finished, .cancelled, .internalError])
      (distinct new old)) = false := by
    have hnot : isIn (some old.state) [.finished, .cancelled, .internalError] = some false := by
      rcases (not_isTerminal_iff _).mp hopen with h | h | h <;> rw [h] <;> decide
    simp only [hnot, raises_and, raises_some, Bool.false_and]
  have hfifth : raises (Truth.and (ne (some new.state) (some old.state))
      (Truth.not (allowedTransition clock old new))) = false := by
    rcases hedge with h | h
    · simp only [h, ne, lift, raises_and, raises_some, ne_eq, not_true_eq_false, decide_false,
        Bool.false_and]
    · simp only [h, Truth.not, Bool.not_true, raises_and, raises_some, Bool.and_false]
  have hsixth : raises (Truth.or (some (decide (new.attempt < old.attempt)))
      (Truth.and (eq (some new.attempt) (some old.attempt))
        (some (decide (new.lastSequence < old.lastSequence))))) = false := by
    simp only [raises_or, raises_and, raises_some, eq, lift, Bool.or_eq_false_iff,
      Bool.and_eq_false_imp, decide_eq_false_iff_not, decide_eq_true_eq]
    omega
  have hseventh : raises (Truth.and (eq new.failureCode (some .queueTimeout))
      (Truth.not (Truth.and (eq (some old.state) (some .queued))
        (eq (some new.state) (some .internalError))))) = false := by
    rcases hqueue with h | ⟨h, h'⟩
    · rw [raises_and]
      cases hcode : new.failureCode with
      | none => rfl
      | some code =>
          rw [hcode] at h
          have hne : code ≠ .queueTimeout := fun hc => h (congrArg some hc)
          simp only [eq, lift, hne, decide_false, raises_some, Bool.false_and]
    · rw [h, h', raises_and]
      simp only [eq, lift, decide_true, Truth.and, Truth.not, Bool.not_true, raises_some,
        Bool.and_false]
  simp only [protectUpdate, hfirst, hsecond, hthird, hfourth, hfifth, hsixth, hseventh,
    Bool.false_eq_true, if_false]

/-- The metric columns of a row, as the constraints want them. -/
structure MetricsFit (row : Execution) : Prop where
  range : checks (Truth.and (fitsInteger row.runtimeMs) (fitsInteger row.memoryKiB)) = true
  runtime : ∀ n, row.runtimeMs = some n → 0 ≤ n
  memory : ∀ n, row.memoryKiB = some n → 0 ≤ n

theorem validTerminalFields_of_rowInv (h : RowInv clock row) :
    validTerminalFields row = some true := by
  refine any_eq_true ?_
  cases hterm : isTerminal row.state with
  | false =>
      rcases h.undecided hterm with ⟨hv, hf, hc, _⟩
      have hstate : isIn (some row.state) [.queued, .compiling, .running] = some true := by
        rcases (not_isTerminal_iff _).mp hterm with hs | hs | hs <;> rw [hs] <;> decide
      rw [hv, hf, hc, hstate]
      exact List.mem_cons_self
  | true =>
      rcases h.decided hterm with ⟨hsome, hmatch⟩
      have hfin : isNotNull row.finishedAt = some true := congrArg some hsome
      rcases (isTerminal_iff _).mp hterm with hs | hs | hs <;> rw [hs] at hmatch
      · rcases hmatch with ⟨⟨v, hv, hlearner⟩, hc⟩
        refine List.mem_cons_of_mem _ (List.mem_cons.mpr (Or.inl ?_))
        rw [hs, hv, hc, hfin]
        cases v <;> first | rfl | cases hlearner
      · refine List.mem_cons_of_mem _ (List.mem_cons_of_mem _ (List.mem_cons.mpr (Or.inl ?_)))
        rw [hs, hmatch.1, hmatch.2, hfin]
        rfl
      · refine List.mem_cons_of_mem _ (List.mem_cons_of_mem _ (List.mem_cons_of_mem _
          (List.mem_cons.mpr (Or.inl ?_))))
        rw [hs, hmatch.1, hfin]
        rfl

theorem validLeasePair_of_rowInv (h : RowInv clock row) : validLeasePair row = some true := by
  cases hterm : isTerminal row.state with
  | true =>
      rcases h.released hterm with ⟨ht, he⟩
      rw [validLeasePair, ht, he]
      rfl
  | false =>
      rcases (not_isTerminal_iff _).mp hterm with hq | hactive
      · rcases h.waiting hq with ⟨_, ht, he, _⟩
        rw [validLeasePair, ht, he]
        rfl
      · rcases h.leased hactive with ⟨_, ⟨token, ht⟩, e, he, _⟩
        rcases hactive with hs | hs <;> rw [validLeasePair, ht, he, hs] <;> rfl

theorem nonnegativeMetric_checks {n : Option Int} (h : ∀ x, n = some x → 0 ≤ x) :
    nonnegativeMetric n = some true := by
  cases n with
  | none => rfl
  | some x =>
      have hx : decide (0 ≤ x) = true := decide_eq_true (h x rfl)
      simp only [nonnegativeMetric, isNotNull, Option.isSome_some, Truth.not, Bool.not_true,
        Option.map_some, hx, Truth.or]

/-- The invariant of a row implies the constraints of the table. -/
theorem executionChecks_admit (h : RowInv clock row) (hreq : RequestInv d id row.request)
    (hfit : MetricsFit row) (hprivate : row.mode = .run ∨ row.publicResults = none) :
    ∀ c ∈ executionChecks row, checks c.2 = true := by
  simp only [executionChecks, List.forall_mem_cons, List.not_mem_nil, false_imp_iff, implies_true,
    and_true]
  refine ⟨hfit.range, ?_, ?_, ?_, ?_, ?_, ?_, ?_⟩
  · rw [checks_some]
    exact decide_eq_true hreq.sourceBytes
  · rw [nonnegativeMetric_checks hfit.runtime, nonnegativeMetric_checks hfit.memory]
    rfl
  · rcases hprivate with hm | hm <;> rw [hm]
    · rfl
    · rcases row.mode with _ | _ <;> rfl
  · rw [validTerminalFields_of_rowInv h]
    rfl
  · simp only [checks_some, Nat.zero_le, and_self, decide_true]
  · rw [checks_some]
    exact decide_eq_true hreq.queueDeadline
  · rw [validLeasePair_of_rowInv h]
    rfl

/-! ### Every effect is admitted -/

/-- A row without metrics fits. -/
theorem metricsFit_of_none (hr : row.runtimeMs = none) (hm : row.memoryKiB = none) :
    MetricsFit row := by
  constructor
  · rw [hr, hm]; rfl
  · intro n hn; rw [hr] at hn; cases hn
  · intro n hn; rw [hm] at hn; cases hn

/-- An update that keeps the attempt, with the row and metrics it leaves. -/
theorem guardUpdate_of_rowInv {trigger : Nat} (hreq : RequestInv d id old.request)
    (hsame : new.request = old.request) (hnew : RowInv clock new) (hfit : MetricsFit new)
    (hprivate : new.mode = .run ∨ new.publicResults = none)
    (hprotect : protectUpdate trigger old new = none) : guardUpdate trigger old new = none :=
  guardUpdate_eq_none.mpr
    ⟨hprotect, executionChecks_admit hnew (hsame ▸ hreq) hfit hprivate⟩

theorem finished_fits {result : WorkerResult} (hr : row.runtimeMs = none)
    (hm : row.memoryKiB = none) (hshape : resultSchema result = true)
    (hrange : checks (Truth.and (fitsInteger result.runtimeMs) (fitsInteger result.memoryKiB))
      = true) : MetricsFit (finishedRow d t result row) := by
  simp only [resultSchema, Bool.and_eq_true, nonnegative] at hshape
  have hnonneg : ∀ {o : Option Int}, (o.all fun x => isSafeInteger x && decide (0 ≤ x)) = true →
      ∀ n, o = some n → 0 ≤ n := by
    intro o ho n hn
    rw [hn, Option.all_some, Bool.and_eq_true] at ho
    exact of_decide_eq_true ho.2
  constructor
  · simp only [finishedRow, hr, hm, Option.or_none]
    exact hrange
  · simp only [finishedRow, hr, Option.or_none]
    exact hnonneg hshape.1.1.2
  · simp only [finishedRow, hm, Option.or_none]
    exact hnonneg hshape.1.2

/-- Every update of a quiet effect is one the guard admits, provided a
    worker's metrics fit their columns. -/
theorem JobStore.Quiet.accepted {j j' : Job} (op : Op) (step : Quiet d t op j j')
    (h : Lifecycle d id t.now j) (hopen : isTerminal j.row.state = false)
    (hrange : checks (Truth.and (fitsInteger j'.row.runtimeMs) (fitsInteger j'.row.memoryKiB))
      = true) : guardUpdate t.trigger j.row j'.row = none := by
  rcases h.row.undecided hopen with ⟨_, _, hcode, hr, hm, hpub⟩
  have hnotQueue : ∀ {row : Execution}, row.failureCode = none →
      row.failureCode ≠ some .queueTimeout ∨ (j.row.state = .queued ∧ row.state = .internalError) :=
    fun hc => Or.inl (by rw [hc]; exact nofun)
  refine guardUpdate_of_rowInv h.request step.request (step.rowInv h.row) ?fit ?priv ?prot
  case fit =>
    cases step with
    | finished lease result notices authority uncancelled shape allowed recordable =>
        simp only [finishedRow, hr, hm, Option.or_none] at hrange
        exact finished_fits hr hm shape hrange
    | renewed | started | printed | requested | ended | expired | yielded | intents | swept =>
        exact metricsFit_of_none hr hm
  case priv =>
    cases step with
    | finished lease result notices authority uncancelled shape allowed recordable =>
        cases hres : result.publicCaseResults with
        | none => exact Or.inr (by simp only [finishedRow, hres, hpub]; rfl)
        | some results =>
            have hallowed := allowed results hres
            simp only [publicResultsAllowed, Bool.and_eq_true, beq_iff_eq] at hallowed
            exact Or.inl hallowed.1.1
    | renewed | started | printed | requested | ended | expired | yielded | intents | swept =>
        exact Or.inr hpub
  case prot =>
    cases step with
    | renewed | yielded | intents | swept =>
        exact protectUpdate_eq_none rfl (Or.inr rfl) (Or.inr (Or.inr (Or.inl ⟨rfl, rfl⟩))) hopen
          (Or.inl rfl) (Or.inr ⟨rfl, Nat.le_refl _⟩) (hnotQueue hcode)
    | started lease authority uncancelled compiling recordable =>
        refine protectUpdate_eq_none rfl (Or.inr rfl) (Or.inr (Or.inr (Or.inl ⟨rfl, rfl⟩))) hopen
          (Or.inr (allowed_of_canTransition ?_)) (Or.inr ⟨rfl, Nat.le_succ _⟩) (hnotQueue hcode)
        rw [compiling]; rfl
    | printed lease caseId stream text authority uncancelled mode publicCase recordable =>
        exact protectUpdate_eq_none rfl (Or.inr rfl) (Or.inr (Or.inr (Or.inl ⟨rfl, rfl⟩))) hopen
          (Or.inl rfl) (Or.inr ⟨rfl, Nat.le_succ _⟩) (hnotQueue hcode)
    | requested active uncancelled recordable =>
        exact protectUpdate_eq_none rfl (Or.inl uncancelled) (Or.inr (Or.inr (Or.inl ⟨rfl, rfl⟩)))
          hopen (Or.inl rfl) (Or.inr ⟨rfl, Nat.le_succ _⟩) (hnotQueue hcode)
    | finished lease result notices authority uncancelled shape allowed recordable =>
        refine protectUpdate_eq_none rfl (Or.inr rfl) (Or.inl rfl) hopen
          (Or.inr (allowed_of_canTransition ?_)) (Or.inr ⟨rfl, Nat.le_succ _⟩) (hnotQueue hcode)
        rcases valid_active authority with hs | hs <;> rw [hs] <;> rfl
    | ended outcome code notices ends recordable =>
        refine protectUpdate_eq_none rfl (Or.inr rfl) (Or.inl rfl) hopen
          (Or.inr (allowed_of_canTransition ?_)) (Or.inr ⟨rfl, Nat.le_succ _⟩) ?_
        · rcases (not_isTerminal_iff _).mp hopen with hs | hs | hs <;> rw [hs] <;>
            cases outcome <;> rfl
        · -- only a queued row ends by a queue timeout, and never as cancelled
          by_cases hcase : code = some .queueTimeout
          · have hout : outcome ≠ .cancelled := fun hc => by
              rw [ends.codeless.mpr hc] at hcase
              cases hcase
            refine Or.inr ⟨ends.queueTimeout hcase, ?_⟩
            cases outcome with
            | internalError => rfl
            | cancelled => exact absurd rfl hout
          · exact Or.inl hcase
    | expired queued recordable =>
        refine protectUpdate_eq_none rfl (Or.inr rfl) (Or.inr (Or.inl (h.row.waiting queued).2.1))
          hopen (Or.inr (allowed_of_canTransition ?_)) (Or.inr ⟨rfl, Nat.le_succ _⟩)
          (Or.inr ⟨queued, rfl⟩)
        rw [queued]; rfl

/-- A claim replaces an expired lease by a new attempt with a new token, which
    is the one way the trigger lets a lease be replaced. -/
theorem grant_accepted {token : Uuid} {j : Job} (h : Lifecycle d id t.now j)
    (hclaim : Claimable j.row t.now) (hclock : t.now ≤ t.trigger)
    (hfresh : j.row.leaseToken ≠ some token) :
    guardUpdate t.trigger j.row (grantedRow t token j.row) = none := by
  rcases h.row.undecided hclaim.nonterminal with ⟨_, _, hcode, hr, hm, hpub⟩
  have hrow : RowInv t.now (grantedRow t token j.row) :=
    .of_active (Or.inl rfl) ⟨Nat.le_add_left 1 _, hclaim.attemptsLeft⟩
      (h.row.undecided hclaim.nonterminal) ⟨token, rfl⟩ ⟨_, rfl, Nat.min_le_right _ _⟩
      h.row.requestedAt
  refine guardUpdate_of_rowInv h.request rfl hrow (metricsFit_of_none hr hm) (Or.inr hpub) ?_
  have hcount : j.row.attempt < (grantedRow t token j.row).attempt := Nat.lt_succ_self _
  have hqueue : (grantedRow t token j.row).failureCode ≠ some .queueTimeout := by
    change j.row.failureCode ≠ _
    rw [hcode]; exact nofun
  rcases (not_isTerminal_iff _).mp hclaim.nonterminal with hq | hactive
  · -- from the queue: there is no lease to replace
    refine protectUpdate_eq_none rfl (Or.inr rfl) (Or.inr (Or.inl (h.row.waiting hq).2.1))
      hclaim.nonterminal (Or.inr (allowed_of_canTransition ?_)) (Or.inl hcount) (Or.inl hqueue)
    rw [hq]; rfl
  · -- from an active row: the lease has run out by the trigger's clock too
    rcases h.row.leased hactive with ⟨_, ⟨old, hold⟩, e, he, _⟩
    have hend : le j.row.leaseExpiresAt (some t.trigger) = some true := by
      have hle := hclaim.expired (active_ne_queued hactive) e he
      rw [he]
      simp only [le, lift, decide_eq_true (Nat.le_trans hle hclock)]
    have hne : token ≠ old := fun hc => hfresh (by rw [hold, hc])
    have hreplace : replacesExpiredLease t.trigger j.row (grantedRow t token j.row) = some true := by
      refine all_eq_true ?_
      simp only [List.forall_mem_cons, List.not_mem_nil, false_imp_iff, implies_true, and_true]
      refine ⟨?_, hend, rfl, ?_, ?_⟩
      · rcases hactive with hs | hs <;> rw [hs] <;> decide
      · simp only [eq, lift, grantedRow, decide_true]
      · simp only [ne, lift, grantedRow, hold, ne_eq, hne, not_false_eq_true, decide_true]
    refine protectUpdate_eq_none rfl (Or.inr rfl) (Or.inr (Or.inr (Or.inr hreplace)))
      hclaim.nonterminal ?_ (Or.inl hcount) (Or.inl hqueue)
    rcases hactive with hs | hs
    · exact Or.inl hs.symm
    · refine Or.inr (any_eq_true ?_)
      refine List.mem_cons_of_mem _ (List.mem_cons_of_mem _ (List.mem_cons_of_mem _
        (List.mem_cons.mpr (Or.inl (all_eq_true ?_).symm))))
      simp only [List.forall_mem_cons, List.not_mem_nil, false_imp_iff, implies_true, and_true]
      refine ⟨by rw [hs]; rfl, rfl, hend, ?_, ?_⟩
      · simp only [eq, lift, grantedRow, decide_true]
      · simp only [distinct, grantedRow, hold, ne_eq, Option.some.injEq, hne, not_false_eq_true,
          decide_true]

end ArenaCore
