import ArenaCore.Store.Refinement

/-!
# Bounded Lifetime

No execution lives past its deadline, ten minutes after its time in the queue
is over. Leases end by then, however often they were renewed or recovered, so
from the deadline on every operation that would prolong the job refuses it,
and a maintenance pass that finds it open ends it. The two passes divide the
open rows between them: a queued row is found by `expireQueuedJobs`, an active
one by `maintain`, because its lease, which it always has, is over.

`expireQueuedJobs` reads the clock of its process and `maintain` that of the
database; each result is about the clock the pass reads.

## Theorems

* `claim_past_deadline`: A claim past the deadline hands out nothing.
* `not_holds_past_deadline`: No lease has authority past the deadline.
* `maintain_ends_row`, `expire_ends_row`: The passes end what they process.
* `bounded_lifetime`: The bounds and their consequences, for every run.
-/

namespace ArenaCore

open JobStore Transaction

variable {d : Deployment} {t : Moment} {j : Job} {row : Execution} {id : Uuid} {clock now : Nat}

/-- A claim past the deadline returns nothing. -/
theorem claim_past_deadline (token : Uuid) (h : JobInv d id t.now j)
    (hpast : deadline j.row ≤ t.now) : ∃ j', claim d t id token j = .ok (none, j') := by
  unfold claim
  simp only []
  split
  · exact ⟨j, rfl⟩
  rename_i hterm
  have hopen : isTerminal j.row.state = false := by simpa only [Bool.not_eq_true] using hterm
  split
  · rename_i hq
    have hends : Ends j.row .internalError (some .queueTimeout) :=
      ⟨hopen, by simp only [reduceCtorEq], fun _ => hq.1, fun _ hne => absurd hq.1 hne⟩
    rcases terminal_ok h hends with ⟨j', hj'⟩
    exact ⟨j', bind_eq_ok.mpr ⟨j', hj', rfl⟩⟩
  split
  · exact ⟨j, rfl⟩
  split
  · have hends : Ends j.row .internalError (some .cancellationTimeout) :=
      ends_internal hopen (by decide) fun _ => rfl
    rcases terminal_ok h hends with ⟨j', hj'⟩
    exact ⟨j', bind_eq_ok.mpr ⟨j', hj', rfl⟩⟩
  rename_i hcan
  rw [if_pos (Or.inl hpast)]
  have hends : Ends j.row .internalError
      (some (if maxAttempts ≤ j.row.attempt then .leaseExpired else .jobTimeout)) := by
    refine ends_internal hopen ?_ fun hs => absurd hs hcan
    split <;> decide
  rcases terminal_ok h hends with ⟨j', hj'⟩
  exact ⟨j', bind_eq_ok.mpr ⟨j', hj', rfl⟩⟩

/-- No lease has authority past the deadline. -/
theorem not_holds_past_deadline (h : RowInv clock row) (hpast : deadline row ≤ now) (lease : Lease) :
    ¬ Holds row now lease := by
  rintro ⟨hactive, _, _, e, he, hlt⟩
  rcases (h.leased hactive).2.2 with ⟨e', he', hle⟩
  rw [he] at he'
  cases he'
  omega

/-- Past its deadline an active row is one `maintain` selects. -/
theorem maintainSelects_past_deadline (h : RowInv clock row)
    (hactive : row.state = .compiling ∨ row.state = .running) (hpast : deadline row ≤ now) :
    maintainSelects now row = true := by
  rcases (h.leased hactive).2.2 with ⟨e, he, hle⟩
  have hend : e ≤ now := Nat.le_trans hle hpast
  simp only [maintainSelects, he, Option.any_some, hend, decide_true, Bool.true_or, Bool.and_true,
    Bool.or_eq_true, beq_iff_eq]
  exact hactive

/-- Past its deadline a queued row is one `expireQueuedJobs` selects. -/
theorem expireSelects_past_deadline {app : Nat} (hq : row.state = .queued)
    (hpast : deadline row ≤ app) : expireSelects app row = true := by
  have hend : row.queueExpiresAt ≤ app := Nat.le_trans (Nat.le_add_right _ _) hpast
  simp only [expireSelects, hq, hend, decide_true, beq_self_eq_true, Bool.and_self]

/-! ### The passes -/

/-- The body of `maintain` makes a row past its deadline terminal. -/
theorem maintainRow_terminal {j' : Job} (hpast : deadline j.row ≤ t.now)
    (h : maintainRow d t j = .ok j') : isTerminal j'.row.state = true := by
  unfold maintainRow at h
  simp only [] at h
  rw [if_pos (Or.inr (Or.inr hpast))] at h
  rcases terminal_effect h with ⟨_, notices, rfl⟩
  rfl

/-- What `maintain` leaves of the row of a visited execution. -/
theorem maintain_lookup {pass : Pass} {jobs jobs' : Table Uuid Job}
    (h : maintain d t pass jobs = .ok jobs') (hmem : id ∈ maintainRows t.now pass.locked jobs)
    (hj : jobs.lookup id = some j) :
    ∃ j₁ j', maintainRow d t j = .ok j₁ ∧ jobs'.lookup id = some j' ∧ j'.row = j₁.row := by
  unfold maintain at h
  rcases bind_eq_ok.mp h with ⟨jobs₁, hrows, h⟩
  cases h
  rcases Table.lookup_forEach_of_mem (maintainRow d t) id _ jobs jobs₁
    (maintainRows_spec t.now pass.locked jobs).1 hmem hrows with ⟨hnone, _⟩ | ⟨a, b, ha, hab, hb⟩
  · rw [hj] at hnone
    cases hnone
  · rw [hj] at ha
    cases ha
    rw [Table.lookup_mapValues, Table.lookup_mapValues, hb]
    exact ⟨b, _, hab, rfl, rfl⟩

/-- A pass of `maintain` ends each row past its deadline that it processes. -/
theorem maintain_ends_row (d : Deployment) (calls : List Call) (call : Call) (pass : Pass)
    (id : Uuid) (j : Job) (hj : (Store.run d calls).jobs.lookup id = some j)
    (hop : call.op = .maintain pass) (hpast : deadline j.row ≤ (call.moment (Store.run d calls)).now)
    (hmem : id ∈ maintainRows (call.moment (Store.run d calls)).now pass.locked
      (Store.run d calls).jobs) :
    ∃ j', (step d (Store.run d calls) call).1.jobs.lookup id = some j' ∧
      isTerminal j'.row.state = true := by
  rcases maintain_ok ((job_invariant d).moment calls call) pass with ⟨jobs', hjobs'⟩
  have hok : call.op.body d (call.moment (Store.run d calls))
      { Store.run d calls with clock := (Store.run d calls).clock + call.elapsed } = .ok (.done,
        { Store.run d calls with
          clock := (Store.run d calls).clock + call.elapsed, jobs := jobs' }) := by
    rw [hop]
    exact map_eq_ok.mpr ⟨jobs', hjobs', rfl⟩
  rcases maintain_lookup hjobs' hmem hj with ⟨j₁, j', hj₁, hj', hrow⟩
  rw [step_of_ok hok]
  refine ⟨j', hj', ?_⟩
  rw [hrow]
  exact maintainRow_terminal hpast hj₁

/-- A pass of `expireQueuedJobs` ends each row it processes. -/
theorem expire_ends_row (d : Deployment) (calls : List Call) (call : Call) (locked : List Uuid)
    (id : Uuid) (j : Job) (hj : (Store.run d calls).jobs.lookup id = some j)
    (hop : call.op = .expireQueuedJobs locked)
    (hmem : id ∈ expireRows call.app locked (Store.run d calls).jobs) :
    ∃ j', (step d (Store.run d calls) call).1.jobs.lookup id = some j' ∧
      isTerminal j'.row.state = true := by
  rcases expireQueuedJobs_ok ((job_invariant d).moment calls call) locked with ⟨⟨n, jobs'⟩, hjobs'⟩
  have hok : call.op.body d (call.moment (Store.run d calls))
      { Store.run d calls with clock := (Store.run d calls).clock + call.elapsed } = .ok (.count n,
        { Store.run d calls with
          clock := (Store.run d calls).clock + call.elapsed, jobs := jobs' }) := by
    rw [hop]
    exact map_eq_ok.mpr ⟨(n, jobs'), hjobs', rfl⟩
  rw [step_of_ok hok]
  unfold expireQueuedJobs at hjobs'
  rcases bind_eq_ok.mp hjobs' with ⟨jobs₁, hrows, h⟩
  cases h
  rcases Table.lookup_forEach_of_mem _ id _ _ _ (expireRows_spec call.app locked _).1 hmem hrows
    with ⟨hnone, _⟩ | ⟨a, b, ha, hab, hb⟩
  · rw [hj] at hnone
    cases hnone
  · refine ⟨b, hb, ?_⟩
    unfold expireQueuedRow at hab
    rcases bind_eq_ok.mp hab with ⟨⟨seq, j₁⟩, _, hab⟩
    replace hab := Job.update_bind hab
    rcases Job.createOutbox_eq_ok.mp hab with ⟨_, rfl⟩
    rfl

/-- The call that claims an execution past its deadline gets nothing. -/
theorem step_claim_past_deadline (d : Deployment) (calls : List Call) (call : Call)
    (id token : Uuid) (j : Job) (hj : (Store.run d calls).jobs.lookup id = some j)
    (hop : call.op = .claim id token)
    (hpast : deadline j.row ≤ (call.moment (Store.run d calls)).now) :
    (step d (Store.run d calls) call).2 = .ok (.claimed none) := by
  have hinv := (job_invariant d).moment calls call id j hj
  rcases claim_past_deadline token hinv hpast with ⟨j', hj'⟩
  have hok : call.op.body d (call.moment (Store.run d calls))
      { Store.run d calls with clock := (Store.run d calls).clock + call.elapsed }
        = .ok (.claimed none, { Store.run d calls with
          clock := (Store.run d calls).clock + call.elapsed,
          jobs := Table.set id j' (Store.run d calls).jobs }) := by
    rw [hop]
    exact map_eq_ok.mpr ⟨_, onRow_eq_ok.mpr (Or.inr ⟨j, j', hj, hj', rfl⟩), rfl⟩
  rw [step_of_ok hok]

/-- Bounded lifetime. In every state a run reaches, an execution has had at
    most three attempts; an active one has a lease that ends within ten minutes
    of the end of its time in the queue; a queued one has none, and the intent
    that dispatches it. So from that instant on every claim and every operation
    of a worker is refused, an open row is one that its maintenance pass
    selects, and the pass that processes it makes it terminal. -/
theorem bounded_lifetime (d : Deployment) (calls : List Call) (id : Uuid) (j : Job)
    (hj : (Store.run d calls).jobs.lookup id = some j) :
    j.row.attempt ≤ 3 ∧
    (j.row.state = .compiling ∨ j.row.state = .running → ∃ token e,
      j.row.leaseToken = some token ∧ j.row.leaseExpiresAt = some e ∧
        e ≤ j.row.queueExpiresAt + 600000) ∧
    (j.row.state = .queued → j.row.leaseToken = none ∧ j.row.leaseExpiresAt = none ∧
      ∃ o ∈ j.outbox, o.kind = .executionCreated) ∧
    (∀ call : Call, j.row.queueExpiresAt + 600000 ≤ (call.moment (Store.run d calls)).now →
      (∀ token, call.op = .claim id token →
        (step d (Store.run d calls) call).2 = .ok (.claimed none)) ∧
      (∀ lease, call.op.lease? = some lease → lease.executionId = id →
        (step d (Store.run d calls) call).2 = .ok call.op.refused ∨
          (call.op.malformed = true ∧ ∃ e, (step d (Store.run d calls) call).2 = .error e)) ∧
      (j.row.state = .compiling ∨ j.row.state = .running →
        maintainSelects (call.moment (Store.run d calls)).now j.row = true) ∧
      ∀ pass, call.op = .maintain pass →
        id ∈ maintainRows (call.moment (Store.run d calls)).now pass.locked
          (Store.run d calls).jobs →
        ∃ j', (step d (Store.run d calls) call).1.jobs.lookup id = some j' ∧
          isTerminal j'.row.state = true) ∧
    ∀ call : Call, j.row.queueExpiresAt + 600000 ≤ call.app →
      (j.row.state = .queued → expireSelects call.app j.row = true) ∧
      ∀ locked, call.op = .expireQueuedJobs locked →
        id ∈ expireRows call.app locked (Store.run d calls).jobs →
        ∃ j', (step d (Store.run d calls) call).1.jobs.lookup id = some j' ∧
          isTerminal j'.row.state = true := by
  have hrow := (lifecycle_run d calls id j hj).row
  refine ⟨hrow.attempts, fun hactive => ?_, fun hq => ?_, fun call hpast => ?_, fun call hpast => ?_⟩
  · rcases hrow.leased hactive with ⟨_, ⟨token, htoken⟩, e, he, hle⟩
    exact ⟨token, e, htoken, he, hle⟩
  · rcases hrow.waiting hq with ⟨_, htoken, hend, _⟩
    rcases List.mem_map.mp (outbox_run d calls id j hj).created with ⟨o, ho, hkey⟩
    exact ⟨htoken, hend, o, ho, (Prod.mk.inj hkey).1⟩
  · refine ⟨fun token hop => ?_, fun lease hop hid => ?_, fun hactive => ?_, fun pass hop hmem => ?_⟩
    · exact step_claim_past_deadline d calls call id token j hj hop hpast
    · refine (stale_refused hop fun i hi => ?_).1
      rw [hid, hj] at hi
      cases hi
      exact Bool.eq_false_iff.mpr fun hv =>
        not_holds_past_deadline hrow hpast lease ((valid_iff_holds hrow).mp hv)
    · exact maintainSelects_past_deadline hrow hactive hpast
    · exact maintain_ends_row d calls call pass id j hj hop hpast hmem
  · exact ⟨fun hq => expireSelects_past_deadline hq hpast,
      fun locked hop hmem => expire_ends_row d calls call locked id j hj hop hmem⟩

/-- A claimed execution that nobody renews, and the pass that ends it. -/
theorem bounded_lifetime_abandoned :
    ∃ j j', (Store.run Sample.deployment [Sample.created .run, Sample.claimed]).jobs.lookup
        Sample.execution = some j ∧ j.row.state = .compiling ∧
      (step Sample.deployment (Store.run Sample.deployment [Sample.created .run, Sample.claimed])
        { elapsed := 720000, op := .maintain {} }).1.jobs.lookup Sample.execution = some j' ∧
      isTerminal j'.row.state = true := by
  have hstate : ((Store.run Sample.deployment [Sample.created .run, Sample.claimed]).jobs.lookup
      Sample.execution).map (fun j => (j.row.state, decide (j.row.queueExpiresAt + 600000 ≤ 721010)))
      = some (.compiling, true) := by decide +kernel
  have hmem : Sample.execution ∈ maintainRows 721010 []
      (Store.run Sample.deployment [Sample.created .run, Sample.claimed]).jobs := by decide +kernel
  have hclock : (Store.run Sample.deployment [Sample.created .run, Sample.claimed]).clock = 1010 := by
    decide +kernel
  rcases Option.map_eq_some_iff.mp hstate with ⟨j, hj, hpair⟩
  rcases Prod.mk.inj hpair with ⟨hcompiling, hdeadline⟩
  have hnow : (Call.moment (Store.run Sample.deployment [Sample.created .run, Sample.claimed])
      { elapsed := 720000, op := .maintain {} }).now = 721010 := by
    simp only [Call.moment, hclock]
  rcases (bounded_lifetime _ _ _ j hj).2.2.2.1 { elapsed := 720000, op := .maintain {} }
    (by rw [hnow]; exact of_decide_eq_true hdeadline) with ⟨_, _, _, hends⟩
  rcases hends {} rfl (by rw [hnow]; exact hmem) with ⟨j', hj', hterm⟩
  exact ⟨j, j', hj, hcompiling, hj', hterm⟩

end ArenaCore
