import ArenaCore.Store.Effects

/-!
# What a Call Does to One Execution

The inversion of a whole transaction. `Effects` says what each operation does
to the job it locks; here that becomes a statement about the store: across one
call, each execution is absent, created, granted to a worker, or changed by a
chain of quiet effects, and only the granted one is named by the answer.

`JobInvariant` packages the induction that follows. A property of jobs that
holds of a new one, survives the passing of time and is kept by each effect
holds of every job of every run. All invariants of the store are instances, so
none of their proofs mentions an operation, a call or a table.

## Main definitions

* `newJob`, `Created`: A new execution.
* `Effect`: What one call means for one execution.
* `JobInvariant`: A property kept by every effect.

## Theorems

* `create_jobs`, `create_effect`: What `create` leaves in the table.
* `step_effect`: The inversion of a whole transaction.
* `JobInvariant.run`: An invariant holds of every job of every run.
-/

namespace ArenaCore

open Transaction JobStore

variable {id : Uuid} {jobs jobs' : Table Uuid Job} {d : Deployment} {t : Moment} {op : Op}
  {s s' : Store} {call : CreateCall} {r : ExecutionReceipt}

/-- The job a row starts as: one event and one dispatch intent. -/
def newJob (t : Moment) (row : Execution) : Job :=
  { Job.record (nextEvent t row (.executionStatus .queued none)) { row := row } with
    row := { row with lastSequence := row.lastSequence + 1 },
    outbox := [{ kind := .executionCreated, createdAt := t.now, nextDispatchAt := t.now }] }

/-- What a row has passed when it was inserted. -/
structure Inserted (d : Deployment) (t : Moment) (row : Execution) (j : Job) : Prop where
  accepted : guardInsert d.catalog row = none
  recordable : Recordable t row (.executionStatus .queued none) { row := row }
  result : j = newJob t row

/-- A new execution. -/
def Created (d : Deployment) (t : Moment) (id : Uuid) (j : Job) : Prop :=
  ∃ call versionId round, call.id = id ∧ (d.catalog versionId).isSome = true ∧
    Inserted d t (Executions.newRow d t call versionId round) j

/-- The lease an answer hands out for an execution, if any. -/
def grantedTo (id : Uuid) : Except Error Answer → Option Lease
  | .ok (.claimed (some c)) => if c.lease.executionId = id then some c.lease else none
  | _ => none

/-- What one call means for one execution, with the lease it handed out. -/
inductive Effect (d : Deployment) (t : Moment) (op : Op) (id : Uuid) :
    Option Lease → Option Job → Option Job → Prop where
  | absent : Effect d t op id none none none
  | created (call : CreateCall) (j : Job) (hop : op = .create call) (hid : call.id = id)
      (new : Created d t id j) (hmode : j.row.mode = call.input.mode) :
      Effect d t op id none none (some j)
  | granted (token : Uuid) (j j' : Job) (hop : op = .claim id token) (grant : Grant t token j j') :
      Effect d t op id (some ⟨id, j.row.attempt + 1, token⟩) (some j) (some j')
  | quiet (j j' : Job) (chain : Quiets d t op j j') : Effect d t op id none (some j) (some j')

/-- An execution the call does not touch. -/
theorem Effect.same (d : Deployment) (t : Moment) (op : Op) (id : Uuid) (before : Option Job) :
    Effect d t op id none before before := by
  cases before with
  | none => exact .absent
  | some j => exact .quiet j j .refl

theorem onRow_eq_ok {α : Type} {absent : Except Error α} {body : Job → Except Error (α × Job)}
    {a : α} :
    onRow id absent body jobs = .ok (a, jobs') ↔
      (jobs.lookup id = none ∧ absent = .ok a ∧ jobs' = jobs) ∨
        ∃ j j', jobs.lookup id = some j ∧ body j = .ok (a, j') ∧ jobs' = Table.set id j' jobs := by
  unfold onRow
  cases hl : jobs.lookup id with
  | none =>
      simp only [reduceCtorEq, false_and, exists_false, or_false, true_and]
      cases absent with
      | error e =>
          constructor
          · intro h; cases h
          · rintro ⟨h, _⟩; cases h
      | ok b =>
          constructor
          · intro h; cases h; exact ⟨rfl, rfl⟩
          · rintro ⟨h, rfl⟩; cases h; rfl
  | some j =>
      simp only [reduceCtorEq, false_and, Option.some.injEq, false_or]
      constructor
      · intro h
        rcases bind_eq_ok.mp h with ⟨⟨b, j'⟩, hbody, h⟩
        cases h
        exact ⟨j, j', rfl, hbody, rfl⟩
      · rintro ⟨_, j', rfl, hbody, rfl⟩
        exact bind_eq_ok.mpr ⟨(a, j'), hbody, rfl⟩

/-- An operation on one row whose body is a chain of quiet effects. -/
theorem onRow_effect {α : Type} {absent : Except Error α} {body : Job → Except Error (α × Job)}
    {a : α} (h : onRow id absent body jobs = .ok (a, jobs'))
    (hbody : ∀ j j', body j = .ok (a, j') → Quiets d t op j j') (key : Uuid) :
    Effect d t op key none (jobs.lookup key) (jobs'.lookup key) := by
  rcases onRow_eq_ok.mp h with ⟨_, _, rfl⟩ | ⟨j, j', hl, hb, rfl⟩
  · exact Effect.same d t _ key _
  · by_cases hk : key = id
    · subst hk
      rw [hl, Table.lookup_set_self hl]
      exact .quiet j j' (hbody j j' hb)
    · rw [Table.lookup_set_ne _ _ hk]
      exact Effect.same d t _ key _

/-- A claim is quiet for every execution, or grants the one it names. -/
theorem claim_table_effect {token : Uuid} {r : Option Claimed}
    (h : onRow id (.ok none) (claim d t id token) jobs = .ok (r, jobs')) (key : Uuid) :
    Effect d t (.claim id token) key (grantedTo key (.ok (.claimed r))) (jobs.lookup key)
      (jobs'.lookup key) := by
  rcases onRow_eq_ok.mp h with ⟨_, hr, rfl⟩ | ⟨j, j', hl, hb, rfl⟩
  · cases hr
    exact Effect.same d t _ key _
  rcases claim_effect hb with ⟨rfl, hquiet⟩ | ⟨rfl, hgrant⟩
  · by_cases hk : key = id
    · subst hk
      rw [hl, Table.lookup_set_self hl]
      exact .quiet j j' hquiet
    · rw [Table.lookup_set_ne _ _ hk]
      exact Effect.same d t _ key _
  · by_cases hk : key = id
    · subst hk
      rw [hl, Table.lookup_set_self hl]
      simp only [grantedTo, if_true]
      exact .granted token j j' rfl hgrant
    · rw [Table.lookup_set_ne _ _ hk]
      simp only [grantedTo, if_neg (Ne.symm hk)]
      exact Effect.same d t _ key _

/-! ### Creation -/

theorem reserve_jobs {userId : Uuid} {ip : String} (h : Executions.reserve d t userId ip s = .ok s') :
    s'.jobs = s.jobs := by
  unfold Executions.reserve at h
  split at h
  · cases h
  rcases bind_eq_ok.mp h with ⟨_, _, h⟩
  rcases bind_eq_ok.mp h with ⟨_, _, h⟩
  rcases bind_eq_ok.mp h with ⟨_, _, h⟩
  cases h
  rfl

theorem insertJob_effect {row : Execution} {j : Job} (h : Executions.insertJob d t row s = .ok j) :
    row.id ∉ s.jobs ∧ Inserted d t row j := by
  unfold Executions.insertJob at h
  rcases bind_eq_ok.mp h with ⟨j₀, hins, h⟩
  unfold Executions.insertRow at hins
  split at hins
  · cases hins
  rename_i hnew
  split at hins
  · cases hins
  split at hins
  · rename_i hguard
    cases hins
    rcases event_bind h with ⟨hrec, h⟩
    replace h := Job.update_bind h
    rcases Job.createOutbox_eq_ok.mp h with ⟨_, rfl⟩
    refine ⟨hnew, hguard, hrec, ?_⟩
    simp only [newJob, Job.record_row, Job.record_outbox]
  · cases hins

/-- A creation adds at most one execution and leaves the others alone. -/
theorem create_jobs (h : Executions.create d t call s = .ok (r, s')) (key : Uuid) :
    s'.jobs.lookup key = s.jobs.lookup key ∨
      s.jobs.lookup key = none ∧ ∃ j, s'.jobs.lookup key = some j ∧ call.id = key ∧
        Created d t key j ∧ j.row.mode = call.input.mode := by
  unfold Executions.create at h
  split at h
  · cases h
  split at h
  · split at h
    · cases h
    · cases h
      exact .inl rfl
  split at h
  · cases h
  split at h
  · cases h
  rename_i versionId _
  split at h
  · cases h
  rename_i hver
  rcases bind_eq_ok.mp h with ⟨round, _, h⟩
  rcases bind_eq_ok.mp h with ⟨s₁, hres, h⟩
  rcases bind_eq_ok.mp h with ⟨j, hins, h⟩
  cases h
  have hsome : (d.catalog versionId).isSome = true := by
    simpa only [Option.isNone_iff_eq_none, Option.isSome_iff_ne_none] using hver
  rcases insertJob_effect hins with ⟨hnew, hinserted⟩
  rw [reserve_jobs hres] at hnew ⊢
  by_cases hk : key = (Executions.newRow d t call versionId round).id
  · rw [hk, AList.lookup_eq_none.mpr hnew, AList.lookup_insert]
    refine .inr ⟨rfl, j, rfl, rfl, ⟨call, versionId, round, rfl, hsome, hinserted⟩, ?_⟩
    rw [hinserted.result]
    rfl
  · rw [AList.lookup_insert_ne hk]
    exact .inl rfl

theorem create_effect (h : Executions.create d t call s = .ok (r, s')) (key : Uuid) :
    Effect d t (.create call) key none (s.jobs.lookup key) (s'.jobs.lookup key) := by
  rcases create_jobs h key with hsame | ⟨hnone, j, hj, hid, hcreated, hmode⟩
  · rw [hsame]
    exact Effect.same d t _ key _
  · rw [hnone, hj]
    exact .created call j rfl hid hcreated hmode

/-! ### Maintenance -/

/-- The keys a bounded, sorted selection visits are distinct, and each names a
    row that meets the selection. -/
theorem selection_spec (before : (Sigma fun _ : Uuid => Job) → (Sigma fun _ : Uuid => Job) → Prop)
    [DecidableRel before] (select : (Sigma fun _ : Uuid => Job) → Bool) (limit : Nat)
    (jobs : Table Uuid Job) :
    ((((jobs.entries.filter select).insertionSort before).take limit).map (·.1)).Nodup ∧
      ∀ key ∈ (((jobs.entries.filter select).insertionSort before).take limit).map (·.1),
        ∃ j, jobs.lookup key = some j ∧ select ⟨key, j⟩ = true := by
  have hperm := List.perm_insertionSort before (jobs.entries.filter select)
  constructor
  · have hnodup : ((jobs.entries.filter select).map (·.1)).Nodup :=
      List.NodupKeys.sublist List.filter_sublist jobs.nodupKeys
    have hsorted := (hperm.map (·.1)).nodup_iff.mpr hnodup
    exact hsorted.sublist ((List.take_sublist _ _).map _)
  · intro key hkey
    rcases List.mem_map.mp hkey with ⟨⟨k, j⟩, hmem, rfl⟩
    have hmem' := hperm.mem_iff.mp (List.mem_of_mem_take hmem)
    rcases List.mem_filter.mp hmem' with ⟨hin, hsel⟩
    exact ⟨j, (AList.mem_lookup_iff).mpr hin, hsel⟩

theorem maintainRows_spec (now : Nat) (locked : List Uuid) (jobs : Table Uuid Job) :
    (maintainRows now locked jobs).Nodup ∧ ∀ key ∈ maintainRows now locked jobs,
      ∃ j, jobs.lookup key = some j ∧ maintainSelects now j.row = true := by
  rcases selection_spec leaseBefore
    (fun e => maintainSelects now e.2.row && !locked.contains e.1) 100 jobs with ⟨hnodup, hsel⟩
  refine ⟨hnodup, fun key hkey => ?_⟩
  rcases hsel key hkey with ⟨j, hl, hj⟩
  exact ⟨j, hl, (Bool.and_eq_true_iff.mp hj).1⟩

theorem expireRows_spec (app : Nat) (locked : List Uuid) (jobs : Table Uuid Job) :
    (expireRows app locked jobs).Nodup ∧ ∀ key ∈ expireRows app locked jobs,
      ∃ j, jobs.lookup key = some j ∧ expireSelects app j.row = true := by
  rcases selection_spec queuedBefore
    (fun e => expireSelects app e.2.row && !locked.contains e.1) 100 jobs with ⟨hnodup, hsel⟩
  refine ⟨hnodup, fun key hkey => ?_⟩
  rcases hsel key hkey with ⟨j, hl, hj⟩
  exact ⟨j, hl, (Bool.and_eq_true_iff.mp hj).1⟩

/-- A pass over selected rows is quiet for every execution if its body is
    quiet on every row the selection can find. -/
theorem forEach_effect {keys : List Uuid} {select : Execution → Bool}
    {body : Job → Except Error Job}
    (hkeys : keys.Nodup ∧ ∀ key ∈ keys, ∃ j, jobs.lookup key = some j ∧ select j.row = true)
    (hbody : ∀ j j', select j.row = true → body j = .ok j' → Quiets d t op j j')
    (h : Table.forEach body keys jobs = .ok jobs') (key : Uuid) :
    Effect d t op key none (jobs.lookup key) (jobs'.lookup key) := by
  by_cases hk : key ∈ keys
  · rcases hkeys.2 key hk with ⟨j, hl, hsel⟩
    rcases Table.lookup_forEach_of_mem body key keys jobs jobs' hkeys.1 hk h with
      ⟨hnone, _⟩ | ⟨a, b, ha, hab, hb⟩
    · rw [hl] at hnone
      cases hnone
    · rw [hl] at ha
      cases ha
      rw [hl, hb]
      exact .quiet j b (hbody j b hsel hab)
  · rw [Table.lookup_forEach_of_notMem body key keys jobs jobs' hk h]
    exact Effect.same d t _ key _

/-- Rewriting every row by a quiet effect after an effect without a grant. -/
theorem Effect.mapValues {key : Uuid} {before : Option Job} {f : Uuid → Job → Job}
    (h : Effect d t op key none before (jobs.lookup key))
    (hbefore : before = none → jobs.lookup key = none) (hf : ∀ j, Quiet d t op j (f key j)) :
    Effect d t op key none before ((Table.mapValues f jobs).lookup key) := by
  rw [Table.lookup_mapValues]
  cases before with
  | none =>
      rw [hbefore rfl]
      exact .absent
  | some j =>
      generalize jobs.lookup key = after at h
      cases h with
      | quiet _ j' chain => exact .quiet j (f key j') (.tail chain (hf j'))

theorem maintain_effect {pass : Pass} (h : maintain d t pass jobs = .ok jobs') (key : Uuid) :
    Effect d t op key none (jobs.lookup key) (jobs'.lookup key) := by
  unfold maintain at h
  rcases bind_eq_ok.mp h with ⟨jobs₁, hrows, h⟩
  cases h
  have hpass : ∀ k, Effect d t op k none (jobs.lookup k) (jobs₁.lookup k) :=
    forEach_effect (maintainRows_spec t.now pass.locked jobs)
      (fun j j' hsel hj => .single (maintainRow_effect hsel hj)) hrows
  have habsent : ∀ k, jobs.lookup k = none → jobs₁.lookup k = none := by
    intro k hk
    have hnot : k ∉ maintainRows t.now pass.locked jobs := by
      intro hmem
      rcases (maintainRows_spec t.now pass.locked jobs).2 k hmem with ⟨j, hj, _⟩
      rw [hk] at hj
      cases hj
    rw [Table.lookup_forEach_of_notMem _ k _ jobs jobs₁ hnot hrows, hk]
  refine Effect.mapValues (Effect.mapValues (hpass key) (habsent key) ?_) ?_ ?_
  · exact fun j => reofferIntents_effect d t _ j
  · intro hk
    rw [Table.lookup_mapValues, habsent key hk]
    rfl
  · exact fun j => Quiet.swept j _

theorem expireQueuedJobs_effect {locked : List Uuid} {n : Nat}
    (h : expireQueuedJobs t locked jobs = .ok (n, jobs')) (key : Uuid) :
    Effect d t op key none (jobs.lookup key) (jobs'.lookup key) := by
  unfold expireQueuedJobs at h
  rcases bind_eq_ok.mp h with ⟨jobs₁, hrows, h⟩
  cases h
  exact forEach_effect (expireRows_spec t.app locked jobs)
    (fun j j' hsel hj => expireQueuedRow_effect hsel hj) hrows key

/-! ### Whole transactions -/

theorem create_clock (h : Executions.create d t call s = .ok (r, s')) : s'.clock = s.clock := by
  unfold Executions.create at h
  split at h
  · cases h
  split at h
  · split at h
    · cases h
    · cases h; rfl
  split at h
  · cases h
  split at h
  · cases h
  split at h
  · cases h
  rcases bind_eq_ok.mp h with ⟨_, _, h⟩
  rcases bind_eq_ok.mp h with ⟨s₁, hres, h⟩
  rcases bind_eq_ok.mp h with ⟨_, _, h⟩
  cases h
  unfold Executions.reserve at hres
  split at hres
  · cases hres
  rcases bind_eq_ok.mp hres with ⟨_, _, hres⟩
  rcases bind_eq_ok.mp hres with ⟨_, _, hres⟩
  rcases bind_eq_ok.mp hres with ⟨_, _, hres⟩
  cases hres
  rfl

/-- A committed body: what it did to each execution, and that only the clock
    of the call counts. -/
theorem body_effect {a : Answer} (h : op.body d t s = .ok (a, s')) :
    s'.clock = s.clock ∧ ∀ key,
      Effect d t op key (grantedTo key (.ok a)) (s.jobs.lookup key) (s'.jobs.lookup key) := by
  cases op with
  | create call =>
      rcases map_eq_ok.mp h with ⟨⟨r, s₁⟩, hr, ⟨⟩⟩
      exact ⟨create_clock hr, create_effect hr⟩
  | claim id token =>
      rcases map_eq_ok.mp h with ⟨⟨r, jobs⟩, hr, ⟨⟩⟩
      exact ⟨rfl, claim_table_effect hr⟩
  | renew lease =>
      rcases map_eq_ok.mp h with ⟨⟨r, jobs⟩, hr, ⟨⟩⟩
      exact ⟨rfl, onRow_effect hr fun _ _ => renew_effect d⟩
  | markRunning lease =>
      rcases map_eq_ok.mp h with ⟨⟨r, jobs⟩, hr, ⟨⟩⟩
      exact ⟨rfl, onRow_effect hr fun _ _ => markRunning_effect d⟩
  | console lease caseId stream text =>
      simp only [Op.body] at h
      split at h
      · cases h
      rcases map_eq_ok.mp h with ⟨⟨r, jobs⟩, hr, ⟨⟩⟩
      exact ⟨rfl, onRow_effect hr fun _ _ => console_effect⟩
  | finish lease result =>
      simp only [Op.body] at h
      split at h
      · cases h
      rename_i hrejects
      rcases map_eq_ok.mp h with ⟨⟨r, jobs⟩, hr, ⟨⟩⟩
      exact ⟨rfl, onRow_effect hr fun _ _ => finish_effect (finishRejects_none hrejects).1⟩
  | fail lease cleanupConfirmed =>
      rcases map_eq_ok.mp h with ⟨⟨r, jobs⟩, hr, ⟨⟩⟩
      exact ⟨rfl, onRow_effect hr fun _ _ => fail_effect⟩
  | recover lease =>
      rcases map_eq_ok.mp h with ⟨⟨r, jobs⟩, hr, ⟨⟩⟩
      exact ⟨rfl, onRow_effect hr fun _ _ => recover_effect⟩
  | cancel userId id activeAllowed =>
      rcases map_eq_ok.mp h with ⟨⟨r, jobs⟩, hr, ⟨⟩⟩
      exact ⟨rfl, onRow_effect hr fun _ _ => cancel_effect⟩
  | maintain pass =>
      rcases map_eq_ok.mp h with ⟨jobs, hr, ⟨⟩⟩
      exact ⟨rfl, maintain_effect hr⟩
  | expireQueuedJobs locked =>
      rcases map_eq_ok.mp h with ⟨⟨r, jobs⟩, hr, ⟨⟩⟩
      exact ⟨rfl, expireQueuedJobs_effect hr⟩

theorem step_of_ok {call : Call} {a : Answer}
    (h : call.op.body d (call.moment s) { s with clock := s.clock + call.elapsed } = .ok (a, s')) :
    step d s call = (s', .ok a) := by
  simp only [step, h, settle_ok]

theorem step_of_error {call : Call} {e : Error}
    (h : call.op.body d (call.moment s) { s with clock := s.clock + call.elapsed } = .error e) :
    step d s call = ({ s with clock := s.clock + call.elapsed }, .error e) := by
  simp only [step, h, settle_error]

/-- The inversion of a whole transaction. -/
theorem step_effect (d : Deployment) (s : Store) (call : Call) (key : Uuid) :
    Effect d (call.moment s) call.op key (grantedTo key (step d s call).2) (s.jobs.lookup key)
      ((step d s call).1.jobs.lookup key) := by
  cases hbody : call.op.body d (call.moment s) { s with clock := s.clock + call.elapsed } with
  | error e =>
      rw [step_of_error hbody]
      exact Effect.same d _ _ key _
  | ok r =>
      rcases r with ⟨a, s'⟩
      rw [step_of_ok hbody]
      exact (body_effect hbody).2 key

@[simp] theorem step_clock (d : Deployment) (s : Store) (call : Call) :
    (step d s call).1.clock = s.clock + call.elapsed := by
  cases hbody : call.op.body d (call.moment s) { s with clock := s.clock + call.elapsed } with
  | error e => rw [step_of_error hbody]
  | ok r =>
      rcases r with ⟨a, s'⟩
      rw [step_of_ok hbody]
      exact (body_effect hbody).1

/-- What has happened to a job that is there after the call. -/
theorem step_effect_before {d : Deployment} {s : Store} {call : Call} {id : Uuid} {j : Job}
    (hj : (step d s call).1.jobs.lookup id = some j) : ∃ lease before,
      s.jobs.lookup id = before ∧ Effect d (call.moment s) call.op id lease before (some j) :=
  ⟨_, _, rfl, hj ▸ step_effect d s call id⟩

/-- What happens to a job that is there before the call. -/
theorem step_effect_after (d : Deployment) {s : Store} (call : Call) {id : Uuid} {j : Job}
    (hj : s.jobs.lookup id = some j) : ∃ lease after, (step d s call).1.jobs.lookup id = after ∧
      Effect d (call.moment s) call.op id lease (some j) after :=
  ⟨_, _, rfl, hj ▸ step_effect d s call id⟩

/-! ### Invariants of jobs -/

/-- A property of an execution's key, the clock and its job that a new job
    has and that time and every effect keep. -/
structure JobInvariant (d : Deployment) (P : Uuid → Nat → Job → Prop) : Prop where
  later : ∀ {id clock clock' j}, clock ≤ clock' → P id clock j → P id clock' j
  created : ∀ {t : Moment} {id j}, Created d t id j → P id t.now j
  granted : ∀ {t : Moment} {id token j j'}, Grant t token j j' → P id t.now j → P id t.now j'
  quiet : ∀ {t : Moment} {op id j j'}, Quiet d t op j j' → P id t.now j → P id t.now j'

namespace JobInvariant

variable {d : Deployment} {P : Uuid → Nat → Job → Prop}

theorem quiets (inv : JobInvariant d P) {t : Moment} {op : Op} (id : Uuid) {j j' : Job}
    (chain : Quiets d t op j j') (h : P id t.now j) : P id t.now j' := by
  induction chain with
  | refl => exact h
  | tail _ hlast ih => exact inv.quiet hlast ih

theorem step (inv : JobInvariant d P) (s : Store) (call : Call)
    (h : ∀ id j, s.jobs.lookup id = some j → P id s.clock j) (id : Uuid) (j : Job)
    (hj : (ArenaCore.step d s call).1.jobs.lookup id = some j) :
    P id (ArenaCore.step d s call).1.clock j := by
  rw [step_clock]
  have hlater : ∀ i, s.jobs.lookup id = some i → P id (call.moment s).now i := fun i hi =>
    inv.later (Nat.le_add_right _ _) (h id i hi)
  obtain ⟨_, _, hbefore, heffect⟩ := step_effect_before hj
  cases heffect with
  | created _ _ _ _ new => exact inv.created new
  | granted token i _ _ grant => exact inv.granted grant (hlater i hbefore)
  | quiet i _ chain => exact inv.quiets _ chain (hlater i hbefore)

/-- An invariant holds of every job of every run. -/
theorem run (inv : JobInvariant d P) (calls : List Call) (id : Uuid) (j : Job)
    (hj : (Store.run d calls).jobs.lookup id = some j) : P id (Store.run d calls).clock j := by
  have hall := Runs.run_induction (ArenaCore.step d)
    (P := fun s => ∀ id j, s.jobs.lookup id = some j → P id s.clock j)
    (fun s call hs => inv.step s call hs) {} (fun id j hempty => by cases hempty) calls
  exact hall id j hj

/-- Also at the time of the next call. -/
theorem moment (inv : JobInvariant d P) (calls : List Call) (call : Call) (id : Uuid) (j : Job)
    (hj : (Store.run d calls).jobs.lookup id = some j) :
    P id (call.moment (Store.run d calls)).now j :=
  inv.later (Nat.le_add_right _ _) (inv.run calls id j hj)

end JobInvariant

end ArenaCore
