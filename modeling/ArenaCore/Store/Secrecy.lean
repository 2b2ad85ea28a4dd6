import ArenaCore.Judge
import ArenaCore.Store.Content
import ArenaCore.Store.Disclosure

/-!
# Hidden Data Stays Hidden

Three statements about what an owner can learn. What is stored for an owner is
public output of a `RUN` execution (`disclosed_run`). A run is judged on the
public cases alone (`judge_run_eq`). And a submission is opaque: two runs of
the store that differ in sources, in the hidden part of the problem tables, in
console output and in what the judge was shown, but perform the same operations
and get the same verdicts and metrics, answer the owner alike.

The last is proved by carrying one store along with the other. The second run
is in the state of the first with other content: every transaction commutes
with that exchange (`step_withContents`, `create_withContents`), and what the
owner reads does not depend on it.

## Main definitions

* `Store.withContents`: Exchanging the content of every execution.
* `SameOperation`, `SameCall`: Calls that differ in what must not be seen.

## Theorems

* `step_withContents`: A transaction commutes with the exchange.
* `replay_withContents`: A replay does not depend on content.
* `run_withContents`: The second run is the first with other content.
* `hidden_data_private`: The three statements.
-/

namespace ArenaCore

open JobStore Sql Transaction

/-- The store with the content of every execution exchanged. -/
def Store.withContents (g : Uuid → Content) (s : Store) : Store :=
  { s with jobs := Table.mapValues (fun id j => j.withContent (g id)) s.jobs }

variable {d d' : Deployment} {t : Moment} {g : Uuid → Content} {s : Store}

/-! ### Operations on a stored execution -/

/-- An operation on one row commutes with the exchange if its body does. -/
theorem onRow_withContents {α : Type} (φ : α → α) {id : Uuid} {absent absent' : Except Error α}
    {body body' : Job → Except Error (α × Job)} {jobs : Table Uuid Job}
    (habsent : absent' = absent.map φ)
    (hbody : ∀ j, jobs.lookup id = some j →
      body' (j.withContent (g id)) = (body j).map (Prod.map φ (Job.withContent (g id)))) :
    onRow id absent' body' (Table.mapValues (fun id j => j.withContent (g id)) jobs)
      = (onRow id absent body jobs).map
          (Prod.map φ (Table.mapValues fun id j => j.withContent (g id))) := by
  unfold onRow
  rw [Table.lookup_mapValues]
  cases hl : jobs.lookup id with
  | none =>
      rw [habsent]
      cases absent <;> rfl
  | some j =>
      refine bind_corresponds (hbody j hl) fun ⟨a, j'⟩ _ => ?_
      simp only [Prod.map, Except.map, Table.mapValues_set]

/-- A bounded, sorted selection visits the same keys after the exchange. -/
theorem selection_withContents
    (before : (Sigma fun _ : Uuid => Job) → (Sigma fun _ : Uuid => Job) → Prop)
    [DecidableRel before] (select : (Sigma fun _ : Uuid => Job) → Bool) (limit : Nat)
    (hselect : ∀ e : Sigma fun _ : Uuid => Job,
      select ⟨e.1, e.2.withContent (g e.1)⟩ = select e)
    (hbefore : ∀ a b : Sigma fun _ : Uuid => Job,
      before a b ↔ before ⟨a.1, a.2.withContent (g a.1)⟩ ⟨b.1, b.2.withContent (g b.1)⟩)
    (jobs : Table Uuid Job) :
    (((((Table.mapValues (fun id j => j.withContent (g id)) jobs).entries.filter
      select).insertionSort before).take limit).map (·.1))
      = ((((jobs.entries.filter select).insertionSort before).take limit).map (·.1)) := by
  rw [Table.entries_mapValues, List.filter_map]
  have hsame : (select ∘ fun e : Sigma fun _ : Uuid => Job =>
      (⟨e.1, e.2.withContent (g e.1)⟩ : Sigma fun _ : Uuid => Job)) = select := by
    funext e
    exact hselect e
  rw [hsame, ← List.map_insertionSort before before _ _ fun a _ b _ => hbefore a b, ← List.map_take,
    List.map_map]
  rfl

theorem maintain_withContents (h : SamePublic d d') (hg : ∀ id, (g id).Stored)
    (hs : ∀ id j, s.jobs.lookup id = some j → j.row.content.Stored) (pass : Pass) :
    maintain d' t pass (s.withContents g).jobs = (maintain d t pass s.jobs).map
      (Table.mapValues fun id j => j.withContent (g id)) := by
  have hrows : maintainRows t.now pass.locked (s.withContents g).jobs
      = maintainRows t.now pass.locked s.jobs :=
    selection_withContents leaseBefore _ 100 (fun _ => rfl) (fun _ _ => Iff.rfl) s.jobs
  unfold maintain
  rw [hrows]
  refine bind_corresponds (Table.forEach_mapValues (fun id j => j.withContent (g id)) _ _ _ _
    (maintainRows_spec t.now pass.locked s.jobs).1 fun id _ j hj =>
      maintainRow_withContent h (hg id) (hs id j hj)) fun jobs _ => ?_
  have hcandidates : reofferCandidates t.now
      (Table.mapValues (fun id j => j.withContent (g id)) jobs) = reofferCandidates t.now jobs := by
    unfold reofferCandidates
    rw [Table.entries_mapValues, List.flatMap_map]
    rfl
  simp only [reofferChosen, hcandidates, Except.map, Table.mapValues_mapValues]
  rfl

theorem expireQueuedJobs_withContents (hg : ∀ id, (g id).Stored)
    (hs : ∀ id j, s.jobs.lookup id = some j → j.row.content.Stored) (locked : List Uuid) :
    expireQueuedJobs t locked (s.withContents g).jobs = (expireQueuedJobs t locked s.jobs).map
      (Prod.map id (Table.mapValues fun id j => j.withContent (g id))) := by
  have hrows : expireRows t.app locked (s.withContents g).jobs = expireRows t.app locked s.jobs :=
    selection_withContents queuedBefore _ 100 (fun _ => rfl) (fun _ _ => Iff.rfl) s.jobs
  unfold expireQueuedJobs
  rw [hrows]
  exact bind_corresponds (Table.forEach_mapValues (fun id j => j.withContent (g id)) _ _ _ _
    (expireRows_spec t.app locked s.jobs).1 fun id _ j hj =>
      expireQueuedRow_withContent (hg id) (hs id j hj)) fun jobs _ => rfl

/-- What a call returns, with other content. -/
def Answer.withContent (c : Content) : Answer → Answer
  | .claimed r => .claimed (r.map (Claimed.withContent c))
  | answer => answer

theorem body_withContents (h : SamePublic d d') (hg : ∀ id, (g id).Stored)
    (hs : ∀ id j, s.jobs.lookup id = some j → j.row.content.Stored) (op : Op)
    (hcreate : ∀ call, op ≠ .create call) :
    ∃ φ : Answer → Answer, op.body d' t (s.withContents g)
      = (op.body d t s).map (Prod.map φ (Store.withContents g)) := by
  cases op with
  | create call => exact absurd rfl (hcreate call)
  | claim id token =>
      refine ⟨Answer.withContent (g id), map_corresponds
        (onRow_withContents (Option.map (Claimed.withContent (g id))) rfl fun j hj => ?_) fun _ => rfl⟩
      exact claim_withContent h (hg id) (hs id j hj) id token
  | renew lease =>
      refine ⟨id, map_corresponds (onRow_withContents id rfl fun j hj => ?_) fun _ => rfl⟩
      exact renew_withContent (hg _) (hs _ j hj) lease
  | markRunning lease =>
      refine ⟨id, map_corresponds (onRow_withContents id rfl fun j hj => ?_) fun _ => rfl⟩
      exact markRunning_withContent (hg _) (hs _ j hj) lease
  | console lease caseId stream text =>
      refine ⟨id, ite_corresponds (fun _ => rfl) fun _ => ?_⟩
      refine map_corresponds (onRow_withContents id rfl fun j hj => ?_) fun _ => rfl
      exact console_withContent h (hg _) (hs _ j hj) lease caseId stream text
  | finish lease result =>
      refine ⟨id, ?_⟩
      simp only [Op.body]
      cases finishRejects result with
      | some e => rfl
      | none =>
          refine map_corresponds (onRow_withContents id rfl fun j hj => ?_) fun _ => rfl
          exact finish_withContent h (hg _) (hs _ j hj) lease result
  | fail lease cleanupConfirmed =>
      refine ⟨id, map_corresponds (onRow_withContents id rfl fun j hj => ?_) fun _ => rfl⟩
      exact fail_withContent h (hg _) (hs _ j hj) lease cleanupConfirmed
  | recover lease =>
      refine ⟨id, map_corresponds (onRow_withContents id rfl fun j hj => ?_) fun _ => rfl⟩
      exact recover_withContent h (hg _) (hs _ j hj) lease
  | cancel userId id activeAllowed =>
      refine ⟨fun a => a, map_corresponds (onRow_withContents (fun r => r) rfl fun j hj => ?_)
        fun _ => rfl⟩
      exact cancel_withContent h (hg _) (hs _ j hj) userId activeAllowed
  | maintain pass =>
      exact ⟨id, map_corresponds (maintain_withContents h hg hs pass) fun _ => rfl⟩
  | expireQueuedJobs locked =>
      exact ⟨id, map_corresponds (expireQueuedJobs_withContents hg hs locked) fun _ => rfl⟩

/-- A transaction commutes with the exchange. -/
theorem step_withContents (h : SamePublic d d') (hg : ∀ id, (g id).Stored)
    (hs : ∀ id j, s.jobs.lookup id = some j → j.row.content.Stored) (call : Call)
    (hcreate : ∀ c, call.op ≠ .create c) :
    (step d' (s.withContents g) call).1 = (step d s call).1.withContents g := by
  rcases body_withContents (t := call.moment s) (s := { s with clock := s.clock + call.elapsed }) h hg
    hs call.op hcreate with ⟨φ, hbody⟩
  exact settle_corresponds (s := { s with clock := s.clock + call.elapsed }) hbody

/-! ### Creation -/

/-- The same request with another source. -/
def CreateCall.withSource (source : String) (hnonempty : 0 < byteLength source)
    (hbounded : byteLength source ≤ maxSourceBytes) (call : CreateCall) : CreateCall :=
  { call with input := { call.input with
      sourceCode := source, sourceNonempty := hnonempty, sourceBounded := hbounded } }

theorem SamePublic.isNone (h : SamePublic d d') (id : Uuid) :
    (d'.catalog id).isNone = (d.catalog id).isNone := by
  have hversion := congrArg Option.isNone (h.versions id)
  simpa only [Option.isNone_map] using hversion

theorem activeJobs_withContents (counts : Execution → Bool)
    (hcounts : ∀ c row, counts (Execution.withContent c row) = counts row) :
    Executions.activeJobs (s.withContents g).jobs counts = Executions.activeJobs s.jobs counts := by
  unfold Executions.activeJobs Store.withContents
  rw [Table.entries_mapValues, List.countP_map]
  refine congrArg (List.countP · s.jobs.entries) (funext fun e => ?_)
  simp only [Function.comp_apply]
  exact congrArg _ (hcounts _ _)

theorem reserve_withContents (h : SamePublic d d') (userId : Uuid) (ip : String) :
    Executions.reserve d' t userId ip (s.withContents g)
      = (Executions.reserve d t userId ip s).map (Store.withContents g) := by
  have hkey : Executions.executionRateKey d' = Executions.executionRateKey d := by
    funext window scope
    simp only [Executions.executionRateKey, h.config, h.hmacSha256]
  have hcount : Executions.countCreation d' t = Executions.countCreation d t := by
    funext scope limit limits
    unfold Executions.countCreation
    rw [hkey]
  unfold Executions.reserve
  rw [hcount, h.config, activeJobs_withContents _ fun _ _ => rfl]
  refine ite_corresponds (fun _ => rfl) fun _ => ?_
  refine bind_corresponds (φ := id) (by rw [Except.map_id]; rfl) fun _ _ => ?_
  refine bind_corresponds (φ := id) (by rw [Except.map_id]; rfl) fun _ _ => ?_
  exact bind_corresponds (φ := id) (by rw [Except.map_id]; rfl) fun _ _ => rfl

theorem insertJob_withContents (h : SamePublic d d') {row : Execution} {c : Content}
    (hc : c.Stored) (hrow : row.content.Stored) :
    Executions.insertJob d' t (row.withContent c) (s.withContents g)
      = (Executions.insertJob d t row s).map (Job.withContent c) := by
  have hguard : guardInsert d'.catalog (row.withContent c) = guardInsert d.catalog row := by
    unfold guardInsert protectInsert
    rw [executionChecks_withContent hc hrow]
    simp only [show (row.withContent c).problemVersionId = row.problemVersionId from rfl,
      show (row.withContent c).state = row.state from rfl, h.isNone]
  have hany : ((s.withContents g).jobs.entries.any fun e =>
        e.2.row.userId == row.userId && e.2.row.idempotencyKey == row.idempotencyKey)
      = s.jobs.entries.any fun e =>
        e.2.row.userId == row.userId && e.2.row.idempotencyKey == row.idempotencyKey := by
    unfold Store.withContents
    rw [Table.entries_mapValues, List.any_map]
    rfl
  have hmem : row.id ∈ (s.withContents g).jobs ↔ row.id ∈ s.jobs := by
    rw [AList.mem_keys, AList.mem_keys, Store.withContents, Table.keys_mapValues]
  have hinsert : Executions.insertRow d' (row.withContent c) (s.withContents g)
      = (Executions.insertRow d row s).map (Job.withContent c) := by
    unfold Executions.insertRow
    rw [hguard]
    change (if row.id ∈ (s.withContents g).jobs then _ else if ((s.withContents g).jobs.entries.any
      fun e => e.2.row.userId == row.userId && e.2.row.idempotencyKey == row.idempotencyKey) = true
      then _ else _) = _
    rw [hany]
    simp only [hmem]
    refine ite_corresponds (fun _ => rfl) fun _ => ?_
    refine ite_corresponds (fun _ => rfl) fun _ => ?_
    cases guardInsert d.catalog row <;> rfl
  unfold Executions.insertJob
  refine bind_corresponds hinsert fun j₀ hj₀ => ?_
  have hj : j₀.row.content.Stored := by
    unfold Executions.insertRow at hj₀
    split at hj₀
    · cases hj₀
    split at hj₀
    · cases hj₀
    split at hj₀
    · cases hj₀
      exact hrow
    · cases hj₀
  refine bind_corresponds (event_withContent _) fun ⟨seq, j₁⟩ hev => ?_
  have hj₁ : j₁.row.content.Stored := by rw [event_row hev]; exact hj
  refine bind_corresponds (update_withContent { j₁.row with lastSequence := seq } hc hj₁ rfl)
    fun j₂ _ => ?_
  exact createOutbox_withContent _

/-- The execution an owner has created with a key before. -/
def Store.previous (s : Store) (userId : Uuid) (key : String) : Option (Sigma fun _ : Uuid => Job) :=
  s.jobs.entries.find? fun e => e.2.row.userId == userId && e.2.row.idempotencyKey == key

theorem previous_withContents (userId : Uuid) (key : String) :
    (s.withContents g).previous userId key
      = (s.previous userId key).map fun e => ⟨e.1, e.2.withContent (g e.1)⟩ := by
  unfold Store.previous Store.withContents
  rw [Table.entries_mapValues, List.find?_map]
  rfl

/-- A request with a known key writes nothing, whether it is answered or
    turned down. -/
theorem create_known (d : Deployment) (t : Moment) (call : CreateCall)
    {previous : Sigma fun _ : Uuid => Job} (hprevious : s.previous call.userId call.key = some previous) :
    (settle s (Op.body d t s (.create call))).1 = s := by
  simp only [Op.body, Executions.create]
  split
  · rfl
  rw [show (s.jobs.entries.find? fun e => e.2.row.userId == call.userId &&
    e.2.row.idempotencyKey == call.key) = some previous from hprevious]
  simp only []
  split <;> rfl

/-- Contents that differ only in an execution the store does not have. -/
theorem withContents_update {id : Uuid} (c : Content) (hid : id ∉ s.jobs) :
    s.withContents (Function.update g id c) = s.withContents g := by
  unfold Store.withContents
  have hjobs : Table.mapValues (fun k j => j.withContent (Function.update g id c k)) s.jobs
      = Table.mapValues (fun k j => j.withContent (g k)) s.jobs := by
    refine Table.mapValues_congr fun e he => ?_
    have hne : e.1 ≠ id := fun hc => hid (hc ▸ List.mem_keys_of_mem he)
    rw [Function.update_of_ne hne]
  rw [hjobs]

/-- A creation commutes with the exchange, the new execution getting the
    content of the second request. -/
theorem create_withContents (h : SamePublic d d') (call : CreateCall)
    {source : String} (hnonempty : 0 < byteLength source) (hbounded : byteLength source ≤ maxSourceBytes)
    (hprevious : s.previous call.userId call.key = none) :
    Executions.create d' t (call.withSource source hnonempty hbounded) (s.withContents g)
      = (Executions.create d t call s).map (Prod.map id (Store.withContents (Function.update g call.id
        ⟨source, Executions.payloadHash d'
          (call.withSource source hnonempty hbounded).input⟩))) := by
  generalize hcontent : (⟨source, Executions.payloadHash d'
    (call.withSource source hnonempty hbounded).input⟩ : Content) = c
  have hc : c.Stored := by rw [← hcontent]; exact ⟨hnonempty, hbounded⟩
  have hprevious' : (s.withContents g).previous call.userId call.key = none := by
    rw [previous_withContents, hprevious]
    rfl
  unfold Store.previous at hprevious hprevious'
  unfold Executions.create
  rw [h.config]
  refine ite_corresponds (fun _ => rfl) fun _ => ?_
  simp only [hprevious, show ((s.withContents g).jobs.entries.find? fun e =>
    e.2.row.userId == (call.withSource source hnonempty hbounded).userId &&
      e.2.row.idempotencyKey == (call.withSource source hnonempty hbounded).key) = none
    from hprevious']
  rw [activeJobs_withContents _ fun _ _ => rfl]
  refine ite_corresponds (fun _ => rfl) fun _ => ?_
  rw [show (call.withSource source hnonempty hbounded).registry.currentVersion
    (call.withSource source hnonempty hbounded).input.problem
      = call.registry.currentVersion call.input.problem from rfl]
  cases call.registry.currentVersion call.input.problem with
  | none => rfl
  | some versionId =>
      simp only [h.isNone]
      refine ite_corresponds (fun _ => rfl) fun _ => ?_
      refine bind_corresponds (φ := id) (by rw [Except.map_id]; rfl) fun round _ => ?_
      refine bind_corresponds (reserve_withContents h call.userId call.ip) fun s₁ hres => ?_
      have hrow : Executions.newRow d' t (call.withSource source hnonempty hbounded) versionId round
          = (Executions.newRow d t call versionId round).withContent c := by
        rw [← hcontent]
        simp only [Executions.newRow, Execution.withContent, h.config]
        rfl
      simp only [id_eq, hrow]
      refine bind_corresponds (insertJob_withContents h hc
        ⟨call.input.sourceNonempty, call.input.sourceBounded⟩) fun j hj => ?_
      -- the row was inserted, so the identifier is new
      have hnew := (insertJob_effect hj).1
      have hid : call.id ∉ s₁.jobs := hnew
      have hold := withContents_update (g := g) c hid
      simp only [Except.map, Prod.map, id_eq]
      refine congrArg (fun s' => Except.ok (_, s')) ?_
      have hjobs := Table.mapValues_insert
        (fun k j => j.withContent (Function.update g call.id c k)) j hid
      rw [Function.update_self] at hjobs
      unfold Store.withContents at hold ⊢
      rw [← hold]
      exact congrArg (fun jobs => { s₁ with jobs := jobs }) hjobs.symm

/-- A creation with another source ends in the exchanged store, for some
    contents: a known key writes nothing, and a new execution brings its own. -/
theorem create_settles (h : SamePublic d d') (hg : ∀ id, (g id).Stored) (call : CreateCall)
    {source : String} (hnonempty : 0 < byteLength source)
    (hbounded : byteLength source ≤ maxSourceBytes) :
    ∃ g', (∀ id, (g' id).Stored) ∧
      (settle (s.withContents g)
        (Op.body d' t (s.withContents g) (.create (call.withSource source hnonempty hbounded)))).1
        = (settle s (Op.body d t s (.create call))).1.withContents g' := by
  cases hprevious : s.previous call.userId call.key with
  | some previous =>
      have hprevious' : (s.withContents g).previous call.userId call.key
          = some ⟨previous.1, previous.2.withContent (g previous.1)⟩ := by
        rw [previous_withContents, hprevious]
        rfl
      refine ⟨g, hg, ?_⟩
      rw [create_known d t call hprevious]
      exact create_known d' t (call.withSource source hnonempty hbounded) hprevious'
  | none =>
      have hcreate := create_withContents (t := t) (g := g) h call hnonempty hbounded hprevious
      generalize hc : (⟨source, Executions.payloadHash d'
        (call.withSource source hnonempty hbounded).input⟩ : Content) = c at hcreate
      simp only [Op.body]
      rw [hcreate]
      cases Executions.create d t call s with
      | error e => exact ⟨g, hg, rfl⟩
      | ok result =>
          refine ⟨Function.update g call.id c, fun k => ?_, rfl⟩
          rcases eq_or_ne k call.id with rfl | hne
          · rw [Function.update_self, ← hc]
            exact ⟨hnonempty, hbounded⟩
          · rw [Function.update_of_ne hne]
            exact hg k

/-! ### What the owner reads -/

theorem publicSnapshot_withContent (h : SamePublic d d') (c : Content) (row : Execution) :
    publicSnapshot d' (row.withContent c) = publicSnapshot d row := by
  have hversion := h.versions row.problemVersionId
  unfold publicSnapshot
  rw [show (row.withContent c).problemVersionId = row.problemVersionId from rfl]
  rw [h.publicCases]
  cases hold : d.catalog row.problemVersionId with
  | none =>
      rw [hold, Option.map_none, Option.map_eq_none_iff] at hversion
      rw [hversion]
  | some version =>
      rw [hold, Option.map_some, Option.map_eq_some_iff] at hversion
      rcases hversion with ⟨version', hversion', hpublic⟩
      simp only [Prod.mk.injEq] at hpublic
      rw [hversion']
      simp only [hpublic.1]
      rfl

theorem replayContiguous_withContent (h : SamePublic d d') (c : Content) (id : String)
    (row : Execution) (attempt after : Nat) (rows : List ExecutionEvent) :
    replayContiguous d' id (row.withContent c) attempt after rows
      = replayContiguous d id row attempt after rows := by
  have hsafe : replaySafe d' id (row.withContent c) = replaySafe d id row := by
    funext e
    unfold replaySafe
    rw [show (row.withContent c).problemVersionId = row.problemVersionId from rfl, h.publicCases]
    rfl
  unfold replayContiguous
  rw [hsafe]
  rfl

/-- A replay does not depend on content. -/
theorem replay_withContents (h : SamePublic d d') (app : Nat) (userId : Uuid) (text : String)
    (attempt after : Nat) :
    replay d' app userId text attempt after (s.withContents g)
      = replay d app userId text attempt after s := by
  unfold replay
  cases Uuid.ofText? text with
  | none => rfl
  | some key =>
      simp only [Store.withContents, Table.lookup_mapValues]
      cases s.jobs.lookup key with
      | none => rfl
      | some j =>
          simp only [Option.map_some]
          have hrows : replayRowsAfter app after (j.withContent (g key)) = replayRowsAfter app after j :=
            rfl
          have hrow : (j.withContent (g key)).row = j.row.withContent (g key) := rfl
          rw [hrows, hrow, replayContiguous_withContent h, publicSnapshot_withContent h]
          rfl

/-! ### Two runs -/

/-- Two operations that differ only in what the owner of a submission must not
    learn from the other's answers: the source of a request, what a worker
    prints, and what the judge of the submission was shown. -/
inductive SameOperation (strip : String → String) (id : Uuid) : Op → Op → Prop where
  | same (op : Op) (hcreate : ∀ call, op ≠ .create call) : SameOperation strip id op op
  | create (call : CreateCall) (source : String) (hnonempty : 0 < byteLength source)
      (hbounded : byteLength source ≤ maxSourceBytes)
      (submission : call.id = id → call.input.mode = .submit) :
      SameOperation strip id (.create call) (.create (call.withSource source hnonempty hbounded))
  | console (lease : Lease) (submission : lease.executionId = id) (caseId caseId' : String)
      (stream stream' : Stream) (text text' : String) :
      SameOperation strip id (.console lease caseId stream text) (.console lease caseId' stream' text')
  | finish (lease : Lease) (submission : lease.executionId = id) (plan plan' : JudgePlan)
      (language language' : Language) (input input' : Option JudgeObservation)
      (result result' : WorkerResult)
      (judged : judge strip plan .submit language input = .ok result)
      (judged' : judge strip plan' .submit language' input' = .ok result')
      (verdict : result'.verdict = result.verdict) (runtimeMs : result'.runtimeMs = result.runtimeMs)
      (memoryKiB : result'.memoryKiB = result.memoryKiB) :
      SameOperation strip id (.finish lease result) (.finish lease result')

/-- Two calls of such operations at the same time. -/
structure SameCall (strip : String → String) (id : Uuid) (call call' : Call) : Prop where
  elapsed : call'.elapsed = call.elapsed
  app : call'.app = call.app
  lag : call'.lag = call.lag
  productNotifications : call'.productNotifications = call.productNotifications
  op : SameOperation strip id call.op call'.op

/-- A worker cannot print for a submission, whatever it passes. -/
theorem console_submission {lease : Lease} (d : Deployment) (t : Moment) (caseId : String)
    (stream : Stream) (text : String) (hs : ∀ j, s.jobs.lookup lease.executionId = some j → j.row.mode = .submit) :
    (settle s (Op.body d t s (.console lease caseId stream text))).1 = s := by
  simp only [Op.body]
  split
  · rfl
  unfold onRow
  cases hl : s.jobs.lookup lease.executionId with
  | none => rfl
  | some j =>
      unfold console
      simp only []
      split
      · -- without authority the row is written back as it was
        have hback : Table.set lease.executionId j s.jobs = s.jobs := Table.set_same hl
        simp only [bind, Except.bind, Except.map, settle, hback]
      · rw [if_pos (Or.inl (by rw [hs j hl]; decide))]
        rfl

/-- The judge says no more about a submission than its verdict and metrics. -/
theorem judge_submit_determined {strip : String → String} {plan plan' : JudgePlan}
    {language language' : Language} {input input' : Option JudgeObservation}
    {result result' : WorkerResult} (h : judge strip plan .submit language input = .ok result)
    (h' : judge strip plan' .submit language' input' = .ok result')
    (hverdict : result'.verdict = result.verdict) (hruntime : result'.runtimeMs = result.runtimeMs)
    (hmemory : result'.memoryKiB = result.memoryKiB) : result' = result := by
  have hnone := judge_submit_private h
  have hnone' := judge_submit_private h'
  rcases result with ⟨⟩
  rcases result' with ⟨⟩
  simp only [WorkerResult.mk.injEq] at *
  exact ⟨hverdict, hruntime, hmemory, hnone'.trans hnone.symm⟩

/-- One call of each run. -/
theorem sameCall_step {strip : String → String} {id : Uuid} {call call' : Call} (h : SamePublic d d')
    (hg : ∀ id, (g id).Stored) (hs : ∀ id j, s.jobs.lookup id = some j → j.row.content.Stored)
    (hmode : ∀ j, s.jobs.lookup id = some j → j.row.mode = .submit)
    (hcall : SameCall strip id call call') :
    ∃ g', (∀ id, (g' id).Stored) ∧
      (step d' (s.withContents g) call').1 = (step d s call).1.withContents g' := by
  rcases call with ⟨elapsed, app, lag, preferences, op⟩
  rcases call' with ⟨_, _, _, _, op'⟩
  rcases hcall with ⟨helapsed, happ, hlag, hpreferences, hop⟩
  simp only at helapsed happ hlag hpreferences hop
  rw [helapsed, happ, hlag, hpreferences]
  cases hop with
  | same _ hcreate => exact ⟨g, hg, step_withContents h hg hs _ hcreate⟩
  | finish lease _ plan plan' language language' input input' result result' judged judged' hverdict
      hruntime hmemory =>
      rw [judge_submit_determined judged judged' hverdict hruntime hmemory]
      exact ⟨g, hg, step_withContents h hg hs _ fun _ hc => (by cases hc)⟩
  | console lease submission caseId caseId' stream stream' text text' =>
      subst submission
      refine ⟨g, hg, ?_⟩
      -- neither call writes anything
      have hmode' : ∀ j, ({ s.withContents g with clock := s.clock + elapsed } : Store).jobs.lookup
          lease.executionId = some j → j.row.mode = .submit := by
        intro j hj
        simp only [Store.withContents, Table.lookup_mapValues, Option.map_eq_some_iff] at hj
        rcases hj with ⟨i, hi, rfl⟩
        exact hmode i hi
      have hfirst := console_submission (s := { s with clock := s.clock + elapsed }) d
        (Call.moment s ⟨elapsed, app, lag, preferences, .console lease caseId stream text⟩)
        caseId stream text hmode
      have hsecond := console_submission d'
        (Call.moment (s.withContents g)
          ⟨elapsed, app, lag, preferences, .console lease caseId' stream' text'⟩)
        caseId' stream' text' hmode'
      exact hsecond.trans (congrArg (Store.withContents g) hfirst.symm)
  | create call source hnonempty hbounded _ =>
      exact create_settles (s := { s with clock := s.clock + elapsed }) h hg call hnonempty hbounded

/-- An execution stays the submission it was created as. -/
theorem submission_step {strip : String → String} {id : Uuid} {call call' : Call}
    (hcall : SameCall strip id call call')
    (hmode : ∀ j, s.jobs.lookup id = some j → j.row.mode = .submit) (j : Job)
    (hj : (step d s call).1.jobs.lookup id = some j) : j.row.mode = .submit := by
  obtain ⟨_, _, hbefore, heffect⟩ := step_effect_before hj
  cases heffect with
  | created request _ hop hid _ hrequested =>
      rw [hrequested]
      have hsame := hcall.op
      rw [hop] at hsame
      generalize call'.op = op' at hsame
      cases hsame with
      | same _ hcreate => exact absurd rfl (hcreate request)
      | create _ _ _ _ submission => exact submission hid
  | granted token i _ _ grant =>
      exact (congrArg RequestColumns.mode grant.request).trans (hmode i hbefore)
  | quiet i _ chain =>
      exact (congrArg RequestColumns.mode (Quiets.request chain)).trans (hmode i hbefore)

/-- The second run is the first with other content. -/
theorem run_withContents {strip : String → String} {id : Uuid} {calls calls' : List Call}
    (h : SamePublic d d') (hcalls : List.Forall₂ (SameCall strip id) calls calls') :
    ∃ g, Store.run d' calls' = (Store.run d calls).withContents g := by
  have hrelated := Runs.run_related (step d) (step d')
    (P := fun s s' => (∀ id j, s.jobs.lookup id = some j → Lifecycle d id s.clock j) ∧
      (∀ j, s.jobs.lookup id = some j → j.row.mode = .submit) ∧
      ∃ g : Uuid → Content, (∀ id, (g id).Stored) ∧ s' = s.withContents g)
    (fun s s' call call' hcall hs => ?step) hcalls {} {} ?start
  case start =>
    refine ⟨fun _ _ hempty => ?_, fun _ hempty => ?_, fun _ => ⟨"x", ""⟩, fun _ => ?_, rfl⟩
    · cases hempty
    · cases hempty
    · exact show 1 ≤ byteLength "x" ∧ byteLength "x" ≤ 65536 by decide +kernel
  case step =>
    rcases hs with ⟨hlife, hmode, g, hg, rfl⟩
    have hstored : ∀ id j, s.jobs.lookup id = some j → j.row.content.Stored :=
      fun id j hj => (hlife id j hj).request.sourceBytes
    exact ⟨(lifecycle_invariant d).step s call hlife, submission_step hcall hmode,
      sameCall_step h hg hstored hmode hcall⟩
  rcases hrelated with ⟨_, _, g, _, hg⟩
  exact ⟨g, hg⟩

/-! ### The statement -/

theorem EventFields.kind_eq_consoleOutput {fields : EventFields} :
    fields.kind = .consoleOutput ↔ ∃ caseId stream text,
      fields = .consoleOutput caseId stream text := by
  cases fields <;> simp [EventFields.kind]

/-- A text names a public case of the version an execution is pinned to. -/
def NamesPublicCase (d : Deployment) (row : Execution) (caseId : String) : Prop :=
  ∃ version, d.catalog row.problemVersionId = some version ∧
    ∃ test ∈ version.testCases, test.visibility = .publicCase ∧ Uuid.ofText? caseId = some test.id

theorem namesPublicCase_iff {row : Execution} {caseId : String} :
    NamesPublicCase d row caseId ↔ isPublicCase d row.problemVersionId caseId = true := by
  rw [isPublicCase_iff]
  unfold NamesPublicCase Catalog.publicCases
  cases d.catalog row.problemVersionId with
  | none => simp
  | some version =>
      simp only [Option.some.injEq, exists_eq_left', List.mem_map, List.mem_filter,
        decide_eq_true_eq]
      constructor
      · rintro ⟨test, hmem, hpublic, hid⟩
        exact ⟨test.id, ⟨test, ⟨hmem, hpublic⟩, rfl⟩, hid⟩
      · rintro ⟨_, ⟨test, ⟨hmem, hpublic⟩, rfl⟩, hid⟩
        exact ⟨test, hmem, hpublic, hid⟩

/-- Hidden data stays hidden. Whatever workers passed, a stored console event
    or case result is one of a `RUN` execution and names a public case of its
    version, and a submission has neither. Two runs that differ in sources,
    hidden data, console output and what the judge of a submission was shown,
    with equal verdicts and metrics, return equal replays and snapshots. And
    hidden cases do not influence the judging of a run. -/
theorem hidden_data_private :
    (∀ (d : Deployment) (calls : List Call) (id : Uuid) (j : Job),
      (Store.run d calls).jobs.lookup id = some j →
      (∀ e ∈ j.events, e.kind = e.payload.fields.kind ∧ (e.kind = .consoleOutput →
        j.row.mode = .run ∧ ∃ caseId stream text,
          e.payload.fields = .consoleOutput caseId stream text ∧ NamesPublicCase d j.row caseId)) ∧
      (∀ results, j.row.publicResults = some results →
        j.row.mode = .run ∧ ∀ r ∈ results, NamesPublicCase d j.row r.caseId) ∧
      (j.row.mode = .submit →
        (∀ e ∈ j.events, e.kind ≠ .consoleOutput) ∧ j.row.publicResults = none)) ∧
    (∀ (d d' : Deployment) (strip : String → String) (id : Uuid) (calls calls' : List Call),
      SamePublic d d' → List.Forall₂ (SameCall strip id) calls calls' →
      (∀ app userId text attempt after,
        replay d' app userId text attempt after (Store.run d' calls')
          = replay d app userId text attempt after (Store.run d calls)) ∧
      ((Store.run d' calls').jobs.lookup id).map (fun j => publicSnapshot d' j.row)
        = ((Store.run d calls).jobs.lookup id).map fun j => publicSnapshot d j.row) ∧
    ∀ (strip : String → String) (p q : JudgePlan) (a b : List JudgeCase),
      (p.cases.filter fun c => decide (c.visibility = .publicCase)).Perm
        (q.cases.filter fun c => decide (c.visibility = .publicCase)) →
      selectCases p .run = .ok a → selectCases q .run = .ok b →
      ∀ language input, judge strip p .run language input = judge strip q .run language input := by
  refine ⟨?stored, ?alike, fun strip p q a b hpublic hp hq => judge_run_eq strip hpublic hp hq⟩
  case stored =>
    intro d calls id j hj
    have hdisclosed := disclosed_run d calls id j hj
    have hconsole : ∀ e ∈ j.events, e.kind = e.payload.fields.kind ∧ (e.kind = .consoleOutput →
        j.row.mode = .run ∧ ∃ caseId stream text,
          e.payload.fields = .consoleOutput caseId stream text ∧ NamesPublicCase d j.row caseId) := by
      intro e he
      have hstored := (stream_run d calls id j hj).table.subset he
      have hjournal := (List.mem_filter.mp hstored).1
      have hkind := hdisclosed.kinds e hjournal
      refine ⟨hkind, fun hconsole => ?_⟩
      rcases EventFields.kind_eq_consoleOutput.mp (hkind.symm.trans hconsole) with
        ⟨caseId, stream, text, hfields⟩
      rcases hdisclosed.console e hjournal caseId stream text hfields with ⟨hrun, hpublic⟩
      exact ⟨hrun, caseId, stream, text, hfields, namesPublicCase_iff.mpr hpublic⟩
    have hresults : ∀ results, j.row.publicResults = some results →
        j.row.mode = .run ∧ ∀ r ∈ results, NamesPublicCase d j.row r.caseId := by
      intro results hsome
      rcases hdisclosed.results results hsome with ⟨hrun, _, hpublic⟩
      exact ⟨hrun, fun r hr => namesPublicCase_iff.mpr (hpublic r hr)⟩
    -- a submission is no run, so it has neither
    refine ⟨hconsole, hresults, fun hsubmit => ⟨fun e he hkind => ?_, ?_⟩⟩
    · rw [((hconsole e he).2 hkind).1] at hsubmit
      cases hsubmit
    · rw [Option.eq_none_iff_forall_ne_some]
      intro results hsome
      rw [(hresults results hsome).1] at hsubmit
      cases hsubmit
  case alike =>
    intro d d' strip id calls calls' h hcalls
    rcases run_withContents h hcalls with ⟨g, hg⟩
    rw [hg]
    refine ⟨replay_withContents h, ?_⟩
    simp only [Store.withContents, Table.lookup_mapValues, Option.map_map]
    congr 1
    funext j
    exact publicSnapshot_withContent h (g id) j.row

end ArenaCore
