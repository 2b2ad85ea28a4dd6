import ArenaCore.Store.Replicas

/-!
# Idempotent Creation

A user who repeats a request with the same key gets the execution of the first
request, and a user who sends another request under a used key gets an error.
The key is looked up under the lock of the owner's row, and the lock is held
until the new row is committed. So two creations of one user never pass the
lookup at the same time, and a key that was found unused stays unused until
its creation ends.

Whether two requests are the same is decided by a digest of a JSON array. The
text of such an array determines its strings, so with a digest that has no
collisions it is a comparison of all five fields.

## Main definitions

* `SameKey`, `SameContent`: When a call repeats another.
* `Replicas.OnePerKey`: Executions and committed creations correspond.
* `Adds`, `Settled`: What a call is told and what it changes.
* `Replicas.Traced`: The invariant.

## Theorems

* `traced_run`: The invariant holds in every run.
* `create_idempotent`: One execution for each key, and every answer is about
  it.
-/

namespace ArenaCore

open Executions

variable {d : Deployment} {call : CreateCall} {job j : Job} {tx : Nat} {c : Creation}
  {a b : CreateCall} {t : Moment} {jobs : Table Uuid Job} {window : Nat}
  {writes : List (String × RateCounter)}

/-! ### Comparing requests -/

/-- Two calls of one user under one key. -/
def SameKey (a b : CreateCall) : Prop :=
  a.userId = b.userId ∧ a.key = b.key

/-- Two requests that agree in all five fields. -/
def SameContent (a b : CreateExecution) : Prop :=
  a.problemId = b.problemId ∧ a.language = b.language ∧ a.mode = b.mode ∧
    a.sourceCode = b.sourceCode ∧ a.competitionSlug = b.competitionSlug

theorem SameKey.symm (h : SameKey a b) : SameKey b a :=
  ⟨h.1.symm, h.2.symm⟩

theorem SameKey.trans {c : CreateCall} (h : SameKey a b) (h' : SameKey b c) : SameKey a c :=
  ⟨h.1.trans h'.1, h.2.trans h'.2⟩

theorem Language.text_injective : Function.Injective Language.text := by
  intro a b
  cases a <;> cases b <;> decide

theorem ExecutionMode.text_injective : Function.Injective ExecutionMode.text := by
  intro a b
  cases a <;> cases b <;> decide

/-- The strings a digest is taken of. -/
def digestTexts (input : CreateExecution) : List (Option String) :=
  [some input.problemId, some input.language.text, some input.mode.text, some input.sourceCode,
    input.competitionSlug]

theorem payloadHash_eq_texts (d : Deployment) (input : CreateExecution) :
    payloadHash d input = d.sha256 (Json.arr ((digestTexts input).map Json.text)).stringify := by
  unfold payloadHash digestTexts
  cases input.competitionSlug <;> rfl

theorem payloadHash_eq_iff (hsha : Function.Injective d.sha256) (a b : CreateExecution) :
    payloadHash d a = payloadHash d b ↔ SameContent a b := by
  rw [payloadHash_eq_texts, payloadHash_eq_texts]
  constructor
  · intro h
    have htexts := Json.stringify_texts_inj (hsha h)
    simp only [digestTexts, List.cons.injEq, Option.some.injEq, and_true] at htexts
    obtain ⟨hproblem, hlanguage, hmode, hsource, hslug⟩ := htexts
    exact ⟨hproblem, Language.text_injective hlanguage, ExecutionMode.text_injective hmode,
      hsource, hslug⟩
  · rintro ⟨hproblem, hlanguage, hmode, hsource, hslug⟩
    rw [digestTexts, hproblem, hlanguage, hmode, hsource, hslug]
    rfl

/-! ### What is claimed -/

/-- Every committed creation has its execution, every execution is that of a
    committed creation, and no two of them have the same owner and key. -/
structure Replicas.OnePerKey (s : Replicas) : Prop where
  distinct : s.admitted.Pairwise fun a b => ¬ SameKey a.call b.call
  execution : ∀ a ∈ s.admitted, ∃ j, s.store.jobs.lookup a.call.id = some j ∧
    j.row.id = a.call.id ∧ j.row.userId = a.call.userId ∧ j.row.idempotencyKey = a.call.key
  creation : ∀ id ∈ s.store.jobs, ∃ a ∈ s.admitted, a.call.id = id

/-- A first call adds one execution with one event and one intent. -/
structure Adds (s s' : Replicas) (call : CreateCall) : Prop where
  new : call.id ∉ s.store.jobs
  logged : ∃ window, s'.admitted = ⟨call, window⟩ :: s.admitted
  added : ∃ job e o, s'.store.jobs = s.store.jobs.insert call.id job ∧
    job.row.id = call.id ∧ job.row.userId = call.userId ∧ job.row.idempotencyKey = call.key ∧
    job.row.state = .queued ∧
    job.events = [e] ∧ e.sequence = 1 ∧ e.payload.fields = .executionStatus .queued none ∧
    job.outbox = [o] ∧ o.kind = .executionCreated ∧ o.generation = 0

/-- The answer to a call and its effect, by whether its key was used before. -/
structure Settled (s s' : Replicas) (call : CreateCall) (result : Except Error ExecutionReceipt) :
    Prop where
  used : ∀ a ∈ s.admitted, SameKey a.call call →
    s'.store = s.store ∧ s'.admitted = s.admitted ∧
    (SameContent a.call.input call.input → ∃ j, s.store.jobs.lookup a.call.id = some j ∧
      result = .ok { executionId := a.call.id, state := j.row.state }) ∧
    (¬ SameContent a.call.input call.input → result = .error idempotencyConflict)
  unused : (∀ a ∈ s.admitted, ¬ SameKey a.call call) →
    (∃ e, result = .error e ∧ s'.store = s.store ∧ s'.admitted = s.admitted) ∨
    (result = .ok { executionId := call.id, state := .queued } ∧ Adds s s' call)

/-! ### The execution of a key -/

/-- The columns that tie an execution to the call that created it. -/
structure MadeBy (d : Deployment) (call : CreateCall) (row : Execution) : Prop where
  id : row.id = call.id
  userId : row.userId = call.userId
  key : row.idempotencyKey = call.key
  hash : row.payloadHash = payloadHash d call.input

theorem MadeBy.of_request {row row' : Execution} (h : MadeBy d call row)
    (hsame : row'.request = row.request) : MadeBy d call row' where
  id := (congrArg RequestColumns.id hsame).trans h.id
  userId := (congrArg RequestColumns.userId hsame).trans h.userId
  key := (congrArg RequestColumns.idempotencyKey hsame).trans h.key
  hash := (congrArg RequestColumns.payloadHash hsame).trans h.hash

theorem madeBy_inserted {versionId : Uuid} {round : Option Uuid}
    (h : Inserted d t (newRow d t call versionId round) job) : MadeBy d call job.row := by
  rw [h.result]
  exact ⟨rfl, rfl, rfl, rfl⟩

theorem previousJob_eq_some (h : previousJob jobs call = some j) :
    ∃ id, jobs.lookup id = some j ∧ j.row.userId = call.userId ∧ j.row.idempotencyKey = call.key := by
  obtain ⟨e, hfind, rfl⟩ := Option.map_eq_some_iff.1 h
  have hsame := List.find?_some hfind
  simp only [Bool.and_eq_true, beq_iff_eq] at hsame
  exact ⟨e.1, AList.mem_lookup_iff.2 (List.mem_of_find?_eq_some hfind), hsame⟩

theorem previousJob_eq_none (h : previousJob jobs call = none) {id : Uuid}
    (hj : jobs.lookup id = some j) :
    ¬ (j.row.userId = call.userId ∧ j.row.idempotencyKey = call.key) := by
  rw [previousJob, Option.map_eq_none_iff, List.find?_eq_none] at h
  have hentry := h ⟨id, j⟩ (AList.mem_lookup_iff.1 hj)
  simpa only [Bool.and_eq_true, beq_iff_eq] using hentry

/-! ### The invariant -/

/-- Executions and committed creations correspond, and a creation that found
    its key unused finds it unused as long as it is pending. -/
structure Replicas.Traced (d : Deployment) (s : Replicas) : Prop where
  kept : ∀ a ∈ s.admitted, ∃ j, s.store.jobs.lookup a.call.id = some j ∧ MadeBy d a.call j.row
  known : ∀ id ∈ s.store.jobs, ∃ a ∈ s.admitted, a.call.id = id
  distinct : s.admitted.Pairwise fun a b => ¬ SameKey a.call b.call
  unused : ∀ tx c, s.pending.lookup tx = some c → 2 ≤ c.phase.rank →
    ∀ a ∈ s.admitted, ¬ SameKey a.call c.call
  disabled : d.config.executionsEnabled = false → s.pending = ∅ ∧ s.admitted = []

variable {d : Deployment} {s s' : Replicas} {e : Event} {reply : Option Reply}

theorem Replicas.Traced.eq_of_sameKey (hs : s.Traced d) {a b : Admission} (ha : a ∈ s.admitted)
    (hb : b ∈ s.admitted) (hsame : SameKey a.call b.call) : a = b := by
  by_contra hne
  have : Std.Symm fun a b : Admission => ¬ SameKey a.call b.call := ⟨fun _ _ h h' => h h'.symm⟩
  exact hs.distinct.forall ha hb hne hsame

/-- The lookup of a used key finds the execution its first call created. -/
theorem Replicas.Traced.previous (hs : s.Traced d) {a : Admission} (ha : a ∈ s.admitted)
    (hsame : SameKey a.call call) :
    ∃ j, previousJob s.store.jobs call = some j ∧ s.store.jobs.lookup a.call.id = some j ∧
      MadeBy d a.call j.row := by
  obtain ⟨j, hj, hmade⟩ := hs.kept a ha
  cases hprevious : previousJob s.store.jobs call with
  | none =>
      exact absurd ⟨hmade.userId.trans hsame.1, hmade.key.trans hsame.2⟩
        (previousJob_eq_none hprevious hj)
  | some j' =>
      -- What was found was made by a call with the same key, so by this one.
      obtain ⟨id, hj', huser, hkey⟩ := previousJob_eq_some hprevious
      obtain ⟨b, hb, rfl⟩ := hs.known id (AList.lookup_isSome.1 (Option.isSome_of_eq_some hj'))
      obtain ⟨j'', hj'', hmade'⟩ := hs.kept b hb
      rw [hj'] at hj''
      cases hj''
      have hsame' : SameKey b.call a.call :=
        SameKey.trans (b := call) ⟨hmade'.userId.symm.trans huser, hmade'.key.symm.trans hkey⟩
          hsame.symm
      cases hs.eq_of_sameKey hb ha hsame'
      exact ⟨j', rfl, hj', hmade'⟩

/-- A lookup that finds something finds the execution of a first call. -/
theorem Replicas.Traced.first (hs : s.Traced d) (h : previousJob s.store.jobs call = some j) :
    ∃ a ∈ s.admitted, SameKey a.call call := by
  obtain ⟨id, hj, huser, hkey⟩ := previousJob_eq_some h
  obtain ⟨a, ha, rfl⟩ := hs.known id (AList.lookup_isSome.1 (Option.isSome_of_eq_some hj))
  obtain ⟨j', hj', hmade⟩ := hs.kept a ha
  rw [hj] at hj'
  cases hj'
  exact ⟨a, ha, hmade.userId.symm.trans huser, hmade.key.symm.trans hkey⟩

/-- Finding a key unused. -/
theorem Replicas.Traced.unused_enter (hs : s.Traced d) {phase : Phase}
    (hpending : s.pending.lookup tx = some c) (h : Enters d t s c.call c.phase phase)
    (hrank : 2 ≤ phase.rank) : ∀ a ∈ s.admitted, ¬ SameKey a.call c.call := by
  by_cases hbefore : 2 ≤ c.phase.rank
  · exact hs.unused tx c hpending hbefore
  · intro a ha hsame
    obtain ⟨j, hprevious, _⟩ := hs.previous ha hsame
    generalize c.phase = before at h hbefore
    cases h <;> simp_all [Phase.rank]

/-- A commit takes a key that no other pending creation has passed the lookup
    with, since they would share the owner's lock. -/
theorem Replicas.Traced.commit (hs : s.Traced d) (hexclusive : s.Exclusive)
    (hprepared : s.Prepared d) (hpending : s.pending.lookup tx = some c)
    (hphase : c.phase = .inserted job window writes) :
    (s.commit tx c.call job window writes).Traced d := by
  obtain ⟨hnew, t, versionId, round, hjob⟩ := hprepared hpending hphase
  have hunused := hs.unused tx c hpending (by simp [hphase, Phase.rank])
  constructor
  case kept =>
    intro a ha
    rcases List.mem_cons.1 ha with rfl | hold
    · exact ⟨job, AList.lookup_insert _, madeBy_inserted hjob⟩
    · obtain ⟨j, hj, hmade⟩ := hs.kept a hold
      have hne : a.call.id ≠ c.call.id := by
        intro heq
        rw [heq] at hj
        exact hnew (AList.lookup_isSome.1 (Option.isSome_of_eq_some hj))
      exact ⟨j, (AList.lookup_insert_ne hne).trans hj, hmade⟩
  case known =>
    intro id hid
    rcases (AList.mem_insert _).1 hid with rfl | hold
    · exact ⟨_, List.mem_cons_self, rfl⟩
    · obtain ⟨a, ha, hid⟩ := hs.known id hold
      exact ⟨a, List.mem_cons_of_mem _ ha, hid⟩
  case distinct =>
    exact List.pairwise_cons.2 ⟨fun a ha hsame => hunused a ha hsame.symm, hs.distinct⟩
  case unused =>
    intro tx' c' hpending' hrank' a ha hsame
    obtain ⟨hne, hbefore⟩ := Table.lookup_of_erase hpending'
    rcases List.mem_cons.1 ha with rfl | hold
    · have hheld : c.holds (.owner c.call.userId) = true := by
        simp [Creation.holds, hphase, Phase.rank]
      have hheld' : c'.holds (.owner c.call.userId) = true := by
        have huser : c'.call.userId = c.call.userId := hsame.1.symm
        simp only [Creation.holds, Bool.and_eq_true, decide_eq_true_eq]
        exact ⟨by omega, huser⟩
      exact absurd (hexclusive hbefore hpending hheld' hheld) hne
    · exact hs.unused tx' c' hbefore hrank' a hold hsame
  case disabled =>
    intro hdisabled
    rw [(hs.disabled hdisabled).1] at hpending
    cases hpending

theorem Happens.traced (h : Happens d s e s' reply) (hexclusive : s.Exclusive)
    (hprepared : s.Prepared d) (hs : s.Traced d) : s'.Traced d := by
  cases h with
  | idle | refused => exact hs
  | ticked | swept => exact ⟨hs.kept, hs.known, hs.distinct, hs.unused, hs.disabled⟩
  | operated call hother =>
      refine ⟨fun a ha => ?_, fun id hid => ?_, hs.distinct, hs.unused, hs.disabled⟩
      · obtain ⟨j, hj, hmade⟩ := hs.kept a ha
        obtain ⟨j', hj', hsame⟩ := operation_after (d := d) call hj
        exact ⟨j', hj', hmade.of_request hsame⟩
      · exact hs.known id (mem_of_operation hother hid)
  | began tx call henabled =>
      refine ⟨hs.kept, hs.known, hs.distinct, fun tx' c' hpending' hrank' => ?_, fun hdis => ?_⟩
      · rcases Table.lookup_of_insert hpending' with ⟨_, rfl⟩ | ⟨_, hbefore⟩
        · exact absurd hrank' (by simp [Phase.rank])
        · exact hs.unused tx' c' hbefore hrank'
      · rw [henabled] at hdis
        cases hdis
  | entered tx app lag c phase hpending henters =>
      refine ⟨hs.kept, hs.known, hs.distinct, fun tx' c' hpending' hrank' => ?_, fun hdis => ?_⟩
      · rcases Table.lookup_of_insert hpending' with ⟨_, rfl⟩ | ⟨_, hbefore⟩
        · have hunused := hs.unused_enter hpending henters hrank'
          exact hunused
        · exact hs.unused tx' c' hbefore hrank'
      · rw [(hs.disabled hdis).1] at hpending
        cases hpending
  | answered tx | aborted tx =>
      refine ⟨hs.kept, hs.known, hs.distinct, fun tx' c' hpending' => ?_, fun hdis => ?_⟩
      · exact hs.unused tx' c' (Table.lookup_of_erase hpending').2
      · obtain ⟨hempty, hnone⟩ := hs.disabled hdis
        exact ⟨by rw [hempty]; rfl, hnone⟩
  | committed tx app lag c job window writes hpending hphase =>
      exact hs.commit hexclusive hprepared hpending hphase

theorem traced_run (d : Deployment) (events : List Event) :
    (Replicas.run d events).Exclusive ∧ (Replicas.run d events).Prepared d ∧
      (Replicas.run d events).Traced d :=
  Replicas.run_invariant (P := fun s => s.Exclusive ∧ s.Prepared d ∧ s.Traced d)
    ⟨Locks.exclusive_empty, prepared_run d [],
      ⟨fun _ ha => (by cases ha), fun _ hid => (by cases hid), List.Pairwise.nil,
        fun _ _ hnone => (by cases hnone), fun _ => ⟨rfl, rfl⟩⟩⟩
    (fun _ _ _ _ h hs => ⟨h.exclusive hs.1, h.prepared hs.1 hs.2.1, h.traced hs.1 hs.2.1 hs.2.2⟩)
    events

/-! ### Answers -/

/-- A new execution has one event, which no cap pushes out, and one intent. -/
theorem adds_commit (hprepared : s.Prepared d) (hpending : s.pending.lookup tx = some c)
    (hphase : c.phase = .inserted job window writes) :
    Adds s (s.commit tx c.call job window writes) c.call := by
  obtain ⟨hnew, t, versionId, round, hjob⟩ := hprepared hpending hphase
  have hmade := madeBy_inserted hjob
  have hsize := hjob.recordable.size
  have hkept : job.events = [JobStore.nextEvent t (newRow d t c.call versionId round)
      (.executionStatus .queued none)] := by
    rw [hjob.result, newJob]
    generalize JobStore.nextEvent t (newRow d t c.call versionId round)
      (.executionStatus .queued none) = first at hsize
    have hbytes : ¬ (replayRows ≤ 0 ∨ replayBytes < 0 + first.bytes) := by
      simp only [replayRows, replayBytes]
      omega
    have hoverflow : overflow 0 0 [first] = [] := by
      rw [overflow, Retention.overflow, if_neg hbytes, Retention.overflow]
    simp [Job.record, Job.discard, hoverflow]
  refine ⟨hnew, ⟨window, rfl⟩, job, _, ⟨.executionCreated, 0, t.now, none, none, none, t.now, 0⟩,
    rfl, hmade.id, hmade.userId, hmade.key, ?_, hkept, rfl, rfl, ?_, rfl, rfl⟩
  · rw [hjob.result]
    rfl
  · rw [hjob.result]
    rfl

/-- What an event tells the caller of a creation. -/
theorem Happens.settled (hsha : Function.Injective d.sha256) (hprepared : s.Prepared d)
    (hs : s.Traced d) {result : Except Error ExecutionReceipt}
    (h : Happens d s e s' (some (call, result))) : Settled s s' call result := by
  cases h with
  | refused tx _ error hdisabled =>
      refine ⟨fun a ha => ?_, fun _ => .inl ⟨error, rfl, rfl, rfl⟩⟩
      rw [(hs.disabled hdisabled).2] at ha
      cases ha
  | answered tx app lag c _ hpending hanswers =>
      cases hanswers with
      | retried previous hphase hfound hhash =>
          refine ⟨fun a ha hsame => ⟨rfl, rfl, fun _ => ?_, fun hdiffer => ?_⟩, fun hnone => ?_⟩
          · obtain ⟨j, hprevious, hj, hmade⟩ := hs.previous ha hsame
            rw [hfound] at hprevious
            cases hprevious
            exact ⟨_, hj, by rw [hmade.id]⟩
          · obtain ⟨j, hprevious, _, hmade⟩ := hs.previous ha hsame
            rw [hfound] at hprevious
            cases hprevious
            rw [hmade.hash] at hhash
            exact absurd ((payloadHash_eq_iff hsha _ _).1 hhash) hdiffer
          · obtain ⟨a, ha, hsame⟩ := hs.first hfound
            exact absurd hsame (hnone a ha)
      | conflict previous hphase hfound hhash =>
          refine ⟨fun a ha hsame => ⟨rfl, rfl, fun hequal => ?_, fun _ => rfl⟩,
            fun _ => .inl ⟨_, rfl, rfl, rfl⟩⟩
          obtain ⟨j, hprevious, _, hmade⟩ := hs.previous ha hsame
          rw [hfound] at hprevious
          cases hprevious
          rw [hmade.hash] at hhash
          exact absurd ((payloadHash_eq_iff hsha _ _).2 hequal) hhash
      | failed error hrank =>
          refine ⟨fun a ha hsame => ?_, fun _ => .inl ⟨error, rfl, rfl, rfl⟩⟩
          exact absurd hsame (hs.unused tx c hpending hrank a ha)
  | committed tx app lag c job window writes hpending hphase =>
      refine ⟨fun a ha hsame => ?_, fun _ => .inr ⟨rfl, adds_commit hprepared hpending hphase⟩⟩
      exact absurd hsame (hs.unused tx c hpending (by simp [hphase, Phase.rank]) a ha)

/-- The statements of a creation. -/
def Event.isCreation : Event → Bool
  | .begin _ _ | .advance _ _ _ | .abort _ => true
  | _ => false

/-- Before its answer a creation changes nothing that others can see. -/
theorem Happens.silent (h : Happens d s e s' none) (hcreation : e.isCreation = true) :
    s'.store = s.store ∧ s'.admitted = s.admitted := by
  cases h <;> first | exact ⟨rfl, rfl⟩ | cases hcreation

/-- In every run, executions and committed creations correspond one to one,
    with at most one for each user and key. From every state reached, the next
    event answers a call whose key was used with the execution of the first
    call and its present state if all five fields agree, and with a conflict
    otherwise, and changes nothing; a call with a new key either fails and
    changes nothing, or adds one execution with its first event and intent.
    Statements that do not end a creation change nothing. -/
theorem create_idempotent (d : Deployment) (hsha : Function.Injective d.sha256)
    (events : List Event) (e : Event) :
    (Replicas.run d events).OnePerKey ∧
    (∀ call result, ((Replicas.run d events).step d e).2 = some (call, result) →
      Settled (Replicas.run d events) ((Replicas.run d events).step d e).1 call result) ∧
    (e.isCreation = true → ((Replicas.run d events).step d e).2 = none →
      ((Replicas.run d events).step d e).1.store = (Replicas.run d events).store ∧
        ((Replicas.run d events).step d e).1.admitted = (Replicas.run d events).admitted) := by
  obtain ⟨_, hprepared, htraced⟩ := traced_run d events
  have hhappens := (Replicas.run d events).step_happens d e
  refine ⟨⟨htraced.distinct, fun a ha => ?_, htraced.known⟩, fun call result hreply => ?_,
    fun hcreation hreply => ?_⟩
  · obtain ⟨j, hj, hmade⟩ := htraced.kept a ha
    exact ⟨j, hj, hmade.id, hmade.userId, hmade.key⟩
  · rw [hreply] at hhappens
    exact hhappens.settled hsha hprepared htraced
  · rw [hreply] at hhappens
    exact hhappens.silent hcreation

namespace Sample

/-- A creation commits, and the first statement of a retry has run. -/
def retried : List Event :=
  creation 0 (request execution "key") 0 ++ [.begin 1 (request token "key"), .advance 1 0 0]

end Sample

/-- The next statement of the retry answers with the execution. -/
theorem create_idempotent_retry :
    ∃ call receipt,
      ((Replicas.run Sample.deployment Sample.retried).step Sample.deployment
        (.advance 1 0 0)).2 = some (call, .ok receipt) ∧
      receipt.executionId = Sample.execution ∧
      Settled (Replicas.run Sample.deployment Sample.retried)
        ((Replicas.run Sample.deployment Sample.retried).step Sample.deployment
          (.advance 1 0 0)).1 call (.ok receipt) := by
  have hreply : (((Replicas.run Sample.deployment Sample.retried).step Sample.deployment
      (.advance 1 0 0)).2.bind fun r => r.2.toOption).map ExecutionReceipt.executionId
        = some Sample.execution := by
    decide +kernel
  obtain ⟨receipt, hbind, hid⟩ := Option.map_eq_some_iff.1 hreply
  obtain ⟨⟨call, result⟩, hstep, hok⟩ := Option.bind_eq_some_iff.1 hbind
  cases result with
  | error => cases hok
  | ok receipt' =>
      cases hok
      exact ⟨call, _, hstep, hid,
        (create_idempotent Sample.deployment (fun _ _ h => h) _ _).2.1 call _ hstep⟩

end ArenaCore
