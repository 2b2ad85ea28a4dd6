import ArenaCore.Store.Lifecycle

/-!
# Lease Fencing

A lease is authority over one attempt of one execution. It is handed out by
`claim`, and any number of workers may hold one they believe in: deliveries
repeat, renewals come late, a recovered attempt leaves its old worker running.
What keeps them apart is that at most one lease has authority at any instant
and that an operation called with any other changes nothing.

`Holds` says what authority is without the code's test: an active row, the
row's attempt, the row's token, an end in the future. The code also compares
with the deadline; on reachable rows that is implied, and `valid_iff_holds`
identifies the two.

The history of leases is read off the answers of a run, so it includes leases
long since replaced. `GrantHistory` ties it to the row: attempts were handed
out one by one without gaps, and the row's token is the newest lease's.

## Main definitions

* `Holds`: Authority over a row.
* `GrantHistory`: The leases handed out, against the row.
* `Op.lease?`, `Op.refused`, `Op.malformed`: The operations that need a lease,
  and how they turn a caller away.

## Theorems

* `valid_iff_holds`: The code's test decides authority.
* `grantHistory_run`: The history invariant along a run.
* `stale_refused`: An operation without authority changes nothing.
* `lease_fencing`: All three facts about every run.
-/

namespace ArenaCore

open JobStore Transaction

variable {lease : Lease} {d : Deployment} {t : Moment} {op : Op} {j : Job} {id : Uuid} {s : Store}
  {now : Nat} {j' : Job} {token : Uuid}

/-- Authority over a row at an instant. -/
structure Holds (row : Execution) (now : Nat) (lease : Lease) : Prop where
  active : row.state = .compiling ∨ row.state = .running
  attempt : row.attempt = lease.attempt
  token : row.leaseToken = some lease.token
  unexpired : ∃ e, row.leaseExpiresAt = some e ∧ now < e

/-- A lease ends by the deadline, so the code's comparison with the deadline
    decides nothing on a reachable row. -/
theorem valid_iff_holds {clock : Nat} {row : Execution} (h : RowInv clock row) :
    valid row now lease = true ↔ Holds row now lease := by
  rw [valid_iff]
  constructor
  · rintro ⟨hactive, hatt, htok, hend, _⟩
    exact ⟨hactive, hatt, htok, hend⟩
  · rintro ⟨hactive, hatt, htok, e, he, hlt⟩
    rcases (h.leased hactive).2.2 with ⟨e', he', hle⟩
    rw [he] at he'
    cases he'
    exact ⟨hactive, hatt, htok, ⟨e, he, hlt⟩, Nat.lt_of_lt_of_le hlt hle⟩

/-! ### The history of leases -/

/-- The leases a run handed out for an execution, oldest first. -/
def grants (d : Deployment) (id : Uuid) (calls : List Call) : List Lease :=
  (Runs.outputs (step d) {} calls).filterMap (grantedTo id)

/-- The leases handed out so far, against the job they are about. -/
structure GrantHistory (id : Uuid) (leases : List Lease) (job : Option Job) : Prop where
  named : ∀ lease ∈ leases, lease.executionId = id
  absent : job = none → leases = []
  attempts : ∀ j, job = some j → leases.map Lease.attempt = List.range' 1 j.row.attempt
  newest : ∀ j token, job = some j → j.row.leaseToken = some token →
    leases.getLast? = some ⟨id, j.row.attempt, token⟩

/-- A quiet effect may drop the token but never brings one. -/
theorem JobStore.Quiet.leaseToken (h : Quiet d t op j j') (htoken : j'.row.leaseToken = some token) :
    j.row.leaseToken = some token := by
  cases h with
  | finished => cases htoken
  | ended => cases htoken
  | renewed | started | printed | requested | expired | yielded | intents | swept => exact htoken

theorem JobStore.Quiets.leaseToken (h : Quiets d t op j j') :
    j'.row.leaseToken = some token → j.row.leaseToken = some token := by
  induction h with
  | refl => exact id
  | tail _ hlast ih => exact fun htoken => ih (hlast.leaseToken htoken)

/-- One call extends the history by the lease it hands out, if any. -/
theorem GrantHistory.step {leases : List Lease} {granted : Option Lease} {before after : Option Job}
    (h : GrantHistory id leases before) (effect : Effect d t op id granted before after) :
    GrantHistory id (leases ++ granted.toList) after := by
  cases effect with
  | absent =>
      simp only [Option.toList_none, List.append_nil]
      exact h
  | created _ j _ _ new =>
      rcases new with ⟨call, versionId, round, _, _, ⟨_, _, rfl⟩⟩
      simp only [Option.toList_none, List.append_nil]
      rw [h.absent rfl]
      constructor
      · intro lease hl; cases hl
      · intro hc; cases hc
      · intro j hj; cases hj; rfl
      · intro j token hj htoken
        cases hj
        cases htoken
  | granted token j j' _ grant =>
      have hatt : j'.row.attempt = j.row.attempt + 1 := by rw [grant.result]; rfl
      have htok : j'.row.leaseToken = some token := by rw [grant.result]; rfl
      simp only [Option.toList_some]
      constructor
      · intro lease hl
        rcases List.mem_append.mp hl with hold | hnew
        · exact h.named lease hold
        · rw [List.mem_singleton.mp hnew]
      · intro hc; cases hc
      · intro i hi
        cases hi
        rw [List.map_append, h.attempts j rfl, hatt, List.range'_1_concat, Nat.add_comm 1]
        rfl
      · intro i token' hi htoken
        cases hi
        rw [htok] at htoken
        cases htoken
        rw [List.getLast?_concat, hatt]
  | quiet j j' chain =>
      simp only [Option.toList_none, List.append_nil]
      constructor
      · exact h.named
      · intro hc; cases hc
      · intro i hi
        cases hi
        rw [chain.attempt]
        exact h.attempts j rfl
      · intro i token hi htoken
        cases hi
        rw [chain.attempt]
        exact h.newest j token rfl (chain.leaseToken htoken)

theorem grantHistory_run (d : Deployment) (calls : List Call) (id : Uuid) :
    GrantHistory id (grants d id calls) ((Store.run d calls).jobs.lookup id) := by
  refine Runs.run_outputs_induction (ArenaCore.step d)
    (P := fun s outs => GrantHistory id (outs.filterMap (grantedTo id)) (s.jobs.lookup id))
    ?_ calls {} [] ?_
  · intro s outs call h
    have hone : [(step d s call).2].filterMap (grantedTo id)
        = (grantedTo id (step d s call).2).toList := by
      cases hg : grantedTo id (step d s call).2 <;> simp only [List.filterMap_cons, hg] <;> rfl
    rw [List.filterMap_append, hone]
    exact h.step (step_effect d s call id)
  · exact ⟨fun _ h => (by cases h), fun _ => rfl, fun _ h => (by cases h), fun _ _ h => (by cases h)⟩

/-! ### Operations without authority -/

/-- The lease an operation is called with. -/
def Op.lease? : Op → Option Lease
  | .renew lease => some lease
  | .markRunning lease => some lease
  | .console lease _ _ _ => some lease
  | .finish lease _ => some lease
  | .fail lease _ => some lease
  | .recover lease => some lease
  | .create _ | .claim _ _ | .cancel _ _ _ | .maintain _ | .expireQueuedJobs _ => none

/-- How an operation answers a caller without authority. -/
def Op.refused : Op → Answer
  | .renew _ => .renewal .lost
  | _ => .flag false

/-- Arguments an operation throws on before it looks at the row. -/
def Op.malformed : Op → Bool
  | .console _ caseId _ text => consoleRejects caseId text
  | .finish _ result => (finishRejects result).isSome
  | _ => false

/-- An operation that returns the row as it found it leaves the store as it
    was. -/
theorem onRow_refuses {α : Type} {body : Job → Except Error (α × Job)} {a : α} (answer : α → Answer)
    (h : ∀ j, s.jobs.lookup id = some j → body j = .ok (a, j)) :
    ((onRow id (.ok a) body s.jobs).map fun (x, jobs) => (answer x, { s with jobs := jobs }))
      = .ok (answer a, s) := by
  refine map_eq_ok.mpr ⟨(a, s.jobs), onRow_eq_ok.mpr ?_, rfl⟩
  cases hl : s.jobs.lookup id with
  | none => exact Or.inl ⟨rfl, rfl, rfl⟩
  | some j => exact Or.inr ⟨j, j, rfl, h j hl, (Table.set_same hl).symm⟩

/-- The body of an operation without authority returns its refusal, or throws
    on its arguments, and leaves the store as it was. -/
theorem body_refused (hop : op.lease? = some lease)
    (hstale : ∀ j, s.jobs.lookup lease.executionId = some j → valid j.row t.now lease = false) :
    (op.malformed = true ∧ ∃ e, op.body d t s = .error e) ∨
      op.body d t s = .ok (op.refused, s) := by
  cases op with
  | renew l =>
      cases hop
      refine Or.inr (onRow_refuses Answer.renewal fun j hj => ?_)
      simp only [renew, hstale j hj, if_true]
  | markRunning l =>
      cases hop
      refine Or.inr (onRow_refuses Answer.flag fun j hj => ?_)
      simp only [markRunning, hstale j hj, true_or, if_true]
  | console l caseId stream text =>
      cases hop
      by_cases hbad : consoleRejects caseId text = true
      · exact Or.inl ⟨hbad, _, if_pos hbad⟩
      · simp only [Op.body, if_neg hbad]
        refine Or.inr (onRow_refuses Answer.flag fun j hj => ?_)
        simp only [console, hstale j hj, true_or, if_true]
  | finish l result =>
      cases hop
      cases hbad : finishRejects result with
      | some e =>
          refine Or.inl ⟨?_, e, ?_⟩
          · simp only [Op.malformed, hbad, Option.isSome_some]
          · simp only [Op.body, hbad]
      | none =>
          simp only [Op.body, hbad]
          refine Or.inr (onRow_refuses Answer.flag fun j hj => ?_)
          simp only [finish, hstale j hj, if_true]
  | fail l cleanupConfirmed =>
      cases hop
      refine Or.inr (onRow_refuses Answer.flag fun j hj => ?_)
      simp only [fail, hstale j hj, if_true]
  | recover l =>
      cases hop
      refine Or.inr (onRow_refuses Answer.flag fun j hj => ?_)
      simp only [recover, hstale j hj, if_true]
  | create | claim | cancel | maintain | expireQueuedJobs => cases hop

/-- An operation called without authority is turned away and changes nothing. -/
theorem stale_refused {call : Call} (hop : call.op.lease? = some lease)
    (hstale : ∀ j, s.jobs.lookup lease.executionId = some j →
      valid j.row (call.moment s).now lease = false) :
    ((step d s call).2 = .ok call.op.refused ∨
        (call.op.malformed = true ∧ ∃ e, (step d s call).2 = .error e)) ∧
      (step d s call).1 = { s with clock := s.clock + call.elapsed } := by
  rcases body_refused (d := d) (t := call.moment s)
    (s := { s with clock := s.clock + call.elapsed }) hop hstale with ⟨hbad, e, he⟩ | hok
  · rw [step_of_error he]
    exact ⟨Or.inr ⟨hbad, e, rfl⟩, rfl⟩
  · rw [step_of_ok hok]
    exact ⟨Or.inl rfl, rfl⟩

/-- Authority is unique: it belongs to the newest lease handed out. -/
theorem holds_newest {calls : List Call} (hj : (Store.run d calls).jobs.lookup id = some j)
    (hid : lease.executionId = id) (h : Holds j.row now lease) :
    (grants d id calls).getLast? = some lease := by
  rw [(grantHistory_run d calls id).newest j lease.token hj h.token, h.attempt, ← hid]

/-- Lease fencing. In every run: successful claims of an execution are
    numbered 1, 2, 3 in order; at any instant from the last call on, authority
    belongs to at most one of the leases handed out, and to the newest; and an
    operation called with a lease that has no authority is refused, or throws
    on malformed arguments, and leaves every row as it was. -/
theorem lease_fencing (d : Deployment) (calls : List Call) (id : Uuid) :
    ((grants d id calls).map Lease.attempt <+: [1, 2, 3]) ∧
    (∀ j now, (Store.run d calls).jobs.lookup id = some j → (Store.run d calls).clock ≤ now →
      (∀ lease ∈ grants d id calls, ∀ lease' ∈ grants d id calls,
        Holds j.row now lease → Holds j.row now lease' → lease = lease') ∧
      ∀ lease, lease.executionId = id → Holds j.row now lease →
        (grants d id calls).getLast? = some lease) ∧
    ∀ (call : Call) (lease : Lease), call.op.lease? = some lease → lease.executionId = id →
      (∀ j, (Store.run d calls).jobs.lookup id = some j →
        ¬ Holds j.row (call.moment (Store.run d calls)).now lease) →
      ((step d (Store.run d calls) call).2 = .ok call.op.refused ∨
          (call.op.malformed = true ∧ ∃ e, (step d (Store.run d calls) call).2 = .error e)) ∧
        (step d (Store.run d calls) call).1.jobs = (Store.run d calls).jobs := by
  have hhist := grantHistory_run d calls id
  refine ⟨?_, fun j now hj _ => ⟨?_, fun lease hid h => holds_newest hj hid h⟩, ?_⟩
  · -- the row counts the attempts and never counts past three
    cases hl : (Store.run d calls).jobs.lookup id with
    | none =>
        rw [hhist.absent hl]
        exact List.nil_prefix
    | some j =>
        rw [hhist.attempts j hl]
        have hle : j.row.attempt ≤ 3 := (lifecycle_run d calls id j hl).row.attempts
        refine ⟨List.range' (1 + j.row.attempt) (3 - j.row.attempt), ?_⟩
        rw [List.range'_append_1, Nat.add_sub_cancel' hle]
        rfl
  · intro lease hmem lease' hmem' h h'
    have hlast := holds_newest hj (hhist.named lease hmem) h
    rw [holds_newest hj (hhist.named lease' hmem') h'] at hlast
    exact (Option.some.inj hlast).symm
  · intro call lease hop hid hstale
    have hinvalid : ∀ j, (Store.run d calls).jobs.lookup lease.executionId = some j →
        valid j.row (call.moment (Store.run d calls)).now lease = false := by
      intro j hj
      rw [hid] at hj
      have hrow := (lifecycle_run d calls id j hj).row
      exact Bool.eq_false_iff.mpr fun hv => hstale j hj ((valid_iff_holds hrow).mp hv)
    rcases stale_refused (d := d) hop hinvalid with ⟨hanswer, hsame⟩
    exact ⟨hanswer, by rw [hsame]⟩

end ArenaCore
