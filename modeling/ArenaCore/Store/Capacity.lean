import ArenaCore.Store.Replicas

/-!
# Capacity

The limits on active executions, per user and in total. Both are checked the
same way: a creation takes a lock, counts the committed rows, and keeps the
lock until its own row is committed. Nothing else adds a row, nothing turns an
ended execution active again, and another creation that would add a row to the
same count needs the same lock. So the count that was below the limit when it
was taken is still below it at the commit.

The argument is made once, for a `Cap` with its count, its lock and the phase
at which it is checked.

## Main definitions

* `Cap`, `Cap.Sound`: A limit and what its proof needs to know.
* `userCap`, `globalCap`: The two limits.

## Theorems

* `cap_run`: A sound cap holds in every run.
* `active_jobs_capped`: Both caps hold in every state of every run.
-/

namespace ArenaCore

open Executions

variable {job : Job}

/-- A limit on the number of active executions of some kind. -/
structure Cap where
  /-- The creations whose execution counts. -/
  applies : CreateCall → Bool
  counts : Execution → Bool
  limit : Nat
  /-- Held by a creation that applies from before the check to its end. -/
  lock : Lock
  /-- The first phase after the check. -/
  rank : Nat

/-- The committed executions that count. -/
def Cap.active (cap : Cap) (s : Replicas) : Nat :=
  activeJobs s.store.jobs cap.counts

/-- What the two limits have in common. -/
structure Cap.Sound (d : Deployment) (cap : Cap) : Prop where
  request : ∀ row row' : Execution, row'.request = row.request → cap.counts row' = cap.counts row
  own : ∀ t call versionId round,
    cap.counts (newRow d t call versionId round) = true → cap.applies call = true
  late : cap.rank ≤ 9
  held : ∀ c : Creation, cap.applies c.call = true → cap.rank ≤ c.phase.rank →
    c.holds cap.lock = true
  checked : ∀ {t s call before after}, Enters d t s call before after → cap.applies call = true →
    before.rank < cap.rank → cap.rank ≤ after.rank →
    activeJobs s.store.jobs cap.counts < cap.limit

/-- The count is within the limit, and below it while a creation that has
    passed the check is pending. -/
structure Cap.Holds (cap : Cap) (s : Replicas) : Prop where
  within : cap.active s ≤ cap.limit
  room : ∀ ⦃tx c⦄, s.pending.lookup tx = some c → cap.applies c.call = true →
    cap.rank ≤ c.phase.rank → cap.active s < cap.limit

/-! ### Counting -/

theorem activeJobs_eq_count (jobs : Table Uuid Job) (counts : Execution → Bool) :
    activeJobs jobs counts
      = Table.count (fun j => activeStates.contains j.row.state && counts j.row) jobs := rfl

theorem active_iff (state : ExecutionState) :
    activeStates.contains state = true ↔ isTerminal state = false := by
  cases state <;> decide

/-- Other operations make no execution active. -/
theorem activeJobs_operation {d : Deployment} {s : Store} {call : Call}
    (hother : call.op.isCreate = false) {counts : Execution → Bool}
    (hrequest : ∀ row row' : Execution, row'.request = row.request → counts row' = counts row) :
    activeJobs (step d s call).1.jobs counts ≤ activeJobs s.jobs counts := by
  rw [activeJobs_eq_count, activeJobs_eq_count]
  refine Table.count_le fun id j' hj' hcounted => ?_
  obtain ⟨j, hj, hsame, hopen⟩ := operation_before hother hj'
  rw [Bool.and_eq_true, active_iff] at hcounted
  refine ⟨j, hj, ?_⟩
  rw [Bool.and_eq_true, active_iff, ← hrequest _ _ hsame]
  exact ⟨hopen hcounted.1, hcounted.2⟩

/-- A commit adds the new execution to the counts it belongs to. -/
theorem activeJobs_insert {jobs : Table Uuid Job} {id : Uuid} (hnew : id ∉ jobs) (job : Job)
    (counts : Execution → Bool) :
    activeJobs (jobs.insert id job) counts
      ≤ activeJobs jobs counts + if counts job.row = true then 1 else 0 := by
  rw [activeJobs_eq_count, activeJobs_eq_count, Table.count_insert hnew]
  cases counts job.row <;> cases activeStates.contains job.row.state <;> simp

/-! ### One cap -/

variable {d : Deployment} {cap : Cap} {s s' : Replicas} {e : Event} {reply : Option Reply}

/-- The row of a new job counts as the row it was made of. -/
theorem Cap.Sound.own_inserted (hcap : cap.Sound d) {t : Moment} {call : CreateCall}
    {versionId : Uuid} {round : Option Uuid}
    (hjob : Inserted d t (newRow d t call versionId round) job)
    (hcounts : cap.counts job.row = true) : cap.applies call = true := by
  refine hcap.own t call versionId round ?_
  rw [← hcounts, hjob.result]
  exact hcap.request _ _ rfl

/-- A commit fills at most the room its creation has kept. -/
theorem Cap.Holds.commit (hcap : cap.Sound d) (hs : cap.Holds s) (hexclusive : s.Exclusive)
    (hprepared : s.Prepared d) {tx : Nat} {c : Creation} {window : Nat}
    {writes : List (String × RateCounter)} (hpending : s.pending.lookup tx = some c)
    (hphase : c.phase = .inserted job window writes) :
    cap.Holds (s.commit tx c.call job window writes) := by
  obtain ⟨hnew, t, versionId, round, hjob⟩ := hprepared hpending hphase
  have hrank : cap.rank ≤ c.phase.rank := by
    rw [hphase]
    exact hcap.late
  have hcount : cap.active (s.commit tx c.call job window writes)
      ≤ cap.active s + if cap.counts job.row = true then 1 else 0 :=
    activeJobs_insert hnew job cap.counts
  by_cases hcounts : cap.counts job.row = true
  · -- The creation applies, so it has the lock to itself.
    have happlies := hcap.own_inserted hjob hcounts
    have hroom := hs.room hpending happlies hrank
    rw [if_pos hcounts] at hcount
    refine ⟨by omega, fun tx' c' hpending' happlies' hrank' => ?_⟩
    obtain ⟨hne, hbefore⟩ := Table.lookup_of_erase hpending'
    exact absurd (hexclusive hbefore hpending (hcap.held c' happlies' hrank')
      (hcap.held c happlies hrank)) hne
  · rw [if_neg hcounts, Nat.add_zero] at hcount
    refine ⟨hcount.trans hs.within, fun tx' c' hpending' happlies' hrank' => ?_⟩
    exact lt_of_le_of_lt hcount (hs.room (Table.lookup_of_erase hpending').2 happlies' hrank')

theorem Cap.Holds.step (hcap : cap.Sound d) (hs : cap.Holds s) (hexclusive : s.Exclusive)
    (hprepared : s.Prepared d) (h : Happens d s e s' reply) : cap.Holds s' := by
  cases h with
  | idle | refused => exact hs
  | ticked | swept => exact ⟨hs.within, hs.room⟩
  | operated call hother =>
      have hcount := activeJobs_operation (d := d) (s := s.store) hother hcap.request
      exact ⟨hcount.trans hs.within, fun tx c hpending happlies hrank =>
        lt_of_le_of_lt hcount (hs.room hpending happlies hrank)⟩
  | began tx call =>
      refine ⟨hs.within, fun tx' c' hpending' happlies' hrank' => ?_⟩
      rcases Table.lookup_of_insert hpending' with ⟨_, rfl⟩ | ⟨_, hbefore⟩
      · -- Nothing is checked yet, unless nothing has to be.
        have hheld := hcap.held _ happlies' hrank'
        exfalso
        revert hheld
        cases cap.lock <;> simp [Creation.holds, Phase.rank]
      · exact hs.room hbefore happlies' hrank'
  | entered tx app lag c phase hpending henters =>
      refine ⟨hs.within, fun tx' c' hpending' happlies' hrank' => ?_⟩
      rcases Table.lookup_of_insert hpending' with ⟨_, rfl⟩ | ⟨_, hbefore⟩
      · by_cases hpassed : cap.rank ≤ c.phase.rank
        · exact hs.room hpending happlies' hpassed
        · have hchecked := hcap.checked henters happlies' (not_le.1 hpassed) hrank'
          exact hchecked
      · exact hs.room hbefore happlies' hrank'
  | answered | aborted =>
      exact ⟨hs.within, fun tx c hpending => hs.room (Table.lookup_of_erase hpending).2⟩
  | committed tx app lag c job window writes hpending hphase =>
      exact hs.commit hcap hexclusive hprepared hpending hphase

theorem cap_run (hcap : cap.Sound d) (events : List Event) : cap.Holds (Replicas.run d events) := by
  have hall : (Replicas.run d events).Exclusive ∧ (Replicas.run d events).Prepared d ∧
      cap.Holds (Replicas.run d events) :=
    Replicas.run_invariant (P := fun s => s.Exclusive ∧ s.Prepared d ∧ cap.Holds s)
      ⟨Locks.exclusive_empty, prepared_run d [], Nat.zero_le _, fun _ _ hnone => by cases hnone⟩
      (fun _ _ _ _ h hs => ⟨h.exclusive hs.1, h.prepared hs.1 hs.2.1,
        hs.2.2.step hcap hs.1 hs.2.1 h⟩) events
  exact hall.2.2

/-! ### Both caps -/

def userCap (d : Deployment) (userId : Uuid) : Cap where
  applies call := call.userId == userId
  counts row := row.userId == userId
  limit := d.config.maxActiveJobsPerUser
  lock := .owner userId
  rank := 3

def globalCap (d : Deployment) : Cap where
  applies _ := true
  counts _ := true
  limit := d.config.maxActiveJobsGlobal
  lock := .admission
  rank := 7

theorem userCap_sound (d : Deployment) (userId : Uuid) : (userCap d userId).Sound d where
  request row row' h := by
    have hsame : row'.userId = row.userId := congrArg RequestColumns.userId h
    simp only [userCap, hsame]
  own _ _ _ _ h := h
  late := by simp [userCap]
  held c happlies hrank := by
    simp only [userCap, beq_iff_eq] at happlies hrank
    simp only [userCap, Creation.holds, Bool.and_eq_true, decide_eq_true_eq]
    exact ⟨by omega, happlies⟩
  checked henters happlies hbefore hafter := by
    simp only [userCap, beq_iff_eq] at happlies
    subst happlies
    cases henters <;> simp_all [userCap, Phase.rank]

theorem globalCap_sound (d : Deployment) : (globalCap d).Sound d where
  request _ _ _ := rfl
  own _ _ _ _ _ := rfl
  late := by simp [globalCap]
  held c _ hrank := by
    simp only [globalCap] at hrank
    simp only [globalCap, Creation.holds, decide_eq_true_eq]
    omega
  checked henters _ hbefore hafter := by
    cases henters <;> simp_all [globalCap, Phase.rank]

/-- In every state of every run from empty tables, whatever statements of
    creations, operations, maintenance and failures it is made of, each user
    has at most as many queued, compiling or running executions as allowed,
    and so have all users together. -/
theorem active_jobs_capped (d : Deployment) (events : List Event) :
    (∀ userId, activeJobs (Replicas.run d events).store.jobs (fun row => row.userId == userId)
        ≤ d.config.maxActiveJobsPerUser) ∧
      activeJobs (Replicas.run d events).store.jobs (fun _ => true)
        ≤ d.config.maxActiveJobsGlobal :=
  ⟨fun userId => (cap_run (userCap_sound d userId) events).within,
    (cap_run (globalCap_sound d) events).within⟩

end ArenaCore
