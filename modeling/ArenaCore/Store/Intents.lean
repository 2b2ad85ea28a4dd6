import ArenaCore.Store.Outcome

/-!
# The Outbox of an Execution

What the intents of an execution say about its row. The dispatch intent of
creation is there from the first transaction on and never leaves. A recovery
intent belongs to an attempt that was started. The intents that close an
execution exist only once it is terminal, which is why a queued row can always
be cancelled or expired: their unique key is free.

Only the keys matter here. The delivery columns of an intent come and go with
the dispatcher.

## Main definitions

* `intentKeys`: The unique keys of an execution's intents.
* `OutboxInv`: The intents against the row.

## Theorems

* `outbox_invariant`, `outbox_run`: The outbox invariant along every run.
* `closing_fresh`: An open row has no closing intent yet.
-/

namespace ArenaCore

open JobStore

variable {j j' : Job} {t : Moment} {d : Deployment}

/-- The unique keys of an execution's intents. -/
def intentKeys (j : Job) : List (OutboxKind × Nat) :=
  j.outbox.map OutboxEvent.key

/-- The intents of an execution, against its row. -/
structure OutboxInv (j : Job) : Prop where
  created : (.executionCreated, 0) ∈ intentKeys j
  unique : (intentKeys j).Nodup
  recovery : ∀ g, (.executionRecovery, g) ∈ intentKeys j → 1 ≤ g ∧ g ≤ j.row.attempt
  closing : ∀ g, (.executionCancelled, g) ∈ intentKeys j ∨ (.executionExpired, g) ∈ intentKeys j →
    isTerminal j.row.state = true

/-- A change that keeps the keys and the attempt, and never reopens a row. -/
theorem OutboxInv.same (h : OutboxInv j) (hkeys : intentKeys j' = intentKeys j)
    (hatt : j.row.attempt ≤ j'.row.attempt)
    (hterm : isTerminal j.row.state = true → isTerminal j'.row.state = true) : OutboxInv j' := by
  constructor
  · rw [hkeys]; exact h.created
  · rw [hkeys]; exact h.unique
  · intro g hg
    rw [hkeys] at hg
    exact ⟨(h.recovery g hg).1, Nat.le_trans (h.recovery g hg).2 hatt⟩
  · intro g hg
    rw [hkeys] at hg
    exact hterm (h.closing g hg)

theorem OutboxInv.intents {clock : Nat} {outbox : List OutboxEvent} (h : OutboxInv j)
    (hrow : RowInv clock j.row) (change : Intents j outbox) :
    OutboxInv { j with outbox := outbox } := by
  cases change with
  | kept keys => exact h.same keys (Nat.le_refl _) id
  | @recovery o key active fresh =>
      have hkeys : intentKeys { j with outbox := o :: j.outbox }
          = (.executionRecovery, j.row.attempt) :: intentKeys j := by
        rw [intentKeys, List.map_cons, key]; rfl
      rw [key] at fresh
      constructor
      · rw [hkeys]; exact List.mem_cons_of_mem _ h.created
      · rw [hkeys]; exact List.nodup_cons.mpr ⟨fresh, h.unique⟩
      · intro g hg
        rw [hkeys] at hg
        rcases List.mem_cons.mp hg with hnew | hold
        · cases hnew
          exact ⟨(hrow.leased active).1, Nat.le_refl _⟩
        · exact h.recovery g hold
      · intro g hg
        rw [hkeys] at hg
        simp only [List.mem_cons, Prod.mk.injEq, reduceCtorEq, false_and, false_or] at hg
        exact h.closing g hg
  | @closing o key terminal fresh =>
      have hkeys : intentKeys { j with outbox := o :: j.outbox } = o.key :: intentKeys j := rfl
      constructor
      · rw [hkeys]; exact List.mem_cons_of_mem _ h.created
      · rw [hkeys]; exact List.nodup_cons.mpr ⟨fresh, h.unique⟩
      · intro g hg
        rw [hkeys] at hg
        rcases List.mem_cons.mp hg with hnew | hold
        · rcases key with hk | hk <;> rw [hk] at hnew <;> cases hnew
        · exact h.recovery g hold
      · exact fun _ _ => terminal

theorem JobStore.Quiet.outboxInv {op : Op} (step : Quiet d t op j j') (hrow : RowInv t.now j.row)
    (h : OutboxInv j) : OutboxInv j' := by
  have hterm : isTerminal j.row.state = true → isTerminal j'.row.state = true := fun hterm => by
    rw [(step.frozen hterm).1]
    exact hterm
  have hatt := Nat.le_of_eq step.attempt.symm
  cases step with
  | intents outbox change => exact h.intents hrow change
  | renewed | started | printed | requested | finished | ended | expired | yielded | swept =>
      exact h.same rfl hatt hterm

theorem Created.outboxInv {id : Uuid} (new : Created d t id j) : OutboxInv j := by
  rcases new with ⟨call, versionId, round, _, _, ⟨_, _, rfl⟩⟩
  have hkeys : intentKeys (newJob t (Executions.newRow d t call versionId round))
      = [(.executionCreated, 0)] := rfl
  constructor <;> rw [hkeys] <;> simp

theorem JobStore.Grant.outboxInv {token : Uuid} (grant : Grant t token j j') (h : OutboxInv j) :
    OutboxInv j' := by
  rw [grant.result]
  refine h.same (by simp only [intentKeys, Job.record_outbox]) (Nat.le_succ _) fun hterm => ?_
  rw [grant.claimable.nonterminal] at hterm
  cases hterm

theorem outbox_invariant (d : Deployment) :
    JobInvariant d fun _ clock j => RowInv clock j.row ∧ OutboxInv j where
  later hle h := ⟨h.1.later hle, h.2⟩
  created new := ⟨new.rowInv, new.outboxInv⟩
  granted grant h := ⟨grant.rowInv h.1, grant.outboxInv h.2⟩
  quiet step h := ⟨step.rowInv h.1, step.outboxInv h.1 h.2⟩

/-- The outbox invariant holds of every job of every run. -/
theorem outbox_run (d : Deployment) (calls : List Call) (id : Uuid) (j : Job)
    (hj : (Store.run d calls).jobs.lookup id = some j) : OutboxInv j :=
  ((outbox_invariant d).run calls id j hj).2

/-- An open row has no closing intent yet. -/
theorem OutboxInv.closing_fresh (h : OutboxInv j) (hopen : isTerminal j.row.state = false)
    {key : OutboxKind × Nat} (hkey : key = (.executionCancelled, 0) ∨ key = (.executionExpired, 0)) :
    key ∉ intentKeys j := by
  intro hmem
  have hterm : isTerminal j.row.state = true := by
    rcases hkey with rfl | rfl
    · exact h.closing 0 (Or.inl hmem)
    · exact h.closing 0 (Or.inr hmem)
  rw [hopen] at hterm
  cases hterm

end ArenaCore
