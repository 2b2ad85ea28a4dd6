import ArenaCore.Lib.Table

/-!
# Exclusive Locks

Sessions that run side by side, each in a state of its own, and locks that a
session holds by being in certain states. A lock is free if no session holds
it. If sessions take only locks that are free, then no two sessions ever hold
the same one (`Exclusive`), which is what a row lock or an advisory lock of a
database gives its transactions.

## Main definitions

* `isFree`: No session holds the lock.
* `Exclusive`: No two sessions hold the same lock.

## Theorems

* `exclusive_insert`: A session may take a lock that is free.
* `exclusive_erase`: A session may end.
-/

namespace Locks

variable {κ σ ι : Type} [DecidableEq κ] (holds : σ → ι → Bool) {k : κ} {a : σ}

/-- No session holds the lock. -/
def isFree (sessions : Table κ σ) (lock : ι) : Bool :=
  sessions.entries.all fun e => !holds e.2 lock

/-- No two sessions hold the same lock. -/
def Exclusive (sessions : Table κ σ) : Prop :=
  ∀ ⦃k k' : κ⦄ ⦃a a' : σ⦄ ⦃lock : ι⦄, sessions.lookup k = some a → sessions.lookup k' = some a' →
    holds a lock = true → holds a' lock = true → k = k'

variable {holds} {sessions : Table κ σ}

theorem not_holds_of_isFree {lock : ι} (h : isFree holds sessions lock = true)
    (ha : sessions.lookup k = some a) : holds a lock = false := by
  have hentry := List.all_eq_true.1 h ⟨k, a⟩ (AList.mem_lookup_iff.1 ha)
  simpa only [Bool.not_eq_true'] using hentry

theorem exclusive_empty : Exclusive holds (∅ : Table κ σ) := by
  intro k _ _ _ _ h
  cases h

/-- A session moves to a state in which it holds nothing but locks it had and
    locks that were free. -/
theorem exclusive_insert (h : Exclusive holds sessions) (hnew : ∀ lock, holds a lock = true →
      (∃ b, sessions.lookup k = some b ∧ holds b lock = true) ∨
        isFree holds sessions lock = true) : Exclusive holds (sessions.insert k a) := by
  -- What another session holds is not taken by this one.
  have hother : ∀ {k' : κ} {a' : σ} {lock : ι}, sessions.lookup k' = some a' →
      holds a lock = true → holds a' lock = true → k = k' := by
    intro k' a' lock hlookup hheld hheld'
    rcases hnew lock hheld with ⟨b, hb, hbheld⟩ | hfree
    · exact h hb hlookup hbheld hheld'
    · rw [not_holds_of_isFree hfree hlookup] at hheld'
      cases hheld'
  intro k₁ k₂ a₁ a₂ lock h₁ h₂ hheld₁ hheld₂
  by_cases hk₁ : k₁ = k <;> by_cases hk₂ : k₂ = k
  · rw [hk₁, hk₂]
  · subst hk₁
    rw [AList.lookup_insert] at h₁
    rw [AList.lookup_insert_ne hk₂] at h₂
    cases h₁
    exact hother h₂ hheld₁ hheld₂
  · subst hk₂
    rw [AList.lookup_insert] at h₂
    rw [AList.lookup_insert_ne hk₁] at h₁
    cases h₂
    exact (hother h₁ hheld₂ hheld₁).symm
  · rw [AList.lookup_insert_ne hk₁] at h₁
    rw [AList.lookup_insert_ne hk₂] at h₂
    exact h h₁ h₂ hheld₁ hheld₂

theorem exclusive_erase (h : Exclusive holds sessions) (k : κ) :
    Exclusive holds (sessions.erase k) := by
  intro k₁ k₂ a₁ a₂ lock h₁ h₂ hheld₁ hheld₂
  exact h (Table.lookup_of_erase h₁).2 (Table.lookup_of_erase h₂).2 hheld₁ hheld₂

end Locks
