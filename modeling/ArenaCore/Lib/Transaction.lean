import Mathlib.Tactic.Common

/-!
# Transactions

A database transaction computes on a private copy of the state and either
commits that copy or throws, in which case nothing it wrote is kept. The body
is an `Except` computation ending in the result and the new copy; `settle`
is what the database makes of it.

Bodies are sequences of writes, each of which can fail. `bind_eq_ok` and
`bind_eq_error` take such a sequence apart one write at a time, so that no
proof about a body has to unfold the monad.

## Main definitions

* `settle`: Commit a successful body, roll back a failed one.

## Theorems

* `bind_eq_ok`: A sequence succeeds when both halves do.
* `foldlM_induction`: An invariant of a loop.
* `bind_corresponds`, `map_corresponds`, `ite_corresponds`: Corresponding parts
  make corresponding sequences, results and choices.
* `settle_corresponds`: Corresponding bodies leave corresponding states behind.
-/

namespace Transaction

variable {ε α β σ : Type} {x : Except ε α} {f : α → Except ε β} {α' : Type} {x' : Except ε α'}
  {φ : α → α'}

/-- Commit the new state of a successful body; keep the old one otherwise. -/
def settle (s : σ) : Except ε (α × σ) → σ × Except ε α
  | .ok (a, s') => (s', .ok a)
  | .error e => (s, .error e)

@[simp] theorem settle_ok (s s' : σ) (a : α) :
    settle s (.ok (a, s') : Except ε (α × σ)) = (s', .ok a) := rfl

@[simp] theorem settle_error (s : σ) (e : ε) :
    settle s (.error e : Except ε (α × σ)) = (s, .error e) := rfl

theorem bind_eq_ok {b : β} : (x >>= f) = .ok b ↔ ∃ a, x = .ok a ∧ f a = .ok b := by
  cases x with
  | error e =>
      constructor
      · intro h; cases h
      · rintro ⟨a, ha, _⟩; cases ha
  | ok a =>
      constructor
      · intro h; exact ⟨a, rfl, h⟩
      · rintro ⟨a', ha, hf⟩
        cases ha
        exact hf

theorem bind_eq_error {e : ε} :
    (x >>= f) = .error e ↔ x = .error e ∨ ∃ a, x = .ok a ∧ f a = .error e := by
  cases x with
  | error e' =>
      constructor
      · intro h; cases h; exact Or.inl rfl
      · rintro (h | ⟨a, ha, _⟩)
        · cases h; rfl
        · cases ha
  | ok a =>
      constructor
      · intro h; exact Or.inr ⟨a, rfl, h⟩
      · rintro (h | ⟨a', ha, hf⟩)
        · cases h
        · cases ha
          exact hf

theorem map_eq_ok {f : α → β} {b : β} : x.map f = .ok b ↔ ∃ a, x = .ok a ∧ f a = b := by
  cases x with
  | error e =>
      constructor
      · intro h; cases h
      · rintro ⟨a, ha, _⟩; cases ha
  | ok a =>
      constructor
      · intro h; cases h; exact ⟨a, rfl, rfl⟩
      · rintro ⟨a', ha, rfl⟩; cases ha; rfl

theorem forM_eq_ok {f : α → Except ε Unit} {l : List α} :
    l.forM f = .ok () ↔ ∀ a ∈ l, f a = .ok () := by
  induction l with
  | nil => exact iff_of_true rfl fun a ha => (List.not_mem_nil ha).elim
  | cons a rest ih =>
      rw [List.forall_mem_cons, ← ih]
      refine bind_eq_ok.trans ?_
      exact ⟨fun ⟨_, ha, hrest⟩ => ⟨ha, hrest⟩, fun ⟨ha, hrest⟩ => ⟨(), ha, hrest⟩⟩

/-- What every part of a sequence keeps, the sequence keeps. -/
theorem foldlM_induction {P : σ → Prop} {f : σ → α → Except ε σ}
    (hstep : ∀ s a s', P s → f s a = .ok s' → P s') {l : List α} :
    ∀ {s s'}, P s → l.foldlM f s = .ok s' → P s' := by
  induction l with
  | nil =>
      intro s s' hs h
      cases h
      exact hs
  | cons a rest ih =>
      intro s s' hs h
      rw [List.foldlM_cons] at h
      obtain ⟨s₁, h₁, h₂⟩ := bind_eq_ok.1 h
      exact ih (hstep s a s₁ hs h₁) h₂

/-- Two sequences correspond if their first halves do, and their second halves
    do on corresponding results. -/
theorem bind_corresponds {β' : Type} {f' : α' → Except ε β'} {ψ : β → β'} (hx : x' = x.map φ)
    (hf : ∀ a, x = .ok a → f' (φ a) = (f a).map ψ) : (x' >>= f') = (x >>= f).map ψ := by
  cases x with
  | error e =>
      rw [hx]
      rfl
  | ok a =>
      rw [hx]
      exact hf a rfl

theorem map_corresponds {β' : Type} {f : α → β} {f' : α' → β'} {ψ : β → β'} (hx : x' = x.map φ)
    (hf : ∀ a, f' (φ a) = ψ (f a)) : x'.map f' = (x.map f).map ψ := by
  cases x with
  | error e =>
      rw [hx]
      rfl
  | ok a =>
      rw [hx]
      exact congrArg Except.ok (hf a)

/-- Corresponding bodies leave corresponding states behind. -/
theorem settle_corresponds {σ' : Type} {s : σ} {x : Except ε (α × σ)} {x' : Except ε (α × σ')}
    {φ : α → α} {w : σ → σ'} (hx : x' = x.map (Prod.map φ w)) :
    (settle (w s) x').1 = w (settle s x).1 := by
  cases x with
  | error e =>
      rw [hx]
      rfl
  | ok a =>
      rw [hx]
      rfl

/-- Two choices correspond if their branches do. -/
theorem ite_corresponds {p : Prop} [Decidable p] {y : Except ε α} {y' : Except ε α'}
    (hx : p → x' = x.map φ) (hy : ¬ p → y' = y.map φ) :
    (if p then x' else y') = (if p then x else y).map φ := by
  split
  · rename_i hp
    exact hx hp
  · rename_i hp
    exact hy hp

end Transaction
