import Mathlib.Data.List.Basic

/-!
# Runs of a Deterministic Machine

A machine reads one input at a time, moves to a new state and returns an
output. Every nondeterministic choice an environment makes (who calls next,
with which arguments, at what time) is part of the input, so quantifying over
input lists is quantifying over all schedules.

An invariant is proved once per step and carried along the run by
`run_induction`. Properties that mention the past are stated over a run split
in two: the prefix gives the state the later inputs start from, and
`run_append` connects the halves.

## Main definitions

* `run`: The state after a list of inputs.
* `Along`: Every step of a run meets a condition on its state and input.
* `Occurs`: Some step of a run does.

## Theorems

* `run_induction`: An invariant of the step is an invariant of every run.
* `run_induction_along`: An invariant of the steps that meet a condition.
* `run_related`: A relation between two machines reading related inputs.
-/

namespace Runs

variable {σ ι ο : Type} {P : σ → Prop} {Q : σ → ι → Prop} {s : σ} {inputs : List ι}

/-- The state after reading the inputs in order. -/
def run (step : σ → ι → σ × ο) (s : σ) (inputs : List ι) : σ :=
  inputs.foldl (fun s i => (step s i).1) s

/-- The outputs of the steps, in order. -/
def outputs (step : σ → ι → σ × ο) : σ → List ι → List ο
  | _, [] => []
  | s, i :: rest => (step s i).2 :: outputs step (step s i).1 rest

variable (step : σ → ι → σ × ο)

@[simp] theorem run_nil (s : σ) : run step s [] = s := rfl

@[simp] theorem run_cons (s : σ) (i : ι) (rest : List ι) :
    run step s (i :: rest) = run step (step s i).1 rest := rfl

theorem run_append (s : σ) (first second : List ι) :
    run step s (first ++ second) = run step (run step s first) second := by
  simp only [run, List.foldl_append]

theorem outputs_append (s : σ) (first second : List ι) :
    outputs step s (first ++ second)
      = outputs step s first ++ outputs step (run step s first) second := by
  induction first generalizing s with
  | nil => rfl
  | cons i rest ih =>
      simp only [List.cons_append, outputs, run_cons]
      rw [ih]

/-- An invariant preserved by every step holds after every run. -/
theorem run_induction (hstep : ∀ s i, P s → P (step s i).1) (s : σ) (hs : P s) (inputs : List ι) :
    P (run step s inputs) := by
  induction inputs generalizing s with
  | nil => exact hs
  | cons i rest ih => exact ih (step s i).1 (hstep s i hs)

/-- A relation between the state and the outputs so far, kept by every step
    that adds its own output, is kept by every run. -/
theorem run_outputs_induction {P : σ → List ο → Prop}
    (hstep : ∀ s outs i, P s outs → P (step s i).1 (outs ++ [(step s i).2])) (inputs : List ι) :
    ∀ s outs, P s outs → P (run step s inputs) (outs ++ outputs step s inputs) := by
  induction inputs with
  | nil =>
      intro s outs hs
      rw [outputs, List.append_nil]
      exact hs
  | cons i rest ih =>
      intro s outs hs
      have hrest := ih (step s i).1 _ (hstep s outs i hs)
      rw [List.append_assoc, List.singleton_append] at hrest
      exact hrest

/-- A relation between the state and the inputs read so far, kept by every
    step that reads one more, is kept by every run. -/
theorem run_inputs_induction {P : σ → List ι → Prop}
    (hstep : ∀ s past i, P s past → P (step s i).1 (past ++ [i])) (inputs : List ι) :
    ∀ s past, P s past → P (run step s inputs) (past ++ inputs) := by
  induction inputs with
  | nil =>
      intro s past hs
      rw [List.append_nil]
      exact hs
  | cons i rest ih =>
      intro s past hs
      have hrest := ih (step s i).1 _ (hstep s past i hs)
      rw [List.append_assoc, List.singleton_append] at hrest
      exact hrest

/-- Every input meets a condition in the state it is read in. -/
def Along (Q : σ → ι → Prop) : σ → List ι → Prop
  | _, [] => True
  | s, i :: rest => Q s i ∧ Along Q (step s i).1 rest

instance decidableAlong (Q : σ → ι → Prop) [∀ s i, Decidable (Q s i)] :
    ∀ s inputs, Decidable (Along step Q s inputs)
  | _, [] => inferInstanceAs (Decidable True)
  | s, i :: rest =>
      have := decidableAlong Q (step s i).1 rest
      inferInstanceAs (Decidable (Q s i ∧ Along step Q (step s i).1 rest))

theorem along_append (s : σ) (first second : List ι) :
    Along step Q s (first ++ second)
      ↔ Along step Q s first ∧ Along step Q (run step s first) second := by
  induction first generalizing s with
  | nil => simp only [List.nil_append, Along, run_nil, true_and]
  | cons i rest ih => simp only [List.cons_append, Along, run_cons, ih, and_assoc]

theorem along_and {Q' : σ → ι → Prop} (h : Along step Q s inputs) (h' : Along step Q' s inputs) :
    Along step (fun s i => Q s i ∧ Q' s i) s inputs := by
  induction inputs generalizing s with
  | nil => trivial
  | cons i rest ih => exact ⟨⟨h.1, h'.1⟩, ih h.2 h'.2⟩

theorem along_of_forall (h : ∀ s, ∀ i ∈ inputs, Q s i) (s : σ) : Along step Q s inputs := by
  induction inputs generalizing s with
  | nil => trivial
  | cons i rest ih =>
      exact ⟨h s i List.mem_cons_self,
        ih (fun s k hk => h s k (List.mem_cons_of_mem i hk)) (step s i).1⟩

/-- An invariant of the steps that meet a condition holds after every run
    whose steps all do. -/
theorem run_induction_along (hstep : ∀ s i, Q s i → P s → P (step s i).1) (inputs : List ι) :
    ∀ s, Along step Q s inputs → P s → P (run step s inputs) := by
  induction inputs with
  | nil => intro s _ hs; exact hs
  | cons i rest ih =>
      rintro s ⟨hi, hrest⟩ hs
      exact ih (step s i).1 hrest (hstep s i hi hs)

/-- Some input meets a condition in the state it is read in. -/
def Occurs (Q : σ → ι → Prop) (s : σ) (inputs : List ι) : Prop :=
  ∃ before i after, inputs = before ++ i :: after ∧ Q (run step s before) i

theorem not_occurs_nil : ¬ Occurs step Q s [] := by
  rintro ⟨before, i, after, h, _⟩
  cases before <;> cases h

theorem occurs_concat {past : List ι} {i : ι} :
    Occurs step Q s (past ++ [i]) ↔ Occurs step Q s past ∨ Q (run step s past) i := by
  constructor
  · rintro ⟨before, k, after, h, hQ⟩
    -- the input is the last one or stands before it
    rcases List.eq_nil_or_concat after with rfl | ⟨after, last, rfl⟩
    · obtain ⟨rfl, hlast⟩ := List.append_inj' h rfl
      cases hlast
      exact .inr hQ
    · rw [List.concat_eq_append, ← List.cons_append, ← List.append_assoc] at h
      exact .inl ⟨before, k, after, (List.append_inj' h rfl).1, hQ⟩
  · rintro (⟨before, k, after, rfl, hQ⟩ | hQ)
    · exact ⟨before, k, after ++ [i], by rw [List.append_assoc]; rfl, hQ⟩
    · exact ⟨past, i, [], rfl, hQ⟩

/-- A relation between the states of two machines, kept by every pair of steps
    on related inputs, is kept by every pair of runs. -/
theorem run_related {σ' ι' ο' : Type} (step' : σ' → ι' → σ' × ο') {P : σ → σ' → Prop}
    {Q : ι → ι' → Prop} (hstep : ∀ s s' i i', Q i i' → P s s' → P (step s i).1 (step' s' i').1)
    {inputs' : List ι'} (h : List.Forall₂ Q inputs inputs') :
    ∀ s s', P s s' → P (run step s inputs) (run step' s' inputs') := by
  induction h with
  | nil => intro s s' hs; exact hs
  | cons hhead _ ih =>
      intro s s' hs
      exact ih _ _ (hstep s s' _ _ hhead hs)

end Runs
