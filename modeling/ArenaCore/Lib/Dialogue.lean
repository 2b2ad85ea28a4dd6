import Mathlib.Tactic.Common

/-!
# Programs that Ask

A program that talks to the outside world: at each point it has ended, with a
value or an exception, or it asks a question and goes on with the answer.
Everything the environment decides is an answer, so a statement about all
lists of exchanges a program can have is a statement about all behaviours of
its environment.

The operations are those of a language with exceptions: sequencing, catching,
and a clean-up that runs in any case. For each, one lemma says which exchanges
and which result it can have in terms of its parts.

## Main definitions

* `Dialogue`: A program, by its questions.
* `Dialogue.attempt`, `Dialogue.tryCatch`, `Dialogue.tryFinally`: Exceptions.
* `Dialogue.Plays`: A list of exchanges and the result it leads to.
* `Dialogue.Asks`: A program whose questions are all of some kind.
* `Dialogue.Sure`: A program that does not throw under a condition.
* `Dialogue.exec`: The exchanges with a given environment.

## Theorems

* `plays_ask`, `plays_bind`, `plays_attempt`, `plays_tryCatch`,
  `plays_tryFinally`: What a composed program can do.
* `Asks.plays`: All exchanges of such a program are of that kind.
* `plays_exec`, `exec_answers`: An execution is one of the things a program can
  do, with the answers of its environment.
-/

/-- A program that asks questions and ends with a value or an exception. -/
inductive Dialogue (Q : Type) (A : Q → Type) (ε α : Type) where
  | done (result : Except ε α)
  | ask (q : Q) (next : A q → Dialogue Q A ε α)

/-- A question with its answer. -/
abbrev Exchange (Q : Type) (A : Q → Type) := Sigma A

namespace Dialogue

variable {Q : Type} {A : Q → Type} {ε α β : Type} {result : Except ε α} {p : Dialogue Q A ε α}
  {f : α → Dialogue Q A ε β} {P : Q → Prop}

/-- Go on with the value, unless there is an exception. -/
def bind : Dialogue Q A ε α → (α → Dialogue Q A ε β) → Dialogue Q A ε β
  | done (.ok a), f => f a
  | done (.error e), _ => done (.error e)
  | ask q next, f => ask q fun a => (next a).bind f

instance : Monad (Dialogue Q A ε) where
  pure a := done (.ok a)
  bind := bind

/-- Throw an exception. -/
def raise (e : ε) : Dialogue Q A ε α :=
  done (.error e)

/-- The result of a program as a value. -/
def attempt : Dialogue Q A ε α → Dialogue Q A ε (Except ε α)
  | done result => done (.ok result)
  | ask q next => ask q fun a => (next a).attempt

/-- Handle an exception. -/
def tryCatch (p : Dialogue Q A ε α) (handler : ε → Dialogue Q A ε α) : Dialogue Q A ε α :=
  p.attempt >>= fun
    | .ok a => pure a
    | .error e => handler e

/-- Clean up in any case. An exception of the clean-up replaces the result. -/
def tryFinally (p : Dialogue Q A ε α) (cleanup : Dialogue Q A ε Unit) : Dialogue Q A ε α :=
  p.attempt >>= fun result => cleanup >>= fun _ => done result

/-- The exchanges a program can have, and the result they lead to. -/
inductive Plays : Dialogue Q A ε α → List (Exchange Q A) → Except ε α → Prop where
  | done (result : Except ε α) : Plays (done result) [] result
  | ask (q : Q) (next : A q → Dialogue Q A ε α) (a : A q) (trace : List (Exchange Q A))
      (result : Except ε α) (rest : Plays (next a) trace result) :
      Plays (ask q next) (⟨q, a⟩ :: trace) result

variable {trace : List (Exchange Q A)}

theorem plays_done {result' : Except ε α} :
    Plays (done result : Dialogue Q A ε α) trace result' ↔ trace = [] ∧ result' = result := by
  constructor
  · intro h
    cases h
    exact ⟨rfl, rfl⟩
  · rintro ⟨rfl, rfl⟩
    exact .done _

theorem plays_pure {a : α} :
    Plays (pure a : Dialogue Q A ε α) trace result ↔ trace = [] ∧ result = .ok a :=
  plays_done

theorem plays_raise {e : ε} :
    Plays (raise e : Dialogue Q A ε α) trace result ↔ trace = [] ∧ result = .error e :=
  plays_done

theorem plays_ask {q : Q} {next : A q → Dialogue Q A ε α} :
    Plays (ask q next) trace result ↔
      ∃ a rest, trace = ⟨q, a⟩ :: rest ∧ Plays (next a) rest result := by
  constructor
  · intro h
    cases h with
    | ask _ _ a rest _ hrest => exact ⟨a, rest, rfl, hrest⟩
  · rintro ⟨a, rest, rfl, hrest⟩
    exact .ask q next a rest result hrest

/-- A sequence ends with the first part's exception or goes on with its value. -/
theorem plays_bind {result : Except ε β} :
    Plays (p >>= f) trace result ↔
      (∃ e, Plays p trace (.error e) ∧ result = .error e) ∨
      ∃ first rest a, trace = first ++ rest ∧ Plays p first (.ok a) ∧ Plays (f a) rest result := by
  change Plays (p.bind f) trace result ↔ _
  induction p generalizing trace with
  | done r =>
      cases r with
      | error | ok => simp [bind, plays_done]
  | ask q next ih =>
      simp only [bind, plays_ask, ih]
      constructor
      · rintro ⟨a, rest, rfl, ⟨e, hp, rfl⟩ | ⟨first, rest, b, rfl, hp, hf⟩⟩
        · exact .inl ⟨e, ⟨a, rest, rfl, hp⟩, rfl⟩
        · exact .inr ⟨⟨q, a⟩ :: first, rest, b, rfl, ⟨a, first, rfl, hp⟩, hf⟩
      · rintro (⟨e, ⟨a, rest, rfl, hp⟩, rfl⟩ | ⟨_, rest, b, rfl, ⟨a, first, rfl, hp⟩, hf⟩)
        · exact ⟨a, rest, rfl, .inl ⟨e, hp, rfl⟩⟩
        · exact ⟨a, first ++ rest, rfl, .inr ⟨first, rest, b, rfl, hp, hf⟩⟩

/-- A sequence that ends with a value went through both parts. -/
theorem plays_bind_ok {b : β} :
    Plays (p >>= f) trace (.ok b) ↔
      ∃ first rest a, trace = first ++ rest ∧ Plays p first (.ok a) ∧
        Plays (f a) rest (.ok b) := by
  rw [plays_bind]
  constructor
  · rintro (⟨e, _, h⟩ | h)
    · cases h
    · exact h
  · exact .inr

theorem plays_attempt {result : Except ε (Except ε α)} :
    Plays p.attempt trace result ↔ ∃ r, result = .ok r ∧ Plays p trace r := by
  induction p generalizing trace with
  | done r => simp [attempt, plays_done, and_comm]
  | ask q next ih =>
      simp only [attempt, plays_ask, ih]
      constructor
      · rintro ⟨a, rest, rfl, r, rfl, hr⟩
        exact ⟨r, rfl, a, rest, rfl, hr⟩
      · rintro ⟨r, rfl, a, rest, rfl, hr⟩
        exact ⟨a, rest, rfl, r, rfl, hr⟩

/-- After an attempt the program goes on with the result, whatever it is. -/
theorem plays_attempt_bind {f : Except ε α → Dialogue Q A ε β} {result : Except ε β} :
    Plays (p.attempt >>= f) trace result ↔
      ∃ first rest r, trace = first ++ rest ∧ Plays p first r ∧ Plays (f r) rest result := by
  rw [plays_bind]
  simp only [plays_attempt]
  constructor
  · rintro (⟨e, ⟨r, hr, _⟩, _⟩ | ⟨first, rest, r, rfl, ⟨r', hr', hp⟩, hf⟩)
    · cases hr
    · cases hr'
      exact ⟨first, rest, r, rfl, hp, hf⟩
  · rintro ⟨first, rest, r, rfl, hp, hf⟩
    exact .inr ⟨first, rest, r, rfl, ⟨r, rfl, hp⟩, hf⟩

theorem plays_tryCatch {handler : ε → Dialogue Q A ε α} :
    Plays (tryCatch p handler) trace result ↔
      (∃ a, Plays p trace (.ok a) ∧ result = .ok a) ∨
      ∃ first rest e, trace = first ++ rest ∧ Plays p first (.error e) ∧
        Plays (handler e) rest result := by
  rw [tryCatch, plays_attempt_bind]
  constructor
  · rintro ⟨first, rest, r, rfl, hp, hf⟩
    cases r with
    | ok a =>
        obtain ⟨rfl, rfl⟩ := plays_pure.1 hf
        exact .inl ⟨a, by rwa [List.append_nil], rfl⟩
    | error e => exact .inr ⟨first, rest, e, rfl, hp, hf⟩
  · rintro (⟨a, hp, rfl⟩ | ⟨first, rest, e, rfl, hp, hf⟩)
    · exact ⟨trace, [], .ok a, (List.append_nil _).symm, hp, .done _⟩
    · exact ⟨first, rest, .error e, rfl, hp, hf⟩

/-- The clean-up follows the body whatever its result, and keeps it unless it
    throws itself. -/
theorem plays_tryFinally {cleanup : Dialogue Q A ε Unit} :
    Plays (tryFinally p cleanup) trace result ↔
      ∃ first rest r, trace = first ++ rest ∧ Plays p first r ∧
        ((Plays cleanup rest (.ok ()) ∧ result = r) ∨
          ∃ e, Plays cleanup rest (.error e) ∧ result = .error e) := by
  rw [tryFinally, plays_attempt_bind]
  simp only [plays_bind, plays_done]
  constructor
  · rintro ⟨first, rest, r, rfl, hp, ⟨e, hc, rfl⟩ | ⟨cfirst, _, _, rfl, hc, rfl, rfl⟩⟩
    · exact ⟨first, rest, r, rfl, hp, .inr ⟨e, hc, rfl⟩⟩
    · exact ⟨first, _, _, rfl, hp, .inl ⟨by rwa [List.append_nil], rfl⟩⟩
  · rintro ⟨first, rest, r, rfl, hp, ⟨hc, rfl⟩ | ⟨e, hc, rfl⟩⟩
    · exact ⟨first, rest, _, rfl, hp, .inr ⟨rest, [], (), (List.append_nil _).symm, hc, rfl, rfl⟩⟩
    · exact ⟨first, rest, r, rfl, hp, .inl ⟨e, hc, rfl⟩⟩

/-! ### Questions that may be asked -/

/-- All questions of a program are of some kind. -/
def Asks (P : Q → Prop) : Dialogue Q A ε α → Prop
  | done _ => True
  | ask q next => P q ∧ ∀ a, (next a).Asks P

theorem Asks.plays (h : p.Asks P) (hp : Plays p trace result) : ∀ x ∈ trace, P x.1 := by
  induction hp with
  | done => intro x hx; cases hx
  | ask q next a rest result _ ih =>
      intro x hx
      rcases List.mem_cons.1 hx with rfl | hx
      · exact h.1
      · exact ih (h.2 a) x hx

theorem Asks.bind (hp : p.Asks P) (hf : ∀ a, (f a).Asks P) : (p >>= f).Asks P := by
  change (Dialogue.bind p f).Asks P
  induction p with
  | done r =>
      cases r with
      | error => trivial
      | ok a => exact hf a
  | ask q next ih => exact ⟨hp.1, fun a => ih a (hp.2 a)⟩

theorem Asks.attempt (hp : p.Asks P) : p.attempt.Asks P := by
  induction p with
  | done => trivial
  | ask q next ih => exact ⟨hp.1, fun a => ih a (hp.2 a)⟩

theorem Asks.tryCatch {handler : ε → Dialogue Q A ε α} (hp : p.Asks P)
    (hhandler : ∀ e, (handler e).Asks P) : (p.tryCatch handler).Asks P := by
  refine hp.attempt.bind fun r => ?_
  cases r with
  | ok => trivial
  | error e => exact hhandler e

theorem Asks.tryFinally {cleanup : Dialogue Q A ε Unit} (hp : p.Asks P) (hcleanup : cleanup.Asks P) :
    (p.tryFinally cleanup).Asks P :=
  hp.attempt.bind fun _ => hcleanup.bind fun _ => trivial

theorem Asks.mono {P' : Q → Prop} (hp : p.Asks P) (himp : ∀ q, P q → P' q) : p.Asks P' := by
  induction p with
  | done => trivial
  | ask q next ih => exact ⟨himp q hp.1, fun a => ih a (hp.2 a)⟩

/-! ### Programs that do not throw -/

/-- A program that ends with a value whenever its exchanges meet a condition. -/
def Sure (C : List (Exchange Q A) → Prop) (p : Dialogue Q A ε α) : Prop :=
  ∀ trace result, C trace → Plays p trace result → ∃ a, result = .ok a

/-- A condition that holds of the parts of whatever it holds of. -/
def Splits (C : List (Exchange Q A) → Prop) : Prop :=
  ∀ first rest, C (first ++ rest) → C first ∧ C rest

theorem Sure.pure (C : List (Exchange Q A) → Prop) (a : α) :
    Sure C (Pure.pure a : Dialogue Q A ε α) :=
  fun _ _ _ h => ⟨a, (plays_pure.1 h).2⟩

/-- A sequence whose first part does not throw goes on with its value. -/
theorem Sure.split {C : List (Exchange Q A) → Prop} {result : Except ε β} (hp : Sure C p)
    (hsplits : Splits C) (hC : C trace) (h : Plays (p >>= f) trace result) :
    ∃ first rest a, trace = first ++ rest ∧ C first ∧ C rest ∧ Plays p first (.ok a) ∧
      Plays (f a) rest result := by
  rcases plays_bind.1 h with ⟨e, hp', _⟩ | ⟨first, rest, a, rfl, hp', hf⟩
  · obtain ⟨a, ha⟩ := hp trace _ hC hp'
    cases ha
  · obtain ⟨hfirst, hrest⟩ := hsplits first rest hC
    exact ⟨first, rest, a, rfl, hfirst, hrest, hp', hf⟩

theorem Sure.bind {C : List (Exchange Q A) → Prop} (hsplits : Splits C) (hp : Sure C p)
    (hf : ∀ a, Sure C (f a)) : Sure C (p >>= f) := by
  intro trace result hC h
  obtain ⟨_, rest, a, _, _, hrest, _, h⟩ := hp.split hsplits hC h
  exact hf a rest result hrest h

/-- The exchanges with an environment that answers by what was asked before. -/
def exec (answer : List (Exchange Q A) → (q : Q) → A q) :
    List (Exchange Q A) → Dialogue Q A ε α → List (Exchange Q A) × Except ε α
  | _, done result => ([], result)
  | past, ask q next =>
      let exchange : Exchange Q A := ⟨q, answer past q⟩
      let rest := exec answer (exchange :: past) (next (answer past q))
      (exchange :: rest.1, rest.2)

theorem plays_exec (answer : List (Exchange Q A) → (q : Q) → A q) (p : Dialogue Q A ε α) :
    ∀ past, Plays p (exec answer past p).1 (exec answer past p).2 := by
  induction p with
  | done result => exact fun _ => .done result
  | ask q next ih => exact fun past => .ask q next _ _ _ (ih _ _)

/-- Its answers are those of the environment. -/
theorem exec_answers (answer : List (Exchange Q A) → (q : Q) → A q) (p : Dialogue Q A ε α) :
    ∀ past, ∀ x ∈ (exec answer past p).1, ∃ past', x = ⟨x.1, answer past' x.1⟩ := by
  induction p with
  | done result => intro past x hx; cases hx
  | ask q next ih =>
      intro past x hx
      rcases List.mem_cons.1 hx with rfl | hx
      · exact ⟨past, rfl⟩
      · exact ih _ _ x hx

end Dialogue
