import ArenaCore.Lib.Dialogue

/-!
# Watching a Program

A monitor follows the exchanges of a program with a state of its own. It says in
each state which questions may be asked, and what must hold at the end, for
each way of ending. Nothing is assumed of the answers.

`Watched` pushes a postcondition through a program, so a program is checked
piece by piece: sequencing, attempts and clean-ups have one rule each. What it
says about runs is `Watched.plays`, and what follows from the rules alone is
proved of lists of exchanges, by `Follows.invariant`.

## Main definitions

* `Dialogue.Watched`: A program that keeps to the rules of a monitor.
* `Dialogue.Follows`: A list of exchanges that does.

## Theorems

* `Watched.mono`, `Watched.bind`, `Watched.attempt`, `Watched.tryCatch`,
  `Watched.tryFinally`: The rules.
* `Watched.of_asks`: Programs that stay within some states.
* `Watched.plays`: Every run keeps to the rules and ends as promised.
* `Follows.invariant`: What allowed exchanges keep holds throughout.
-/

namespace Dialogue

variable {Q : Type} {A : Q → Type} {ε α β S : Type}

/-- Whatever the answers, only questions that are allowed are asked, and the
    postcondition holds of the result and the last state. -/
def Watched (step : S → Exchange Q A → S) (safe : S → Q → Prop) (post : Except ε α → S → Prop) :
    Dialogue Q A ε α → S → Prop
  | done result, s => post result s
  | ask q next, s => safe s q ∧ ∀ a, Watched step safe post (next a) (step s ⟨q, a⟩)

/-- A monitor that keeps some data and notes the exchanges. -/
theorem foldl_record {D X : Type} (d : D) (past xs : List X) :
    xs.foldl (fun st x => (st.1, st.2 ++ [x])) (d, past) = (d, past ++ xs) := by
  induction xs generalizing past with
  | nil => rw [List.append_nil]; rfl
  | cons x xs ih => rw [List.foldl_cons, ih, List.append_assoc]; rfl

namespace Watched

variable {step : S → Exchange Q A → S} {safe : S → Q → Prop}

theorem mono {post post' : Except ε α → S → Prop} {p : Dialogue Q A ε α} {s : S}
    (h : Watched step safe post p s) (hpost : ∀ r s, post r s → post' r s) :
    Watched step safe post' p s := by
  induction p generalizing s with
  | done r => exact hpost r s h
  | ask q next ih => exact ⟨h.1, fun a => ih a (h.2 a)⟩

/-- A sequence: an exception of the first part is one of the whole. -/
theorem bind {mid : Except ε α → S → Prop} {post : Except ε β → S → Prop}
    {p : Dialogue Q A ε α} {f : α → Dialogue Q A ε β} {s : S} (h : Watched step safe mid p s)
    (herror : ∀ e s, mid (.error e) s → post (.error e) s)
    (hok : ∀ a s, mid (.ok a) s → Watched step safe post (f a) s) :
    Watched step safe post (p >>= f) s := by
  change Watched step safe post (Dialogue.bind p f) s
  induction p generalizing s with
  | done r =>
      cases r with
      | error e => exact herror e s h
      | ok a => exact hok a s h
  | ask q next ih => exact ⟨h.1, fun a => ih a (h.2 a)⟩

theorem attempt {post : Except ε (Except ε α) → S → Prop} {p : Dialogue Q A ε α} {s : S}
    (h : Watched step safe (fun r s => post (.ok r) s) p s) :
    Watched step safe post p.attempt s := by
  induction p generalizing s with
  | done r => exact h
  | ask q next ih => exact ⟨h.1, fun a => ih a (h.2 a)⟩

theorem tryCatch {mid post : Except ε α → S → Prop} {p : Dialogue Q A ε α}
    {handler : ε → Dialogue Q A ε α} {s : S} (h : Watched step safe mid p s)
    (hok : ∀ a s, mid (.ok a) s → post (.ok a) s)
    (herror : ∀ e s, mid (.error e) s → Watched step safe post (handler e) s) :
    Watched step safe post (p.tryCatch handler) s := by
  have hattempt : Watched step safe (fun r s => ∃ r', r = .ok r' ∧ mid r' s) p.attempt s :=
    attempt (h.mono fun r s hr => ⟨r, rfl, hr⟩)
  refine hattempt.bind (fun e s ⟨_, he, _⟩ => by cases he) fun r s ⟨r', hr, hmid⟩ => ?_
  cases hr
  cases r with
  | ok a => exact hok a s hmid
  | error e => exact herror e s hmid

/-- A clean-up: the result is that of the body, unless the clean-up throws. -/
theorem tryFinally {mid post : Except ε α → S → Prop} {p : Dialogue Q A ε α}
    {cleanup : Dialogue Q A ε Unit} {s : S} (h : Watched step safe mid p s)
    (hcleanup : ∀ r s, mid r s → Watched step safe
      (fun c s => (c = .ok () → post r s) ∧ ∀ e, c = .error e → post (.error e) s) cleanup s) :
    Watched step safe post (p.tryFinally cleanup) s := by
  have hattempt : Watched step safe (fun r s => ∃ r', r = .ok r' ∧ mid r' s) p.attempt s :=
    attempt (h.mono fun r s hr => ⟨r, rfl, hr⟩)
  refine hattempt.bind (fun e s ⟨_, he, _⟩ => by cases he) fun r s ⟨r', hr, hmid⟩ => ?_
  cases hr
  exact (hcleanup r s hmid).bind (fun e s hc => hc.2 e rfl) fun _ s hc => hc.1 rfl

/-- Questions of some kind, allowed in certain states and not leading out of
    them. -/
theorem of_asks {P : Q → Prop} {I : S → Prop} {p : Dialogue Q A ε α} {s : S} (hasks : p.Asks P)
    (hI : I s) (hsafe : ∀ s q, I s → P q → safe s q)
    (hstep : ∀ s q a, I s → P q → I (step s ⟨q, a⟩)) :
    Watched step safe (fun _ s => I s) p s := by
  induction p generalizing s with
  | done r => exact hI
  | ask q next ih =>
      exact ⟨hsafe s q hI hasks.1, fun a => ih a (hasks.2 a) (hstep s q a hI hasks.1)⟩

end Watched

/-- Every question was allowed in the state the exchanges before it led to. -/
def Follows (step : S → Exchange Q A → S) (safe : S → Q → Prop) : S → List (Exchange Q A) → Prop
  | _, [] => True
  | s, x :: rest => safe s x.1 ∧ Follows step safe (step s x) rest

section Follows

variable {step : S → Exchange Q A → S} {safe : S → Q → Prop}

theorem follows_append {s : S} {first rest : List (Exchange Q A)} :
    Follows step safe s (first ++ rest) ↔
      Follows step safe s first ∧ Follows step safe (first.foldl step s) rest := by
  induction first generalizing s with
  | nil => exact ⟨fun h => ⟨trivial, h⟩, fun h => h.2⟩
  | cons x first ih => exact (and_congr_right fun _ => ih).trans and_assoc.symm

/-- The invariant may speak of the exchanges so far. -/
theorem Follows.invariant {I : List (Exchange Q A) → S → Prop} {s : S}
    {trace : List (Exchange Q A)} (hfollows : Follows step safe s trace)
    (hstep : ∀ past s x, I past s → safe s x.1 → I (past ++ [x]) (step s x)) (h : I [] s) :
    I trace (trace.foldl step s) := by
  suffices hall : ∀ past s, Follows step safe s trace → I past s →
      I (past ++ trace) (trace.foldl step s) from hall [] s hfollows h
  clear hfollows h s
  induction trace with
  | nil =>
      intro past s _ h
      rwa [List.append_nil]
  | cons x rest ih =>
      intro past s hfollows h
      rw [List.append_cons]
      exact ih _ _ hfollows.2 (hstep past s x h hfollows.1)

/-- Every run asks what is allowed in the state it has led to, and ends as
    promised. -/
theorem Watched.plays {post : Except ε α → S → Prop} {p : Dialogue Q A ε α} {s : S}
    {trace : List (Exchange Q A)} {result : Except ε α} (h : Watched step safe post p s)
    (hplays : Plays p trace result) :
    Follows step safe s trace ∧ post result (trace.foldl step s) := by
  induction hplays generalizing s with
  | done r => exact ⟨trivial, h⟩
  | ask q next a rest r _ ih =>
      obtain ⟨hfollows, hpost⟩ := ih (h.2 a)
      exact ⟨⟨h.1, hfollows⟩, hpost⟩

end Follows

end Dialogue
