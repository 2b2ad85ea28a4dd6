import Mathlib.Data.List.Induction
import ArenaCore.Lib.Monitor

/-!
# Programs that Share a Database

Programs that run side by side, one statement at a time in any order, on a
database with transactions. A statement sees what is committed and what its own
transaction has done so far. It waits for the row locks it needs while another
transaction holds them, and its transaction keeps them to its end. What a
transaction has changed takes effect when it commits.

This is the isolation level "read committed", where every statement of a
transaction sees the database of its own time. A statement that has to wait is
taken to begin when its locks are free, so it also sees rows that came while it
waited.

The programs are dialogues whose questions are the statements, so the text of a
program is that of the code.

What a program does is said by a monitor of its exchanges (`Lib.Monitor`), and
`watched_step` carries that through a run.

## Main definitions

* `Engine`: What the statements answer, change and lock.
* `Process`, `System`: Programs in progress.
* `System.step`: One statement of one program.
* `Stepped`: What it has done.
* `System.Answered`: An exchange of a run, with the state it took place in.
* `System.Next`, `System.Along`: A condition on the next statement, and on those of a run.

## Theorems

* `step_cases`: What one statement can do.
* `exclusive_step`: No two programs hold the same lock.
* `answered_run`: Every answer was given in some state of the run.
* `run_induction_along`: What a run keeps whose statements meet a condition.
* `watched_step`: Programs keep to the rules of their monitors.
-/

namespace Concurrent

open Dialogue

/-- The part a statement has in a transaction. -/
inductive Kind where
  | statement
  | opens
  | commits
  | aborts
deriving DecidableEq

/-- What statements do. The answer and the changes may depend on a choice of the
    environment, and the changes on the program that makes them. -/
structure Engine (DB Change Lock Choice Q : Type) (A : Q → Type) where
  kind : Q → Kind
  answer : DB → Choice → (q : Q) → A q
  changes : Nat → DB → Choice → Q → List Change
  apply : DB → Change → DB
  locks : DB → Q → List Lock

variable {DB Change Lock Choice Q : Type} {A : Q → Type} {ε α S : Type}

/-- A program in progress, with the changes of its transaction that are not yet
    committed, and its exchanges with their times. -/
structure Process (Change Q : Type) (A : Q → Type) (ε α : Type) where
  program : Dialogue Q A ε α
  inside : Bool := false
  pending : List Change := []
  past : List (Nat × Exchange Q A) := []

structure System (DB Change Lock Q : Type) (A : Q → Type) (ε α : Type) where
  time : Nat := 0
  db : DB
  /-- The locks in force, each with the program that holds it. -/
  locks : List (Nat × Lock) := []
  processes : List (Process Change Q A ε α)

section Step

variable [DecidableEq Lock] (E : Engine DB Change Lock Choice Q A)
  (s : System DB Change Lock Q A ε α)

/-- No other program holds the lock. -/
def System.free (pid : Nat) (lock : Lock) : Bool :=
  s.locks.all fun l => decide (l.2 = lock → l.1 = pid)

/-- What a program sees: its own changes on top of what is committed. -/
def Process.view (p : Process Change Q A ε α) (db : DB) : DB :=
  p.pending.foldl E.apply db

/-- The exchanges of a program. -/
def Process.exchanges (p : Process Change Q A ε α) : List (Exchange Q A) :=
  p.past.map Prod.snd

/-- The exchange has taken place. -/
def Process.advance (p : Process Change Q A ε α) (time : Nat) (q : Q) (a : A q)
    (rest : Dialogue Q A ε α) : Process Change Q A ε α :=
  { p with program := rest, past := p.past ++ [(time, ⟨q, a⟩)] }

/-- A statement of a program that has the locks it needs. -/
def System.exec (pid : Nat) (choice : Choice) (p : Process Change Q A ε α) (q : Q)
    (next : A q → Dialogue Q A ε α) : System DB Change Lock Q A ε α :=
  let view := p.view E s.db
  let a := E.answer view choice q
  let p' := p.advance s.time q a (next a)
  let changes := E.changes pid view choice q
  match E.kind q with
  | .opens =>
      { s with time := s.time + 1, processes := s.processes.set pid { p' with inside := true } }
  | .commits =>
      { time := s.time + 1, db := view, locks := s.locks.filter fun l => decide (l.1 ≠ pid)
        processes := s.processes.set pid { p' with inside := false, pending := [] } }
  | .aborts =>
      { time := s.time + 1, db := s.db, locks := s.locks.filter fun l => decide (l.1 ≠ pid)
        processes := s.processes.set pid { p' with inside := false, pending := [] } }
  | .statement =>
      if p.inside then
        { time := s.time + 1, db := s.db
          locks := s.locks ++ (E.locks view q).map fun l => (pid, l)
          processes := s.processes.set pid { p' with pending := p.pending ++ changes } }
      else
        { s with time := s.time + 1, db := changes.foldl E.apply view
                 processes := s.processes.set pid p' }

/-- One statement of one program, unless it has ended or has to wait. -/
def System.step (e : Nat × Choice) : System DB Change Lock Q A ε α :=
  match s.processes[e.1]? with
  | none => s
  | some p =>
      match p.program with
      | .done _ => s
      | .ask q next =>
          if (E.locks (p.view E s.db) q).all (s.free e.1) then s.exec E e.1 e.2 p q next else s

/-- The state after some statements. -/
def System.run (events : List (Nat × Choice)) : System DB Change Lock Q A ε α :=
  events.foldl (System.step E) s

end Step

section Theorems

variable {E : Engine DB Change Lock Choice Q A} {s : System DB Change Lock Q A ε α} {i : Nat}
  {p : Process Change Q A ε α} {q : Q} {next : A q → Dialogue Q A ε α}

/-- What a statement leaves of the other programs. -/
theorem get_set {processes : List (Process Change Q A ε α)} {pid : Nat}
    {p' r : Process Change Q A ε α} (hp : processes[pid]? = some p)
    (h : (processes.set pid p')[i]? = some r) :
    (i = pid ∧ r = p') ∨ (i ≠ pid ∧ processes[i]? = some r) := by
  have hlt : pid < processes.length := (List.getElem?_eq_some_iff.1 hp).1
  by_cases hi : i = pid
  · subst hi
    rw [List.getElem?_set_self hlt] at h
    exact .inl ⟨rfl, (Option.some.inj h).symm⟩
  · rw [List.getElem?_set_ne (Ne.symm hi)] at h
    exact .inr ⟨hi, h⟩

/-- What a statement does to the database, the locks and its transaction. -/
inductive Outcome (E : Engine DB Change Lock Choice Q A) (s : System DB Change Lock Q A ε α)
    (pid : Nat) (choice : Choice) (p : Process Change Q A ε α) (q : Q) :
    DB → List (Nat × Lock) → Bool → List Change → Prop
  | opened (kind : E.kind q = .opens) : Outcome E s pid choice p q s.db s.locks true p.pending
  | staged (kind : E.kind q = .statement) (inside : p.inside = true) :
      Outcome E s pid choice p q s.db
        (s.locks ++ (E.locks (p.view E s.db) q).map fun l => (pid, l)) true
        (p.pending ++ E.changes pid (p.view E s.db) choice q)
  | direct (kind : E.kind q = .statement) (outside : p.inside = false) :
      Outcome E s pid choice p q
        ((E.changes pid (p.view E s.db) choice q).foldl E.apply (p.view E s.db)) s.locks false
        p.pending
  | committed (kind : E.kind q = .commits) :
      Outcome E s pid choice p q (p.view E s.db)
        (s.locks.filter fun l => decide (l.1 ≠ pid)) false []
  | aborted (kind : E.kind q = .aborts) :
      Outcome E s pid choice p q s.db (s.locks.filter fun l => decide (l.1 ≠ pid)) false []

theorem exec_outcome (E : Engine DB Change Lock Choice Q A) (s : System DB Change Lock Q A ε α)
    (pid : Nat) (choice : Choice) (p : Process Change Q A ε α) (q : Q)
    (next : A q → Dialogue Q A ε α) :
    ∃ p', (s.exec E pid choice p q next).processes = s.processes.set pid p' ∧
      p'.program = next (E.answer (p.view E s.db) choice q) ∧
      p'.past = p.past ++ [(s.time, ⟨q, E.answer (p.view E s.db) choice q⟩)] ∧
      (s.exec E pid choice p q next).time = s.time + 1 ∧
      Outcome E s pid choice p q (s.exec E pid choice p q next).db
        (s.exec E pid choice p q next).locks p'.inside p'.pending := by
  unfold System.exec
  cases hkind : E.kind q with
  | opens => exact ⟨_, rfl, rfl, rfl, rfl, .opened hkind⟩
  | commits => exact ⟨_, rfl, rfl, rfl, rfl, .committed hkind⟩
  | aborts => exact ⟨_, rfl, rfl, rfl, rfl, .aborted hkind⟩
  | statement =>
      cases hinside : p.inside with
      | true =>
          refine ⟨_, rfl, rfl, rfl, rfl, ?_⟩
          simpa only [Process.advance, hinside, if_true] using Outcome.staged hkind hinside
      | false =>
          refine ⟨_, rfl, rfl, rfl, rfl, ?_⟩
          simpa only [Process.advance, hinside, Bool.false_eq_true, if_false] using
            Outcome.direct hkind hinside

variable [DecidableEq Lock]

/-- A program has carried out its next statement. -/
structure Stepped (E : Engine DB Change Lock Choice Q A) (s : System DB Change Lock Q A ε α)
    (e : Nat × Choice) (p p' : Process Change Q A ε α) (q : Q) (next : A q → Dialogue Q A ε α)
    (s' : System DB Change Lock Q A ε α) : Prop where
  process : s.processes[e.1]? = some p
  program : p.program = .ask q next
  free : ∀ l ∈ E.locks (p.view E s.db) q, s.free e.1 l = true
  processes : s'.processes = s.processes.set e.1 p'
  rest : p'.program = next (E.answer (p.view E s.db) e.2 q)
  past : p'.past = p.past ++ [(s.time, ⟨q, E.answer (p.view E s.db) e.2 q⟩)]
  time : s'.time = s.time + 1
  outcome : Outcome E s e.1 e.2 p q s'.db s'.locks p'.inside p'.pending

/-- A program that has the locks it needs carries out its next statement. -/
theorem stepped_of_free {e : Nat × Choice} (hp : s.processes[e.1]? = some p)
    (hprogram : p.program = .ask q next)
    (hfree : ∀ l ∈ E.locks (p.view E s.db) q, s.free e.1 l = true) :
    ∃ p', Stepped E s e p p' q next (s.step E e) := by
  obtain ⟨p', hprocesses, hrest, hpast, htime, houtcome⟩ := exec_outcome E s e.1 e.2 p q next
  have hstep : s.step E e = s.exec E e.1 e.2 p q next := by
    rw [System.step, hp]
    simp only [hprogram]
    exact if_pos (List.all_eq_true.2 hfree)
  rw [hstep]
  exact ⟨p', hp, hprogram, hfree, hprocesses, hrest, hpast, htime, houtcome⟩

/-- A step does nothing, or carries out the next statement of a program. -/
theorem step_cases (E : Engine DB Change Lock Choice Q A) (s : System DB Change Lock Q A ε α)
    (e : Nat × Choice) :
    s.step E e = s ∨ ∃ p p' q next, Stepped E s e p p' q next (s.step E e) := by
  cases hp : s.processes[e.1]? with
  | none => exact .inl (by rw [System.step, hp])
  | some p =>
      cases hprogram : p.program with
      | done r => exact .inl (by rw [System.step, hp]; simp only [hprogram])
      | ask q next =>
          by_cases hfree : (E.locks (p.view E s.db) q).all (s.free e.1) = true
          · obtain ⟨p', hstepped⟩ := stepped_of_free hp hprogram (List.all_eq_true.1 hfree)
            exact .inr ⟨p, p', q, next, hstepped⟩
          · exact .inl (by rw [System.step, hp]; simp only [hprogram]; exact if_neg hfree)

/-- A program after a statement: the one that ran, or another that is as it was. -/
theorem Stepped.get {e : Nat × Choice} {p' : Process Change Q A ε α}
    {s' : System DB Change Lock Q A ε α} (h : Stepped E s e p p' q next s')
    {r : Process Change Q A ε α} (hr : s'.processes[i]? = some r) :
    (i = e.1 ∧ r = p') ∨ (i ≠ e.1 ∧ s.processes[i]? = some r) := by
  rw [h.processes] at hr
  exact get_set h.process hr

section Stepped

variable {e : Nat × Choice} {p p' : Process Change Q A ε α} {q : Q} {next : A q → Dialogue Q A ε α}
  {s' : System DB Change Lock Q A ε α} {i : Nat} {x : Exchange Q A}

section

variable (h : Stepped E s e p p' q next s')

include h

theorem Stepped.self : s'.processes[e.1]? = some p' := by
  rw [h.processes, List.getElem?_set_self (List.getElem?_eq_some_iff.1 h.process).1]

theorem Stepped.other (hi : i ≠ e.1) : s'.processes[i]? = s.processes[i]? := by
  rw [h.processes, List.getElem?_set_ne (Ne.symm hi)]

theorem Stepped.exchanges :
    p'.exchanges = p.exchanges ++ [⟨q, E.answer (p.view E s.db) e.2 q⟩] := by
  rw [Process.exchanges, h.past, List.map_append]
  rfl

/-- What happened before the statement, and the statement itself. -/
theorem Stepped.mem_past {x : Nat × Exchange Q A} (hx : x ∈ p'.past) :
    x ∈ p.past ∨ x = (s.time, ⟨q, E.answer (p.view E s.db) e.2 q⟩) := by
  rw [h.past] at hx
  exact (List.mem_append.1 hx).imp_right List.mem_singleton.1

theorem Stepped.mem_past_of_mem {x : Nat × Exchange Q A} (hx : x ∈ p.past) : x ∈ p'.past := by
  rw [h.past]
  exact List.mem_append_left _ hx

theorem Stepped.mem_exchanges (hx : x ∈ p'.exchanges) :
    x ∈ p.exchanges ∨ x = ⟨q, E.answer (p.view E s.db) e.2 q⟩ := by
  rw [h.exchanges] at hx
  exact (List.mem_append.1 hx).imp_right List.mem_singleton.1

theorem Stepped.mem_exchanges_of_mem (hx : x ∈ p.exchanges) : x ∈ p'.exchanges := by
  rw [h.exchanges]
  exact List.mem_append_left _ hx

theorem Stepped.mem_exchanges_self :
    (⟨q, E.answer (p.view E s.db) e.2 q⟩ : Exchange Q A) ∈ p'.exchanges := by
  rw [h.exchanges]
  exact List.mem_append_right _ (List.mem_singleton_self _)

/-- A change that waits to be committed waited before, or is one of the statement. -/
theorem Stepped.mem_pending {c : Change} (hc : c ∈ p'.pending) :
    c ∈ p.pending ∨ c ∈ E.changes e.1 (p.view E s.db) e.2 q := by
  have houtcome := h.outcome
  generalize p'.pending = pending, s'.db = db, s'.locks = locks, p'.inside = inside
    at houtcome hc
  cases houtcome with
  | opened | direct => exact .inl hc
  | staged => exact List.mem_append.1 hc
  | committed | aborted => cases hc

/-- The end of a transaction leaves nothing to be committed. -/
theorem Stepped.pending_closed (hclosed : E.kind q = .commits ∨ E.kind q = .aborts) :
    p'.pending = [] := by
  have houtcome := h.outcome
  generalize p'.pending = pending, s'.db = db, s'.locks = locks, p'.inside = inside
    at houtcome ⊢
  cases houtcome with
  | committed | aborted => rfl
  | opened kind | staged kind | direct kind =>
      rw [kind] at hclosed
      obtain ⟨⟨⟩⟩ | ⟨⟨⟩⟩ := hclosed

/-- A program that has opened a transaction, and does not end it now, is inside. -/
theorem Stepped.inside_opened (hopens : E.kind x.1 = .opens) (hx : x ∈ p'.exchanges)
    (hinside : x ∈ p.exchanges → p.inside = true) (hcommits : E.kind q ≠ .commits)
    (haborts : E.kind q ≠ .aborts) : p'.inside = true := by
  have hbefore := h.mem_exchanges hx
  have houtcome := h.outcome
  generalize p'.pending = pending, s'.db = db, s'.locks = locks, p'.inside = inside
    at houtcome ⊢
  cases houtcome with
  | opened | staged => rfl
  | committed kind => exact absurd kind hcommits
  | aborted kind => exact absurd kind haborts
  | direct kind houtside =>
      obtain hbefore | rfl := hbefore
      · exact absurd (hinside hbefore) (Bool.eq_false_iff.1 houtside)
      · cases kind.symm.trans hopens

/-- The other programs keep their locks. -/
theorem Stepped.locks_of_ne {l : Lock} (hi : i ≠ e.1) (hl : (i, l) ∈ s.locks) :
    (i, l) ∈ s'.locks := by
  have houtcome := h.outcome
  generalize p'.pending = pending, s'.db = db, s'.locks = locks, p'.inside = inside
    at houtcome ⊢
  cases houtcome with
  | opened | direct => exact hl
  | staged => exact List.mem_append_left _ hl
  | committed | aborted => exact List.mem_filter.2 ⟨hl, decide_eq_true hi⟩

end

/-- The program at a place has had an exchange at a time. -/
def System.Did (s : System DB Change Lock Q A ε α) (i time : Nat) (x : Exchange Q A) : Prop :=
  ∃ p, s.processes[i]? = some p ∧ (time, x) ∈ p.past

omit [DecidableEq Lock] in
theorem System.did_iff {p : Process Change Q A ε α} (hp : s.processes[i]? = some p) :
    (∃ time, s.Did i time x) ↔ x ∈ p.exchanges := by
  constructor
  · rintro ⟨time, r, hr, hx⟩
    obtain rfl := Option.some.inj (hp.symm.trans hr)
    exact List.mem_map.2 ⟨_, hx, rfl⟩
  · intro hx
    obtain ⟨⟨time, _⟩, hmem, rfl⟩ := List.mem_map.1 hx
    exact ⟨time, p, hp, hmem⟩

/-- Everything that was done before the statement, and the statement itself. -/
theorem Stepped.did (h : Stepped E s e p p' q next s') {time : Nat} :
    s'.Did i time x ↔ s.Did i time x ∨
      (i = e.1 ∧ time = s.time ∧ x = ⟨q, E.answer (p.view E s.db) e.2 q⟩) := by
  constructor
  · rintro ⟨r, hr, hx⟩
    obtain ⟨rfl, rfl⟩ | ⟨_, hr⟩ := h.get hr
    · obtain hx | hx := h.mem_past hx
      · exact .inl ⟨p, h.process, hx⟩
      · cases hx
        exact .inr ⟨rfl, rfl, rfl⟩
    · exact .inl ⟨r, hr, hx⟩
  · rintro (⟨r, hr, hx⟩ | ⟨rfl, rfl, rfl⟩)
    · by_cases hi : i = e.1
      · subst hi
        obtain rfl := Option.some.inj (h.process.symm.trans hr)
        exact ⟨p', h.self, h.mem_past_of_mem hx⟩
      · exact ⟨r, (h.other hi).trans hr, hx⟩
    · refine ⟨p', h.self, ?_⟩
      rw [h.past]
      exact List.mem_append_right _ (List.mem_singleton_self _)

end Stepped

/-- No two programs hold the same lock. -/
def System.Exclusive (s : System DB Change Lock Q A ε α) : Prop :=
  ∀ i j l, (i, l) ∈ s.locks → (j, l) ∈ s.locks → i = j

omit [DecidableEq Lock] in
theorem exclusive_of_subset {locks : List (Nat × Lock)} (h : s.Exclusive)
    (hsubset : ∀ l ∈ locks, l ∈ s.locks) :
    ∀ i j l, (i, l) ∈ locks → (j, l) ∈ locks → i = j :=
  fun i j l hi hj => h i j l (hsubset _ hi) (hsubset _ hj)

/-- A lock that is free for a program is held by no other. -/
theorem eq_of_free {pid : Nat} {l : Lock} (hfree : s.free pid l = true) (hl : (i, l) ∈ s.locks) :
    i = pid :=
  of_decide_eq_true (List.all_eq_true.1 hfree (i, l) hl) rfl

theorem exclusive_step (h : s.Exclusive) (e : Nat × Choice) : (s.step E e).Exclusive := by
  obtain hstep | ⟨p, p', q, next, hstep⟩ := step_cases E s e
  · rwa [hstep]
  · have houtcome := hstep.outcome
    have hfree := hstep.free
    unfold System.Exclusive
    generalize p'.pending = pending, (s.step E e).db = db, (s.step E e).locks = locks,
      p'.inside = inside at houtcome ⊢
    cases houtcome with
    | opened | direct => exact h
    | committed | aborted =>
        exact exclusive_of_subset h fun l hl => (List.mem_filter.1 hl).1
    | staged =>
        have hnew : ∀ i l, (i, l) ∈ ((E.locks (p.view E s.db) q).map fun l => (e.1, l)) →
            i = e.1 ∧ ∀ j, (j, l) ∈ s.locks → j = e.1 := by
          intro i l hi
          obtain ⟨l', hl', heq⟩ := List.mem_map.1 hi
          cases heq
          exact ⟨rfl, fun j hj => eq_of_free (hfree l hl') hj⟩
        intro i j l hi hj
        obtain hi | hi := List.mem_append.1 hi <;> obtain hj | hj := List.mem_append.1 hj
        · exact h i j l hi hj
        · rw [(hnew j l hj).1, (hnew j l hj).2 i hi]
        · rw [(hnew i l hi).1, (hnew i l hi).2 j hj]
        · rw [(hnew i l hi).1, (hnew j l hj).1]

/-- Nothing waits to be committed outside of transactions. -/
def System.Tidy (s : System DB Change Lock Q A ε α) : Prop :=
  ∀ (i : Nat) (p : Process Change Q A ε α), s.processes[i]? = some p →
    p.inside = false → p.pending = []

theorem tidy_step (h : s.Tidy) (e : Nat × Choice) : (s.step E e).Tidy := by
  obtain hstep | ⟨p, p', q, next, hstep⟩ := step_cases E s e
  · rwa [hstep]
  · intro i r hr hinside
    obtain ⟨rfl, rfl⟩ | ⟨_, hr⟩ := hstep.get hr
    · have houtcome := hstep.outcome
      have hbefore := h e.1 p hstep.process
      generalize r.pending = pending, (s.step E e).db = db, (s.step E e).locks = locks,
        r.inside = inside at houtcome hinside ⊢
      cases houtcome with
      | opened | staged => cases hinside
      | direct _ houtside => exact hbefore houtside
      | committed | aborted => rfl
    · exact h i r hr hinside

theorem run_concat (events : List (Nat × Choice)) (e : Nat × Choice) :
    s.run E (events ++ [e]) = (s.run E events).step E e :=
  List.foldl_append

theorem run_append (first second : List (Nat × Choice)) :
    s.run E (first ++ second) = (s.run E first).run E second :=
  List.foldl_append

/-- The program at a place had the exchange at some point of a run. -/
def System.Answered (E : Engine DB Change Lock Choice Q A) (s : System DB Change Lock Q A ε α)
    (events : List (Nat × Choice)) (i : Nat) (x : Exchange Q A) : Prop :=
  ∃ before e after p next, events = before ++ e :: after ∧ e.1 = i ∧
    (s.run E before).processes[i]? = some p ∧ p.program = .ask x.1 next ∧
    x.2 = E.answer (p.view E (s.run E before).db) e.2 x.1

theorem System.Answered.concat {events : List (Nat × Choice)} {x : Exchange Q A}
    (h : s.Answered E events i x) (e : Nat × Choice) : s.Answered E (events ++ [e]) i x := by
  obtain ⟨before, e', after, p, next, rfl, hrest⟩ := h
  exact ⟨before, e', after ++ [e], p, next, by rw [List.append_assoc]; rfl, hrest⟩

theorem answered_run (hinit : ∀ (i : Nat) (p : Process Change Q A ε α),
    s.processes[i]? = some p → p.past = []) (events : List (Nat × Choice))
    (hp : (s.run E events).processes[i]? = some p) {x : Exchange Q A} (hx : x ∈ p.exchanges) :
    s.Answered E events i x := by
  induction events using List.reverseRecOn generalizing p with
  | nil =>
      rw [Process.exchanges, hinit i p hp] at hx
      cases hx
  | append_singleton events e ih =>
      rw [run_concat] at hp
      obtain hstep | ⟨r, r', q, next, hstep⟩ := step_cases E (s.run E events) e
      · rw [hstep] at hp
        exact (ih hp hx).concat e
      · obtain ⟨rfl, rfl⟩ | ⟨_, hp⟩ := hstep.get hp
        · obtain hx | rfl := hstep.mem_exchanges hx
          · exact (ih hstep.process hx).concat e
          · exact ⟨events, e, [], r, next, rfl, rfl, hstep.process, hstep.program, rfl⟩
        · exact (ih hp hx).concat e

/-! ### Conditions on runs -/

/-- What holds of the next statement of a program, if it has one. -/
def System.Next (s : System DB Change Lock Q A ε α) (i : Nat)
    (P : Process Change Q A ε α → Q → Prop) : Prop :=
  ∀ p q next, s.processes[i]? = some p → p.program = .ask q next → P p q

instance (P : Process Change Q A ε α → Q → Prop) [∀ p q, Decidable (P p q)] :
    Decidable (s.Next i P) :=
  match hp : s.processes[i]? with
  | none => isTrue fun p q next hp' _ => by rw [hp] at hp'; cases hp'
  | some p =>
      match hprogram : p.program with
      | .done _ => isTrue fun p' q next hp' hq => by
          obtain rfl := Option.some.inj (hp.symm.trans hp')
          rw [hprogram] at hq
          cases hq
      | .ask q next => decidable_of_iff (P p q)
          ⟨fun h p' q' next' hp' hq' => by
            obtain rfl := Option.some.inj (hp.symm.trans hp')
            cases hprogram.symm.trans hq'
            exact h, fun h => h p q next hp hprogram⟩

/-- Every statement of a run meets a condition on it and on the state it finds. -/
def System.Along (E : Engine DB Change Lock Choice Q A)
    (P : System DB Change Lock Q A ε α → Nat × Choice → Prop) :
    System DB Change Lock Q A ε α → List (Nat × Choice) → Prop
  | _, [] => True
  | s, e :: events => P s e ∧ System.Along E P (s.step E e) events

section

variable {P : System DB Change Lock Q A ε α → Nat × Choice → Prop}

instance decidableAlong [∀ s e, Decidable (P s e)] : (s : System DB Change Lock Q A ε α) →
    (events : List (Nat × Choice)) → Decidable (s.Along E P events)
  | _, [] => isTrue trivial
  | s, e :: events =>
      have := decidableAlong (s.step E e) events
      inferInstanceAs (Decidable (P s e ∧ System.Along E P (s.step E e) events))

theorem run_induction_along {I : System DB Change Lock Q A ε α → Prop}
    (hstep : ∀ s e, P s e → I s → I (s.step E e)) {events : List (Nat × Choice)}
    (halong : s.Along E P events) (h : I s) : I (s.run E events) := by
  induction events generalizing s with
  | nil => exact h
  | cons e events ih => exact ih halong.2 (hstep s e halong.1 h)

end

/-! ### Monitors -/

/-- Every program keeps to the rules of a monitor, each from a state of its own. -/
def System.Watched (step : S → Exchange Q A → S) (safe : S → Q → Prop)
    (post : Except ε α → S → Prop) (init : Nat → S) (s : System DB Change Lock Q A ε α) : Prop :=
  ∀ (i : Nat) (p : Process Change Q A ε α), s.processes[i]? = some p →
    Dialogue.Watched step safe post p.program (p.exchanges.foldl step (init i))

variable {step : S → Exchange Q A → S} {safe : S → Q → Prop} {post : Except ε α → S → Prop}
  {init : Nat → S}

theorem watched_step (h : s.Watched step safe post init) (e : Nat × Choice) :
    (s.step E e).Watched step safe post init := by
  obtain hstep | ⟨p, p', q, next, hstep⟩ := step_cases E s e
  · rwa [hstep]
  · intro i r hr
    obtain ⟨rfl, rfl⟩ | ⟨_, hr⟩ := hstep.get hr
    · have hwatched := h e.1 p hstep.process
      rw [hstep.program] at hwatched
      rw [hstep.rest, Process.exchanges, hstep.past, List.map_append, List.foldl_append]
      exact hwatched.2 _
    · exact h i r hr

omit [DecidableEq Lock] in
/-- The next statement of a program is one that its monitor allows. -/
theorem System.Watched.safe_next (h : s.Watched step safe post init) (hp : s.processes[i]? = some p)
    (hprogram : p.program = .ask q next) : safe (p.exchanges.foldl step (init i)) q := by
  have hwatched := h i p hp
  rw [hprogram] at hwatched
  exact hwatched.1

section Recorded

variable {D : Type} {allowed : D × List (Exchange Q A) → Q → Prop} {data : Nat → D}
  {post : Except ε α → D × List (Exchange Q A) → Prop}

omit [DecidableEq Lock] in
/-- The next statement of a program whose monitor notes the exchanges. -/
theorem System.Watched.allowed_next
    (h : s.Watched (fun st x => (st.1, st.2 ++ [x])) allowed post fun i => (data i, []))
    (hp : s.processes[i]? = some p) (hprogram : p.program = .ask q next) :
    allowed (data i, p.exchanges) q := by
  have hallowed := h.safe_next hp hprogram
  rwa [foldl_record, List.nil_append] at hallowed

omit [DecidableEq Lock] in
/-- A program that has asked what its monitor takes for the last question has ended. -/
theorem System.Watched.ended {last : Q → Bool}
    (hlast : ∀ st q, allowed st q → ∀ x ∈ st.2, last x.1 = false)
    (h : s.Watched (fun st x => (st.1, st.2 ++ [x])) allowed post fun i => (data i, []))
    (hp : s.processes[i]? = some p) {x : Exchange Q A} (hx : x ∈ p.exchanges)
    (hends : last x.1 = true) : ∃ result, p.program = .done result := by
  cases hprogram : p.program with
  | done result => exact ⟨result, rfl⟩
  | ask q next =>
      have hnot := hlast _ q (h.allowed_next hp hprogram) x hx
      rw [hends] at hnot
      cases hnot

end Recorded

end Theorems

end Concurrent
