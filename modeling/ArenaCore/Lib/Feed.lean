import Mathlib.Data.List.Chain
import Mathlib.Data.Prod.Lex
import Mathlib.Order.Lattice

/-!
# Feeds with Marks

A source numbers its events from one in each epoch, and a reader follows it. A
feed is what the reader gets: marks, which say where the source is, and events,
each of which continues what came before it by one. Positions are an epoch and
a number, ordered lexicographically.

That every item follows the one before is a condition on neighbours, so a feed
is a chain and grows at its end. What a reader cares about is read off the
chain: between marks the numbers are consecutive (`positions_of_events`), and
no event comes at a position the feed has been at (`pairwise`).

## Main definitions

* `Position`: An epoch and a number in it.
* `Follows`: An item that continues a feed.
* `consecutive`: The positions after one, in order.

## Theorems

* `Follows.le`, `Follows.lt`: A feed never goes back, and an event moves it.
* `positions_of_events`: The positions of events after an item.
* `pairwise`: Any two items of a feed are in order.
-/

namespace Feed

/-- An epoch and a number in it, in lexicographic order. -/
abbrev Position := Nat ×ₗ Nat

/-- The position of a number in an epoch. -/
def Position.of (epoch number : Nat) : Position :=
  toLex (epoch, number)

theorem Position.of_le_of {e n e' n' : Nat} :
    Position.of e n ≤ Position.of e' n' ↔ e < e' ∨ e = e' ∧ n ≤ n' :=
  Prod.Lex.toLex_le_toLex

theorem Position.of_lt_of {e n e' n' : Nat} :
    Position.of e n < Position.of e' n' ↔ e < e' ∨ e = e' ∧ n < n' :=
  Prod.Lex.toLex_lt_toLex

/-- The epoch of a position. -/
def Position.epoch (p : Position) : Nat := (ofLex p).1

/-- The number of a position in its epoch. -/
def Position.number (p : Position) : Nat := (ofLex p).2

@[simp] theorem Position.epoch_of (e n : Nat) : (Position.of e n).epoch = e := rfl

@[simp] theorem Position.number_of (e n : Nat) : (Position.of e n).number = n := rfl

@[simp] theorem Position.of_eta (p : Position) : Position.of p.epoch p.number = p := rfl

/-- The next `count` positions of the same epoch. -/
def consecutive (p : Position) (count : Nat) : List Position :=
  (List.range' (p.number + 1) count).map (Position.of p.epoch)

variable {α : Type} (position : α → Position) (isMark : α → Bool)

/-- A mark does not go back; an event goes on by one. -/
def Follows (a b : α) : Prop :=
  if isMark b then position a ≤ position b
  else position b = Position.of (position a).epoch ((position a).number + 1)

variable {position isMark}

theorem Follows.lt {a b : α} (h : Follows position isMark a b) (hb : isMark b = false) :
    position a < position b := by
  unfold Follows at h
  rw [if_neg (by rw [hb]; decide)] at h
  rw [h, ← Position.of_eta (position a)]
  exact Position.of_lt_of.mpr (Or.inr ⟨rfl, Nat.lt_succ_self _⟩)

theorem Follows.le {a b : α} (h : Follows position isMark a b) : position a ≤ position b := by
  cases hb : isMark b with
  | true =>
      unfold Follows at h
      rwa [if_pos hb] at h
  | false => exact le_of_lt (h.lt hb)

/-- Any two items of a feed are in order, and an event is past all before it. -/
theorem pairwise {items : List α} (h : items.IsChain (Follows position isMark)) :
    items.Pairwise fun a b =>
      position a ≤ position b ∧ (isMark b = false → position a < position b) := by
  have : Trans (fun a b : α => position a ≤ position b ∧ (isMark b = false → position a < position b))
      (fun a b : α => position a ≤ position b ∧ (isMark b = false → position a < position b))
      (fun a b : α => position a ≤ position b ∧ (isMark b = false → position a < position b)) :=
    ⟨fun hab hbc => ⟨hab.1.trans hbc.1, fun hc => lt_of_le_of_lt hab.1 (hbc.2 hc)⟩⟩
  exact (h.imp fun _ _ hab => ⟨hab.le, hab.lt⟩).pairwise

/-- Events after an item are numbered on from it. -/
theorem positions_of_events {a : α} {events : List α} (hevents : ∀ e ∈ events, isMark e = false)
    (h : (a :: events).IsChain (Follows position isMark)) :
    events.map position = consecutive (position a) events.length := by
  induction events generalizing a with
  | nil => rfl
  | cons b rest ih =>
      rcases List.isChain_cons_cons.mp h with ⟨hab, hrest⟩
      unfold Follows at hab
      rw [if_neg (by rw [hevents b List.mem_cons_self]; decide)] at hab
      have hih := ih (fun e he => hevents e (List.mem_cons_of_mem b he)) hrest
      rw [List.map_cons, hih, hab, List.length_cons]
      simp only [consecutive, Position.epoch_of, Position.number_of, List.range'_succ, List.map_cons]

/-- Consecutive events after an item make a feed. -/
theorem isChain_events {a : α} {events : List α} (hevents : ∀ e ∈ events, isMark e = false)
    (h : events.map position = consecutive (position a) events.length) :
    (a :: events).IsChain (Follows position isMark) := by
  induction events generalizing a with
  | nil => exact List.isChain_singleton a
  | cons b rest ih =>
      simp only [consecutive, List.length_cons, List.range'_succ, List.map_cons, List.cons.injEq] at h
      rcases h with ⟨hb, hrest⟩
      refine List.isChain_cons_cons.mpr ⟨?_, ih (fun e he => hevents e (List.mem_cons_of_mem b he)) ?_⟩
      · unfold Follows
        rw [if_neg (by rw [hevents b List.mem_cons_self]; decide)]
        exact hb
      · rw [hrest, hb]
        rfl

/-- The last of consecutive events is where they lead. -/
theorem position_getLast {a : α} {events : List α}
    (h : events.map position = consecutive (position a) events.length) :
    ∀ z ∈ (a :: events).getLast?,
      position z = Position.of (position a).epoch ((position a).number + events.length) := by
  induction events generalizing a with
  | nil =>
      intro z hz
      cases hz
      rfl
  | cons b rest ih =>
      simp only [consecutive, List.length_cons, List.range'_succ, List.map_cons, List.cons.injEq] at h
      rcases h with ⟨hb, hrest⟩
      intro z hz
      rw [List.getLast?_cons_cons] at hz
      have hz' := ih (a := b) (by rw [hrest, hb]; rfl) z hz
      rw [hz', hb, Position.epoch_of, Position.number_of, List.length_cons]
      congr 1
      omega

/-- A feed goes on from its last item. -/
theorem append {a : α} {items more : List α} (h : items.IsChain (Follows position isMark))
    (ha : a ∈ items.getLast?) (hmore : (a :: more).IsChain (Follows position isMark)) :
    (items ++ more).IsChain (Follows position isMark) ∧
      (items ++ more).getLast? = (a :: more).getLast? := by
  cases more with
  | nil =>
      rw [List.append_nil]
      exact ⟨h, ha⟩
  | cons b rest =>
      rcases List.isChain_cons_cons.mp hmore with ⟨hab, hrest⟩
      refine ⟨List.isChain_append.mpr ⟨h, hrest, fun x hx y hy => ?_⟩, ?_⟩
      · cases hy
        rwa [Option.mem_unique hx ha]
      · rw [List.getLast?_append, List.getLast?_cons_cons]
        cases hlast : (b :: rest).getLast? with
        | none => cases List.getLast?_eq_none_iff.mp hlast
        | some z => rfl

/-- A feed that has gone on is not behind. -/
theorem le_getLast {a : α} {items more : List α}
    (h : (items ++ more).IsChain (Follows position isMark)) (ha : a ∈ items.getLast?) :
    ∃ z ∈ (items ++ more).getLast?, position a ≤ position z := by
  cases hlast : more.getLast? with
  | none =>
      rw [List.getLast?_eq_none_iff.mp hlast, List.append_nil]
      exact ⟨a, ha, le_refl _⟩
  | some z =>
      refine ⟨z, by rw [List.getLast?_append, hlast]; rfl, ?_⟩
      have hordered := (List.pairwise_append.mp (pairwise h)).2.2
      exact (hordered a (List.mem_of_mem_getLast? ha) z (List.mem_of_mem_getLast? hlast)).1

end Feed
