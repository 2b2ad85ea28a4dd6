import Mathlib.Data.List.Chain
import Mathlib.Data.List.Infix
import Mathlib.Order.Bounds.Basic
import Mathlib.Order.SuccPred.Basic

/-!
# Stretches of Neighbours

A list is cut into stretches whose neighbours are related. Two loops measure them:
one walks forward and keeps the stretch it is in and the longest so far, the other
walks back from the end until a pair is not related.

Both are specified by chains inside the list: the stretch at the end is the longest
chain that is a tail of it, the longest stretch the longest chain that stands in it
anywhere. Where the list is the sorted list of a set and the relation is "the next
one", every chain of members stands in the list, so the loops measure the set.

## Main definitions

* `endStretch`: The loop from the end.
* `Walk`, `walk`: The loop from the front.

## Theorems

* `isGreatest_endStretch`: The stretch at the end.
* `walk_spec`: What the forward loop has found.
* `infix_of_successive`: A chain of members stands in the sorted list.
-/

namespace Stretches

section loops

variable {β : Type*} {R : β → β → Prop} {l : List β} {a b : β}

/-- The stretch at the end of a list that is given from its end. -/
def endStretch (R : β → β → Prop) [DecidableRel R] : List β → Nat
  | [] => 0
  | [_] => 1
  | b :: a :: rest => if R a b then endStretch R (a :: rest) + 1 else 1

/-- The state of the forward loop. -/
structure Walk (β : Type*) where
  longest : Nat := 0
  run : Nat := 0
  previous : Option β := none

/-- The stretch goes on if the element before is related. -/
def walk (R : β → β → Prop) [DecidableRel R] (w : Walk β) (b : β) : Walk β :=
  let run := if w.previous.any (fun a => decide (R a b)) = true then w.run + 1 else 1
  { longest := max w.longest run, run := run, previous := some b }

/-- The lengths of the chains at the end. -/
def EndChain (R : β → β → Prop) (l : List β) (n : Nat) : Prop :=
  ∃ s, s <:+ l ∧ s.IsChain R ∧ s.length = n

/-- The lengths of the chains anywhere. -/
def InnerChain (R : β → β → Prop) (l : List β) (n : Nat) : Prop :=
  ∃ s, s <:+: l ∧ s.IsChain R ∧ s.length = n

/-- A chain at the end of a longer list: nothing, or one more than a chain before,
    if the new element is related to the last. -/
theorem endChain_concat {n : Nat} :
    EndChain R (l ++ [b]) n ↔ n = 0 ∨ n = 1 ∨
      ∃ k a, n = k + 1 + 1 ∧ l.getLast? = some a ∧ R a b ∧ EndChain R l (k + 1) := by
  constructor
  · rintro ⟨s, hs, hchain, rfl⟩
    rcases List.suffix_concat_iff.1 hs with rfl | ⟨t, rfl, ht⟩
    · exact .inl rfl
    right
    rcases List.eq_nil_or_concat' t with rfl | ⟨t', a, rfl⟩
    · exact .inl rfl
    right
    obtain ⟨hleft, _, hlast⟩ := List.isChain_append.1 hchain
    obtain ⟨front, rfl⟩ := ht
    refine ⟨t'.length, a, by simp, by simp [← List.append_assoc], hlast a (by simp) b (by simp),
      t' ++ [a], List.suffix_append _ _, hleft, by simp⟩
  · rintro (rfl | rfl | ⟨k, a, rfl, hlast, hrel, s, hs, hchain, hlength⟩)
    · exact ⟨[], List.nil_suffix, .nil, rfl⟩
    · exact ⟨[b], List.suffix_append _ _, .singleton b, rfl⟩
    · refine ⟨s ++ [b], List.suffix_concat_iff.2 (.inr ⟨s, rfl, hs⟩),
        List.isChain_append.2 ⟨hchain, .singleton b, ?_⟩, by simp [hlength]⟩
      rintro x hx y hy
      obtain ⟨front, rfl⟩ := hs
      have hne : s ≠ [] := by
        rintro rfl
        cases hlength
      rw [List.getLast?_append_of_ne_nil _ hne] at hlast
      cases hlast.symm.trans hx
      cases hy
      exact hrel

/-- The loop from the end finds the longest chain that ends there. -/
theorem isGreatest_endStretch (R : β → β → Prop) [DecidableRel R] (l : List β) :
    IsGreatest {n | EndChain R l n} (endStretch R l.reverse) := by
  induction l using List.reverseRecOn with
  | nil =>
      refine ⟨⟨[], List.suffix_refl _, .nil, rfl⟩, ?_⟩
      rintro _ ⟨s, hs, _, rfl⟩
      rw [List.suffix_nil.1 hs]
      exact Nat.le_refl 0
  | append_singleton l b ih =>
      rw [List.reverse_append, List.reverse_singleton, List.singleton_append]
      rcases List.eq_nil_or_concat' l with rfl | ⟨front, a, rfl⟩
      · refine ⟨endChain_concat.2 (.inr (.inl rfl)), ?_⟩
        intro n hn
        rcases endChain_concat.1 hn with rfl | rfl | ⟨_, _, _, hlast, _⟩
        · exact Nat.zero_le 1
        · exact Nat.le_refl 1
        · cases hlast
      rw [List.reverse_append, List.reverse_singleton, List.singleton_append] at ih ⊢
      rw [endStretch]
      have hpos : ∃ k, endStretch R (a :: front.reverse) = k + 1 := by
        refine Nat.exists_eq_add_one.2 (ih.2 (endChain_concat.2 (.inr (.inl rfl))))
      obtain ⟨k, hk⟩ := hpos
      split
      · next hrel =>
          refine ⟨endChain_concat.2 (.inr (.inr ⟨k, a, by rw [hk], by simp, hrel, hk ▸ ih.1⟩)), ?_⟩
          intro n hn
          rcases endChain_concat.1 hn with rfl | rfl | ⟨i, _, rfl, _, _, hchain⟩
          · exact Nat.zero_le _
          · exact Nat.succ_le_succ (Nat.zero_le _)
          · exact Nat.succ_le_succ (ih.2 hchain)
      · next hrel =>
          refine ⟨endChain_concat.2 (.inr (.inl rfl)), ?_⟩
          intro n hn
          rcases endChain_concat.1 hn with rfl | rfl | ⟨_, c, _, hlast, hrel', _⟩
          · exact Nat.zero_le 1
          · exact Nat.le_refl 1
          · rw [List.getLast?_concat, Option.some.injEq] at hlast
            exact absurd (hlast ▸ hrel') hrel

/-- What the forward loop has found after a list. -/
structure Walked (R : β → β → Prop) [DecidableRel R] (l : List β) (w : Walk β) : Prop where
  previous : w.previous = l.getLast?
  run : w.run = endStretch R l.reverse
  longest : IsGreatest {n | InnerChain R l n} w.longest

theorem walked_step [DecidableRel R] {w : Walk β} (h : Walked R l w) (b : β) :
    Walked R (l ++ [b]) (walk R w b) := by
  have hrun : (walk R w b).run = endStretch R (l ++ [b]).reverse := by
    rw [walk, h.previous, h.run, List.reverse_append, List.reverse_singleton,
      List.singleton_append]
    rcases List.eq_nil_or_concat' l with rfl | ⟨front, a, rfl⟩
    · rfl
    · simp [endStretch]
  have hend := isGreatest_endStretch R (l ++ [b])
  rw [← hrun] at hend
  refine ⟨by simp [walk], hrun, ?_, ?_⟩
  · -- the longer of the two is a chain, here or before
    rcases max_choice w.longest (walk R w b).run with hmax | hmax
    · obtain ⟨s, hs, hchain, hlength⟩ := h.longest.1
      exact ⟨s, List.infix_concat_iff.2 (.inr hs), hchain, hlength.trans hmax.symm⟩
    · obtain ⟨s, hs, hchain, hlength⟩ := hend.1
      exact ⟨s, hs.isInfix, hchain, hlength.trans hmax.symm⟩
  · rintro n ⟨s, hs, hchain, hlength⟩
    rcases List.infix_concat_iff.1 hs with hs | hs
    · exact (hend.2 ⟨s, hs, hchain, hlength⟩).trans (Nat.le_max_right _ _)
    · exact (h.longest.2 ⟨s, hs, hchain, hlength⟩).trans (Nat.le_max_left _ _)

theorem walk_spec (R : β → β → Prop) [DecidableRel R] (l : List β) :
    Walked R l (l.foldl (walk R) {}) := by
  induction l using List.reverseRecOn with
  | nil =>
      refine ⟨rfl, rfl, ⟨[], List.infix_refl _, .nil, rfl⟩, ?_⟩
      rintro _ ⟨s, hs, _, rfl⟩
      rw [List.infix_nil.1 hs]
      exact Nat.le_refl 0
  | append_singleton l b ih =>
      rw [List.foldl_append]
      exact walked_step ih b

end loops

section successors

variable {α : Type*} [LinearOrder α] [SuccOrder α] [NoMaxOrder α] {l xs : List α} {a b : α}

/-- Each is the next one after the one before. -/
def Successive (l : List α) : Prop :=
  l.IsChain fun a b => Order.succ a = b

theorem Successive.lt (h : Successive (a :: l)) (hb : b ∈ l) : a < b := by
  have hlt : (a :: l).IsChain (· < ·) :=
    List.IsChain.imp (fun x y (hxy : Order.succ x = y) => hxy ▸ Order.lt_succ x) h
  exact (List.pairwise_cons.1 hlt.pairwise).1 b hb

/-- From a member on, a chain of members is the front of the sorted list: there is
    nothing between a member and the next one. -/
theorem front_of_successive (hsorted : (a :: xs).Pairwise (· < ·)) (h : Successive (a :: l))
    (hmem : ∀ c ∈ l, c ∈ xs) : (a :: l) <+: (a :: xs) := by
  induction l generalizing a xs with
  | nil => exact ⟨xs, rfl⟩
  | cons b l ih =>
      obtain ⟨hnext, hrest⟩ := List.isChain_cons_cons.1 h
      cases xs with
      | nil => exact absurd (hmem b List.mem_cons_self) List.not_mem_nil
      | cons c xs =>
          obtain ⟨hac, hsorted⟩ := List.pairwise_cons.1 hsorted
          have hcb : c = b := by
            refine le_antisymm ?_ (hnext ▸ Order.succ_le_of_lt (hac c List.mem_cons_self))
            rcases List.mem_cons.1 (hmem b List.mem_cons_self) with rfl | hb
            · exact le_refl _
            · exact ((List.pairwise_cons.1 hsorted).1 b hb).le
          subst hcb
          refine (List.prefix_cons_inj a).2 (ih hsorted hrest fun x hx => ?_)
          rcases List.mem_cons.1 (hmem x (List.mem_cons_of_mem _ hx)) with rfl | hx'
          · exact absurd (Successive.lt hrest hx) (lt_irrefl _)
          · exact hx'

/-- A chain of members stands in the sorted list. -/
theorem infix_of_successive (hsorted : xs.Pairwise (· < ·)) (h : Successive l)
    (hmem : ∀ c ∈ l, c ∈ xs) : l <:+: xs := by
  cases l with
  | nil => exact List.nil_infix
  | cons a l =>
      obtain ⟨before, after, rfl⟩ := List.append_of_mem (hmem a List.mem_cons_self)
      obtain ⟨_, hafter, hbefore⟩ := List.pairwise_append.1 hsorted
      refine (front_of_successive hafter h fun c hc => ?_).isInfix.trans
        (List.suffix_append _ _).isInfix
      have hac := Successive.lt h hc
      rcases List.mem_append.1 (hmem c (List.mem_cons_of_mem _ hc)) with hc | hc
      · exact absurd (hbefore c hc a List.mem_cons_self) hac.le.not_gt
      · rcases List.mem_cons.1 hc with rfl | hc
        · exact absurd hac (lt_irrefl _)
        · exact hc

/-- One that ends with the last member is its tail. -/
theorem suffix_of_successive (hsorted : xs.Pairwise (· < ·)) (h : Successive l)
    (hmem : ∀ c ∈ l, c ∈ xs) (hlast : l.getLast? = some a) (hend : xs.getLast? = some a) :
    l <:+ xs := by
  obtain ⟨before, after, rfl⟩ := infix_of_successive hsorted h hmem
  rcases List.eq_nil_or_concat' after with rfl | ⟨front, b, rfl⟩
  · exact ⟨before, by rw [List.append_nil]⟩
  · rw [← List.append_assoc, List.getLast?_concat, Option.some.injEq] at hend
    subst hend
    have ha := List.mem_of_getLast? hlast
    exact absurd ((List.pairwise_append.1 hsorted).2.2 b (List.mem_append_right _ ha) b (by simp))
      (lt_irrefl _)

end successors

end Stretches
