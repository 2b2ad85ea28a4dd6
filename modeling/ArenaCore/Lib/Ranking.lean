import Mathlib.Data.List.Sort

/-!
# Places in a Sorted List

In a sorted list without repetitions, the place of an element is the number of
elements that come before it in the order. So what is left of the list without its
first `n` elements can be said without sorting.

## Theorems

* `mem_drop_iff`: What a sorted list has beyond its first elements.
* `mem_drop_insertionSort_iff`: The same for the list that was sorted.
-/

namespace Ranking

variable {α : Type} [DecidableEq α] {r : α → α → Prop} [DecidableRel r] {n : Nat}

/-- The elements that come before another. -/
def ahead (r : α → α → Prop) [DecidableRel r] (l : List α) (a : α) : List α :=
  l.filter fun b => decide (b ≠ a ∧ r b a)

theorem length_ahead {before after : List α} {a : α} (hsorted : (before ++ a :: after).Pairwise r)
    (hnodup : (before ++ a :: after).Nodup)
    (hanti : ∀ b ∈ before ++ a :: after, r a b → r b a → b = a) :
    (ahead r (before ++ a :: after) a).length = before.length := by
  have hbefore : before.filter (fun b => decide (b ≠ a ∧ r b a)) = before := by
    refine List.filter_eq_self.2 fun b hb => decide_eq_true ⟨?_, ?_⟩
    · exact (List.nodup_append.1 hnodup).2.2 b hb a List.mem_cons_self
    · exact (List.pairwise_append.1 hsorted).2.2 b hb a List.mem_cons_self
  have hafter : after.filter (fun b => decide (b ≠ a ∧ r b a)) = [] := by
    refine List.filter_eq_nil_iff.2 fun b hb h => ?_
    obtain ⟨hne, hba⟩ := of_decide_eq_true h
    have hab := (List.pairwise_cons.1 (List.pairwise_append.1 hsorted).2.1).1 b hb
    exact hne (hanti b (by simp [hb]) hab hba)
  rw [ahead, List.filter_append, hbefore, List.filter_cons_of_neg (by simp), hafter,
    List.append_nil]

theorem mem_drop_iff {l : List α} {a : α} (hsorted : l.Pairwise r) (hnodup : l.Nodup)
    (hanti : ∀ b ∈ l, r a b → r b a → b = a) : a ∈ l.drop n ↔ a ∈ l ∧ n ≤ (ahead r l a).length := by
  constructor
  · intro h
    obtain ⟨before, after, hsplit⟩ := List.append_of_mem h
    have hl : l = (l.take n ++ before) ++ a :: after := by
      rw [List.append_assoc, ← hsplit, List.take_append_drop]
    refine ⟨List.mem_of_mem_drop h, ?_⟩
    rw [hl] at hsorted hnodup hanti
    have hlength := length_ahead hsorted hnodup hanti
    rw [← hl] at hlength
    have hn : n < l.length := by
      by_contra hn
      rw [List.drop_eq_nil_of_le (Nat.le_of_not_lt hn)] at h
      cases h
    rw [hlength, List.length_append, List.length_take]
    omega
  · rintro ⟨hmem, hn⟩
    obtain ⟨before, after, rfl⟩ := List.append_of_mem hmem
    rw [length_ahead hsorted hnodup hanti] at hn
    rw [List.drop_append_of_le_length hn]
    exact List.mem_append_right _ List.mem_cons_self

theorem mem_drop_insertionSort_iff [Std.Total r] [IsTrans α r] {l : List α} {a : α}
    (hnodup : l.Nodup) (hanti : ∀ b ∈ l, r a b → r b a → b = a) :
    a ∈ (l.insertionSort r).drop n ↔ a ∈ l ∧ n ≤ (ahead r l a).length := by
  have hperm := List.perm_insertionSort r l
  rw [mem_drop_iff (List.pairwise_insertionSort r l) (hperm.nodup_iff.2 hnodup)
    (fun b hb => hanti b (hperm.mem_iff.1 hb)), hperm.mem_iff]
  have hlength : (ahead r (l.insertionSort r) a).length = (ahead r l a).length :=
    (hperm.filter _).length_eq
  rw [hlength]

end Ranking
