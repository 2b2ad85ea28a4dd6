import Mathlib.Data.List.Nodup
import Mathlib.Data.List.Range
import Mathlib.Data.List.Sort

/-!
# Numbered Logs

A log whose entries carry the numbers 1, 2, ... without a gap, newest first. A
reader who has seen the entries up to a number is owed the stretch after it.
Since the numbers are dense, a stretch is known by its numbers alone: whatever
rows a reader is handed, if they come from the log and their numbers are the
ones that are due, they are the stretch.

## Main definitions

* `Numbered.Dense`: The numbers of a log have no gap.
* `Numbered.stretch`: The entries after a number, oldest first.

## Theorems

* `map_stretch`: The numbers of a stretch.
* `eq_stretch_of_numbers`: A stretch is known by its numbers.
* `eq_stretch_of_sorted`: A stretch is known by its entries.
-/

namespace Numbered

variable {α : Type}

/-- The entries of a log, newest first, have the numbers 1 to `n`. -/
def Dense (number : α → Nat) (log : List α) (n : Nat) : Prop :=
  log.map number = (List.range' 1 n).reverse

/-- The entries after a number, oldest first. -/
def stretch (number : α → Nat) (log : List α) (after : Nat) : List α :=
  log.reverse.filter fun a => decide (after < number a)

theorem mem_stretch {number : α → Nat} {log : List α} {after : Nat} {a : α} :
    a ∈ stretch number log after ↔ a ∈ log ∧ after < number a := by
  simp only [stretch, List.mem_filter, List.mem_reverse, decide_eq_true_eq]

namespace Dense

variable {number : α → Nat} {log rows : List α} {n after : Nat}

theorem nodup_map (h : Dense number log n) : (log.map number).Nodup := by
  rw [h, List.nodup_reverse]
  exact List.nodup_range'

theorem injective (h : Dense number log n) {a b : α} (ha : a ∈ log) (hb : b ∈ log)
    (hab : number a = number b) : a = b :=
  List.inj_on_of_nodup_map h.nodup_map ha hb hab

/-- The numbers of a stretch. -/
theorem map_stretch (h : Dense number log n) :
    (stretch number log after).map number = List.range' (after + 1) (n - after) := by
  have hnumbers : (stretch number log after).map number
      = (List.range' 1 n).filter fun k => decide (after < k) := by
    rw [stretch, ← List.reverse_reverse (List.range' 1 n), ← h, ← List.map_reverse, List.filter_map]
    rfl
  rw [hnumbers]
  by_cases hle : after ≤ n
  · -- the numbers up to `after` fail the test, the others pass it
    have hsplit : List.range' 1 n = List.range' 1 after ++ List.range' (after + 1) (n - after) := by
      rw [Nat.add_comm after 1, List.range'_append_1, Nat.add_sub_cancel' hle]
    have hfront : (List.range' 1 after).filter (fun k => decide (after < k)) = [] := by
      refine List.filter_eq_nil_iff.mpr fun k hk => ?_
      rw [List.mem_range'_1] at hk
      simp only [decide_eq_true_eq]
      omega
    have hback : (List.range' (after + 1) (n - after)).filter (fun k => decide (after < k))
        = List.range' (after + 1) (n - after) := by
      refine List.filter_eq_self.mpr fun k hk => ?_
      rw [List.mem_range'_1] at hk
      simp only [decide_eq_true_eq]
      omega
    rw [hsplit, List.filter_append, hfront, hback, List.nil_append]
  · rw [Nat.sub_eq_zero_of_le (Nat.le_of_not_le hle), List.range'_zero]
    refine List.filter_eq_nil_iff.mpr fun k hk => ?_
    rw [List.mem_range'_1] at hk
    simp only [decide_eq_true_eq]
    omega

theorem length_stretch (h : Dense number log n) :
    (stretch number log after).length = n - after := by
  rw [← List.length_map number, h.map_stretch, List.length_range']

/-- A stretch is known by its numbers. -/
theorem eq_stretch_of_numbers (h : Dense number log n) (hrows : ∀ a ∈ rows, a ∈ log)
    (hnumbers : rows.map number = List.range' (after + 1) (n - after)) :
    rows = stretch number log after := by
  have hmap : rows.map number = (stretch number log after).map number := by
    rw [hnumbers, h.map_stretch]
  have hlength : rows.length = (stretch number log after).length := by
    rw [← List.length_map number, hmap, List.length_map]
  refine List.ext_getElem hlength fun i hi hi' => ?_
  refine h.injective (hrows _ (List.getElem_mem hi)) (mem_stretch.mp (List.getElem_mem hi')).1 ?_
  have hat : (rows.map number)[i]? = ((stretch number log after).map number)[i]? := by rw [hmap]
  simpa only [List.getElem?_map, List.getElem?_eq_getElem hi, List.getElem?_eq_getElem hi',
    Option.map_some, Option.some.injEq] using hat

/-- A stretch is known by its entries, if they come in order. -/
theorem eq_stretch_of_sorted (h : Dense number log n)
    (hsorted : rows.Pairwise fun a b => number a ≤ number b) (hnodup : rows.Nodup)
    (hmem : ∀ a, a ∈ rows ↔ a ∈ log ∧ after < number a) : rows = stretch number log after := by
  have hordered : (stretch number log after).Pairwise fun a b => number a < number b := by
    rw [← List.pairwise_map, h.map_stretch]
    exact List.pairwise_lt_range'
  have hperm : rows.Perm (stretch number log after) := by
    refine (List.perm_ext_iff_of_nodup hnodup ?_).mpr fun a => (hmem a).trans mem_stretch.symm
    exact hordered.imp fun {a b} hlt hab => Nat.ne_of_lt hlt (congrArg number hab)
  refine hperm.eq_of_pairwise (fun a b ha hb hab hba => ?_) hsorted
    (hordered.imp fun hlt => Nat.le_of_lt hlt)
  have hboth := mem_stretch.mp hb
  exact h.injective ((hmem a).mp ha).1 hboth.1 (Nat.le_antisymm hab hba)

end Dense

end Numbered
