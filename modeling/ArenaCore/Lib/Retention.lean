import Mathlib.Algebra.Order.Ring.Nat
import Mathlib.Data.List.Nodup
import Mathlib.Data.List.TakeDrop

/-!
# Bounded Retention

A log that is cut back after every append. Rows are walked from the newest,
counting rows and adding up weights, and a row goes once either count is past
its cap. Both counts only grow along the walk, so what goes is a tail of the
list: the log keeps its newest rows and no row that is kept is older than one
that is dropped.

## Main definitions

* `Retention.overflow`: The rows past a cap.

## Theorems

* `overflow_of_full`: Past a cap, everything goes.
* `overflow_eq_drop`: What goes is a tail, and what stays is within the caps.
* `filter_notMem_drop`: Deleting a tail by membership leaves the front.
* `exists_kept`: Both facts about a list without repetitions.
-/

namespace Retention

variable {α : Type}

/-- The rows beyond the row cap or the weight cap, walking from the newest with
    the index and the weight seen so far. -/
def overflow (rows cap : Nat) (weight : α → Nat) : Nat → Nat → List α → List α
  | _, _, [] => []
  | i, total, a :: rest =>
      if rows ≤ i ∨ cap < total + weight a then
        a :: overflow rows cap weight (i + 1) (total + weight a) rest
      else overflow rows cap weight (i + 1) (total + weight a) rest

variable (rows cap : Nat) (weight : α → Nat)

theorem overflow_of_full (l : List α) :
    ∀ i total, rows ≤ i ∨ cap < total → overflow rows cap weight i total l = l := by
  induction l with
  | nil => intro i total _; rfl
  | cons a rest ih =>
      intro i total hfull
      have hhere : rows ≤ i ∨ cap < total + weight a := by omega
      have hnext : rows ≤ i + 1 ∨ cap < total + weight a := by omega
      rw [overflow, if_pos hhere, ih _ _ hnext]

/-- What goes is a tail of the list, and what stays is within both caps. -/
theorem overflow_eq_drop (l : List α) : ∀ i total, i ≤ rows → total ≤ cap →
    ∃ k, overflow rows cap weight i total l = l.drop k ∧ i + k ≤ rows ∧
      total + ((l.take k).map weight).sum ≤ cap ∧
      ∀ a rest, l = a :: rest → i < rows → total + weight a ≤ cap → 1 ≤ k := by
  induction l with
  | nil =>
      intro i total hi htotal
      exact ⟨0, rfl, hi, htotal, fun a rest hl => (by cases hl)⟩
  | cons a rest ih =>
      intro i total hi htotal
      by_cases hfull : rows ≤ i ∨ cap < total + weight a
      · -- the first row already goes, and everything after it
        refine ⟨0, ?_, hi, htotal, fun b tail hl hlt hfits => ?_⟩
        · rw [overflow, if_pos hfull, overflow_of_full rows cap weight rest _ _ (by omega)]
          rfl
        · cases hl
          omega
      · rcases ih (i + 1) (total + weight a) (by omega) (by omega) with ⟨k, hk, hrows, hcap, _⟩
        refine ⟨k + 1, ?_, by omega, ?_, fun _ _ _ _ _ => Nat.le_add_left 1 k⟩
        · rw [overflow, if_neg hfull, hk, List.drop_succ_cons]
        · rw [List.take_succ_cons, List.map_cons, List.sum_cons]
          omega

/-- Deleting a tail by membership leaves the front of a list without
    repetitions. -/
theorem filter_notMem_drop [DecidableEq α] {l : List α} (hl : l.Nodup) (k : Nat) :
    l.filter (fun a => decide (a ∉ l.drop k)) = l.take k := by
  have hdisjoint := List.disjoint_take_drop hl (Nat.le_refl k)
  have hfront : (l.take k).filter (fun a => decide (a ∉ l.drop k)) = l.take k := by
    refine List.filter_eq_self.mpr fun a ha => ?_
    simpa only [decide_eq_true_eq] using fun hdrop => hdisjoint ha hdrop
  have htail : (l.drop k).filter (fun a => decide (a ∉ l.drop k)) = [] := by
    refine List.filter_eq_nil_iff.mpr fun a ha => ?_
    simpa only [decide_eq_true_eq, not_not] using ha
  calc l.filter (fun a => decide (a ∉ l.drop k))
      = (l.take k ++ l.drop k).filter (fun a => decide (a ∉ l.drop k)) := by
        rw [List.take_append_drop]
    _ = l.take k := by rw [List.filter_append, hfront, htail, List.append_nil]

/-- Cutting back a list without repetitions: the front that stays, the tail
    that goes, and that the newest row stays if it fits by itself. -/
theorem exists_kept [DecidableEq α] {a : α} {rest : List α} (hl : (a :: rest).Nodup)
    (hrows : 0 < rows) (hfits : weight a ≤ cap) :
    ∃ k, 1 ≤ k ∧ k ≤ rows ∧ (((a :: rest).take k).map weight).sum ≤ cap ∧
      overflow rows cap weight 0 0 (a :: rest) = (a :: rest).drop k ∧
      (a :: rest).filter (fun b => decide (b ∉ overflow rows cap weight 0 0 (a :: rest)))
        = (a :: rest).take k := by
  rcases overflow_eq_drop rows cap weight (a :: rest) 0 0 (Nat.zero_le _) (Nat.zero_le _) with
    ⟨k, hk, hcount, hsum, hfirst⟩
  refine ⟨k, hfirst a rest rfl hrows (by omega), by omega, by omega, hk, ?_⟩
  rw [hk]
  exact filter_notMem_drop hl k

end Retention
