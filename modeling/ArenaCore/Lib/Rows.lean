import Mathlib.Data.List.Nodup

/-!
# Rows with a Key

The rows of a table in the order of their insertion, no two with the same key.
The key is a column of the row, as in a relational table, so a row cannot be
filed under another key than its own. Each operation is characterised by the
rows it leaves, and with unique keys that is all there is to know.

## Main definitions

* `Rows`: Rows with distinct keys.
* `Rows.find`, `Rows.insert`, `Rows.update`, `Rows.put`, `Rows.delete`: The
  operations.

## Theorems

* `Rows.find_eq_some`: What a lookup finds.
* `Rows.mem_insert`, `Rows.mem_update`, `Rows.mem_put`, `Rows.mem_delete`: What is
  left.
-/

/-- Rows with distinct keys. -/
structure Rows {κ α : Type} (key : α → κ) where
  rows : List α := []
  nodup : (rows.map key).Nodup := by exact List.nodup_nil

namespace Rows

variable {κ α : Type} {key : α → κ} {t : Rows key} {b a : α} {k : κ} {p : α → Bool}

/-- Rewrite rows in place, keeping their keys. -/
def update (t : Rows key) (f : α → α) (hf : ∀ a, key (f a) = key a) : Rows key where
  rows := t.rows.map f
  nodup := by
    rw [List.map_map, show key ∘ f = key from funext hf]
    exact t.nodup

def delete (t : Rows key) (p : α → Bool) : Rows key where
  rows := t.rows.filter fun a => !p a
  nodup := (List.filter_sublist.map key).nodup t.nodup

theorem mem_update {f : α → α} {hf : ∀ a, key (f a) = key a} :
    b ∈ (t.update f hf).rows ↔ ∃ a ∈ t.rows, f a = b :=
  List.mem_map

theorem mem_delete : a ∈ (t.delete p).rows ↔ a ∈ t.rows ∧ p a = false := by
  rw [delete, List.mem_filter, Bool.not_eq_true']

theorem delete_eq_self (h : ∀ a ∈ t.rows, p a = false) : t.delete p = t := by
  have hrows : t.rows.filter (fun a => !p a) = t.rows :=
    List.filter_eq_self.2 fun a ha => by rw [h a ha, Bool.not_false]
  cases t
  simp only [delete, Rows.mk.injEq]
  exact hrows

/-- Two rows with one key are one row. -/
theorem eq_of_key (ha : a ∈ t.rows) (hb : b ∈ t.rows) (hkey : key a = key b) : a = b :=
  List.inj_on_of_nodup_map t.nodup ha hb hkey

variable [DecidableEq κ]

def find (t : Rows key) (k : κ) : Option α :=
  t.rows.find? fun a => decide (key a = k)

/-- Add a row. Nothing is added under a key that is taken. -/
def insert (t : Rows key) (a : α) : Rows key :=
  if h : key a ∈ t.rows.map key then t
  else
    { rows := t.rows ++ [a]
      nodup := by
        rw [List.map_append, List.map_singleton]
        exact List.nodup_append.2 ⟨t.nodup, List.nodup_singleton _, fun k hk k' hk' heq =>
          h (List.mem_singleton.1 hk' ▸ heq ▸ hk)⟩ }

/-- The row takes the place of the one with its key. -/
def replace (t : Rows key) (a : α) : Rows key :=
  t.update (fun b => if key b = key a then a else b) fun b => by
    split
    · next h => exact h.symm
    · rfl

theorem mem_replace (h : b ∈ (t.replace a).rows) : b = a ∨ b ∈ t.rows := by
  obtain ⟨c, hc, rfl⟩ := mem_update.1 h
  split
  · exact .inl rfl
  · exact .inr hc

/-- The row takes the place of the one with the key `k`, unless its own key belongs to
    another row. -/
def put (t : Rows key) (k : κ) (a : α) : Rows key :=
  if h : key a ∈ t.rows.map key ∧ key a ≠ k then t
  else
    { rows := t.rows.map fun b => if key b = k then a else b
      nodup := by
        have hkeys : (t.rows.map fun b => if key b = k then a else b).map key
            = (t.rows.map key).map fun x => if x = k then key a else x := by
          rw [List.map_map, List.map_map]
          exact List.map_congr_left fun b _ => apply_ite key _ _ _
        rw [hkeys]
        refine t.nodup.map_on fun x hx y hy hxy => ?_
        split at hxy <;> split at hxy
        · next hxk hyk => exact hxk.trans hyk.symm
        · next _ hyk => exact absurd ⟨hxy ▸ hy, fun hak => hyk (hxy.symm.trans hak)⟩ h
        · next hxk _ => exact absurd ⟨hxy ▸ hx, fun hak => hxk (hxy.trans hak)⟩ h
        · exact hxy }

theorem mem_put (hfree : key a ∈ t.rows.map key → key a = k) (hk : k ∈ t.rows.map key) :
    b ∈ (t.put k a).rows ↔ b = a ∨ b ∈ t.rows ∧ key b ≠ k := by
  rw [put, dif_neg fun h => h.2 (hfree h.1), List.mem_map]
  constructor
  · rintro ⟨c, hc, rfl⟩
    split
    · exact .inl rfl
    · next hck => exact .inr ⟨hc, hck⟩
  · rintro (rfl | ⟨hb, hbk⟩)
    · obtain ⟨c, hc, hck⟩ := List.mem_map.1 hk
      exact ⟨c, hc, if_pos hck⟩
    · exact ⟨b, hb, if_neg hbk⟩

/-- The rows beside one of them, which are left when it goes. -/
theorem exists_rest (ha : a ∈ t.rows) :
    ∃ rest, t.rows.Perm (a :: rest) ∧
      (t.delete fun b => decide (key b = key a)).rows.Perm rest := by
  obtain ⟨before, after, hrows⟩ := List.append_of_mem ha
  have hnodup := t.nodup
  rw [hrows, (List.perm_middle.map key).nodup_iff, List.map_cons, List.nodup_cons] at hnodup
  have hperm : t.rows.Perm (a :: (before ++ after)) := hrows ▸ List.perm_middle
  refine ⟨before ++ after, hperm, (hperm.filter _).trans ?_⟩
  rw [List.filter_cons_of_neg (by simp), List.filter_eq_self.2 fun b hb => ?_]
  rw [Bool.not_eq_true', decide_eq_false_iff_not]
  exact fun hkey => hnodup.1 (hkey ▸ List.mem_map_of_mem hb)

theorem mem_of_find (h : t.find k = some a) : a ∈ t.rows ∧ key a = k := by
  unfold find at h
  have hkey := List.find?_some h
  exact ⟨List.mem_of_find?_eq_some h, of_decide_eq_true hkey⟩

theorem find_eq_some : t.find k = some a ↔ a ∈ t.rows ∧ key a = k := by
  refine ⟨mem_of_find, ?_⟩
  rintro ⟨hmem, rfl⟩
  cases hfind : t.find (key a) with
  | none => exact absurd (List.find?_eq_none.1 hfind a hmem) (by simp)
  | some b =>
      obtain ⟨hb, hkey⟩ := mem_of_find hfind
      rw [eq_of_key hb hmem hkey]

theorem find_eq_none : t.find k = none ↔ ∀ a ∈ t.rows, key a ≠ k := by
  rw [find, List.find?_eq_none]
  exact forall₂_congr fun a _ => by rw [decide_eq_true_iff]

/-- The row of a key, with the fact that it has it. -/
def lookup (t : Rows key) (k : κ) : Option { a : α // key a = k } :=
  match h : t.find k with
  | none => none
  | some a => some ⟨a, (mem_of_find h).2⟩

theorem map_lookup (t : Rows key) (k : κ) : (t.lookup k).map Subtype.val = t.find k := by
  unfold lookup
  split
  · next h => exact h.symm
  · next a h => exact h.symm

theorem mem_insert (h : b ∈ (t.insert a).rows) : b = a ∨ b ∈ t.rows := by
  unfold insert at h
  split at h
  · exact .inr h
  · exact (List.mem_append.1 h).symm.imp_left List.mem_singleton.1

theorem mem_insert_of_mem (h : b ∈ t.rows) : b ∈ (t.insert a).rows := by
  unfold insert
  split
  · exact h
  · exact List.mem_append_left _ h

theorem mem_keys : k ∈ t.rows.map key ↔ (t.find k).isSome := by
  rw [Option.isSome_iff_ne_none, ne_eq, find_eq_none, List.mem_map]
  push Not
  exact Iff.rfl

theorem rows_insert (hfree : t.find (key a) = none) : (t.insert a).rows = t.rows ++ [a] := by
  have hnew : key a ∉ t.rows.map key := by
    rw [mem_keys, hfree]
    exact nofun
  rw [insert, dif_neg hnew]

theorem mem_insert_iff (hfree : t.find (key a) = none) :
    b ∈ (t.insert a).rows ↔ b = a ∨ b ∈ t.rows ∧ key b ≠ key a := by
  rw [rows_insert hfree, List.mem_append, List.mem_singleton, or_comm]
  exact or_congr_right ⟨fun hb => ⟨hb, find_eq_none.1 hfree b hb⟩, And.left⟩

/-- What is left when a row takes the place of the one with its key. -/
theorem mem_replace_iff (hfound : (t.find (key a)).isSome) :
    b ∈ (t.replace a).rows ↔ b = a ∨ b ∈ t.rows ∧ key b ≠ key a := by
  obtain ⟨old, hold⟩ := Option.isSome_iff_exists.1 hfound
  obtain ⟨hmem, hkey⟩ := mem_of_find hold
  rw [replace, mem_update]
  constructor
  · rintro ⟨c, hc, rfl⟩
    split
    · exact .inl rfl
    · next hne => exact .inr ⟨hc, hne⟩
  · rintro (rfl | ⟨hb, hne⟩)
    · exact ⟨old, hmem, if_pos hkey⟩
    · exact ⟨b, hb, if_neg hne⟩

end Rows
