import Mathlib.Data.List.Nodup

/-!
# Maps in Insertion Order

A map that is iterated in the order of insertion while it is being changed, as
the maps of ECMAScript are. Every entry has a stamp that says when its key was
inserted. An iterator remembers the stamp it has seen last and goes on with the
next entry that is there when it is asked: an entry removed meanwhile is
skipped, a key inserted meanwhile is met at the end, and a new value for a key
keeps its place.

## Main definitions

* `OrderedMap`: The entries in order, and the next stamp.
* `has`, `size`, `set`, `delete`: The operations.
* `next?`: The entry an iterator meets next.

## Theorems

* `entry_unique`: A key has one entry.
* `mem_set`, `mem_delete`: The entries after an update.
* `next?_mem`: An iterator meets entries of the map.
-/

structure OrderedMap.Entry (κ ν : Type) where
  stamp : Nat
  key : κ
  value : ν

/-- A map with its entries in insertion order, one for each key. -/
structure OrderedMap (κ ν : Type) where
  entries : List (OrderedMap.Entry κ ν) := []
  nextStamp : Nat := 1
  distinct : (entries.map OrderedMap.Entry.key).Nodup := by exact List.nodup_nil

namespace OrderedMap

variable {κ ν : Type} [DecidableEq κ]

def has (k : κ) (m : OrderedMap κ ν) : Bool :=
  m.entries.any fun e => decide (e.key = k)

def size (m : OrderedMap κ ν) : Nat :=
  m.entries.length

/-- Give an entry a new value if it is the one for a key. -/
def Entry.setIf (k : κ) (v : ν) (e : Entry κ ν) : Entry κ ν :=
  if e.key = k then { e with value := v } else e

@[simp] theorem Entry.setIf_key (k : κ) (v : ν) (e : Entry κ ν) : (e.setIf k v).key = e.key := by
  unfold Entry.setIf
  split <;> rfl

theorem has_iff {k : κ} {m : OrderedMap κ ν} : m.has k = true ↔ k ∈ m.entries.map Entry.key := by
  simp only [has, List.any_eq_true, decide_eq_true_eq, List.mem_map]

/-- A known key keeps its place; a new one goes to the end. -/
def set (k : κ) (v : ν) (m : OrderedMap κ ν) : OrderedMap κ ν :=
  if h : m.has k = true then
    { m with
      entries := m.entries.map (Entry.setIf k v),
      distinct := by
        rw [List.map_map, show Entry.key ∘ Entry.setIf k v = Entry.key from
          funext (Entry.setIf_key k v)]
        exact m.distinct }
  else
    { entries := m.entries ++ [⟨m.nextStamp, k, v⟩],
      nextStamp := m.nextStamp + 1,
      distinct := by
        rw [List.map_append, List.map_singleton]
        refine m.distinct.append (List.nodup_singleton k) ?_
        exact List.disjoint_singleton.mpr fun hk => h (has_iff.mpr hk) }

def delete (k : κ) (m : OrderedMap κ ν) : OrderedMap κ ν :=
  { m with
    entries := m.entries.filter fun e => decide (e.key ≠ k),
    distinct := m.distinct.sublist (List.filter_sublist.map _) }

/-- The first entry inserted after a stamp. -/
def next? (seen : Nat) (m : OrderedMap κ ν) : Option (Entry κ ν) :=
  m.entries.find? fun e => decide (seen < e.stamp)

variable {m : OrderedMap κ ν} {k : κ} {v : ν} {e : Entry κ ν}

omit [DecidableEq κ] in
/-- A key has one entry. -/
theorem entry_unique {e' : Entry κ ν} (h : e ∈ m.entries) (h' : e' ∈ m.entries)
    (hkey : e.key = e'.key) : e = e' :=
  List.inj_on_of_nodup_map m.distinct h h' hkey

theorem mem_set (h : e ∈ (m.set k v).entries) :
    (e.key = k ∧ e.value = v) ∨ (e ∈ m.entries ∧ e.key ≠ k) := by
  unfold set at h
  split at h
  · rcases List.mem_map.mp h with ⟨old, hold, rfl⟩
    by_cases hk : old.key = k
    · refine Or.inl ⟨(old.setIf_key k v).trans hk, ?_⟩
      rw [Entry.setIf, if_pos hk]
    · refine Or.inr ?_
      rw [Entry.setIf, if_neg hk]
      exact ⟨hold, hk⟩
  · rename_i hnew
    rcases List.mem_append.mp h with hold | hlast
    · exact Or.inr ⟨hold, fun hk => hnew (has_iff.mpr (hk ▸ List.mem_map_of_mem hold))⟩
    · rw [List.mem_singleton.mp hlast]
      exact Or.inl ⟨rfl, rfl⟩

theorem mem_delete (h : e ∈ (m.delete k).entries) : e ∈ m.entries :=
  (List.mem_filter.mp h).1

omit [DecidableEq κ] in
theorem next?_mem {seen : Nat} (h : m.next? seen = some e) : e ∈ m.entries :=
  List.mem_of_find?_eq_some h

end OrderedMap
