import Mathlib.Data.List.AList

/-!
# Keyed Tables

A table is a finite map from keys to rows, `AList` without the dependency of
the row type on the key. A transaction touches a table in two ways that
`AList` has no operation for: it rewrites rows in place (`mapValues`, `set`), or
it visits a list of keys one after the other and gives up at the first failure
(`forEach`). All are characterised by what a lookup finds afterwards, which is
what nearly every later proof uses.

## Main definitions

* `Table`: A finite map.
* `Table.mapValues`: Rewrite all rows.
* `Table.set`: Rewrite one row.
* `Table.forEach`: Rewrite the rows of some keys, in order, or fail.

## Theorems

* `lookup_of_insert`, `lookup_of_erase`: A lookup after a row came or went.
* `lookup_forEach_of_mem`: A pass applies the body once to each visited row.
* `forEach_eq_ok`: A pass succeeds when the body does on every visited row.
* `mapValues_set`, `mapValues_insert`, `forEach_mapValues`: An operation on a
  rewritten table is the rewritten result of the operation.
-/

/-- A finite map from keys to rows. -/
abbrev Table (κ α : Type) := AList (fun _ : κ => α)

namespace Table

variable {κ α ε : Type} {t : Table κ α} {k k' : κ} {a : α} {b : α} {p : α → Bool}

/-- Rewrite every row in place. -/
def mapValues (f : κ → α → α) (t : Table κ α) : Table κ α :=
  ⟨t.entries.map fun e => ⟨e.1, f e.1 e.2⟩, by
    have hkeys : (t.entries.map fun e => (⟨e.1, f e.1 e.2⟩ : Sigma fun _ : κ => α)).keys
        = t.entries.keys := by
      simp only [List.keys, List.map_map]
      rfl
    rw [List.NodupKeys, hkeys]
    exact t.nodupKeys⟩

/-- Keep the rows that pass a test. -/
def filter (p : κ → α → Bool) (t : Table κ α) : Table κ α :=
  ⟨t.entries.filter fun e => p e.1 e.2,
    List.NodupKeys.sublist List.filter_sublist t.nodupKeys⟩

theorem keys_mapValues (f : κ → α → α) (t : Table κ α) : (mapValues f t).keys = t.keys := by
  simp only [mapValues, AList.keys, List.keys, List.map_map]
  rfl

theorem entries_mapValues (f : κ → α → α) (t : Table κ α) :
    (mapValues f t).entries = t.entries.map fun e => ⟨e.1, f e.1 e.2⟩ := rfl

/-- Two rewritings that agree on the rows of a table agree on the table. -/
theorem mapValues_congr {f g : κ → α → α} (h : ∀ e ∈ t.entries, f e.1 e.2 = g e.1 e.2) :
    mapValues f t = mapValues g t := by
  refine AList.ext (List.map_congr_left fun e he => ?_)
  rw [h e he]

theorem mapValues_mapValues (f g : κ → α → α) (t : Table κ α) :
    mapValues f (mapValues g t) = mapValues (fun k a => f k (g k a)) t := by
  refine AList.ext ?_
  simp only [entries_mapValues, List.map_map]
  rfl

variable [DecidableEq κ]

/-- Rewrite the row of a key, if it has one, in its place. -/
def set (k : κ) (a : α) (t : Table κ α) : Table κ α :=
  mapValues (fun k' a' => if k' = k then a else a') t

/-- Visit the keys in order, rewriting each row that exists, and stop at the
    first failure. -/
def forEach (f : α → Except ε α) : List κ → Table κ α → Except ε (Table κ α)
  | [], t => .ok t
  | k :: rest, t =>
      match t.lookup k with
      | none => forEach f rest t
      | some a =>
          match f a with
          | .ok b => forEach f rest (set k b t)
          | .error e => .error e

theorem lookup_mapValues (f : κ → α → α) (t : Table κ α) (k : κ) :
    (mapValues f t).lookup k = (t.lookup k).map (f k) := by
  rcases t with ⟨entries, hnodup⟩
  simp only [mapValues, AList.lookup]
  induction entries with
  | nil => rfl
  | cons e rest ih =>
      rcases e with ⟨k', a⟩
      simp only [List.map_cons]
      by_cases hk : k = k'
      · subst hk
        rw [List.dlookup_cons_eq, List.dlookup_cons_eq]
        rfl
      · rw [List.dlookup_cons_ne _ _ (by exact hk), List.dlookup_cons_ne _ _ (by exact hk)]
        exact ih (List.nodupKeys_cons.mp hnodup).2

theorem lookup_filter (p : κ → α → Bool) (t : Table κ α) (k : κ) :
    (filter p t).lookup k = (t.lookup k).filter (p k) := by
  have hmem : ∀ a, a ∈ (filter p t).lookup k ↔ a ∈ t.lookup k ∧ p k a = true := by
    intro a
    rw [AList.mem_lookup_iff, AList.mem_lookup_iff, filter, List.mem_filter]
  refine Option.ext fun a => ?_
  rw [Option.filter_eq_some_iff]
  exact hmem a

/-- What a lookup finds after an insertion is new or was there before. -/
theorem lookup_of_insert (h : (t.insert k a).lookup k' = some b) :
    (k' = k ∧ b = a) ∨ (k' ≠ k ∧ t.lookup k' = some b) := by
  by_cases hk : k' = k
  · subst hk
    rw [AList.lookup_insert] at h
    cases h
    exact .inl ⟨rfl, rfl⟩
  · rw [AList.lookup_insert_ne hk] at h
    exact .inr ⟨hk, h⟩

/-- What a lookup finds after a deletion was there before. -/
theorem lookup_of_erase (h : (t.erase k).lookup k' = some a) : k' ≠ k ∧ t.lookup k' = some a := by
  by_cases hk : k' = k
  · subst hk
    rw [AList.lookup_erase] at h
    cases h
  · rw [AList.lookup_erase_ne hk] at h
    exact ⟨hk, h⟩

theorem lookup_set_self (h : t.lookup k = some b) : (set k a t).lookup k = some a := by
  rw [set, lookup_mapValues, h, Option.map_some, if_pos rfl]

theorem lookup_set_ne (a : α) (t : Table κ α) (hk : k' ≠ k) :
    (set k a t).lookup k' = t.lookup k' := by
  rw [set, lookup_mapValues]
  cases t.lookup k' with
  | none => rfl
  | some b => rw [Option.map_some, if_neg hk]

/-- Writing back what is there changes nothing. -/
theorem set_same (h : t.lookup k = some a) : set k a t = t := by
  refine AList.ext ?_
  simp only [set, mapValues]
  refine (List.map_congr_left fun e he => ?_).trans (List.map_id _)
  rcases e with ⟨k', b⟩
  by_cases hk : k' = k
  · -- the entry of the key is the row a lookup finds
    subst hk
    have hb : t.lookup k' = some b := AList.mem_lookup_iff.mpr he
    rw [h] at hb
    cases hb
    simp only [if_true, id_eq]
  · simp only [if_neg hk, id_eq]

theorem lookup_forEach_of_notMem (f : α → Except ε α) (k : κ) (keys : List κ) :
    ∀ t t' : Table κ α, k ∉ keys → forEach f keys t = .ok t' → t'.lookup k = t.lookup k := by
  induction keys with
  | nil => intro t t' _ h; cases h; rfl
  | cons k' rest ih =>
      intro t t' hk h
      have hne : k ≠ k' := fun hc => hk (hc ▸ List.mem_cons_self)
      have hrest : k ∉ rest := fun hc => hk (List.mem_cons_of_mem k' hc)
      simp only [forEach] at h
      cases hl : t.lookup k' with
      | none =>
          rw [hl] at h
          exact ih t t' hrest h
      | some a =>
          rw [hl] at h
          cases hf : f a with
          | error e => simp only [hf] at h; cases h
          | ok b =>
              simp only [hf] at h
              rw [ih _ t' hrest h, lookup_set_ne _ _ hne]

/-- Each visited key holds the body's result on the row it started with. The
    keys are distinct, so no row is visited twice. -/
theorem lookup_forEach_of_mem (f : α → Except ε α) (k : κ) (keys : List κ) :
    ∀ t t' : Table κ α, keys.Nodup → k ∈ keys → forEach f keys t = .ok t' →
      (t.lookup k = none ∧ t'.lookup k = none) ∨
      ∃ a b, t.lookup k = some a ∧ f a = .ok b ∧ t'.lookup k = some b := by
  induction keys with
  | nil => intro t t' _ hk _; cases hk
  | cons k' rest ih =>
      intro t t' hnodup hk h
      rcases List.nodup_cons.mp hnodup with ⟨hnot, hnodup'⟩
      simp only [forEach] at h
      by_cases hkk : k = k'
      · subst hkk
        cases hl : t.lookup k with
        | none =>
            rw [hl] at h
            left
            exact ⟨rfl, by rw [lookup_forEach_of_notMem f k rest t t' hnot h]; exact hl⟩
        | some a =>
            rw [hl] at h
            right
            cases hf : f a with
            | error e => simp only [hf] at h; cases h
            | ok b =>
                simp only [hf] at h
                refine ⟨a, b, rfl, hf, ?_⟩
                rw [lookup_forEach_of_notMem f k rest _ t' hnot h, lookup_set_self hl]
      · have hk' : k ∈ rest := by
          rcases List.mem_cons.mp hk with rfl | hmem
          · exact absurd rfl hkk
          · exact hmem
        cases hl : t.lookup k' with
        | none =>
            rw [hl] at h
            exact ih t t' hnodup' hk' h
        | some a =>
            rw [hl] at h
            cases hf : f a with
            | error e => simp only [hf] at h; cases h
            | ok b =>
                simp only [hf] at h
                have hrec := ih _ t' hnodup' hk' h
                rw [lookup_set_ne _ _ hkk] at hrec
                exact hrec

/-- A pass cannot fail if the body succeeds on every row it visits. -/
theorem forEach_eq_ok (f : α → Except ε α) (keys : List κ) :
    ∀ t : Table κ α, keys.Nodup →
      (∀ k ∈ keys, ∀ a, t.lookup k = some a → ∃ b, f a = .ok b) →
      ∃ t', forEach f keys t = .ok t' := by
  induction keys with
  | nil => intro t _ _; exact ⟨t, rfl⟩
  | cons k rest ih =>
      intro t hnodup hf
      rcases List.nodup_cons.mp hnodup with ⟨hnot, hnodup'⟩
      simp only [forEach]
      cases hl : t.lookup k with
      | none => exact ih t hnodup' fun k' hk' => hf k' (List.mem_cons_of_mem k hk')
      | some a =>
          rcases hf k List.mem_cons_self a hl with ⟨b, hb⟩
          simp only [hb]
          refine ih _ hnodup' fun k' hk' a' ha' => hf k' (List.mem_cons_of_mem k hk') a' ?_
          have hne : k' ≠ k := fun hc => hnot (hc ▸ hk')
          rwa [lookup_set_ne _ _ hne] at ha'

/-! ### Rewriting a table around an operation -/

/-- Rewriting all rows after one was set. -/
theorem mapValues_set (f : κ → α → α) (k : κ) (a : α) (t : Table κ α) :
    mapValues f (set k a t) = set k (f k a) (mapValues f t) := by
  simp only [set, mapValues_mapValues]
  refine mapValues_congr fun e _ => ?_
  by_cases hk : e.1 = k
  · simp only [hk, if_true]
  · simp only [if_neg hk]

/-- Rewriting all rows after a new one was added. -/
theorem mapValues_insert (f : κ → α → α) (a : α) (hk : k ∉ t) :
    mapValues f (t.insert k a) = (mapValues f t).insert k (f k a) := by
  have hk' : k ∉ mapValues f t := by
    rwa [AList.mem_keys, keys_mapValues, ← AList.mem_keys]
  refine AList.ext ?_
  rw [entries_mapValues, AList.entries_insert_of_notMem hk, AList.entries_insert_of_notMem hk',
    List.map_cons, entries_mapValues]

/-- A pass over a rewritten table, if the body commutes with the rewriting. -/
theorem forEach_mapValues (f : κ → α → α) (body body' : α → Except ε α) (keys : List κ) :
    ∀ t : Table κ α, keys.Nodup →
      (∀ k ∈ keys, ∀ a, t.lookup k = some a → body' (f k a) = (body a).map (f k)) →
      forEach body' keys (mapValues f t) = (forEach body keys t).map (mapValues f) := by
  induction keys with
  | nil => intro t _ _; rfl
  | cons k rest ih =>
      intro t hnodup hbody
      rcases List.nodup_cons.mp hnodup with ⟨hnot, hnodup'⟩
      simp only [forEach, lookup_mapValues]
      cases hl : t.lookup k with
      | none => exact ih t hnodup' fun k' hk' => hbody k' (List.mem_cons_of_mem k hk')
      | some a =>
          have hhere := hbody k List.mem_cons_self a hl
          simp only [Option.map_some]
          cases hb : body a with
          | error e =>
              rw [hb] at hhere
              rw [hhere]
              rfl
          | ok b =>
              rw [hb] at hhere
              rw [hhere]
              simp only [Except.map, ← mapValues_set]
              refine ih _ hnodup' fun k' hk' a' ha' => hbody k' (List.mem_cons_of_mem k hk') a' ?_
              have hne : k' ≠ k := fun hc => hnot (hc ▸ hk')
              rwa [lookup_set_ne _ _ hne] at ha'

/-- The number of rows that pass a test. -/
def count (p : α → Bool) (t : Table κ α) : Nat :=
  t.entries.countP fun e => p e.2

theorem count_insert (hk : k ∉ t) (a : α) :
    count p (t.insert k a) = count p t + if p a = true then 1 else 0 := by
  rw [count, AList.entries_insert_of_notMem hk, List.countP_cons]
  rfl

/-- A table in which fewer keys lead to a row that passes has fewer such rows. -/
theorem count_le {q : α → Bool} {t' : Table κ α} (h : ∀ k a', t'.lookup k = some a' → q a' = true →
      ∃ a, t.lookup k = some a ∧ p a = true) : count q t' ≤ count p t := by
  have hkeys : ∀ (r : α → Bool) (u : Table κ α),
      count r u = ((u.entries.filter fun e => r e.2).map Sigma.fst).length := by
    intro r u
    rw [List.length_map, count, List.countP_eq_length_filter]
  rw [hkeys, hkeys]
  have hnodup : ((t'.entries.filter fun e => q e.2).map Sigma.fst).Nodup :=
    List.NodupKeys.sublist List.filter_sublist t'.nodupKeys
  refine hnodup.length_le_of_subset fun k hk => ?_
  obtain ⟨e, he, rfl⟩ := List.mem_map.1 hk
  obtain ⟨hmem, hq⟩ := List.mem_filter.1 he
  obtain ⟨a, ha, hp⟩ := h e.1 e.2 (AList.mem_lookup_iff.2 hmem) hq
  exact List.mem_map.2 ⟨⟨e.1, a⟩, List.mem_filter.2 ⟨AList.mem_lookup_iff.1 ha, hp⟩, rfl⟩

end Table
