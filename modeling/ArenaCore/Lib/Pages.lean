import Mathlib.Data.List.Nodup
import Mathlib.Data.List.Sort

/-!
# Pages

A listing that is read page by page. A request names the last row of the page
before, its cursor, and is answered with the rows below it in a fixed order, as
many as fit on a page. One more row is looked for, to know whether there is a
next page. The data may change between two requests.

The rows have a position in a linear order that determines them, so that a
boundary lies between any two of them. A reader who follows the cursors then
sees the rows from top to bottom: no row twice, and none is missed that is
there all the time.

## Main definitions

* `Listing`: A listing, by its rows, conditions, order and page size.
* `Listing.request`: A page.
* `Walk`: Pages read one after the other, each of the data at that time.
* `Covers`: What a reader can rely on.

## Theorems

* `Listing.request_eq_some`: What a page is.
* `Listing.covers`: A reader can rely on every listing.
-/

namespace Pages

/-- A page of items, with the cursor of the next one. -/
structure Page (Item Id : Type) where
  items : List Item
  nextCursor : Option Id

/-- Pages read one after the other, the items so far and the next cursor. -/
inductive Walk {Data Item Id : Type} (request : Data → Option Id → Option (Page Item Id)) :
    List Data → List Item → Option Id → Prop where
  | first {data : Data} {page : Page Item Id} (answer : request data none = some page) :
      Walk request [data] page.items page.nextCursor
  | next {past : List Data} {items : List Item} {cursor : Id} {data : Data} {page : Page Item Id}
      (walk : Walk request past items (some cursor))
      (answer : request data (some cursor) = some page) :
      Walk request (past ++ [data]) (items ++ page.items) page.nextCursor

/-- A listing. An item shows the identity and the position of its row. -/
structure Listing (Data Row Item Id K : Type) [LinearOrder K] where
  rows : Data → List Row
  /-- The conditions on the rows that are listed. -/
  matching : Data → Row → Bool
  /-- The conditions on the row a cursor names. -/
  named : Data → Row → Bool
  id : Row → Id
  position : Row → K
  item : Data → Row → Item
  itemId : Item → Id
  itemPosition : Item → K
  size : Nat
  size_pos : 0 < size
  itemId_item : ∀ data r, itemId (item data r) = id r
  itemPosition_item : ∀ data r, itemPosition (item data r) = position r
  id_of_position : ∀ {r r'}, position r = position r' → id r = id r'
  rows_nodup : ∀ data, ((rows data).map id).Nodup
  named_of_matching : ∀ {data r}, matching data r = true → named data r = true

namespace Listing

variable {Data Row Item Id K : Type} [LinearOrder K] [DecidableEq Id]
  (L : Listing Data Row Item Id K)

/-- The position of the row a cursor names, if there is a cursor. -/
def boundary (data : Data) : Option Id → Option (Option K)
  | none => some none
  | some cursor => ((L.rows data).find? fun r => decide (L.id r = cursor) && L.named data r).map
      fun r => some (L.position r)

/-- The rows below a boundary, from the top. -/
def below (data : Data) (bound : Option K) : List Row :=
  ((L.rows data).filter fun r => L.matching data r && bound.all fun k =>
    decide (L.position r < k)).insertionSort fun a b => L.position b ≤ L.position a

/-- The page of a cursor, unless the cursor names nothing. -/
def request (data : Data) (cursor : Option Id) : Option (Page Item Id) :=
  (L.boundary data cursor).map fun bound =>
    let found := (L.below data bound).take (L.size + 1)
    let items := (found.take L.size).map (L.item data)
    { items, nextCursor := if L.size < found.length then items.getLast?.map L.itemId else none }

/-- Rows do not move. -/
def Stable (past : List Data) : Prop :=
  ∀ data ∈ past, ∀ data' ∈ past, ∀ r ∈ L.rows data, ∀ r' ∈ L.rows data', L.id r = L.id r' →
    L.position r = L.position r'

end Listing

/-- What a reader can rely on who follows the cursors of some requests, while
    rows come and go but do not move. -/
structure Covers {Data Row Item Id K : Type} [LinearOrder K] (L : Listing Data Row Item Id K)
    (request : Data → Option Id → Option (Page Item Id)) : Prop where
  /-- A page is refused only if the row its cursor names is not there any more. -/
  answered : ∀ data cursor, request data cursor = none ↔
    ∃ c, cursor = some c ∧ ∀ r ∈ L.rows data, L.id r = c → L.named data r = false
  /-- The items come from the top to the bottom. -/
  decreasing : ∀ past items next, Walk request past items next → L.Stable past →
    items.Pairwise fun a b => L.itemPosition b < L.itemPosition a
  /-- They are rows that met the conditions. -/
  sound : ∀ past items next, Walk request past items next → ∀ i ∈ items,
    ∃ data ∈ past, ∃ r ∈ L.rows data, L.matching data r = true ∧ i = L.item data r
  /-- At the end, a row that was there and met the conditions all the time was
      seen exactly once. -/
  complete : ∀ past items, Walk request past items none → L.Stable past → ∀ id,
    (∀ data ∈ past, ∃ r ∈ L.rows data, L.id r = id ∧ L.matching data r = true) →
    ∃ before i after, items = before ++ i :: after ∧ L.itemId i = id ∧
      ∀ j ∈ before ++ after, L.itemId j ≠ id
  /-- A page before the last is full, and its rows are below those before. -/
  progress : ∀ data cursor page, request data cursor = some page →
    (page.nextCursor ≠ none → page.items.length = L.size) ∧
    ∀ c, cursor = some c → ∃ r ∈ L.rows data, L.id r = c ∧
      ∀ i ∈ page.items, L.itemPosition i < L.position r
  /-- If nothing changes, there is a last page. -/
  ends : ∀ data, ∃ pages items, pages * L.size ≤ (L.rows data).length + L.size ∧
    Walk request (List.replicate pages data) items none

namespace Listing

variable {Data Row Item Id K : Type} [LinearOrder K] {L : Listing Data Row Item Id K} {data : Data}
  {cursor : Option Id} {page : Page Item Id} {bound : Option K}

theorem mem_below {r : Row} :
    r ∈ L.below data bound ↔
      r ∈ L.rows data ∧ L.matching data r = true ∧ ∀ k, bound = some k → L.position r < k := by
  rw [below, List.mem_insertionSort, List.mem_filter, Bool.and_eq_true]
  cases bound <;> simp

theorem pairwise_below (data : Data) (bound : Option K) :
    (L.below data bound).Pairwise fun a b => L.position b < L.position a := by
  have hids : ((L.below data bound).map L.id).Nodup :=
    ((List.perm_insertionSort _ _).map L.id).nodup_iff.2
      ((L.rows_nodup data).sublist (List.filter_sublist.map L.id))
  have hne := (List.pairwise_map.1 hids).imp fun {a b} h (heq : L.position b = L.position a) =>
    h (L.id_of_position heq.symm)
  have hle : (L.below data bound).Pairwise fun a b => L.position b ≤ L.position a :=
    List.pairwise_insertionSort _ _
  exact (hle.and hne).imp fun h => lt_of_le_of_ne h.1 h.2

theorem Stable.of_append {past : List Data} (h : L.Stable (past ++ [data])) : L.Stable past :=
  fun d hd d' hd' => h d (List.mem_append_left _ hd) d' (List.mem_append_left _ hd')

theorem stable_replicate (data : Data) (n : Nat) : L.Stable (List.replicate n data) := by
  intro d hd d' hd' r hr r' hr' hsame
  rw [List.eq_of_mem_replicate hd] at hr
  rw [List.eq_of_mem_replicate hd'] at hr'
  rw [List.inj_on_of_nodup_map (L.rows_nodup data) hr hr' hsame]

variable [DecidableEq Id]

theorem boundary_eq_some (h : L.boundary data cursor = some bound) :
    (cursor = none ∧ bound = none) ∨
      ∃ r ∈ L.rows data, cursor = some (L.id r) ∧ bound = some (L.position r) := by
  cases cursor with
  | none =>
      cases h
      exact .inl ⟨rfl, rfl⟩
  | some c =>
      obtain ⟨r, hfind, rfl⟩ := Option.map_eq_some_iff.1 h
      have hr := List.find?_some hfind
      rw [Bool.and_eq_true, decide_eq_true_iff] at hr
      exact .inr ⟨r, List.mem_of_find?_eq_some hfind, congrArg some hr.1.symm, rfl⟩

theorem boundary_eq_none :
    L.boundary data cursor = none ↔
      ∃ c, cursor = some c ∧ ∀ r ∈ L.rows data, L.id r = c → L.named data r = false := by
  cases cursor with
  | none => simp [boundary]
  | some c => simp [boundary]

/-- What a page is: the first rows below the boundary, with the last of them as
    the next cursor if there are more. -/
theorem request_eq_some :
    L.request data cursor = some page ↔
      ∃ bound, L.boundary data cursor = some bound ∧
        page.items = ((L.below data bound).take L.size).map (L.item data) ∧
        page.nextCursor = if L.size < (L.below data bound).length then
          ((L.below data bound).take L.size).getLast?.map L.id else none := by
  rw [request, Option.map_eq_some_iff]
  refine exists_congr fun bound => and_congr_right fun _ => ?_
  have htake : ((L.below data bound).take (L.size + 1)).take L.size =
      (L.below data bound).take L.size := by
    rw [List.take_take, min_eq_left (Nat.le_succ _)]
  have hlength : L.size < ((L.below data bound).take (L.size + 1)).length ↔
      L.size < (L.below data bound).length := by
    rw [List.length_take]
    omega
  have hlast : (((L.below data bound).take L.size).map (L.item data)).getLast?.map L.itemId =
      ((L.below data bound).take L.size).getLast?.map L.id := by
    rw [List.getLast?_map, Option.map_map]
    congr 1
    exact funext (L.itemId_item data)
  obtain ⟨items, nextCursor⟩ := page
  simp only [htake, hlength, hlast, Page.mk.injEq, eq_comm]

/-- A page in terms of the rows it shows and the rows it leaves. -/
theorem request_split (h : L.request data cursor = some page) :
    ∃ bound found rest, L.boundary data cursor = some bound ∧
      L.below data bound = found ++ rest ∧ page.items = found.map (L.item data) ∧
      ((rest = [] ∧ page.nextCursor = none) ∨
        ∃ before last, found = before ++ [last] ∧ page.nextCursor = some (L.id last) ∧
          found.length = L.size) := by
  obtain ⟨bound, hbound, hitems, hnext⟩ := request_eq_some.1 h
  refine ⟨bound, (L.below data bound).take L.size, (L.below data bound).drop L.size, hbound,
    (List.take_append_drop _ _).symm, hitems, ?_⟩
  split at hnext
  · next hmore =>
      have hfull : ((L.below data bound).take L.size).length = L.size := by
        rw [List.length_take]
        omega
      rcases List.eq_nil_or_concat ((L.below data bound).take L.size) with hnil |
        ⟨before, last, hlast⟩
      · rw [hnil] at hfull
        exact absurd hfull L.size_pos.ne
      · rw [List.concat_eq_append] at hlast
        refine .inr ⟨before, last, hlast, ?_, hfull⟩
        rw [hnext, hlast, List.getLast?_append_of_ne_nil _ (List.cons_ne_nil _ _)]
        rfl
  · next hlast => exact .inl ⟨List.drop_eq_nil_of_le (not_lt.1 hlast), hnext⟩

/-- The rows of a page are below its boundary and meet the conditions. -/
theorem mem_items (h : L.request data cursor = some page) {i : Item} (hi : i ∈ page.items) :
    ∃ bound, L.boundary data cursor = some bound ∧ ∃ r ∈ L.below data bound,
      i = L.item data r := by
  obtain ⟨bound, found, rest, hbound, hbelow, hitems, _⟩ := request_split h
  rw [hitems] at hi
  obtain ⟨r, hr, rfl⟩ := List.mem_map.1 hi
  exact ⟨bound, hbound, r, hbelow ▸ List.mem_append_left rest hr, rfl⟩

theorem pairwise_items (h : L.request data cursor = some page) :
    page.items.Pairwise fun a b => L.itemPosition b < L.itemPosition a := by
  obtain ⟨bound, found, rest, _, hbelow, hitems, _⟩ := request_split h
  have hpairwise := L.pairwise_below data bound
  rw [hbelow] at hpairwise
  rw [hitems, List.pairwise_map]
  simpa only [L.itemPosition_item] using (List.pairwise_append.1 hpairwise).1

/-! ### Walks -/

section Walks

variable {past : List Data} {items : List Item} {next : Option Id} {c : Id} {bound : Option K}

theorem walk_sound (h : Walk L.request past items next) :
    ∀ i ∈ items, ∃ data ∈ past, ∃ r ∈ L.rows data, L.matching data r = true ∧
      i = L.item data r := by
  have hpage : ∀ {data cursor page}, L.request data cursor = some page → ∀ i ∈ page.items,
      ∃ r ∈ L.rows data, L.matching data r = true ∧ i = L.item data r := by
    intro data cursor page hanswer i hi
    obtain ⟨_, _, r, hr, rfl⟩ := mem_items hanswer hi
    obtain ⟨hrow, hmatching, _⟩ := mem_below.1 hr
    exact ⟨r, hrow, hmatching, rfl⟩
  induction h with
  | @first data page hanswer =>
      intro i hi
      exact ⟨data, List.mem_singleton_self data, hpage hanswer i hi⟩
  | @next past items cursor data page _ hanswer ih =>
      intro i hi
      rcases List.mem_append.1 hi with hi | hi
      · obtain ⟨d, hd, hrow⟩ := ih i hi
        exact ⟨d, List.mem_append_left _ hd, hrow⟩
      · exact ⟨data, List.mem_append_right _ (List.mem_singleton_self data), hpage hanswer i hi⟩

/-- The next cursor names the last row so far. -/
theorem walk_last (h : Walk L.request past items next) (hc : next = some c) :
    ∃ before last, items = before ++ [last] ∧ L.itemId last = c := by
  have hpage : ∀ {data cursor page}, L.request data cursor = some page →
      page.nextCursor = some c → ∃ before last, page.items = before ++ [last] ∧
        L.itemId last = c := by
    intro data cursor page hanswer hnext
    obtain ⟨_, _, _, _, _, hitems, ⟨_, hnone⟩ | ⟨before, last, rfl, hsome, _⟩⟩ :=
      request_split hanswer
    · rw [hnone] at hnext
      cases hnext
    · rw [hsome] at hnext
      refine ⟨before.map (L.item data), L.item data last, by simp [hitems], ?_⟩
      rw [L.itemId_item]
      exact Option.some.inj hnext
  induction h with
  | first hanswer => exact hpage hanswer hc
  | next _ hanswer _ =>
      obtain ⟨before, last, hitems, hlast⟩ := hpage hanswer hc
      exact ⟨_ ++ before, last, by rw [hitems, List.append_assoc], hlast⟩

/-- The boundary of the next page is the last row so far. -/
theorem walk_boundary (h : Walk L.request past items (some c)) (hstable : L.Stable (past ++ [data]))
    (hbound : L.boundary data (some c) = some bound) :
    ∃ before last, items = before ++ [last] ∧ bound = some (L.itemPosition last) := by
  obtain ⟨before, last, rfl, hlast⟩ := walk_last h rfl
  refine ⟨before, last, rfl, ?_⟩
  obtain ⟨d, hd, r, hr, _, rfl⟩ := walk_sound h last (by simp)
  obtain ⟨hcursor, _⟩ | ⟨r', hr', hcursor, rfl⟩ := boundary_eq_some hbound
  · cases hcursor
  · rw [L.itemId_item] at hlast
    rw [L.itemPosition_item]
    refine congrArg some (hstable data ?_ d ?_ r' hr' r hr ?_)
    · simp
    · simp [hd]
    · rw [hlast]
      exact (Option.some.inj hcursor).symm

theorem walk_decreasing (h : Walk L.request past items next) (hstable : L.Stable past) :
    items.Pairwise fun a b => L.itemPosition b < L.itemPosition a := by
  induction h with
  | first hanswer => exact pairwise_items hanswer
  | @next past items cursor data page hwalk hanswer ih =>
      have hitems := ih hstable.of_append
      refine List.pairwise_append.2 ⟨hitems, pairwise_items hanswer, fun i hi j hj => ?_⟩
      -- Everything on the new page is below the last row so far.
      obtain ⟨bound, hbound, r, hr, rfl⟩ := mem_items hanswer hj
      obtain ⟨before, last, rfl, rfl⟩ := walk_boundary hwalk hstable hbound
      have hlast : L.itemPosition (L.item data r) < L.itemPosition last := by
        rw [L.itemPosition_item]
        exact (mem_below.1 hr).2.2 _ rfl
      rcases List.mem_append.1 hi with hi | hi
      · exact hlast.trans ((List.pairwise_append.1 hitems).2.2 i hi last (List.mem_singleton_self _))
      · rwa [List.mem_singleton.1 hi]

/-- A row below the boundary is on the page, or below its last row. -/
theorem mem_page {cursor : Option Id} {page : Page Item Id} {r : Row}
    (h : L.request data cursor = some page) (hbound : L.boundary data cursor = some bound)
    (hr : r ∈ L.below data bound) :
    (∃ i ∈ page.items, L.itemId i = L.id r) ∨
      ∃ before last, page.items = before ++ [last] ∧ page.nextCursor ≠ none ∧
        L.position r < L.itemPosition last := by
  obtain ⟨bound', found, rest, hbound', hbelow, hitems, hnext⟩ := request_split h
  obtain rfl : bound = bound' := Option.some.inj (hbound.symm.trans hbound')
  have hpairwise := L.pairwise_below data bound
  rw [hbelow] at hr hpairwise
  rcases List.mem_append.1 hr with hfound | hrest
  · refine .inl ⟨L.item data r, ?_, L.itemId_item data r⟩
    rw [hitems]
    exact List.mem_map_of_mem hfound
  · rcases hnext with ⟨rfl, _⟩ | ⟨before, last, rfl, hsome, _⟩
    · cases hrest
    · refine .inr ⟨before.map (L.item data), L.item data last, by simp [hitems], ?_, ?_⟩
      · rw [hsome]
        exact Option.some_ne_none _
      · rw [L.itemPosition_item]
        exact (List.pairwise_append.1 hpairwise).2.2 last (by simp) r hrest

theorem Walk.exists_mem (h : Walk L.request past items next) : ∃ data, data ∈ past := by
  cases h with
  | @first data => exact ⟨data, List.mem_singleton_self data⟩
  | @next past _ _ data => exact ⟨data, by simp⟩

/-- A row that was always there was seen, or is below the last row so far. -/
theorem walk_complete (h : Walk L.request past items next) (hstable : L.Stable past) {id : Id}
    (hid : ∀ data ∈ past, ∃ r ∈ L.rows data, L.id r = id ∧ L.matching data r = true) :
    (∃ i ∈ items, L.itemId i = id) ∨
      ∃ before last, items = before ++ [last] ∧ next ≠ none ∧
        ∀ data ∈ past, ∀ r ∈ L.rows data, L.id r = id → L.position r < L.itemPosition last := by
  induction h with
  | @first data page hanswer =>
      obtain ⟨r, hr, rfl, hmatching⟩ := hid data (List.mem_singleton_self data)
      obtain hseen | ⟨before, last, hitems, hnext, hbelow⟩ :=
        mem_page hanswer rfl (mem_below.2 ⟨hr, hmatching, fun k hk => by cases hk⟩)
      · exact .inl hseen
      · refine .inr ⟨before, last, hitems, hnext, fun d hd r' hr' hsame => ?_⟩
        rw [hstable d hd data (List.mem_singleton_self data) r' hr' r hr hsame]
        exact hbelow
  | @next past items cursor data page hwalk hanswer ih =>
      have hdata : data ∈ past ++ [data] := by simp
      obtain ⟨r, hr, rfl, hmatching⟩ := hid data hdata
      obtain ⟨i, hi, hseen⟩ | ⟨before, last, rfl, _, hbelow⟩ :=
        ih hstable.of_append fun d hd => hid d (List.mem_append_left _ hd)
      · exact .inl ⟨i, List.mem_append_left _ hi, hseen⟩
      · -- The row was below the last row so far, so it is below the boundary now.
        obtain ⟨bound, _, _, hbound, _⟩ := request_split hanswer
        obtain ⟨before', last', heq, rfl⟩ := walk_boundary hwalk hstable hbound
        obtain rfl : last = last' := by simpa using (List.append_inj' heq rfl).2
        obtain ⟨d, hd⟩ := Walk.exists_mem hwalk
        obtain ⟨r', hr', hsame, _⟩ := hid d (List.mem_append_left _ hd)
        have hposition : L.position r < L.itemPosition last := by
          rw [hstable data hdata d (List.mem_append_left _ hd) r hr r' hr' hsame.symm]
          exact hbelow d hd r' hr' hsame
        have hmem : r ∈ L.below data (some (L.itemPosition last)) :=
          mem_below.2 ⟨hr, hmatching, fun k hk => by cases hk; exact hposition⟩
        obtain ⟨i, hi, hseen⟩ | ⟨before, last, hitems, hnext, hbelow⟩ :=
          mem_page hanswer hbound hmem
        · exact .inl ⟨i, List.mem_append_right _ hi, hseen⟩
        · refine .inr ⟨_, last, by rw [hitems, ← List.append_assoc], hnext,
            fun d hd r' hr' hsame => ?_⟩
          rw [hstable d hd data hdata r' hr' r hr hsame]
          exact hbelow

/-- Items of one row are at one position. -/
theorem walk_itemPosition (h : Walk L.request past items next) (hstable : L.Stable past)
    {i j : Item} (hi : i ∈ items) (hj : j ∈ items) (hsame : L.itemId i = L.itemId j) :
    L.itemPosition i = L.itemPosition j := by
  obtain ⟨d, hd, r, hr, _, rfl⟩ := walk_sound h i hi
  obtain ⟨d', hd', r', hr', _, rfl⟩ := walk_sound h j hj
  rw [L.itemId_item, L.itemId_item] at hsame
  rw [L.itemPosition_item, L.itemPosition_item]
  exact hstable d hd d' hd' r hr r' hr' hsame

/-- No row was seen twice. -/
theorem walk_nodup (h : Walk L.request past items next) (hstable : L.Stable past) :
    (items.map L.itemId).Nodup := by
  refine List.pairwise_map.2 ((walk_decreasing h hstable).imp_of_mem ?_)
  intro i j hi hj hlt hsame
  exact hlt.ne (walk_itemPosition h hstable hj hi hsame.symm)

/-! ### A listing that does not change -/

/-- All pages but the last are full. -/
theorem walk_length (h : Walk L.request past items next) (hnext : next ≠ none) :
    items.length = past.length * L.size := by
  have hpage : ∀ {data cursor page}, L.request data cursor = some page →
      page.nextCursor ≠ none → page.items.length = L.size := by
    intro data cursor page hanswer hne
    obtain ⟨_, _, _, _, _, hitems, ⟨_, hnone⟩ | ⟨_, _, _, _, hfull⟩⟩ := request_split hanswer
    · exact absurd hnone hne
    · rw [hitems, List.length_map, hfull]
  induction h with
  | first hanswer => rw [hpage hanswer hnext, List.length_singleton, Nat.one_mul]
  | next _ hanswer ih =>
      rw [List.length_append, ih (Option.some_ne_none _), hpage hanswer hnext, List.length_append,
        List.length_singleton, Nat.add_mul, Nat.one_mul]

/-- There are no more items than rows. -/
theorem walk_length_le {n : Nat} (h : Walk L.request (List.replicate n data) items next) :
    items.length ≤ (L.rows data).length := by
  have hsubset : items.map L.itemId ⊆ (L.rows data).map L.id := by
    intro id hid
    obtain ⟨i, hi, rfl⟩ := List.mem_map.1 hid
    obtain ⟨d, hd, r, hr, _, rfl⟩ := walk_sound h i hi
    rw [L.itemId_item, ← List.eq_of_mem_replicate hd]
    exact List.mem_map_of_mem hr
  have hle := (List.subperm_of_subset (walk_nodup h (stable_replicate data n)) hsubset).length_le
  simpa using hle

/-- The reader gets to the next page or has reached the end. -/
theorem walk_goes_on (data : Data) (n : Nat) :
    (∃ pages ≤ n + 1, ∃ items, Walk L.request (List.replicate pages data) items none) ∨
      ∃ items c, Walk L.request (List.replicate (n + 1) data) items (some c) := by
  induction n with
  | zero =>
      cases hanswer : L.request data none with
      | none =>
          obtain ⟨c, hc, _⟩ := boundary_eq_none.1 (Option.map_eq_none_iff.1 hanswer)
          cases hc
      | some page =>
          have hwalk : Walk L.request (List.replicate 1 data) page.items page.nextCursor :=
            .first hanswer
          cases hnext : page.nextCursor with
          | none => exact .inl ⟨1, le_refl _, page.items, hnext ▸ hwalk⟩
          | some c => exact .inr ⟨page.items, c, hnext ▸ hwalk⟩
  | succ n ih =>
      obtain ⟨pages, hpages, hend⟩ | ⟨items, c, hwalk⟩ := ih
      · exact .inl ⟨pages, Nat.le_succ_of_le hpages, hend⟩
      · cases hanswer : L.request data (some c) with
        | none =>
            -- The row the cursor names is on the page before.
            obtain ⟨c', hc', hnone⟩ := boundary_eq_none.1 (Option.map_eq_none_iff.1 hanswer)
            cases hc'
            obtain ⟨before, last, rfl, hlast⟩ := walk_last hwalk rfl
            obtain ⟨d, hd, r, hr, hmatching, rfl⟩ := walk_sound hwalk last (by simp)
            obtain rfl := List.eq_of_mem_replicate hd
            rw [L.itemId_item] at hlast
            have hnamed := hnone r hr hlast
            rw [L.named_of_matching hmatching] at hnamed
            cases hnamed
        | some page =>
            have hnew := Walk.next hwalk hanswer
            rw [← List.replicate_succ'] at hnew
            cases hnext : page.nextCursor with
            | none => exact .inl ⟨n + 2, le_refl _, _, hnext ▸ hnew⟩
            | some c' => exact .inr ⟨_, c', hnext ▸ hnew⟩

/-- There is a last page. -/
theorem walk_ends (data : Data) :
    ∃ pages items, pages * L.size ≤ (L.rows data).length + L.size ∧
      Walk L.request (List.replicate pages data) items none := by
  obtain ⟨pages, hpages, items, hwalk⟩ | ⟨items, c, hwalk⟩ :=
    walk_goes_on (L := L) data ((L.rows data).length / L.size)
  · refine ⟨pages, items, ?_, hwalk⟩
    calc pages * L.size ≤ ((L.rows data).length / L.size + 1) * L.size :=
          Nat.mul_le_mul_right _ hpages
      _ = (L.rows data).length / L.size * L.size + L.size := by rw [Nat.add_mul, Nat.one_mul]
      _ ≤ (L.rows data).length + L.size := Nat.add_le_add_right (Nat.div_mul_le_self _ _) _
  · have hlength := walk_length hwalk (Option.some_ne_none c)
    have hle := walk_length_le hwalk
    rw [hlength, List.length_replicate] at hle
    exact absurd hle (not_le.2 (Nat.lt_mul_of_div_lt (Nat.lt_succ_self _) L.size_pos))

end Walks

/-- A reader can rely on every listing. -/
theorem covers (L : Listing Data Row Item Id K) : Covers L L.request where
  answered data cursor := Option.map_eq_none_iff.trans boundary_eq_none
  decreasing past items next h hstable := walk_decreasing h hstable
  sound past items next h := walk_sound h
  complete past items h hstable id hid := by
    obtain ⟨i, hi, rfl⟩ | ⟨_, _, _, hnone, _⟩ := walk_complete h hstable hid
    · obtain ⟨before, after, rfl⟩ := List.append_of_mem hi
      refine ⟨before, i, after, rfl, rfl, fun j hj hsame => ?_⟩
      have hnodup := walk_nodup h hstable
      rw [List.map_append, List.map_cons, List.nodup_middle] at hnodup
      refine (List.nodup_cons.1 hnodup).1 ?_
      rw [← hsame, ← List.map_append]
      exact List.mem_map_of_mem hj
    · exact absurd rfl hnone
  progress data cursor page h := by
    obtain ⟨bound, found, rest, hbound, _, hitems, hnext⟩ := request_split h
    refine ⟨fun hne => ?_, fun c hc => ?_⟩
    · rcases hnext with ⟨_, hnone⟩ | ⟨_, _, _, _, hfull⟩
      · exact absurd hnone hne
      · rw [hitems, List.length_map, hfull]
    · obtain ⟨hcursor, _⟩ | ⟨r, hr, hcursor, rfl⟩ := boundary_eq_some hbound
      · rw [hcursor] at hc
        cases hc
      · refine ⟨r, hr, Option.some.inj (hcursor.symm.trans hc), fun i hi => ?_⟩
        obtain ⟨bound', hbound', r', hr', rfl⟩ := mem_items h hi
        rw [hbound] at hbound'
        rw [L.itemPosition_item]
        exact (mem_below.1 hr').2.2 _ (Option.some.inj hbound').symm
  ends data := walk_ends data

end Listing

end Pages
