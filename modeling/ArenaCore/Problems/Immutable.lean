import ArenaCore.Problems.Tables
import ArenaCore.Store.System

/-!
# Published Suites Are Immutable

What the triggers, constraints and foreign keys guarantee together about a
published version: its row, its cases and their files stay as they were when
it was published, and they satisfy the input contract.

The guarantee has one gap. The trigger on files looks at the case an updated
file belongs to afterwards, not at the one it is taken from, so a file can be
moved out of a published suite into a draft. `Detaches` names that statement;
everything below assumes of a run only that it has none.

## Main definitions

* `Suite`: A version with its cases and their files.
* `Suite.Contract`: Files for every case, or none at all.
* `Detaches`: The update that takes a file away from a published version.
* `Linked`, `Consistent`: The invariant of the tables.

## Theorems

* `suite_step`: A statement leaves published suites alone.
* `Linked.step`, `Consistent.step`: A statement keeps the invariant.
* `published_suite_immutable`: The suite of a published version never changes.
* `published_file_taken`: A run in which it does.
-/

namespace ArenaCore

/-! ### Rows kept by a write -/

section Rows

variable {α : Type} {p : α → Bool} {l : List α}

/-- Rewriting rows outside a selection, never into it, keeps the selection. -/
theorem filter_map_of_stable {g : α → α} (h : ∀ x ∈ l, p (g x) = p x ∧ (p x = true → g x = x)) :
    (l.map g).filter p = l.filter p := by
  induction l with
  | nil => rfl
  | cons x rest ih =>
      have hrest := ih fun y hy => h y (List.mem_cons_of_mem x hy)
      obtain ⟨hp, hg⟩ := h x List.mem_cons_self
      rw [List.map_cons, List.filter_cons, List.filter_cons, hrest, hp]
      split
      · next hx => rw [hg hx]
      · rfl

/-- Deleting rows outside a selection keeps the selection. -/
theorem filter_filter_of_imp {q : α → Bool} (h : ∀ x ∈ l, p x = true → q x = true) :
    (l.filter q).filter p = l.filter p := by
  rw [List.filter_filter]
  refine List.filter_congr fun x hx => ?_
  cases hp : p x with
  | false => rfl
  | true => rw [h x hx hp, Bool.and_self]

/-- Inserting a row outside a selection keeps the selection. -/
theorem filter_append_of_not {x : α} (h : p x = false) : (l ++ [x]).filter p = l.filter p := by
  rw [List.filter_append, List.filter_cons_of_neg (by simp only [h, Bool.false_eq_true,
    not_false_eq_true]), List.filter_nil, List.append_nil]

end Rows

/-! ### Suites -/

/-- A version, its cases and the files of those cases. -/
structure Suite where
  versions : List VersionRow
  tests : List TestRow
  files : List FileRow
deriving DecidableEq

/-- A version that reads files has an empty standard input and at least one
    file for every case; one that reads standard input has no files. -/
def Suite.Contract (u : Suite) : Prop :=
  ∀ v ∈ u.versions, v.published = true →
    (v.inputMode = .files → ∀ t ∈ u.tests, t.input = "" ∧ ∃ f ∈ u.files, f.testCaseId = t.id) ∧
    (v.inputMode = .stdin → u.files = [])

namespace ProblemTables

variable (s : ProblemTables)

def testsOf (versionId : Uuid) : List TestRow :=
  s.tests.filter fun t => decide (t.problemVersionId = versionId)

/-- The file belongs to one of the version's cases. -/
def isFileOf (versionId : Uuid) (f : FileRow) : Bool :=
  (s.testsOf versionId).any fun t => decide (t.id = f.testCaseId)

def suite (versionId : Uuid) : Suite where
  versions := s.versions.filter fun v => decide (v.id = versionId)
  tests := s.testsOf versionId
  files := s.files.filter (s.isFileOf versionId)

end ProblemTables

/-- The statement is accepted and takes a file away from a case of a
    published version. -/
def Detaches (s : ProblemTables) (statement : TableStatement) : Prop :=
  (s.step statement).2 = none ∧ ∃ f ∈ s.files, ∃ new, statement = .updateFile f.testCaseId f.name new ∧
    new.testCaseId ≠ f.testCaseId ∧ (s.versionOf f.testCaseId).any s.isPublished = true

/-- Cases belong to versions that exist and are told apart by their
    identifiers, files belong to cases that exist. -/
structure Linked (s : ProblemTables) : Prop where
  parents : ∀ t ∈ s.tests, ∃ v ∈ s.versions, v.id = t.problemVersionId
  keys : ∀ t ∈ s.tests, ∀ u ∈ s.tests, t.id = u.id → t = u
  fileParents : ∀ f ∈ s.files, ∃ t ∈ s.tests, t.id = f.testCaseId

/-- Published suites satisfy the contract as well. -/
structure Consistent (s : ProblemTables) : Prop extends Linked s where
  contract : ∀ id, s.isPublished id = true → (s.suite id).Contract

/-! ### Accepted statements -/

/-- Nothing refuses the statement. -/
def Accepts (s : ProblemTables) (statement : TableStatement) : Prop :=
  ∀ refusal ∈ statement.refusals s, refusal.1 = false

theorem ProblemTables.step_cases (s : ProblemTables) (statement : TableStatement) :
    (s.step statement).1 = s ∨
      Accepts s statement ∧ s.step statement = (statement.write s, none) := by
  unfold ProblemTables.step
  split
  · split
    · exact .inl rfl
    · next hnone =>
        refine .inr ⟨fun refusal hmem => ?_, rfl⟩
        have h := List.find?_eq_none.1 hnone refusal hmem
        exact Bool.eq_false_iff.2 h
  · exact .inl rfl

namespace ProblemTables

variable {s : ProblemTables} {id : Uuid} {t : TestRow} {f : FileRow}

theorem isPublished_iff : s.isPublished id = true ↔ ∃ v ∈ s.versions, v.id = id ∧ v.published := by
  simp only [isPublished, List.any_eq_true, Bool.and_eq_true, decide_eq_true_eq]

theorem mem_testsOf : t ∈ s.testsOf id ↔ t ∈ s.tests ∧ t.problemVersionId = id := by
  simp only [testsOf, List.mem_filter, decide_eq_true_eq]

theorem isFileOf_iff :
    s.isFileOf id f = true ↔ ∃ t ∈ s.tests, t.problemVersionId = id ∧ t.id = f.testCaseId := by
  simp only [isFileOf, List.any_eq_true, mem_testsOf, decide_eq_true_eq, and_assoc]

/-- Two tables with the same rows of a version have the same suite. -/
theorem suite_congr {s' : ProblemTables}
    (hversions : s'.versions.filter (fun v => decide (v.id = id))
      = s.versions.filter fun v => decide (v.id = id))
    (htests : s'.testsOf id = s.testsOf id)
    (hfiles : s'.files.filter (s.isFileOf id) = s.files.filter (s.isFileOf id)) :
    s'.suite id = s.suite id := by
  have hfileOf : s'.isFileOf id = s.isFileOf id := by
    funext f
    rw [isFileOf, isFileOf, htests]
  rw [suite, suite, hversions, htests, hfileOf, hfiles]

/-- The version of a case is found by the identifier of the case. -/
theorem versionOf_eq (hkeys : ∀ t ∈ s.tests, ∀ u ∈ s.tests, t.id = u.id → t = u) (ht : t ∈ s.tests) :
    s.versionOf t.id = some t.problemVersionId := by
  unfold versionOf
  cases hfind : s.tests.find? fun u => decide (u.id = t.id) with
  | none => exact absurd (List.find?_eq_none.1 hfind t ht) (by simp)
  | some u =>
      have hid : u.id = t.id := by simpa using List.find?_some hfind
      rw [hkeys u (List.mem_of_find?_eq_some hfind) t ht hid, Option.map_some]

/-- A file the trigger lets through belongs to no published case. -/
theorem not_isFileOf (hkeys : ∀ t ∈ s.tests, ∀ u ∈ s.tests, t.id = u.id → t = u)
    (hpub : s.isPublished id = true) (h : (s.versionOf f.testCaseId).any s.isPublished = false) :
    s.isFileOf id f = false := by
  rw [Bool.eq_false_iff]
  intro hfile
  obtain ⟨t, ht, rfl, hid⟩ := isFileOf_iff.1 hfile
  rw [← hid, versionOf_eq hkeys ht, Option.any_some, hpub] at h
  cases h

/-- A case the trigger lets through is not of a published version. -/
theorem ne_of_not_published (hpub : s.isPublished id = true) {other : Uuid}
    (h : s.isPublished other = false) : other ≠ id := by
  rintro rfl
  rw [hpub] at h
  cases h

end ProblemTables

/-! ### Published suites -/

section Frozen

open ProblemTables

variable {s : ProblemTables} {id : Uuid} {other tid : Uuid} {new : VersionRow} {name : String}

section

variable (hpub : s.isPublished id = true)

include hpub

theorem suite_insertVersion (h : Accepts s (.insertVersion new)) :
    (TableStatement.write s (.insertVersion new)).suite id = s.suite id := by
  simp only [Accepts, TableStatement.refusals, List.forall_mem_cons, List.any_eq_false,
    decide_eq_true_eq] at h
  obtain ⟨v, hv, hid, _⟩ := isPublished_iff.1 hpub
  refine suite_congr (filter_append_of_not ?_) rfl rfl
  rw [decide_eq_false_iff_not, ← hid]
  exact fun heq => h.2.1 v hv heq.symm

/-- An update or a deletion names another version, and an update does not
    take the identifier. -/
theorem ne_of_unpublished (h : ∀ v ∈ s.versions, v.id = other → v.published = false) :
    other ≠ id := by
  rintro rfl
  obtain ⟨v, hv, hid, hpublished⟩ := isPublished_iff.1 hpub
  rw [h v hv hid] at hpublished
  cases hpublished

theorem suite_updateVersion {published : Option Bool}
    (h : Accepts s (.updateVersion other published new)) :
    (TableStatement.write s (.updateVersion other published new)).suite id = s.suite id := by
  simp only [Accepts, TableStatement.refusals, List.forall_mem_cons, List.any_eq_false,
    protectPublishedVersion, Bool.and_eq_true, decide_eq_true_eq, not_and, Bool.not_eq_true] at h
  have hother := ne_of_unpublished hpub h.1
  obtain ⟨v, hv, hid, _⟩ := isPublished_iff.1 hpub
  have hnew : new.id ≠ id := by
    intro heq
    exact h.2.2.2.2.1 v hv (fun e => hother (e.symm.trans hid)) (hid.trans heq.symm)
  refine suite_congr (filter_map_of_stable fun w _ => ?_) (filter_map_of_stable fun t _ => ?_) rfl
  · split
    · next hw => simp [VersionRow.assign, hnew, hw, hother]
    · simp
  · split
    · next ht => simp [hnew, ht, hother]
    · simp

theorem suite_deleteVersion (h : Accepts s (.deleteVersion other)) :
    (TableStatement.write s (.deleteVersion other)).suite id = s.suite id := by
  simp only [Accepts, TableStatement.refusals, List.forall_mem_cons, List.any_eq_false,
    protectPublishedVersion, Bool.and_eq_true, decide_eq_true_eq, not_and, Bool.not_eq_true] at h
  have hother := ne_of_unpublished hpub h.1
  refine suite_congr (filter_filter_of_imp fun v _ hv => ?_) rfl rfl
  rw [decide_eq_true_eq] at hv ⊢
  exact fun heq => hother (heq.symm.trans hv)

theorem suite_insertTest {new : TestRow} (h : Accepts s (.insertTest new)) :
    (TableStatement.write s (.insertTest new)).suite id = s.suite id := by
  simp only [Accepts, TableStatement.refusals, List.forall_mem_cons, protectPublishedTests,
    Option.any_none, Option.any_some, Bool.false_or] at h
  refine suite_congr rfl (filter_append_of_not ?_) rfl
  exact decide_eq_false (ne_of_not_published hpub h.1)

theorem suite_updateTest {new : TestRow} (h : Accepts s (.updateTest tid new)) :
    (TableStatement.write s (.updateTest tid new)).suite id = s.suite id := by
  simp only [Accepts, TableStatement.refusals, List.forall_mem_cons, List.any_eq_false,
    protectPublishedTests, Option.any_some, Bool.and_eq_true, Bool.or_eq_true, decide_eq_true_eq,
    not_and, not_or, Bool.not_eq_true] at h
  -- The case that is updated belongs to another version, before and after.
  have hcase : ∀ t ∈ s.tests, t.id = tid → t.problemVersionId ≠ id ∧ new.problemVersionId ≠ id := by
    intro t ht heq
    exact ⟨ne_of_not_published hpub (h.1 t ht heq).1, ne_of_not_published hpub (h.1 t ht heq).2⟩
  refine suite_congr rfl (filter_map_of_stable fun t ht => ?_) (filter_map_of_stable fun f _ => ?_)
  · split
    · next heq => simp [hcase t ht heq]
    · simp
  · split
    · next heq =>
        -- Neither identifier of the case is one of the version's.
        have hold : s.isFileOf id f = false := by
          rw [Bool.eq_false_iff]
          intro hfile
          obtain ⟨t, ht, hversion, htid⟩ := isFileOf_iff.1 hfile
          exact (hcase t ht (htid.trans heq)).1 hversion
        have hmoved : s.isFileOf id { f with testCaseId := new.id } = false := by
          rw [Bool.eq_false_iff]
          intro hfile
          obtain ⟨t, ht, hversion, htid⟩ := isFileOf_iff.1 hfile
          by_cases hsame : t.id = tid
          · exact (hcase t ht hsame).1 hversion
          · exact h.2.2.1 t ht hsame htid
        simp [hold, hmoved]
    · simp

theorem suite_deleteTest (h : Accepts s (.deleteTest tid)) :
    (TableStatement.write s (.deleteTest tid)).suite id = s.suite id := by
  simp only [Accepts, TableStatement.refusals, List.forall_mem_cons, List.any_eq_false,
    protectPublishedTests, Option.any_some, Option.any_none, Bool.or_false, Bool.and_eq_true,
    decide_eq_true_eq, not_and, Bool.not_eq_true] at h
  have hcase : ∀ t ∈ s.tests, t.problemVersionId = id → t.id ≠ tid := by
    intro t ht hversion heq
    exact ne_of_not_published hpub (h.1 t ht heq) hversion
  refine suite_congr rfl (filter_filter_of_imp fun t ht htest => ?_)
    (filter_filter_of_imp fun f _ hfile => ?_)
  · exact decide_eq_true (hcase t ht (of_decide_eq_true htest))
  · obtain ⟨t, ht, hversion, htid⟩ := isFileOf_iff.1 hfile
    exact decide_eq_true fun heq => hcase t ht hversion (htid.trans heq)

end

section

variable (hs : Linked s) (hpub : s.isPublished id = true)

include hs hpub

theorem suite_insertFile {new : FileRow} (h : Accepts s (.insertFile new)) :
    (TableStatement.write s (.insertFile new)).suite id = s.suite id := by
  simp only [Accepts, TableStatement.refusals, List.forall_mem_cons, protectPublishedTestFiles,
    Option.or_none, Option.bind_some] at h
  exact suite_congr rfl rfl (filter_append_of_not (not_isFileOf hs.keys hpub h.1))

theorem suite_updateFile {new : FileRow} (h : Accepts s (.updateFile tid name new))
    (hkeep : ∀ f ∈ s.files, f.isAt tid name = true → new.testCaseId ≠ tid →
      (s.versionOf tid).any s.isPublished = false) :
    (TableStatement.write s (.updateFile tid name new)).suite id = s.suite id := by
  simp only [Accepts, TableStatement.refusals, List.forall_mem_cons, List.any_eq_false,
    protectPublishedTestFiles, Option.some_or, Option.bind_some, FileRow.isAt, Bool.and_eq_true,
    decide_eq_true_eq, not_and, Bool.not_eq_true] at h
  refine suite_congr rfl rfl (filter_map_of_stable fun f hf => ?_)
  by_cases hat : f.isAt tid name = true
  · obtain ⟨htid, hname⟩ : f.testCaseId = tid ∧ f.name = name := by
      simpa [FileRow.isAt] using hat
    have hnew := h.1 f hf ⟨htid, hname⟩
    have hold : (s.versionOf f.testCaseId).any s.isPublished = false := by
      by_cases hsame : new.testCaseId = tid
      · rwa [htid, ← hsame]
      · rw [htid]
        exact hkeep f hf hat hsame
    rw [if_pos hat, not_isFileOf hs.keys hpub hnew, not_isFileOf hs.keys hpub hold]
    simp
  · rw [if_neg hat]
    simp

theorem suite_deleteFile (h : Accepts s (.deleteFile tid name)) :
    (TableStatement.write s (.deleteFile tid name)).suite id = s.suite id := by
  simp only [Accepts, TableStatement.refusals, List.forall_mem_cons, List.any_eq_false,
    protectPublishedTestFiles, Option.none_or, Option.bind_some, Bool.and_eq_true,
    not_and, Bool.not_eq_true] at h
  refine suite_congr rfl rfl (filter_filter_of_imp fun f hf hfile => ?_)
  by_contra hat
  rw [Bool.not_eq_true, Bool.not_eq_false'] at hat
  rw [not_isFileOf hs.keys hpub (h.1 f hf hat)] at hfile
  cases hfile

/-- A statement that takes no file away leaves published suites alone. -/
theorem suite_step (statement : TableStatement) (hkeep : ¬ Detaches s statement) :
    (s.step statement).1.suite id = s.suite id := by
  rcases step_cases s statement with heq | ⟨hacc, heq⟩
  · rw [heq]
  · have hnone : (s.step statement).2 = none := by rw [heq]
    rw [heq]
    cases statement with
    | insertVersion => exact suite_insertVersion hpub hacc
    | updateVersion => exact suite_updateVersion hpub hacc
    | deleteVersion => exact suite_deleteVersion hpub hacc
    | insertTest => exact suite_insertTest hpub hacc
    | updateTest => exact suite_updateTest hpub hacc
    | deleteTest => exact suite_deleteTest hpub hacc
    | insertFile => exact suite_insertFile hs hpub hacc
    | updateFile tid name new =>
        refine suite_updateFile hs hpub hacc fun f hf hat hmoved => ?_
        simp only [FileRow.isAt, Bool.and_eq_true, decide_eq_true_eq] at hat
        obtain ⟨rfl, rfl⟩ := hat
        rw [Bool.eq_false_iff]
        exact fun hany => hkeep ⟨hnone, f, hf, new, rfl, hmoved, hany⟩
    | deleteFile => exact suite_deleteFile hs hpub hacc

end

end Frozen

/-! ### Consistency -/

section Consistency

open ProblemTables

variable {s : ProblemTables} {id : Uuid} {statement : TableStatement} {new : VersionRow}
  {published : Option Bool} {v : VersionRow}

/-- Cases keep existing versions. -/
theorem parents_write (hs : Linked s) (h : Accepts s statement) :
    ∀ t ∈ (statement.write s).tests, ∃ v ∈ (statement.write s).versions,
      v.id = t.problemVersionId := by
  intro t ht
  cases statement with
  | insertVersion new =>
      obtain ⟨v, hv, hid⟩ := hs.parents t ht
      exact ⟨v, List.mem_append_left _ hv, hid⟩
  | updateVersion other published new =>
      obtain ⟨u, hu, rfl⟩ := List.mem_map.1 ht
      obtain ⟨v, hv, hid⟩ := hs.parents u hu
      refine ⟨_, List.mem_map.2 ⟨v, hv, rfl⟩, ?_⟩
      rw [← hid]
      split <;> simp [VersionRow.assign, hid]
  | deleteVersion other =>
      simp only [Accepts, TableStatement.refusals, List.forall_mem_cons, List.any_eq_false,
        decide_eq_true_eq] at h
      obtain ⟨v, hv, hid⟩ := hs.parents t ht
      refine ⟨v, List.mem_filter.2 ⟨hv, ?_⟩, hid⟩
      exact decide_eq_true fun heq => h.2.1 t ht (hid.symm.trans heq)
  | insertTest new =>
      simp only [Accepts, TableStatement.refusals, List.forall_mem_cons, Bool.not_eq_false',
        List.any_eq_true, decide_eq_true_eq] at h
      rcases List.mem_append.1 ht with ht | ht
      · exact hs.parents t ht
      · rw [List.mem_singleton.1 ht]
        exact h.2.2.2.2.1
  | updateTest tid new =>
      simp only [Accepts, TableStatement.refusals, List.forall_mem_cons, Bool.not_eq_false',
        List.any_eq_true, decide_eq_true_eq] at h
      obtain ⟨u, hu, rfl⟩ := List.mem_map.1 ht
      split
      · exact h.2.2.2.2.1
      · exact hs.parents u hu
  | deleteTest tid => exact hs.parents t (List.mem_of_mem_filter ht)
  | insertFile | updateFile | deleteFile => exact hs.parents t ht

/-- Cases stay told apart by their identifiers. -/
theorem keys_write (hs : Linked s) (h : Accepts s statement) :
    ∀ t ∈ (statement.write s).tests, ∀ u ∈ (statement.write s).tests, t.id = u.id → t = u := by
  intro t ht u hu hid
  cases statement with
  | insertVersion | deleteVersion | insertFile | updateFile | deleteFile =>
      exact hs.keys t ht u hu hid
  | updateVersion other published new =>
      obtain ⟨t, hmem, rfl⟩ := List.mem_map.1 ht
      obtain ⟨u, hmem', rfl⟩ := List.mem_map.1 hu
      have hid' : t.id = u.id := by
        revert hid
        split <;> split <;> exact fun e => e
      rw [hs.keys t hmem u hmem' hid']
  | insertTest new =>
      simp only [Accepts, TableStatement.refusals, List.forall_mem_cons, List.any_eq_false,
        decide_eq_true_eq] at h
      rcases List.mem_append.1 ht with ht | ht <;> rcases List.mem_append.1 hu with hu | hu
      · exact hs.keys t ht u hu hid
      · rw [List.mem_singleton.1 hu] at hid
        exact absurd hid (h.2.2.1 t ht)
      · rw [List.mem_singleton.1 ht] at hid
        exact absurd hid.symm (h.2.2.1 u hu)
      · rw [List.mem_singleton.1 ht, List.mem_singleton.1 hu]
  | updateTest tid new =>
      simp only [Accepts, TableStatement.refusals, List.forall_mem_cons, List.any_eq_false,
        decide_eq_true_eq, not_and] at h
      obtain ⟨t, hmem, rfl⟩ := List.mem_map.1 ht
      obtain ⟨u, hmem', rfl⟩ := List.mem_map.1 hu
      by_cases htid : t.id = tid <;> by_cases huid : u.id = tid
      · rw [if_pos htid, if_pos huid]
      · rw [if_pos htid, if_neg huid] at hid
        exact absurd hid.symm (h.2.2.1 u hmem' huid)
      · rw [if_neg htid, if_pos huid] at hid
        exact absurd hid (h.2.2.1 t hmem htid)
      · rw [if_neg htid, if_neg huid] at hid ⊢
        exact hs.keys t hmem u hmem' hid
  | deleteTest tid =>
      exact hs.keys t (List.mem_of_mem_filter ht) u (List.mem_of_mem_filter hu) hid

/-- Files keep existing cases. -/
theorem fileParents_write (hs : Linked s) (h : Accepts s statement) :
    ∀ f ∈ (statement.write s).files, ∃ t ∈ (statement.write s).tests, t.id = f.testCaseId := by
  intro f hf
  cases statement with
  | insertVersion | deleteVersion => exact hs.fileParents f hf
  | updateVersion other published new =>
      obtain ⟨t, ht, hid⟩ := hs.fileParents f hf
      refine ⟨_, List.mem_map.2 ⟨t, ht, rfl⟩, ?_⟩
      split <;> exact hid
  | insertTest new =>
      obtain ⟨t, ht, hid⟩ := hs.fileParents f hf
      exact ⟨t, List.mem_append_left _ ht, hid⟩
  | updateTest tid new =>
      obtain ⟨g, hg, rfl⟩ := List.mem_map.1 hf
      obtain ⟨t, ht, hid⟩ := hs.fileParents g hg
      refine ⟨_, List.mem_map.2 ⟨t, ht, rfl⟩, ?_⟩
      rw [hid]
      split
      · rfl
      · exact hid
  | deleteTest tid =>
      obtain ⟨hf, hne⟩ := List.mem_filter.1 hf
      obtain ⟨t, ht, hid⟩ := hs.fileParents f hf
      exact ⟨t, List.mem_filter.2 ⟨ht, by rw [hid]; exact hne⟩, hid⟩
  | insertFile new =>
      simp only [Accepts, TableStatement.refusals, List.forall_mem_cons, Bool.not_eq_false',
        List.any_eq_true, decide_eq_true_eq] at h
      rcases List.mem_append.1 hf with hf | hf
      · exact hs.fileParents f hf
      · rw [List.mem_singleton.1 hf]
        exact h.2.2.2.2.1
  | updateFile tid name new =>
      simp only [Accepts, TableStatement.refusals, List.forall_mem_cons, Bool.not_eq_false',
        List.any_eq_true, decide_eq_true_eq] at h
      obtain ⟨g, hg, rfl⟩ := List.mem_map.1 hf
      split
      · exact h.2.2.2.2.1
      · exact hs.fileParents g hg
  | deleteFile tid name => exact hs.fileParents f (List.mem_of_mem_filter hf)

/-- Only an insertion or an update of a version publishes one. -/
theorem published_write (hpub : (statement.write s).isPublished id = true) :
    s.isPublished id = true ∨ (∃ new, statement = .insertVersion new ∧ new.id = id) ∨
      ∃ other published new, statement = .updateVersion other published new ∧ new.id = id ∧
        ∃ v ∈ s.versions, v.id = other ∧ (v.assign published new).published = true := by
  obtain ⟨v, hv, hid, hpublished⟩ := isPublished_iff.1 hpub
  cases statement with
  | insertVersion new =>
      rcases List.mem_append.1 hv with hv | hv
      · exact .inl (isPublished_iff.2 ⟨v, hv, hid, hpublished⟩)
      · rw [List.mem_singleton.1 hv] at hid
        exact .inr (.inl ⟨new, rfl, hid⟩)
  | updateVersion other published new =>
      obtain ⟨w, hw, rfl⟩ := List.mem_map.1 hv
      by_cases hother : w.id = other
      · rw [if_pos hother] at hid hpublished
        exact .inr (.inr ⟨other, published, new, rfl, hid, w, hw, hother, hpublished⟩)
      · rw [if_neg hother] at hid hpublished
        exact .inl (isPublished_iff.2 ⟨w, hw, hid, hpublished⟩)
  | deleteVersion other =>
      exact .inl (isPublished_iff.2 ⟨v, List.mem_of_mem_filter hv, hid, hpublished⟩)
  | insertTest | updateTest | deleteTest | insertFile | updateFile | deleteFile =>
      exact .inl (isPublished_iff.2 ⟨v, hv, hid, hpublished⟩)

/-- A version without cases satisfies the contract. -/
theorem contract_of_no_tests (h : ∀ t ∈ s.tests, t.problemVersionId ≠ id) :
    (s.suite id).Contract := by
  have htests : s.testsOf id = [] := by
    rw [testsOf, List.filter_eq_nil_iff]
    exact fun t ht => by simp [h t ht]
  have hfiles : (s.suite id).files = [] := by
    rw [suite, List.filter_eq_nil_iff]
    exact fun f _ => by simp [isFileOf, htests]
  refine fun v _ _ => ⟨fun _ t ht => ?_, fun _ => hfiles⟩
  rw [suite, htests] at ht
  cases ht

/-- A version inserted as published has no cases. -/
theorem contract_insertVersion (hs : Linked s) (h : Accepts s (.insertVersion new)) :
    ((TableStatement.write s (.insertVersion new)).suite new.id).Contract := by
  simp only [Accepts, TableStatement.refusals, List.forall_mem_cons, List.any_eq_false,
    decide_eq_true_eq] at h
  refine contract_of_no_tests fun t ht heq => ?_
  obtain ⟨v, hv, hid⟩ := hs.parents t ht
  exact h.2.1 v hv (hid.trans heq)

/-- A version published under a new identifier has no cases: none had that
    identifier, and the cascade would be refused. -/
theorem contract_updateVersion_moved (hs : Linked s) {other : Uuid}
    (h : Accepts s (.updateVersion other published new)) (hv : v ∈ s.versions)
    (hother : v.id = other) (hpub : (v.assign published new).published = true)
    (hmoved : new.id ≠ other) :
    ((TableStatement.write s (.updateVersion other published new)).suite new.id).Contract := by
  simp only [Accepts, TableStatement.refusals, List.forall_mem_cons, List.any_eq_false,
    protectPublishedTests, Option.any_some, Bool.and_eq_true, Bool.or_eq_true, decide_eq_true_eq,
    not_and, not_or, Bool.not_eq_true, Bool.and_eq_false_iff, decide_eq_false_iff_not] at h
  have hpublished : (s.putVersion other published new).isPublished new.id = true :=
    isPublished_iff.2 ⟨v.assign published new, List.mem_map.2 ⟨v, hv, if_pos hother⟩, rfl, hpub⟩
  refine contract_of_no_tests fun t ht heq => ?_
  obtain ⟨u, hu, rfl⟩ := List.mem_map.1 ht
  by_cases hold : u.problemVersionId = other
  · rcases h.2.2.2.2.2.2.1 with hsame | hcascade
    · exact hsame hmoved
    · rw [(hcascade u hu hold).2] at hpublished
      cases hpublished
  · rw [if_neg hold] at heq
    obtain ⟨w, hw, hid⟩ := hs.parents u hu
    exact h.2.2.2.2.1 w hw (fun e => hold (hid.symm.trans e)) (hid.trans heq)

/-- A version published in place has been validated. -/
theorem contract_updateVersion_same (h : Accepts s (.updateVersion new.id published new))
    (hv : v ∈ s.versions) (hid : v.id = new.id) (hpub : (v.assign published new).published = true) :
    ((TableStatement.write s (.updateVersion new.id published new)).suite new.id).Contract := by
  simp only [Accepts, TableStatement.refusals, List.forall_mem_cons, List.any_eq_false,
    protectPublishedVersion, Bool.and_eq_true, decide_eq_true_eq,
    not_and, Bool.not_eq_true, Bool.and_eq_false_iff] at h
  have hdraft := h.1 v hv hid
  have hassigned : published.isSome ≠ false := by
    intro hnone
    rw [Option.isSome_eq_false_iff, Option.isNone_iff_eq_none] at hnone
    rw [VersionRow.assign, hnone, Option.getD_none, hdraft] at hpub
    cases hpub
  have hpublishes : publishes v (v.assign published new) = true := by
    rw [publishes, hpub, hdraft]
    rfl
  -- Both tests ran on this row.
  have hstdin := (h.2.1.resolve_left hassigned) v hv hid
  have hfiles := (h.2.2.1.resolve_left hassigned) v hv hid
  rw [validateStdin, hpublishes, Bool.true_and] at hstdin
  rw [validateFiles, hpublishes, Bool.true_and] at hfiles
  have hrows : (TableStatement.write s (.updateVersion new.id published new)).tests = s.tests := by
    refine (List.map_congr_left fun t _ => ?_).trans (List.map_id s.tests)
    split
    · next heq => rw [← heq, id]
    · rfl
  intro w hw _
  -- Every row of the identifier has the mode that was validated.
  have hmode : w.inputMode = new.inputMode := by
    obtain ⟨hmem, hwid⟩ := List.mem_filter.1 hw
    obtain ⟨x, _, rfl⟩ := List.mem_map.1 hmem
    by_cases hx : x.id = new.id
    · rw [if_pos hx, VersionRow.assign]
    · rw [if_neg hx] at hwid
      exact absurd (of_decide_eq_true hwid) hx
  rw [hmode]
  refine ⟨fun hfile t ht => ?_, fun hstd => ?_⟩
  · obtain ⟨ht, hversion⟩ := mem_testsOf.1 ht
    rw [hrows] at ht
    simp only [VersionRow.assign, hfile, decide_true, Bool.true_and, List.any_eq_false,
      Bool.and_eq_true, decide_eq_true_eq, Bool.or_eq_true, Bool.not_eq_true', not_and, not_or,
      not_forall, exists_prop, ne_eq, not_not] at hfiles
    obtain ⟨hinput, f, hf, hfid⟩ := hfiles t ht hversion
    refine ⟨hinput, f, List.mem_filter.2 ⟨hf, isFileOf_iff.2 ⟨t, ?_, hversion, hfid.symm⟩⟩, hfid⟩
    rwa [hrows]
  · refine List.filter_eq_nil_iff.2 fun f hf hfile => ?_
    obtain ⟨t, ht, hversion, htid⟩ := isFileOf_iff.1 hfile
    rw [hrows] at ht
    simp only [VersionRow.assign, hstd, decide_true, Bool.true_and, List.any_eq_false,
      List.any_eq_true, Bool.and_eq_true, decide_eq_true_eq, not_exists, not_and] at hstdin
    exact hstdin f hf t ht htid hversion

/-- A statement keeps rows linked. -/
theorem Linked.write (hs : Linked s) (h : Accepts s statement) : Linked (statement.write s) :=
  ⟨parents_write hs h, keys_write hs h, fileParents_write hs h⟩

theorem Linked.step (hs : Linked s) (statement : TableStatement) :
    Linked (s.step statement).1 := by
  rcases step_cases s statement with heq | ⟨hacc, heq⟩
  · rwa [heq]
  · rw [heq]
    exact hs.write hacc

/-- A statement that takes no file away keeps the tables consistent. -/
theorem Consistent.step (hs : Consistent s) (statement : TableStatement)
    (hkeep : ¬ Detaches s statement) : Consistent (s.step statement).1 := by
  refine ⟨hs.toLinked.step statement, ?_⟩
  have hsuite : ∀ id, s.isPublished id = true → (s.step statement).1.suite id = s.suite id :=
    fun _ hpub => suite_step hs.toLinked hpub statement hkeep
  rcases step_cases s statement with heq | ⟨hacc, heq⟩
  · rw [heq]
    exact hs.contract
  · rw [heq] at hsuite ⊢
    intro id hpub
    rcases published_write hpub with hbefore | ⟨new, rfl, rfl⟩ |
      ⟨other, published, new, rfl, rfl, v, hv, hother, hpublished⟩
    · rw [hsuite id hbefore]
      exact hs.contract id hbefore
    · exact contract_insertVersion hs.toLinked hacc
    · by_cases hmoved : new.id = other
      · subst hmoved
        exact contract_updateVersion_same hacc hv hother hpublished
      · exact contract_updateVersion_moved hs.toLinked hacc hv hother hpublished hmoved

end Consistency

/-! ### Runs -/

theorem consistent_empty : Consistent {} where
  parents _ ht := by cases ht
  keys _ ht := by cases ht
  fileParents _ hf := by cases hf
  contract _ hpub := by cases hpub

theorem linked_run (statements : List TableStatement) : Linked (ProblemTables.run statements) :=
  Runs.run_induction ProblemTables.step (fun _ statement hs => hs.step statement) {}
    consistent_empty.toLinked statements

/-- A suite says whether its version is published. -/
theorem isPublished_eq_suite (s : ProblemTables) (id : Uuid) :
    s.isPublished id = (s.suite id).versions.any VersionRow.published := by
  rw [ProblemTables.suite, List.any_filter, ProblemTables.isPublished]

/-- In every run in which no file is taken away from a case of a published
    version, the row of a version, its cases and their files stay what they
    were at any time at which it was published, and they satisfy the input
    contract. -/
theorem published_suite_immutable (first rest : List TableStatement) (id : Uuid)
    (hkeep : Runs.Along ProblemTables.step (fun s statement => ¬ Detaches s statement) {}
      (first ++ rest))
    (hpub : (ProblemTables.run first).isPublished id = true) :
    (ProblemTables.run (first ++ rest)).suite id = (ProblemTables.run first).suite id ∧
      ((ProblemTables.run (first ++ rest)).suite id).Contract := by
  obtain ⟨hfirst, hrest⟩ := (Runs.along_append _ _ first rest).1 hkeep
  have hconsistent : Consistent (ProblemTables.run first) :=
    Runs.run_induction_along ProblemTables.step (P := Consistent)
      (fun s statement hnot hs => hs.step statement hnot) first {} hfirst consistent_empty
  -- From there on: consistent, and with this suite.
  obtain ⟨hend, hsuite⟩ := Runs.run_induction_along ProblemTables.step
    (P := fun s => Consistent s ∧ s.suite id = (ProblemTables.run first).suite id)
    (fun s statement hnot hs => by
      obtain ⟨hs, heq⟩ := hs
      have hpublished : s.isPublished id = true := by
        rw [isPublished_eq_suite, heq, ← isPublished_eq_suite, hpub]
      exact ⟨hs.step statement hnot, (suite_step hs.toLinked hpublished statement hnot).trans heq⟩)
    rest _ hrest ⟨hconsistent, rfl⟩
  rw [ProblemTables.run, Runs.run_append]
  refine ⟨hsuite, hend.contract id ?_⟩
  rw [isPublished_eq_suite, hsuite, ← isPublished_eq_suite, hpub]

namespace Sample

def firstVersion : Uuid := versionId
def secondVersion : Uuid := publicCase
def firstCase : Uuid := hiddenCase
def secondCase : Uuid := owner

/-- A draft that reads files. -/
def draft (id : Uuid) (number : Int) : VersionRow :=
  { id := id, problemId := problem, number := number, timeMs := 1000, memoryKiB := 65536,
    inputMode := .files,
    content := ⟨"Sum", .easy, [], "Add the numbers in the file.", [], ⟨"", "", ""⟩⟩ }

def fileCase (id versionId : Uuid) : TestRow :=
  { id := id, problemVersionId := versionId, ordinal := 1, visibility := .publicCase,
    input := "", expectedOutput := "42" }

def file (testCaseId : Uuid) : FileRow :=
  { testCaseId := testCaseId, name := "data.txt", content := "6 7" }

/-- A version with one case and one file is published, and a second version
    is drafted. -/
def publication : List TableStatement :=
  [.insertVersion (draft firstVersion 1), .insertTest (fileCase firstCase firstVersion),
    .insertFile (file firstCase), .updateVersion firstVersion (some true) (draft firstVersion 1),
    .insertVersion (draft secondVersion 2), .insertTest (fileCase secondCase secondVersion)]

/-- The file goes to the draft. -/
def takeFile : TableStatement :=
  .updateFile firstCase "data.txt" (file secondCase)

/-- The file is deleted, which the trigger refuses. -/
def dropFile : TableStatement :=
  .deleteFile firstCase "data.txt"

end Sample

/-- None of these statements updates a file. -/
theorem Sample.not_detaches_publication :
    ∀ s, ∀ statement ∈ publication ++ [dropFile], ¬ Detaches s statement := by
  rintro s statement hmem ⟨_, f, _, new, rfl, _⟩
  simp [publication, dropFile] at hmem

theorem published_suite_immutable_edit :
    (ProblemTables.run (Sample.publication ++ [Sample.dropFile])).suite Sample.firstVersion
      = (ProblemTables.run Sample.publication).suite Sample.firstVersion :=
  (published_suite_immutable Sample.publication [Sample.dropFile] Sample.firstVersion
    (Runs.along_of_forall _ Sample.not_detaches_publication {}) (by decide +kernel)).1

/-- The file of a published version is moved to a draft: every statement is
    accepted, the suite changes, and its case is left without a file. -/
theorem published_file_taken :
    (∀ refusal ∈ Runs.outputs ProblemTables.step {} (Sample.publication ++ [Sample.takeFile]),
        refusal = none) ∧
      (ProblemTables.run Sample.publication).isPublished Sample.firstVersion = true ∧
      (ProblemTables.run (Sample.publication ++ [Sample.takeFile])).suite Sample.firstVersion
        ≠ (ProblemTables.run Sample.publication).suite Sample.firstVersion ∧
      ¬ ((ProblemTables.run (Sample.publication ++ [Sample.takeFile])).suite
        Sample.firstVersion).Contract := by
  refine ⟨by decide +kernel, by decide +kernel, by decide +kernel, fun h => ?_⟩
  have hfiles : ((ProblemTables.run (Sample.publication ++ [Sample.takeFile])).suite
      Sample.firstVersion).files = [] := by decide +kernel
  have hcase := h { Sample.draft Sample.firstVersion 1 with published := true }
    (by decide +kernel) rfl
  obtain ⟨_, f, hf, _⟩ := hcase.1 rfl (Sample.fileCase Sample.firstCase Sample.firstVersion)
    (by decide +kernel)
  rw [hfiles] at hf
  cases hf

end ArenaCore
