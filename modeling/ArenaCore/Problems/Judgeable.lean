import Mathlib.Algebra.BigOperators.Group.List.Basic
import Mathlib.Algebra.Order.Field.Basic
import Mathlib.Data.Rat.Lemmas
import Mathlib.Tactic.NormNum
import ArenaCore.Problems.Authoring
import ArenaCore.Problems.Immutable
import ArenaCore.Runner.Backend

/-!
# Which Published Problems Can Be Judged

A problem that its author may publish is stored, loaded again as a plan, and
turned into a sandbox request by another package with limits of its own. The
plan is always accepted. The request is accepted under four conditions on the
problem, which the author's schema does not imply: its time limit is at most
ten seconds, its memory limit is a whole number of mebibytes and at least
thirty-two of them, and the inputs of the cases to run fit into one mebibyte.

The author's schema counts characters and the sandbox counts bytes, but a
character takes at most four bytes, so the limits on a single input agree.

## Main definitions

* `Stored`: What the tables say about a published version.
* `Runnable`: The four conditions.

## Theorems

* `transact_storeVersion`: Storing a version appends its rows.
* `loadJudgePlan_stored`: The plan that is loaded.
* `published_runnable_iff`: When the request is accepted.
* `published_not_runnable`: A problem whose request is refused.
-/

namespace ArenaCore

/-! ### Transactions of insertions -/

namespace ProblemTables

variable {s t : ProblemTables}

theorem transact_append {first second : List TableStatement} :
    s.transact (first ++ second) = .ok t ↔
      ∃ u, s.transact first = .ok u ∧ u.transact second = .ok t := by
  induction first generalizing s with
  | nil => simp [transact]
  | cons statement rest ih =>
      rw [List.cons_append, transact, transact]
      rcases s.step statement with ⟨s', _ | reason⟩
      · exact ih
      · simp

/-- A statement that finds its row is accepted and written. -/
theorem transact_cons {statement : TableStatement} {rest : List TableStatement}
    (h : s.transact (statement :: rest) = .ok t) (heffective : statement.isEffective s = true) :
    Accepts s statement ∧ (statement.write s).transact rest = .ok t := by
  rw [transact] at h
  unfold step at h
  rw [if_pos heffective] at h
  cases hfind : (statement.refusals s).find? Prod.fst with
  | some refusal => rw [hfind] at h; cases h
  | none =>
      rw [hfind] at h
      exact ⟨fun refusal hmem => Bool.eq_false_iff.2 (List.find?_eq_none.1 hfind refusal hmem), h⟩

theorem linked_transact {statements : List TableStatement} (hs : Linked s)
    (h : s.transact statements = .ok t) : Linked t := by
  induction statements generalizing s with
  | nil =>
      cases h
      exact hs
  | cons statement rest ih =>
      rw [transact] at h
      have hstep := hs.step statement
      rcases heq : s.step statement with ⟨s', _ | reason⟩
      · rw [heq] at h hstep
        exact ih hstep h
      · rw [heq] at h
        cases h

theorem transact_insertFiles {rows : List FileRow} (h : s.transact (rows.map .insertFile) = .ok t) :
    t = { s with files := s.files ++ rows } := by
  induction rows generalizing s with
  | nil =>
      cases h
      rw [List.append_nil]
  | cons row rows ih =>
      rw [ih (transact_cons h rfl).2, TableStatement.write, List.append_assoc]
      rfl

theorem transact_storeTests {v : NewVersion} {entries : List (ProblemTest × Nat)}
    (h : s.transact (entries.flatMap (storeTest v)) = .ok t) :
    t = { s with
      tests := s.tests ++ entries.map (testRow v)
      files := s.files ++ entries.flatMap (fileRows v) } := by
  induction entries generalizing s with
  | nil =>
      cases h
      rw [List.map_nil, List.flatMap_nil, List.append_nil, List.append_nil]
  | cons entry entries ih =>
      rw [List.flatMap_cons, storeTest, List.cons_append] at h
      obtain ⟨u, hfiles, hrest⟩ := transact_append.1 (transact_cons h rfl).2
      rw [ih hrest, transact_insertFiles hfiles, TableStatement.write]
      simp only [List.append_assoc, List.map_cons, List.flatMap_cons, List.singleton_append]

end ProblemTables

/-! ### Stored versions -/

/-- The rows of a published version, as they are found in the tables. -/
structure Stored (v : NewVersion) (p : ProblemInput) (t : ProblemTables) : Prop where
  version : t.versions.find? (fun w => decide (w.id = v.id) && w.published)
    = some { versionRow v p with published := true }
  tests : t.testsOf v.id = p.tests.zipIdx.map (testRow v)
  files : ∀ entry ∈ p.tests.zipIdx,
    t.files.filter (fun f => decide (f.testCaseId = v.testIds entry.2)) = fileRows v entry
  distinct : (p.tests.zipIdx.map fun entry => v.testIds entry.2).Nodup

section Storing

open ProblemTables

variable {s t : ProblemTables} {v : NewVersion} {p : ProblemInput}

/-- Publication replaces the draft and changes nothing else. -/
theorem transact_storeVersion (hpublish : p.publish = true)
    (h : s.transact (storeVersion v p) = .ok t) :
    (∀ w ∈ s.versions, w.id ≠ v.id) ∧
      t.versions = s.versions ++ [{ versionRow v p with published := true }] ∧
      t.tests = s.tests ++ p.tests.zipIdx.map (testRow v) ∧
      t.files = s.files ++ p.tests.zipIdx.flatMap (fileRows v) := by
  rw [storeVersion, if_pos hpublish, List.cons_append] at h
  obtain ⟨hinsert, h⟩ := transact_cons h rfl
  simp only [Accepts, TableStatement.refusals, List.forall_mem_cons, List.any_eq_false,
    decide_eq_true_eq] at hinsert
  have hfresh : ∀ w ∈ s.versions, w.id ≠ v.id := hinsert.2.1
  obtain ⟨u, htests, hupdate⟩ := transact_append.1 h
  have hu := transact_storeTests htests
  subst hu
  have hwrite := (transact_cons hupdate (by simp [TableStatement.isEffective, versionRow,
    TableStatement.write])).2
  cases hwrite
  refine ⟨hfresh, ?_, ?_, rfl⟩
  · simp only [TableStatement.write, putVersion, moveTests, List.map_append, List.map_cons,
      List.map_nil]
    congr 1
    · refine (List.map_congr_left fun w hw => ?_).trans (List.map_id _)
      rw [if_neg (hfresh w hw), id]
    · rw [if_pos (by rfl)]
      rfl
  · simp only [TableStatement.write, putVersion, moveTests]
    refine (List.map_congr_left fun w _ => ?_).trans (List.map_id _)
    split
    · next heq => rw [versionRow, ← heq, id]
    · rfl

theorem nodup_positions (p : ProblemInput) : (p.tests.zipIdx.map Prod.snd).Nodup := by
  rw [List.zipIdx_map_snd]
  exact List.nodup_range'

/-- What one element contributes, when only its contributions are selected. -/
theorem filter_flatMap_of_unique {α β : Type} {l : List α} {g : α → List β} {q : β → Bool} {a : α}
    (hmem : a ∈ l) (hnodup : l.Nodup) (hself : ∀ x ∈ g a, q x = true)
    (hother : ∀ b ∈ l, b ≠ a → ∀ x ∈ g b, q x = false) : (l.flatMap g).filter q = g a := by
  obtain ⟨before, after, rfl⟩ := List.append_of_mem hmem
  rw [List.nodup_append, List.nodup_cons] at hnodup
  obtain ⟨_, ⟨hafter, _⟩, hbefore⟩ := hnodup
  have hnone : ∀ l' : List α, (∀ b ∈ l', b ∈ before ++ a :: after ∧ b ≠ a) →
      (l'.flatMap g).filter q = [] := by
    intro l' hl'
    rw [List.filter_eq_nil_iff]
    intro x hx
    obtain ⟨b, hb, hx⟩ := List.mem_flatMap.1 hx
    rw [hother b (hl' b hb).1 (hl' b hb).2 x hx]
    exact Bool.false_ne_true
  rw [List.flatMap_append, List.flatMap_cons, List.filter_append, List.filter_append,
    hnone before, hnone after, List.filter_eq_self.2 hself, List.nil_append, List.append_nil]
  · intro b hb
    refine ⟨List.mem_append_right _ (List.mem_cons_of_mem _ hb), ?_⟩
    rintro rfl
    exact hafter hb
  · intro b hb
    refine ⟨List.mem_append_left _ hb, hbefore b hb a List.mem_cons_self⟩

/-- The rows of a version are found under its identifiers only. -/
theorem stored_of_transact (hs : Linked s) (hpublish : p.publish = true)
    (h : s.transact (storeVersion v p) = .ok t) : Stored v p t := by
  have ht := linked_transact hs h
  obtain ⟨hfresh, hversions, htests, hfiles⟩ := transact_storeVersion hpublish h
  have hold : ∀ u ∈ s.tests, u.problemVersionId ≠ v.id := by
    intro u hu heq
    obtain ⟨w, hw, hid⟩ := hs.parents u hu
    exact hfresh w hw (hid.trans heq)
  have hnew : ∀ entry ∈ p.tests.zipIdx, testRow v entry ∈ t.tests := by
    intro entry hentry
    rw [htests]
    exact List.mem_append_right _ (List.mem_map.2 ⟨entry, hentry, rfl⟩)
  -- Cases with one identifier have one position.
  have hinjective : ∀ a ∈ p.tests.zipIdx, ∀ b ∈ p.tests.zipIdx,
      v.testIds a.2 = v.testIds b.2 → a.2 = b.2 := by
    intro a ha b hb hid
    have hrow := ht.keys _ (hnew a ha) _ (hnew b hb) hid
    have hordinal : (a.2 : Int) + 1 = b.2 + 1 := congrArg TestRow.ordinal hrow
    omega
  refine ⟨?_, ?_, fun entry hentry => ?_, ?_⟩
  · rw [hversions, List.find?_append, List.find?_eq_none.2, Option.none_or]
    · simp [versionRow]
    · intro w hw
      simp [hfresh w hw]
  · rw [testsOf, htests, List.filter_append, List.filter_eq_nil_iff.2, List.nil_append,
      List.filter_eq_self.2]
    · rintro row hrow
      obtain ⟨entry, _, rfl⟩ := List.mem_map.1 hrow
      exact decide_eq_true rfl
    · intro u hu
      simp [hold u hu]
  · -- No older file can belong to the new case.
    have holdFiles : ∀ f ∈ s.files, ¬ decide (f.testCaseId = v.testIds entry.2) = true := by
      intro f hf heq
      obtain ⟨u, hu, hid⟩ := hs.fileParents f hf
      have hmem : u ∈ t.tests := by
        rw [htests]
        exact List.mem_append_left _ hu
      have hrow := ht.keys u hmem _ (hnew entry hentry) (hid.trans (of_decide_eq_true heq))
      exact hold u hu (congrArg TestRow.problemVersionId hrow)
    rw [hfiles, List.filter_append, List.filter_eq_nil_iff.2 holdFiles, List.nil_append]
    refine filter_flatMap_of_unique hentry (nodup_positions p).of_map ?_ ?_
    · intro f hf
      obtain ⟨_, _, rfl⟩ := List.mem_map.1 hf
      exact decide_eq_true rfl
    · intro other hother hne f hf
      obtain ⟨_, _, rfl⟩ := List.mem_map.1 hf
      refine decide_eq_false fun hid => hne ?_
      exact List.inj_on_of_nodup_map (nodup_positions p) hother hentry
        (hinjective other hother entry hentry hid)
  · have hpositions := nodup_positions p
    rw [List.Nodup, List.pairwise_map] at hpositions ⊢
    exact hpositions.imp_of_mem fun ha hb hne hid => hne (hinjective _ ha _ hb hid)

end Storing

/-! ### Plans -/

/-- The tests a mode runs, with their positions. -/
def chosenTests (p : ProblemInput) (mode : ExecutionMode) : List (ProblemTest × Nat) :=
  p.tests.zipIdx.filter fun entry =>
    decide (mode = .submit) || decide (entry.1.visibility = .publicCase)

/-- A test as the plan has it. -/
def plannedCase (nameLe : String → String → Bool) (v : NewVersion) (entry : ProblemTest × Nat) :
    JudgeCase where
  id := (v.testIds entry.2).text
  ordinal := entry.2 + 1
  visibility := entry.1.visibility
  input := entry.1.input
  files := ((fileRows v entry).insertionSort fun f g => nameLe f.name g.name = true).map
    fun f => (f.name, f.content)
  expectedOutput := entry.1.expectedOutput

/-- The plan has a comparator, the limits of the problem and its tests. -/
structure PlanOf (nameLe : String → String → Bool) (v : NewVersion) (p : ProblemInput)
    (mode : ExecutionMode) (plan : JudgePlan) : Prop where
  versionId : plan.versionId = v.id.text
  comparator : plan.comparator = "EXACT_NEWLINE"
  timeMs : plan.timeMs = p.timeMs.toNat
  memoryKiB : plan.memoryKiB = p.memoryKiB.toNat
  cases : plan.cases.Perm ((chosenTests p mode).map (plannedCase nameLe v))

section Plans

variable {nameLe : String → String → Bool} {v : NewVersion} {p : ProblemInput}
  {t : ProblemTables} {mode : ExecutionMode} {plan : JudgePlan}

theorem loadJudgePlan_stored (h : Stored v p t) :
    ∃ plan, loadJudgePlan nameLe t v.id mode = .ok plan ∧ PlanOf nameLe v p mode plan := by
  unfold loadJudgePlan
  rw [h.version]
  refine ⟨_, if_neg (by simp [versionRow]), rfl, rfl, rfl, rfl, ?_⟩
  have hrows : (t.tests.filter fun row => decide (row.problemVersionId = v.id) &&
      (decide (mode = .submit) || decide (row.visibility = .publicCase)))
      = (chosenTests p mode).map (testRow v) := by
    calc
      _ = (t.testsOf v.id).filter fun row =>
          decide (mode = .submit) || decide (row.visibility = .publicCase) := by
        rw [ProblemTables.testsOf, List.filter_filter]
        exact List.filter_congr fun _ _ => Bool.and_comm _ _
      _ = (chosenTests p mode).map (testRow v) := by
        rw [h.tests]
        exact List.filter_map
  have hperm := (List.perm_insertionSort (fun a b : TestRow => a.ordinal ≤ b.ordinal)
    ((chosenTests p mode).map (testRow v))).map (TestRow.toJudgeCase nameLe t)
  rw [planTests, hrows]
  refine hperm.trans (List.Perm.of_eq ?_)
  rw [List.map_map]
  refine List.map_congr_left fun entry hentry => ?_
  have hfiles : (t.files.filter fun f => decide (f.testCaseId = (testRow v entry).id))
      = fileRows v entry := h.files entry (List.mem_of_mem_filter hentry)
  rw [Function.comp_apply, TestRow.toJudgeCase, hfiles]
  rfl

/-- What acceptance says about the tests. -/
theorem AcceptedProblem.tests_spec (input : AcceptedProblem) :
    input.tests.length ≤ 100 ∧ (∃ t ∈ input.tests, t.visibility = .publicCase) ∧
      (∀ t ∈ input.tests, testSchema t = true) ∧
      ∀ t ∈ input.tests, (t.files.map Prod.fst).Nodup := by
  have h := input.accepted
  simp only [ProblemInput.isAccepted, problemSchema, problemIssues, Bool.and_eq_true,
    decide_eq_true_eq, List.isEmpty_iff, List.append_eq_nil_iff, List.flatMap_eq_nil_iff,
    List.all_eq_true] at h
  obtain ⟨⟨⟨⟨_, htests⟩, _⟩, hlength⟩, ⟨hpublic, _⟩, hissues⟩ := h
  refine ⟨hlength, ?_, htests, fun t ht => ?_⟩
  · split at hpublic
    · next hany => simpa using hany
    · cases hpublic
  · obtain ⟨i, hi⟩ := List.mem_iff_getElem?.1 ht
    have hnone := hissues (t, i) (List.mk_mem_zipIdx_iff_getElem?.2 hi)
    simp only [testIssues, List.append_eq_nil_iff] at hnone
    by_contra hdup
    rw [if_neg hdup] at hnone
    cases hnone.1.1

theorem AcceptedProblem.limits_spec (input : AcceptedProblem) :
    100 ≤ input.timeMs ∧ 16384 ≤ input.memoryKiB ∧ input.memoryKiB ≤ 1048576 := by
  have h := input.accepted
  simp only [ProblemInput.isAccepted, problemSchema, Bool.and_eq_true, decide_eq_true_eq] at h
  tauto

/-- A mode runs at least one test: there is a public one. -/
theorem chosenTests_ne_nil (input : AcceptedProblem) (mode : ExecutionMode) :
    chosenTests input.toProblemInput mode ≠ [] := by
  obtain ⟨t, ht, hpublic⟩ := input.tests_spec.2.1
  obtain ⟨i, hi⟩ := List.mem_iff_getElem?.1 ht
  refine List.ne_nil_of_mem (a := (t, i)) (List.mem_filter.2 ⟨?_, ?_⟩)
  · exact List.mk_mem_zipIdx_iff_getElem?.2 hi
  · simp [hpublic]

theorem length_chosenTests_le (input : AcceptedProblem) (mode : ExecutionMode) :
    (chosenTests input.toProblemInput mode).length ≤ 100 := by
  have hfilter : (chosenTests input.toProblemInput mode).length ≤ input.tests.zipIdx.length :=
    List.length_filter_le _ _
  rw [List.length_zipIdx] at hfilter
  exact hfilter.trans input.tests_spec.1

theorem text_injective {a b : Uuid} (h : a.text = b.text) : a = b := by
  cases a
  cases b
  cases h
  rfl

theorem nodup_chosen_ids (hstored : Stored v p t) (mode : ExecutionMode) :
    ((chosenTests p mode).map fun entry => (v.testIds entry.2).text).Nodup := by
  have hall : (p.tests.zipIdx.map fun entry => (v.testIds entry.2).text).Nodup := by
    have htexts := hstored.distinct.map (fun a b h => text_injective h)
    rwa [List.map_map] at htexts
  exact hall.sublist (List.filter_sublist.map _)

/-- The plan of a published version is accepted, with all its cases. -/
theorem selectCases_planOf {input : AcceptedProblem} (hstored : Stored v input.toProblemInput t)
    (hids : ∀ i, isUuid (v.testIds i).text = true)
    (h : PlanOf nameLe v input.toProblemInput mode plan) :
    ∃ selected, selectCases plan mode = .ok selected ∧
      selected.Perm ((chosenTests input.toProblemInput mode).map (plannedCase nameLe v)) := by
  have hmem : ∀ c ∈ plan.cases, ∃ entry ∈ chosenTests input.toProblemInput mode,
      c = plannedCase nameLe v entry := by
    intro c hc
    obtain ⟨entry, hentry, heq⟩ := List.mem_map.1 (h.cases.mem_iff.1 hc)
    exact ⟨entry, hentry, heq.symm⟩
  have hnonempty : plan.cases ≠ [] := by
    intro hempty
    have hnil := h.cases
    rw [hempty] at hnil
    exact chosenTests_ne_nil input mode (List.map_eq_nil_iff.1 hnil.nil_eq.symm)
  have hordinals : (plan.cases.map (·.ordinal)).Nodup := by
    rw [(h.cases.map _).nodup_iff, List.map_map]
    have hpositions := (nodup_positions input.toProblemInput).sublist
      ((List.filter_sublist (p := fun entry => decide (mode = .submit) ||
        decide (entry.1.visibility = .publicCase))).map Prod.snd)
    rw [List.Nodup, List.pairwise_map] at hpositions ⊢
    refine hpositions.imp fun hne heq => hne ?_
    simp only [Function.comp_apply, plannedCase] at heq
    omega
  have haccepted : planAccepted plan = true := by
    simp only [planAccepted, Bool.and_eq_true, decide_eq_true_eq, List.all_eq_true, beq_iff_eq]
    refine ⟨⟨⟨⟨⟨h.comparator, by simpa using hnonempty⟩, ?_⟩, ?_⟩, hordinals⟩, fun c hc => ?_⟩
    · rw [h.cases.length_eq, List.length_map]
      exact length_chosenTests_le input mode
    · rw [(h.cases.map _).nodup_iff, List.map_map]
      exact nodup_chosen_ids hstored mode
    · obtain ⟨entry, _, rfl⟩ := hmem c hc
      refine ⟨hids entry.2, ?_⟩
      simp only [plannedCase]
      omega
  -- The query has already left out what the mode does not run.
  have hfilter : (plan.cases.filter fun c => decide (mode = .submit) ||
      decide (c.visibility = .publicCase)) = plan.cases := by
    refine List.filter_eq_self.2 fun c hc => ?_
    obtain ⟨entry, hentry, rfl⟩ := hmem c hc
    exact (List.mem_filter.1 hentry).2
  have hperm := List.perm_insertionSort byOrdinal plan.cases
  refine ⟨plan.cases.insertionSort byOrdinal, ?_, hperm.trans h.cases⟩
  unfold selectCases
  rw [if_neg (by simp [haccepted]), hfilter]
  have hne : plan.cases.insertionSort byOrdinal ≠ [] := by
    intro hempty
    rw [hempty] at hperm
    exact hnonempty hperm.nil_eq.symm
  simp [hne]

end Plans

/-! ### Requests -/

/-- The bytes a test brings in. -/
def ProblemTest.bytes (t : ProblemTest) : Nat :=
  byteLength t.input + (t.files.map fun f => byteLength f.2).sum

/-- What the sandbox asks of a problem beyond what its author was asked. -/
structure Runnable (p : ProblemInput) (mode : ExecutionMode) : Prop where
  time : p.timeMs ≤ 10000
  memory : 32768 ≤ p.memoryKiB
  wholeMebibytes : (1024 : Int) ∣ p.memoryKiB
  inputs : ((p.tests.filter fun t => decide (mode = .submit) ||
    decide (t.visibility = .publicCase)).map ProblemTest.bytes).sum ≤ 1024 * 1024

/-- A test as the request has it. -/
def requestedCase (nameLe : String → String → Bool) (v : NewVersion)
    (entry : ProblemTest × Nat) : SandboxCase :=
  ⟨(plannedCase nameLe v entry).id, entry.1.input, (plannedCase nameLe v entry).files⟩

section Requests

variable {nameLe : String → String → Bool} {v : NewVersion}

/-- The files of a case are those of the test, in another order. -/
theorem files_perm (entry : ProblemTest × Nat) :
    (requestedCase nameLe v entry).files.Perm entry.1.files := by
  have hperm := (List.perm_insertionSort (fun f g : FileRow => nameLe f.name g.name = true)
    (fileRows v entry)).map fun f => (f.name, f.content)
  refine hperm.trans (List.Perm.of_eq ?_)
  rw [fileRows, List.map_map]
  exact List.map_id _

theorem bytes_requestedCase (entry : ProblemTest × Nat) :
    (requestedCase nameLe v entry).bytes = entry.1.bytes := by
  rw [SandboxCase.bytes, ProblemTest.bytes, ((files_perm entry).map _).sum_eq]
  rfl

theorem byteLength_le_of_hasLength {s : String} (h : hasLength 0 64000 s = true) :
    byteLength s ≤ Caps.inputBytes := by
  have hbytes := byteLength_le s
  simp only [hasLength, Bool.and_eq_true, decide_eq_true_eq] at h
  unfold Caps.inputBytes
  omega

/-- Every test an author may write is a case the sandbox accepts. -/
theorem sandboxCaseSchema_requestedCase (hids : ∀ i, isUuid (v.testIds i).text = true)
    {entry : ProblemTest × Nat} (hschema : testSchema entry.1 = true)
    (hnames : (entry.1.files.map Prod.fst).Nodup) :
    sandboxCaseSchema (requestedCase nameLe v entry) = true := by
  have hperm := @files_perm nameLe v entry
  simp only [testSchema, Bool.and_eq_true, decide_eq_true_eq, List.all_eq_true] at hschema
  obtain ⟨⟨⟨hinput, hlength⟩, hfiles⟩, _⟩ := hschema
  simp only [sandboxCaseSchema, Bool.and_eq_true, decide_eq_true_eq, List.all_eq_true]
  refine ⟨⟨⟨⟨hids entry.2, byteLength_le_of_hasLength hinput⟩, ?_⟩, fun file hfile => ?_⟩, ?_⟩
  · rw [hperm.length_eq]
    exact hlength
  · have hfile := hfiles file (hperm.mem_iff.1 hfile)
    simp only [testFile, testFileName, Bool.and_eq_true] at hfile
    simp only [sandboxFileSchema, inputFileNameSchema, Bool.and_eq_true, decide_eq_true_eq]
    exact ⟨hfile.1, byteLength_le_of_hasLength hfile.2⟩
  · rwa [(hperm.map Prod.fst).nodup_iff]

/-- The memory limit in mebibytes is a whole number in range. -/
theorem memoryMiB_iff {kib : Int} (hlow : 16384 ≤ kib) (hhigh : kib ≤ 1048576) :
    (((kib.toNat : Rat) / 1024).den = 1 ∧ 32 ≤ (kib.toNat : Rat) / 1024 ∧
        (kib.toNat : Rat) / 1024 ≤ Caps.maxMemoryMiB) ↔ (1024 : Int) ∣ kib ∧ 32768 ≤ kib := by
  obtain ⟨n, rfl⟩ := Int.eq_ofNat_of_zero_le (by omega : (0 : Int) ≤ kib)
  have hpos : (0 : Rat) < 1024 := by norm_num
  have hwhole : (((n : Rat) / 1024).den = 1) ↔ 1024 ∣ n :=
    Rat.den_div_natCast_eq_one_iff n 1024 (by norm_num)
  have hleast : (32 ≤ (n : Rat) / 1024) ↔ 32768 ≤ n := by
    rw [le_div_iff₀ hpos]
    norm_num
  have hmost : (n : Rat) / 1024 ≤ Caps.maxMemoryMiB := by
    rw [div_le_iff₀ hpos, Caps.maxMemoryMiB]
    norm_num
    exact_mod_cast hhigh
  rw [Int.toNat_natCast, hwhole, hleast, and_iff_left hmost]
  omega

/-- The bytes of the chosen tests, counted in the problem. -/
theorem sum_bytes_chosenTests (p : ProblemInput) (mode : ExecutionMode) :
    ((chosenTests p mode).map fun entry => entry.1.bytes).sum
      = ((p.tests.filter fun t => decide (mode = .submit) ||
        decide (t.visibility = .publicCase)).map ProblemTest.bytes).sum := by
  have hfst : (chosenTests p mode).map Prod.fst = p.tests.filter fun t =>
      decide (mode = .submit) || decide (t.visibility = .publicCase) := by
    conv_rhs => rw [← List.zipIdx_map_fst 0 p.tests, List.filter_map]
    rfl
  rw [← hfst, List.map_map]
  rfl

/-- An accepted submission as the backend sees it. -/
def CreateExecution.context (create : CreateExecution) (id versionId : Uuid) (attempt : Int) :
    ExecutionContext where
  id := id
  attempt := attempt
  problemVersionId := versionId
  language := create.language
  mode := create.mode
  sourceCode := create.sourceCode

/-- The request built from a plan of a stored version is accepted exactly if
    the problem is runnable. -/
theorem sandboxRequestSchema_iff {t : ProblemTables} {plan : JudgePlan} {selected : List JudgeCase}
    {input : AcceptedProblem} {create : CreateExecution} {id : Uuid} {attempt : Int}
    (hstored : Stored v input.toProblemInput t) (hids : ∀ i, isUuid (v.testIds i).text = true)
    (hplan : PlanOf nameLe v input.toProblemInput create.mode plan)
    (hselected : selected.Perm
      ((chosenTests input.toProblemInput create.mode).map (plannedCase nameLe v)))
    (hid : isUuid id.text = true) (hattempt : isSafeInteger attempt = true ∧ 0 < attempt) :
    sandboxRequestSchema (sandboxRequest (create.context id v.id attempt) plan selected) = true ↔
      Runnable input.toProblemInput create.mode := by
  obtain ⟨htime, hlow, hhigh⟩ := input.limits_spec
  have hcases : (sandboxRequest (create.context id v.id attempt) plan selected).cases.Perm
      ((chosenTests input.toProblemInput create.mode).map (requestedCase nameLe v)) := by
    have hmap := hselected.map fun c : JudgeCase => (⟨c.id, c.input, c.files⟩ : SandboxCase)
    rw [List.map_map] at hmap
    exact hmap
  have hlength := hcases.length_eq
  rw [List.length_map] at hlength
  have hnonempty : 1 ≤ (sandboxRequest (create.context id v.id attempt) plan selected).cases.length := by
    rw [hlength]
    exact List.length_pos_iff.2 (chosenTests_ne_nil input create.mode)
  have hall : ∀ test ∈ (sandboxRequest (create.context id v.id attempt) plan selected).cases,
      sandboxCaseSchema test = true := by
    intro test htest
    obtain ⟨entry, hentry, rfl⟩ := List.mem_map.1 (hcases.mem_iff.1 htest)
    have hmem : entry.1 ∈ input.tests := List.fst_mem_of_mem_zipIdx (List.mem_of_mem_filter hentry)
    exact sandboxCaseSchema_requestedCase hids (input.tests_spec.2.2.1 _ hmem)
      (input.tests_spec.2.2.2 _ hmem)
  have hdistinct : ((sandboxRequest (create.context id v.id attempt) plan selected).cases.map
      SandboxCase.id).Nodup := by
    rw [(hcases.map _).nodup_iff, List.map_map]
    exact nodup_chosen_ids hstored create.mode
  have hbytes : ((sandboxRequest (create.context id v.id attempt) plan selected).cases.map
      SandboxCase.bytes).sum = ((input.tests.filter fun t => decide (create.mode = .submit) ||
        decide (t.visibility = .publicCase)).map ProblemTest.bytes).sum := by
    rw [(hcases.map _).sum_eq, List.map_map, ← sum_bytes_chosenTests]
    exact congrArg List.sum (List.map_congr_left fun entry _ => bytes_requestedCase entry)
  have hmemory := memoryMiB_iff hlow hhigh
  rw [← hplan.memoryKiB] at hmemory
  have htimeMs : (plan.timeMs : Int) = input.timeMs := by
    rw [hplan.timeMs]
    omega
  have hcaseMs : ((plan.timeMs : Int) ≤ (Caps.caseMs : Nat)) ↔ input.timeMs ≤ 10000 := by
    rw [htimeMs]
    rfl
  simp only [sandboxRequestSchema, Bool.and_eq_true, decide_eq_true_eq, List.all_eq_true]
  constructor
  · rintro ⟨⟨⟨⟨⟨⟨_, htimeCap⟩, hwhole⟩, hleast⟩, hmost⟩, _⟩, hbudget⟩
    obtain ⟨hdvd, hmin⟩ := hmemory.1 ⟨hwhole, hleast, hmost⟩
    refine ⟨hcaseMs.1 htimeCap, hmin, hdvd, ?_⟩
    rw [← hbytes]
    exact hbudget
  · rintro ⟨htimeCap, hmin, hdvd, hbudget⟩
    obtain ⟨hwhole, hleast, hmost⟩ := hmemory.2 ⟨hdvd, hmin⟩
    refine ⟨⟨⟨⟨⟨⟨⟨⟨⟨⟨⟨⟨⟨⟨hid, hattempt.1⟩, hattempt.2⟩, create.sourceNonempty⟩,
      create.sourceBounded⟩, hnonempty⟩, ?_⟩, hall⟩, ?_⟩, hcaseMs.2 htimeCap⟩, hwhole⟩, hleast⟩,
      hmost⟩, hdistinct⟩, ?_⟩
    · rw [hlength]
      exact length_chosenTests_le input create.mode
    · change 1 ≤ (plan.timeMs : Int)
      omega
    · rw [hbytes]
      exact hbudget

end Requests

/-! ### Published problems -/

/-- Both operations store the version they return. -/
theorem stored_of_ok {c c' : Catalogue} {problemId versionId : Uuid} {testIds : Nat → Uuid}
    {input : AcceptedProblem} {stored : StoredProblem} (hlinked : Linked c.tables)
    (hpublish : input.publish = true)
    (h : createProblem c problemId versionId testIds input = .ok (stored, c') ∨
      editProblem c problemId versionId testIds input = .ok (stored, c')) :
    stored.versionId = versionId ∧
      ∃ number, Stored ⟨versionId, problemId, number, testIds⟩ input.toProblemInput c'.tables := by
  have hadd : ∀ {problems : List ProblemRow} {number : Int} {c' : Catalogue},
      Catalogue.addVersion ⟨problems, c.tables⟩ ⟨versionId, problemId, number, testIds⟩
        input.toProblemInput = .ok c' →
      Stored ⟨versionId, problemId, number, testIds⟩ input.toProblemInput c'.tables := by
    intro problems number c' hok
    rw [Catalogue.addVersion] at hok
    cases htransact : c.tables.transact
        (storeVersion ⟨versionId, problemId, number, testIds⟩ input.toProblemInput) with
    | error reason =>
        rw [htransact] at hok
        cases hok
    | ok tables =>
        simp only [htransact, hpublish, if_true] at hok
        split at hok
        · cases hok
          exact stored_of_transact hlinked hpublish htransact
        · cases hok
  rcases h with h | h
  · unfold createProblem at h
    simp only [] at h
    split at h
    · cases h
    · split at h
      · cases h
      · cases h
      · next hok =>
          cases h
          exact ⟨rfl, 1, hadd hok⟩
  · unfold editProblem at h
    split at h
    · cases h
    · split at h
      · cases h
      · obtain ⟨c'', hok, hresult⟩ := Transaction.bind_eq_ok.1 h
        cases hresult
        exact ⟨rfl, _, hadd hok⟩

/-- For every problem an author may publish, stored by `createProblem` or
    `editProblem` in tables reached by any statements, and every accepted
    submission: a plan is loaded and its cases are selected, and the request
    built from them is accepted exactly if the problem is runnable. The
    hypotheses on identifiers are what the client library generates. -/
theorem published_runnable_iff (nameLe : String → String → Bool) (problems : List ProblemRow)
    (statements : List TableStatement) (problemId versionId : Uuid) (testIds : Nat → Uuid)
    (hids : ∀ i, isUuid (testIds i).text = true) (input : AcceptedProblem)
    (hpublish : input.publish = true) (stored : StoredProblem) (c : Catalogue)
    (hstored :
      createProblem ⟨problems, ProblemTables.run statements⟩ problemId versionId testIds input
          = .ok (stored, c) ∨
        editProblem ⟨problems, ProblemTables.run statements⟩ problemId versionId testIds input
          = .ok (stored, c))
    (create : CreateExecution) (id : Uuid) (hid : isUuid id.text = true) (attempt : Int)
    (hattempt : isSafeInteger attempt = true ∧ 0 < attempt) :
    ∃ plan selected, loadJudgePlan nameLe c.tables stored.versionId create.mode = .ok plan ∧
      selectCases plan create.mode = .ok selected ∧
      (sandboxRequestSchema
          (sandboxRequest (create.context id stored.versionId attempt) plan selected) = true ↔
        Runnable input.toProblemInput create.mode) := by
  obtain ⟨rfl, number, hrows⟩ := stored_of_ok (linked_run statements) hpublish hstored
  obtain ⟨plan, hload, hplan⟩ := loadJudgePlan_stored hrows
  obtain ⟨selected, hselect, hperm⟩ := selectCases_planOf hrows hids hplan
  exact ⟨plan, selected, hload, hselect,
    sandboxRequestSchema_iff hrows hids hplan hperm hid hattempt⟩

namespace Sample

/-- A problem with two tests and a memory limit. -/
def rawProblem (memoryKiB : Int) : RawProblem where
  slug := "sum"
  title := "Sum"
  difficulty := .easy
  tags := ["math"]
  statementMarkdown := "Print the sum of two numbers."
  constraints := []
  timeMs := 1000
  memoryKiB := memoryKiB
  templates := ⟨"", "", ""⟩
  tests :=
    [{ visibility := .publicCase, input := "1 2", expectedOutput := "3" },
     { visibility := .hiddenCase, input := "2 2", expectedOutput := "4" }]
  publish := true

/-- The least memory an author may ask for. -/
def smallProblem : AcceptedProblem :=
  ⟨(rawProblem 16384).normalize fun text => text, by decide +kernel⟩

def usualProblem : AcceptedProblem :=
  ⟨(rawProblem 65536).normalize fun text => text, by decide +kernel⟩

def testIds (i : Nat) : Uuid :=
  if i = 0 then publicCase else hiddenCase

theorem isUuid_testIds (i : Nat) : isUuid (testIds i).text = true := by
  unfold testIds
  split <;> decide +kernel

def submission : CreateExecution :=
  input .submit

/-- The first problem of an empty catalogue. -/
def publish (input : AcceptedProblem) : Except Error (StoredProblem × Catalogue) :=
  createProblem ⟨[], ProblemTables.run []⟩ problem versionId testIds input

theorem exists_of_isSome {ε α : Type} {x : Except ε α} (h : x.toOption.isSome = true) :
    ∃ a, x = .ok a := by
  cases x with
  | error e => cases h
  | ok a => exact ⟨a, rfl⟩

end Sample

theorem published_runnable_iff_usual :
    ∃ stored c plan selected, Sample.publish Sample.usualProblem = .ok (stored, c) ∧
      loadJudgePlan (fun a b => decide (a ≤ b)) c.tables stored.versionId .submit = .ok plan ∧
      selectCases plan .submit = .ok selected ∧
      sandboxRequestSchema (sandboxRequest
        (Sample.submission.context Sample.execution stored.versionId 1) plan selected) = true := by
  obtain ⟨⟨stored, c⟩, hok⟩ := Sample.exists_of_isSome
    (show (Sample.publish Sample.usualProblem).toOption.isSome = true by decide +kernel)
  obtain ⟨plan, selected, hload, hselect, hiff⟩ := published_runnable_iff
    (fun a b => decide (a ≤ b)) [] [] Sample.problem Sample.versionId Sample.testIds
    Sample.isUuid_testIds Sample.usualProblem rfl stored c (.inl hok) Sample.submission
    Sample.execution (by decide +kernel) 1 (by decide)
  exact ⟨stored, c, plan, selected, hok, hload, hselect,
    hiff.2 ⟨by decide, by decide, by decide, by decide +kernel⟩⟩

/-- A problem with sixteen mebibytes of memory is accepted, stored and
    published, and the request for any submission to it is refused. -/
theorem published_not_runnable :
    createProblemInput (fun text => text) (Sample.rawProblem 16384) = some Sample.smallProblem ∧
      ∃ stored c plan selected, Sample.publish Sample.smallProblem = .ok (stored, c) ∧
        loadJudgePlan (fun a b => decide (a ≤ b)) c.tables stored.versionId .submit = .ok plan ∧
        selectCases plan .submit = .ok selected ∧
        sandboxRequestSchema (sandboxRequest
          (Sample.submission.context Sample.execution stored.versionId 1) plan selected)
          = false := by
  refine ⟨dif_pos Sample.smallProblem.accepted, ?_⟩
  obtain ⟨⟨stored, c⟩, hok⟩ := Sample.exists_of_isSome
    (show (Sample.publish Sample.smallProblem).toOption.isSome = true by decide +kernel)
  obtain ⟨hversion, number, hrows⟩ := stored_of_ok (linked_run []) rfl (.inl hok)
  obtain ⟨plan, hload, hplan⟩ := @loadJudgePlan_stored (fun a b => decide (a ≤ b)) _ _ _
    Sample.submission.mode hrows
  obtain ⟨selected, hselect, hperm⟩ := selectCases_planOf hrows Sample.isUuid_testIds hplan
  have hiff := sandboxRequestSchema_iff hrows Sample.isUuid_testIds hplan hperm
    (show isUuid Sample.execution.text = true by decide +kernel)
    (show isSafeInteger 1 = true ∧ 0 < 1 by decide)
  refine ⟨stored, c, plan, selected, hok, ?_⟩
  rw [hversion]
  refine ⟨hload, hselect, Bool.eq_false_iff.2 fun h => ?_⟩
  exact absurd (hiff.1 h).memory (by decide)

end ArenaCore
