import ArenaCore.Store.Replay
import ArenaCore.Store.Stream

/-!
# What Is Stored for the Owner

Output of a program reaches its owner in two ways: as console events, and as
the per-case results of a finished run. Both are only ever stored for an
execution in `RUN` mode and for a public case of its pinned version, whatever
a worker passes. The two checks differ. `console` looks the case up, while
`finish` counts: the texts must be distinct and the table must hold as many
public cases among them as there are texts. Counting is enough because case
identifiers are a primary key: each public case that is found uses up one of
the texts, so a text that names no public case would leave the count short.

## Main definitions

* `Disclosed`: What the journal and the results of a job may hold.

## Theorems

* `publicResultsAllowed_spec`: The count admits public cases only.
* `disclosed_run`: Only public output of `RUN` executions is stored.
-/

namespace ArenaCore

open JobStore

variable {d : Deployment} {t : Moment} {j j' : Job} {row : Execution}
  {results : List PublicCaseResult} {op : Op}

/-- The journal and the results of a job hold public output only. -/
structure Disclosed (d : Deployment) (j : Job) : Prop where
  kinds : ∀ e ∈ j.journal, e.kind = e.payload.fields.kind
  console : ∀ e ∈ j.journal, ∀ caseId stream text,
    e.payload.fields = .consoleOutput caseId stream text →
      j.row.mode = .run ∧ isPublicCase d j.row.problemVersionId caseId = true
  results : ∀ rs, j.row.publicResults = some rs → j.row.mode = .run ∧
    publicResultsSchema rs = true ∧ ∀ r ∈ rs, isPublicCase d j.row.problemVersionId r.caseId = true

/-! ### Counting public cases -/

theorem Catalog.publicCases_nodup (cat : Catalog) (versionId : Uuid) :
    (cat.publicCases versionId).Nodup := by
  unfold Catalog.publicCases
  split
  · exact List.nodup_nil
  · rename_i version _
    exact version.distinct.sublist (List.filter_sublist.map _)

theorem isPublicCase_iff {versionId : Uuid} {caseId : String} :
    isPublicCase d versionId caseId = true ↔
      ∃ id ∈ d.catalog.publicCases versionId, Uuid.ofText? caseId = some id := by
  simp only [isPublicCase, List.any_eq_true, decide_eq_true_eq]

/-- The count admits public cases only. -/
theorem publicResultsAllowed_spec (h : publicResultsAllowed d row results = true) :
    row.mode = .run ∧ ∀ r ∈ results, isPublicCase d row.problemVersionId r.caseId = true := by
  simp only [publicResultsAllowed, Bool.and_eq_true, beq_iff_eq, decide_eq_true_eq] at h
  rcases h with ⟨⟨hmode, _⟩, hcount⟩
  refine ⟨hmode, ?_⟩
  generalize hids : results.map (·.caseId) = ids at hcount
  -- the public cases that were counted are among the casts of the texts that name one
  have hsub : (d.catalog.publicCases row.problemVersionId).filter
      (fun id => ids.any fun text => Uuid.ofText? text = some id)
      ⊆ (ids.filter (isPublicCase d row.problemVersionId)).filterMap Uuid.ofText? := by
    intro id hid
    rcases List.mem_filter.mp hid with ⟨hpublic, hnamed⟩
    rcases List.any_eq_true.mp hnamed with ⟨text, htext, hcast⟩
    have hcast := of_decide_eq_true hcast
    refine List.mem_filterMap.mpr ⟨text, List.mem_filter.mpr ⟨htext, ?_⟩, hcast⟩
    exact isPublicCase_iff.mpr ⟨id, hpublic, hcast⟩
  have hnodup := (d.catalog.publicCases_nodup row.problemVersionId).filter
    (fun id => ids.any fun text => Uuid.ofText? text = some id)
  have hle : ids.length ≤ (ids.filter (isPublicCase d row.problemVersionId)).length := by
    calc ids.length
        = ((d.catalog.publicCases row.problemVersionId).filter
            fun id => ids.any fun text => Uuid.ofText? text = some id).length := by
          rw [← hcount, List.countP_eq_length_filter]
      _ ≤ ((ids.filter (isPublicCase d row.problemVersionId)).filterMap Uuid.ofText?).length :=
          (List.subperm_of_subset hnodup hsub).length_le
      _ ≤ (ids.filter (isPublicCase d row.problemVersionId)).length :=
          List.length_filterMap_le _ _
  have hall := List.filter_eq_self.mp
    (List.filter_sublist.eq_of_length_le hle)
  exact fun r hr => hall r.caseId (hids ▸ List.mem_map_of_mem hr)

theorem nonneg_of_nonnegative {n : Option Int} (h : nonnegative n = true) :
    n.all (fun x => decide (0 ≤ x)) = true := by
  simp only [nonnegative, Option.all_eq_true, Bool.and_eq_true] at h ⊢
  exact fun x hx => (h x hx).2

/-- What `finish` stores passes the check the serializer makes later. -/
theorem publicResultsSchema_of_resultSchema {result : WorkerResult} (h : resultSchema result = true)
    (hresults : result.publicCaseResults = some results) :
    publicResultsSchema (results.map (sanitizeResult d)) = true := by
  simp only [resultSchema, hresults, Option.all_some, Bool.and_eq_true, List.all_eq_true] at h
  simp only [publicResultsSchema, List.all_eq_true, List.mem_map, Bool.and_eq_true]
  rintro _ ⟨r, hr, rfl⟩
  obtain ⟨⟨⟨_, hcode⟩, hruntime⟩, hmemory⟩ := h.2.2 r hr
  exact ⟨⟨hcode, nonneg_of_nonnegative hruntime⟩, nonneg_of_nonnegative hmemory⟩

/-! ### The invariant -/

namespace Disclosed

variable {d : Deployment} {j j' : Job} {t : Moment} {row : Execution} {fields : EventFields}

section

variable (h : Disclosed d j)
  (hmode : j'.row.mode = j.row.mode)
  (hversion : j'.row.problemVersionId = j.row.problemVersionId)

include h hmode hversion

/-- A change that leaves the journal and the results alone. -/
theorem same (hjournal : j'.journal = j.journal)
    (hresults : j'.row.publicResults = j.row.publicResults) : Disclosed d j' := by
  constructor
  · rw [hjournal]; exact h.kinds
  · rw [hjournal, hmode, hversion]; exact h.console
  · rw [hresults, hmode, hversion]; exact h.results

/-- Writing an event, with the results that are in place afterwards. -/
theorem write (hjournal : j'.journal = nextEvent t row fields :: j.journal)
    (hfields : ∀ caseId stream text, fields = .consoleOutput caseId stream text →
      j.row.mode = .run ∧ isPublicCase d j.row.problemVersionId caseId = true)
    (hresults : ∀ rs, j'.row.publicResults = some rs → j.row.mode = .run ∧
      publicResultsSchema rs = true ∧
      ∀ r ∈ rs, isPublicCase d j.row.problemVersionId r.caseId = true) :
    Disclosed d j' := by
  constructor
  · rw [hjournal]
    intro e he
    rcases List.mem_cons.mp he with rfl | hold
    · rfl
    · exact h.kinds e hold
  · rw [hjournal, hmode, hversion]
    intro e he
    rcases List.mem_cons.mp he with rfl | hold
    · exact hfields
    · exact h.console e hold
  · rw [hmode, hversion]
    exact hresults

/-- Writing a status or a verdict, with the results as they were. -/
theorem announce (hjournal : j'.journal = nextEvent t row fields :: j.journal)
    (hresults : j'.row.publicResults = j.row.publicResults)
    (hfields : fields.kind ≠ .consoleOutput) : Disclosed d j' := by
  refine h.write hmode hversion hjournal (fun caseId stream text hf => ?_) ?_
  · rw [hf] at hfields
    exact absurd rfl hfields
  · rw [hresults]
    exact h.results

end

end Disclosed

theorem JobStore.Quiet.disclosed (step : Quiet d t op j j') (h : Disclosed d j) :
    Disclosed d j' := by
  cases step with
  | renewed | yielded | intents | swept => exact h.same rfl rfl rfl rfl
  | started | requested | ended | expired =>
      exact h.announce rfl rfl rfl rfl fun hc => (by cases hc)
  | printed lease caseId stream text authority uncancelled mode publicCase =>
      refine h.write rfl rfl rfl (fun caseId' _ _ hfields => ?_) h.results
      cases hfields
      exact ⟨mode, publicCase⟩
  | finished lease result notices authority uncancelled shape allowed =>
      refine h.write rfl rfl rfl (fun _ _ _ hfields => (by cases hfields)) fun rs hrs => ?_
      cases hres : result.publicCaseResults with
      | none =>
          simp only [finishedRow, hres, Option.map_none, Option.none_or] at hrs
          exact h.results rs hrs
      | some results =>
          simp only [finishedRow, hres, Option.map_some, Option.some_or, Option.some.injEq] at hrs
          rcases publicResultsAllowed_spec (allowed results hres) with ⟨hmode, hpublic⟩
          refine ⟨hmode, hrs ▸ publicResultsSchema_of_resultSchema shape hres, fun r hr => ?_⟩
          rw [← hrs] at hr
          rcases List.mem_map.mp hr with ⟨r', hr', rfl⟩
          exact hpublic r' hr'

theorem JobStore.Grant.disclosed {token : Uuid} (grant : Grant t token j j') (h : Disclosed d j) :
    Disclosed d j' := by
  rw [grant.result]
  have hjournal : (Job.record (grantedEvent t j.row) { j with events := [] }).journal
      = nextEvent t (restarted j.row) (.executionStatus .compiling none) :: j.journal := by
    simp only [grantedEvent, Job.record_journal]
  exact h.announce rfl rfl hjournal rfl fun hc => (by cases hc)

theorem Created.disclosed {id : Uuid} (new : Created d t id j) : Disclosed d j := by
  rcases new with ⟨call, versionId, round, _, _, ⟨_, _, rfl⟩⟩
  constructor
  · simp only [newJob, Job.record_journal, List.mem_singleton]
    rintro e rfl
    rfl
  · simp only [newJob, Job.record_journal, List.mem_singleton]
    rintro e rfl caseId stream text hfields
    cases hfields
  · intro rs hrs
    cases hrs

theorem disclosed_invariant (d : Deployment) : JobInvariant d fun _ _ j => Disclosed d j where
  later _ h := h
  created := Created.disclosed
  granted := Grant.disclosed
  quiet := Quiet.disclosed

/-- Only public output of `RUN` executions is stored, in every run. -/
theorem disclosed_run (d : Deployment) (calls : List Call) (id : Uuid) (j : Job)
    (hj : (Store.run d calls).jobs.lookup id = some j) : Disclosed d j :=
  (disclosed_invariant d).run calls id j hj

end ArenaCore
