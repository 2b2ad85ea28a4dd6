import ArenaCore.Store.Lifecycle

/-!
# One Outcome per Execution

A terminal row and the `final_verdict` event that announces it are written by
seven different branches of the program. Whichever comes first decides: the
event is written in the transaction that makes the row terminal, carries the
row's own numbers and outcome, and nothing touches the row or its event stream
afterwards.

"Ever written" is about the journal, not about the event table, whose rows
expire and are wiped by a new attempt.

## Main definitions

* `finals`: The final verdicts ever written for an execution.
* `Announces`: An event carries the outcome of a row.
* `OutcomeInv`: A terminal row is announced once, an open one never.

## Theorems

* `outcome_invariant`: The outcome invariant is a job invariant.
* `terminal_forever`: A terminal row outlives every continuation of a run.
* `one_terminal_outcome`: Everything together, for every run.
-/

namespace ArenaCore

open JobStore

variable {d : Deployment} {t : Moment} {op : Op} {j j' : Job} {e : ExecutionEvent}

/-- The final verdicts ever written for an execution, newest first. -/
def finals (j : Job) : List ExecutionEvent :=
  j.journal.filter fun e => e.kind = .finalVerdict

/-- The event that announces the outcome in a row. -/
structure Announces (row : Execution) (e : ExecutionEvent) : Prop where
  attempt : e.attempt = row.attempt
  sequence : e.sequence = row.lastSequence
  outcome : ∃ v, row.verdict = some v ∧
    e.payload = ⟨row.id.text, row.attempt, row.lastSequence,
      .finalVerdict row.state v row.failureCode⟩

/-- A terminal row is announced exactly once, an open one never. -/
structure OutcomeInv (j : Job) : Prop where
  silent : isTerminal j.row.state = false → finals j = []
  announced : isTerminal j.row.state = true → ∃ e, finals j = [e] ∧ Announces j.row e

/-! ### Terminal rows are frozen -/

theorem not_valid_of_terminal {row : Execution} {now : Nat} {lease : Lease}
    (hterm : isTerminal row.state = true) : valid row now lease ≠ true := by
  intro hv
  rw [active_not_terminal (valid_active hv)] at hterm
  cases hterm

theorem JobStore.Quiet.frozen (h : Quiet d t op j j') (hterm : isTerminal j.row.state = true) :
    j'.row = j.row ∧ j'.journal = j.journal := by
  cases h with
  | renewed | started | printed | finished | yielded =>
      exact absurd ‹_› (not_valid_of_terminal hterm)
  | requested active _ _ => rw [active_not_terminal active] at hterm; cases hterm
  | ended _ _ _ ends _ => rw [ends.nonterminal] at hterm; cases hterm
  | expired queued _ => rw [queued] at hterm; cases hterm
  | intents | swept => exact ⟨rfl, rfl⟩

theorem JobStore.Quiets.frozen (h : Quiets d t op j j') (hterm : isTerminal j.row.state = true) :
    j'.row = j.row ∧ j'.journal = j.journal := by
  induction h with
  | refl => exact ⟨rfl, rfl⟩
  | tail _ hlast ih =>
      rcases hlast.frozen (by rw [ih.1]; exact hterm) with ⟨hrow, hjournal⟩
      exact ⟨hrow.trans ih.1, hjournal.trans ih.2⟩

/-- No call changes a terminal row or writes another event for it. -/
theorem step_frozen (d : Deployment) (s : Store) (call : Call) (id : Uuid) (j : Job)
    (hj : s.jobs.lookup id = some j) (hterm : isTerminal j.row.state = true) :
    ∃ j', (step d s call).1.jobs.lookup id = some j' ∧ j'.row = j.row ∧ j'.journal = j.journal := by
  obtain ⟨_, _, hafter, heffect⟩ := step_effect_after d call hj
  cases heffect with
  | granted token _ j' _ grant =>
      rw [grant.claimable.nonterminal] at hterm
      cases hterm
  | quiet _ j' chain => exact ⟨j', hafter, chain.frozen hterm⟩

/-- A terminal row outlives every continuation of a run. -/
theorem terminal_forever (d : Deployment) (calls more : List Call) (id : Uuid) (j : Job)
    (hj : (Store.run d calls).jobs.lookup id = some j) (hterm : isTerminal j.row.state = true) :
    ∃ j', (Store.run d (calls ++ more)).jobs.lookup id = some j' ∧ j'.row = j.row ∧
      j'.journal = j.journal := by
  rw [Store.run, Runs.run_append]
  refine Runs.run_induction (step d) (P := fun s => ∃ j', s.jobs.lookup id = some j' ∧
    j'.row = j.row ∧ j'.journal = j.journal) ?_ _ ⟨j, hj, rfl, rfl⟩ more
  rintro s call ⟨i, hi, hrow, hjournal⟩
  rcases step_frozen d s call id i hi (by rw [hrow]; exact hterm) with ⟨j', hj', hrow', hjournal'⟩
  exact ⟨j', hj', hrow'.trans hrow, hjournal'.trans hjournal⟩

/-! ### The announcement -/

theorem status_not_final (t : Moment) (row : Execution) (state : ExecutionState)
    (requested : Option Bool) :
    (nextEvent t row (.executionStatus state requested)).kind ≠ .finalVerdict := by
  simp only [nextEvent, EventFields.kind, ne_eq, reduceCtorEq, not_false_eq_true]

theorem console_not_final (t : Moment) (row : Execution) (caseId : String) (stream : Stream)
    (text : String) : (nextEvent t row (.consoleOutput caseId stream text)).kind ≠ .finalVerdict := by
  simp only [nextEvent, EventFields.kind, ne_eq, reduceCtorEq, not_false_eq_true]

theorem finals_record_other (hkind : e.kind ≠ .finalVerdict)
    (hjournal : j'.journal = e :: j.journal) : finals j' = finals j := by
  rw [finals, hjournal, List.filter_cons_of_neg (by simpa using hkind)]
  rfl

theorem finals_record_final (hkind : e.kind = .finalVerdict)
    (hjournal : j'.journal = e :: j.journal) : finals j' = e :: finals j := by
  rw [finals, hjournal, List.filter_cons_of_pos (by simpa using hkind)]
  rfl

/-- An effect on an open row that keeps its state and writes no event. -/
theorem OutcomeInv.of_same (h : OutcomeInv j) (hopen : isTerminal j.row.state = false)
    (hstate : j'.row.state = j.row.state) (hjournal : j'.journal = j.journal) : OutcomeInv j' where
  silent _ := by rw [finals, hjournal]; exact h.silent hopen
  announced hterm := by rw [hstate, hopen] at hterm; cases hterm

/-- An effect on an open row that writes an event other than a final verdict
    and leaves the row open. -/
theorem OutcomeInv.of_other (h : OutcomeInv j) (hopen : isTerminal j.row.state = false)
    (hopen' : isTerminal j'.row.state = false) (hkind : e.kind ≠ .finalVerdict)
    (hjournal : j'.journal = e :: j.journal) : OutcomeInv j' where
  silent _ := by rw [finals_record_other hkind hjournal, h.silent hopen]
  announced hterm := by rw [hopen'] at hterm; cases hterm

/-- An effect on an open row that writes its final verdict. -/
theorem OutcomeInv.of_final (h : OutcomeInv j) (hopen : isTerminal j.row.state = false)
    (hterm' : isTerminal j'.row.state = true) (hkind : e.kind = .finalVerdict)
    (hjournal : j'.journal = e :: j.journal) (hann : Announces j'.row e) : OutcomeInv j' where
  silent hopen' := by rw [hterm'] at hopen'; cases hopen'
  announced _ := ⟨e, by rw [finals_record_final hkind hjournal, h.silent hopen], hann⟩

theorem JobStore.Quiet.outcomeInv (step : Quiet d t op j j') (hrow : RowInv t.now j.row)
    (h : OutcomeInv j) : OutcomeInv j' := by
  cases step with
  | renewed _ authority | yielded _ authority =>
      exact h.of_same (active_not_terminal (valid_active authority)) rfl rfl
  | started lease authority uncancelled compiling recordable =>
      exact h.of_other (active_not_terminal (valid_active authority)) rfl (status_not_final _ _ _ _) rfl
  | printed lease caseId stream text authority uncancelled mode publicCase recordable =>
      have hopen := active_not_terminal (valid_active authority)
      exact h.of_other hopen hopen (console_not_final _ _ _ _ _) rfl
  | requested active uncancelled recordable =>
      have hopen := active_not_terminal active
      exact h.of_other hopen hopen (status_not_final _ _ _ _) rfl
  | finished lease result notices authority uncancelled shape allowed recordable =>
      have hactive := valid_active authority
      refine h.of_final (active_not_terminal hactive) rfl rfl rfl ⟨rfl, rfl, _, rfl, ?_⟩
      have hcode : j.row.failureCode = none := (hrow.active_columns hactive).2.1.2.2.1
      simp only [nextEvent, nextPayload, finishedRow, hcode]
  | ended outcome code notices ends recordable =>
      refine h.of_final ends.nonterminal ?_ rfl rfl ⟨rfl, rfl, _, rfl, rfl⟩
      cases outcome <;> rfl
  | expired queued recordable =>
      exact h.of_final (by rw [queued]; rfl) rfl rfl rfl ⟨rfl, rfl, _, rfl, rfl⟩
  | intents | swept => exact ⟨h.silent, h.announced⟩

theorem outcome_invariant (d : Deployment) :
    JobInvariant d fun _ clock j => RowInv clock j.row ∧ OutcomeInv j where
  later hle h := ⟨h.1.later hle, h.2⟩
  created := by
    intro t id j new
    refine ⟨new.rowInv, ?_⟩
    rcases new with ⟨call, versionId, round, _, _, ⟨_, _, rfl⟩⟩
    exact ⟨fun _ => rfl, fun hterm => (by cases hterm)⟩
  granted := by
    intro t id token j j' grant h
    refine ⟨grant.rowInv h.1, ?_⟩
    rw [grant.result]
    exact h.2.of_other grant.claimable.nonterminal rfl (status_not_final _ _ _ _) rfl
  quiet step h := ⟨step.rowInv h.1, step.outcomeInv h.1 h.2⟩

theorem outcome_run (d : Deployment) (calls : List Call) (id : Uuid) (j : Job)
    (hj : (Store.run d calls).jobs.lookup id = some j) : OutcomeInv j :=
  ((outcome_invariant d).run calls id j hj).2

/-- Exactly one terminal outcome. In every state a run reaches: a row is
    terminal exactly if one final verdict was ever written for it, and that
    one carries the row's attempt, last sequence number and outcome. The call
    that makes a row terminal found it open and unannounced, so it is the call
    that wrote the event. No continuation changes a terminal row or writes
    another event for it. -/
theorem one_terminal_outcome (d : Deployment) (calls : List Call) (id : Uuid) :
    (∀ j, (Store.run d calls).jobs.lookup id = some j →
      (isTerminal j.row.state = true ↔ (finals j).length = 1) ∧
      (isTerminal j.row.state = true → ∃ e, finals j = [e] ∧ Announces j.row e) ∧
      (isTerminal j.row.state = true → ∀ more, ∃ j',
        (Store.run d (calls ++ more)).jobs.lookup id = some j' ∧ j'.row = j.row ∧
          j'.journal = j.journal)) ∧
    ∀ call j', (Store.run d (calls ++ [call])).jobs.lookup id = some j' →
      isTerminal j'.row.state = true →
      (∀ j, (Store.run d calls).jobs.lookup id = some j → isTerminal j.row.state = false) →
      ∃ j e, (Store.run d calls).jobs.lookup id = some j ∧ finals j = [] ∧ finals j' = [e] ∧
        e ∉ j.journal ∧ e ∈ j'.journal := by
  constructor
  · intro j hj
    have hinv := outcome_run d calls id j hj
    refine ⟨⟨fun hterm => ?_, fun hone => ?_⟩, hinv.announced, fun hterm more => ?_⟩
    · rcases hinv.announced hterm with ⟨e, he, _⟩
      rw [he, List.length_singleton]
    · by_contra hopen
      rw [hinv.silent (by simpa only [Bool.not_eq_true] using hopen)] at hone
      cases hone
    · exact terminal_forever d calls more id j hj hterm
  · intro call j' hj' hterm hopen
    rcases (outcome_run d _ id j' hj').announced hterm with ⟨e, he, _⟩
    have heffect := step_effect d (Store.run d calls) call id
    have hafter : (step d (Store.run d calls) call).1.jobs.lookup id = some j' := by
      rw [← hj', Store.run, Store.run, Runs.run_append]
      rfl
    rw [hafter] at heffect
    generalize grantedTo id (step d (Store.run d calls) call).2 = lease at heffect
    cases hbefore : (Store.run d calls).jobs.lookup id with
    | none =>
        rw [hbefore] at heffect
        cases heffect with
        | created _ _ _ _ new =>
            rcases new with ⟨call', versionId, round, _, _, ⟨_, _, rfl⟩⟩
            cases hterm
    | some j =>
        have hsilent := (outcome_run d calls id j hbefore).silent (hopen j hbefore)
        have hmem : e ∈ finals j' := by rw [he]; exact List.mem_singleton_self e
        rcases List.mem_filter.mp hmem with ⟨hin, hkind⟩
        refine ⟨j, e, rfl, hsilent, he, fun hold => ?_, hin⟩
        have hcontra : e ∈ finals j := List.mem_filter.mpr ⟨hold, hkind⟩
        rw [hsilent] at hcontra
        cases hcontra

end ArenaCore
