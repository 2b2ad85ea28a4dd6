import ArenaCore.Store.Lifecycle

/-!
# The Event Stream

The events of an execution, against the journal of everything ever written.
Within an attempt the sequence numbers are 1, 2, ... without a gap, the last
one being the row's. The event table holds a part of that, in order; what is
missing from it was pushed out by a cap or had expired. A new attempt starts
the numbers again and empties the table first, so the table never mixes
attempts.

Two consequences are used throughout. An event can always be written, unless
its payload is malformed: its number is new and its size is bounded. And after
it is written, the caps have removed only what is older than all that stays.

## Main definitions

* `attemptJournal`: What was written for the current attempt, newest first.
* `WellFormed`: An event's columns agree with its payload and the row.
* `StreamInv`: The table against the journal.

## Theorems

* `stream_invariant`, `stream_run`: The stream invariant along every run.
* `recordable_of_shape`: A well-shaped event of bounded size can be written.
-/

namespace ArenaCore

open JobStore

variable {j : Job} {t : Moment} {row : Execution} {fields : EventFields} {d : Deployment}
  {a b : ExecutionEvent} {j' : Job} {clock : Nat}

/-- What was written for the current attempt, newest first. -/
def attemptJournal (j : Job) : List ExecutionEvent :=
  j.journal.filter fun e => e.attempt = j.row.attempt

/-- The columns of an event agree with its payload and with the row. -/
structure WellFormed (row : Execution) (e : ExecutionEvent) : Prop where
  executionId : e.payload.executionId = row.id.text
  attempt : e.payload.attempt = e.attempt
  sequence : e.payload.sequence = e.sequence
  kind : e.kind = e.payload.fields.kind
  shape : publicExecutionEventSchema e.payload = true
  bytes : e.bytes ≤ 16384

/-- The event table of an execution, against its journal. -/
structure StreamInv (clock : Nat) (j : Job) : Prop where
  uuid : isUuid j.row.id.text = true
  past : ∀ e ∈ j.journal, e.attempt ≤ j.row.attempt
  numbers : (attemptJournal j).map ExecutionEvent.sequence
    = (List.range' 1 j.row.lastSequence).reverse
  wellFormed : ∀ e ∈ attemptJournal j, WellFormed j.row e
  table : j.events.Sublist (attemptJournal j)
  missing : ∀ e ∈ attemptJournal j, e ∈ j.events ∨ e ∈ j.evicted ∨ e.expiresAt < clock

/-! ### Appending to the table -/

/-- Strictly newer, as the order of the table has it. -/
def newer (a b : ExecutionEvent) : Prop :=
  b.attempt < a.attempt ∨ (b.attempt = a.attempt ∧ b.sequence < a.sequence)

theorem newer.newerFirst (h : newer a b) : newerFirst a b := by
  rcases h with h | ⟨h, hlt⟩
  · exact Or.inl h
  · exact Or.inr ⟨h, Nat.le_of_lt hlt⟩

theorem newer.ne (h : newer a b) : a ≠ b := by
  rintro rfl
  rcases h with h | ⟨_, h⟩ <;> exact Nat.lt_irrefl _ h

/-- Appending an event to a table it is newer than: the table keeps its newest
    rows, within both caps and always the new one, and what it drops is
    evicted. -/
theorem record_spec {e : ExecutionEvent} (hsorted : (e :: j.events).Pairwise newer)
    (hbytes : e.bytes ≤ 16384) :
    ∃ k, 1 ≤ k ∧ k ≤ replayRows ∧
      (((e :: j.events).take k).map ExecutionEvent.bytes).sum ≤ replayBytes ∧
      (j.record e).events = (e :: j.events).take k ∧
      (j.record e).evicted = (e :: j.events).drop k ++ j.evicted := by
  have hsort : (e :: j.events).insertionSort newerFirst = e :: j.events :=
    List.Pairwise.insertionSort_eq (hsorted.imp newer.newerFirst)
  have hnodup : (e :: j.events).Nodup := hsorted.imp newer.ne
  have hfits : e.bytes ≤ replayBytes := Nat.le_trans hbytes (by decide)
  rcases Retention.exists_kept replayRows replayBytes ExecutionEvent.bytes hnodup (by decide)
    hfits with ⟨k, hk, hrows, hsum, hdrop, htake⟩
  refine ⟨k, hk, hrows, hsum, ?_, ?_⟩
  · simp only [Job.record, Job.discard, hsort]
    exact htake
  · simp only [Job.record, Job.discard, hsort]
    exact congrArg (· ++ j.evicted) hdrop

/-! ### The invariant -/

theorem nextEvent_wellFormed (h : Recordable t row fields j) :
    WellFormed row (nextEvent t row fields) :=
  ⟨rfl, rfl, rfl, rfl, h.shape, h.size⟩

namespace StreamInv

variable {clock : Nat} {j j' : Job} {e : ExecutionEvent} {t : Moment}

theorem later {clock' : Nat} (hle : clock ≤ clock') (h : StreamInv clock j) :
    StreamInv clock' j := by
  refine { h with missing := fun e he => ?_ }
  exact (h.missing e he).imp_right (Or.imp_right fun hlt => Nat.lt_of_lt_of_le hlt hle)

/-- The numbers written for the current attempt. -/
theorem sequence_bounds (h : StreamInv clock j) (he : e ∈ attemptJournal j) :
    1 ≤ e.sequence ∧ e.sequence ≤ j.row.lastSequence := by
  have hmem : e.sequence ∈ (attemptJournal j).map ExecutionEvent.sequence :=
    List.mem_map_of_mem he
  rw [h.numbers, List.mem_reverse, List.mem_range'_1] at hmem
  omega

theorem attempt_eq (he : e ∈ attemptJournal j) : e.attempt = j.row.attempt := by
  simpa only [decide_eq_true_eq] using (List.mem_filter.mp he).2

/-- The journal of an attempt is in order, newest first. -/
theorem journal_sorted (h : StreamInv clock j) : (attemptJournal j).Pairwise newer := by
  have hseq : ((attemptJournal j).map ExecutionEvent.sequence).Pairwise (· > ·) := by
    rw [h.numbers, List.pairwise_reverse]
    exact List.pairwise_lt_range'
  refine (List.pairwise_map.mp hseq).imp_of_mem fun ha hb hlt => Or.inr ⟨?_, hlt⟩
  rw [attempt_eq ha, attempt_eq hb]

theorem table_sorted (h : StreamInv clock j) : j.events.Pairwise newer :=
  h.journal_sorted.sublist h.table

/-- The next event is newer than the whole table. -/
theorem next_sorted (h : StreamInv clock j) (t : Moment) (fields : EventFields) :
    (nextEvent t j.row fields :: j.events).Pairwise newer := by
  refine List.pairwise_cons.mpr ⟨fun e he => Or.inr ?_, h.table_sorted⟩
  have hj := h.table.subset he
  exact ⟨attempt_eq hj, Nat.lt_succ_of_le (h.sequence_bounds hj).2⟩

/-- A change that leaves the stream and the row's counters alone. -/
theorem same (h : StreamInv clock j) (hid : j'.row.id = j.row.id)
    (hatt : j'.row.attempt = j.row.attempt) (hseq : j'.row.lastSequence = j.row.lastSequence)
    (hevents : j'.events = j.events) (hjournal : j'.journal = j.journal)
    (hevicted : j'.evicted = j.evicted) : StreamInv clock j' := by
  have hattempt : attemptJournal j' = attemptJournal j := by
    rw [attemptJournal, hjournal, hatt]
    rfl
  constructor
  · rw [hid]; exact h.uuid
  · rw [hjournal, hatt]; exact h.past
  · rw [hattempt, hseq]; exact h.numbers
  · rw [hattempt]
    intro e he
    have hw := h.wellFormed e he
    exact ⟨by rw [hid]; exact hw.executionId, hw.attempt, hw.sequence, hw.kind, hw.shape, hw.bytes⟩
  · rw [hevents, hattempt]; exact h.table
  · rw [hattempt, hevents, hevicted]; exact h.missing

/-- Writing the next event of the attempt. -/
theorem record {fields : EventFields} (h : StreamInv clock j) (hrec : Recordable t j.row fields j)
    (hid : j'.row.id = j.row.id) (hatt : j'.row.attempt = j.row.attempt)
    (hseq : j'.row.lastSequence = j.row.lastSequence + 1)
    (hevents : j'.events = (j.record (nextEvent t j.row fields)).events)
    (hjournal : j'.journal = nextEvent t j.row fields :: j.journal)
    (hevicted : j'.evicted = (j.record (nextEvent t j.row fields)).evicted) :
    StreamInv clock j' := by
  rcases record_spec (h.next_sorted t fields) hrec.size with ⟨k, _, _, _, htake, hdrop⟩
  have hattempt : attemptJournal j' = nextEvent t j.row fields :: attemptJournal j := by
    rw [attemptJournal, hjournal, hatt]
    exact List.filter_cons_of_pos (decide_eq_true rfl)
  constructor
  · rw [hid]; exact h.uuid
  · rw [hjournal, hatt]
    intro e he
    rcases List.mem_cons.mp he with rfl | hold
    · exact Nat.le_refl _
    · exact h.past e hold
  · rw [hattempt, List.map_cons, h.numbers, hseq, List.range'_1_concat, List.reverse_append]
    simp only [List.reverse_singleton, List.singleton_append, Nat.add_comm 1]
    rfl
  · rw [hattempt]
    intro e he
    have hw : WellFormed j.row e := by
      rcases List.mem_cons.mp he with rfl | hold
      · exact nextEvent_wellFormed hrec
      · exact h.wellFormed e hold
    exact ⟨by rw [hid]; exact hw.executionId, hw.attempt, hw.sequence, hw.kind, hw.shape, hw.bytes⟩
  · rw [hevents, htake, hattempt]
    exact (List.take_sublist k _).trans (h.table.cons_cons _)
  · -- a row of the old table, or the new one, is in front of the cut or behind it
    rw [hattempt, hevents, hevicted, htake, hdrop]
    have hcut : ∀ e ∈ nextEvent t j.row fields :: j.events,
        e ∈ (nextEvent t j.row fields :: j.events).take k ∨
          e ∈ (nextEvent t j.row fields :: j.events).drop k ++ j.evicted := by
      intro e he
      rw [← List.take_append_drop k (nextEvent t j.row fields :: j.events)] at he
      exact (List.mem_append.mp he).imp_right (List.mem_append_left _)
    intro e he
    rcases List.mem_cons.mp he with rfl | hold
    · exact (hcut _ List.mem_cons_self).imp_right Or.inl
    · rcases h.missing e hold with htab | hevd | hexp
      · exact (hcut e (List.mem_cons_of_mem _ htab)).imp_right Or.inl
      · exact Or.inr (Or.inl (List.mem_append_right _ hevd))
      · exact Or.inr (Or.inr hexp)

/-- The first event of an attempt, on an empty table. -/
theorem first (row : Execution) (fields : EventFields) (i : Job) (hempty : i.events = [])
    (hpast : ∀ e ∈ i.journal, e.attempt < row.attempt) (hzero : row.lastSequence = 0)
    (hrec : Recordable t row fields i) (hid : j'.row.id = row.id)
    (hatt : j'.row.attempt = row.attempt) (hseq : j'.row.lastSequence = 1)
    (hevents : j'.events = (i.record (nextEvent t row fields)).events)
    (hjournal : j'.journal = nextEvent t row fields :: i.journal) : StreamInv clock j' := by
  have hsorted : (nextEvent t row fields :: i.events).Pairwise newer := by
    rw [hempty]
    exact List.pairwise_singleton _ _
  rcases record_spec hsorted hrec.size with ⟨k, hk, _, _, htake, _⟩
  have htable : j'.events = [nextEvent t row fields] := by
    rw [hevents, htake, hempty, List.take_of_length_le hk]
  have hold : i.journal.filter (fun e => e.attempt = row.attempt) = [] := by
    refine List.filter_eq_nil_iff.mpr fun e he => ?_
    have hlt := hpast e he
    simp only [decide_eq_true_eq]
    omega
  have hattempt : attemptJournal j' = [nextEvent t row fields] := by
    rw [attemptJournal, hjournal, hatt, List.filter_cons, hold]
    exact if_pos (decide_eq_true rfl)
  have hshape := hrec.shape
  simp only [publicExecutionEventSchema, Bool.and_eq_true] at hshape
  constructor
  · rw [hid]; exact hshape.1.1
  · rw [hjournal, hatt]
    intro e he
    rcases List.mem_cons.mp he with rfl | hmem
    · exact Nat.le_refl _
    · exact Nat.le_of_lt (hpast e hmem)
  · rw [hattempt, hseq]
    simp only [List.map_singleton, nextEvent, hzero]
    rfl
  · rw [hattempt]
    intro e he
    rw [List.mem_singleton.mp he]
    have hw := nextEvent_wellFormed hrec
    exact ⟨by rw [hid]; exact hw.executionId, hw.attempt, hw.sequence, hw.kind, hw.shape, hw.bytes⟩
  · rw [htable, hattempt]
  · rw [hattempt, htable]
    exact fun e he => Or.inl he

end StreamInv

theorem JobStore.Quiet.streamInv {op : Op} (step : Quiet d t op j j') (h : StreamInv t.now j) :
    StreamInv t.now j' := by
  cases step with
  | renewed | yielded | intents => exact h.same rfl rfl rfl rfl rfl rfl
  | started _ _ _ _ recordable | printed _ _ _ _ _ _ _ _ recordable
  | requested _ _ recordable | finished _ _ _ _ _ _ _ recordable
  | ended _ _ _ _ recordable | expired _ recordable =>
      exact h.record recordable rfl rfl rfl rfl rfl rfl
  | swept reached =>
      refine ⟨h.uuid, h.past, h.numbers, h.wellFormed, List.filter_sublist.trans h.table, ?_⟩
      -- what the sweep deletes has expired
      intro e he
      rcases h.missing e he with htab | hrest
      · by_cases hgone : e.expiresAt < t.now
        · exact Or.inr (Or.inr hgone)
        · refine Or.inl (List.mem_filter.mpr ⟨htab, ?_⟩)
          simp only [hgone, decide_false, Bool.false_and, Bool.not_false]
      · exact Or.inr hrest

theorem JobStore.Grant.streamInv {token : Uuid} (grant : Grant t token j j') (h : StreamInv t.now j) :
    StreamInv t.now j' := by
  rw [grant.result]
  refine .first (restarted j.row) (.executionStatus .compiling none) { j with events := [] } rfl
    (fun e he => Nat.lt_succ_of_le (h.past e he)) rfl grant.recordable rfl rfl rfl ?_ ?_
  · simp only [grantedEvent]
  · simp only [grantedEvent, Job.record_journal]

theorem Inserted.streamInv (new : Inserted d t row j) (hzero : row.lastSequence = 0) :
    StreamInv t.now j := by
  rcases new with ⟨_, hrec, rfl⟩
  refine .first row (.executionStatus .queued none) { row := row } rfl
    (fun e he => (by cases he)) hzero hrec rfl rfl ?_ ?_ ?_
  · simp only [newJob, hzero]
  · simp only [newJob]
  · simp only [newJob, Job.record_journal]

theorem Created.streamInv {id : Uuid} (new : Created d t id j) : StreamInv t.now j := by
  rcases new with ⟨call, versionId, round, _, _, hinserted⟩
  exact hinserted.streamInv rfl

theorem stream_invariant (d : Deployment) : JobInvariant d fun _ clock j => StreamInv clock j where
  later := StreamInv.later
  created := Created.streamInv
  granted := Grant.streamInv
  quiet := Quiet.streamInv

/-- The stream invariant holds of every job of every run. -/
theorem stream_run (d : Deployment) (calls : List Call) (id : Uuid) (j : Job)
    (hj : (Store.run d calls).jobs.lookup id = some j) :
    StreamInv (Store.run d calls).clock j :=
  (stream_invariant d).run calls id j hj

/-! ### Writing the next event -/

theorem nextEvent_bytes_pos (t : Moment) (row : Execution) (fields : EventFields) :
    0 < (nextEvent t row fields).bytes :=
  byteLength_stringify_obj_pos _

/-- An event can be written unless its payload is malformed or too large. Its
    number is new, so the database has no objection. -/
theorem recordable_of_shape (h : StreamInv clock j)
    (hshape : publicExecutionEventSchema (nextPayload j.row fields) = true)
    (hsize : (nextEvent t j.row fields).bytes ≤ 16384) : Recordable t j.row fields j := by
  refine ⟨hshape, hsize, guardEvent_eq_none.mpr ⟨Nat.succ_pos _, nextEvent_bytes_pos t _ _, hsize, ?_⟩⟩
  intro e he _
  have hle := (h.sequence_bounds (h.table.subset he)).2
  exact Nat.ne_of_lt (Nat.lt_succ_of_le hle)

theorem nextEvent_size (h : fields.kind ≠ .consoleOutput) :
    (nextEvent t row fields).bytes ≤ 16384 :=
  byteLength_toJson_le (nextPayload row fields) row.id rfl h

/-- A status or verdict of an execution with a proper identifier has the
    public shape. -/
theorem nextPayload_shape (huuid : isUuid row.id.text = true) (h : fields.kind ≠ .consoleOutput) :
    publicExecutionEventSchema (nextPayload row fields) = true := by
  cases fields with
  | executionStatus | finalVerdict =>
      simp only [publicExecutionEventSchema, nextPayload, huuid, Nat.succ_pos, decide_true,
        Bool.and_self]
  | consoleOutput => exact absurd rfl h

/-- A status or verdict event can always be written. -/
theorem recordable_of_kind (h : StreamInv clock j) (t : Moment)
    (hkind : fields.kind ≠ .consoleOutput) : Recordable t j.row fields j :=
  recordable_of_shape h (nextPayload_shape h.uuid hkind) (nextEvent_size hkind)

end ArenaCore
