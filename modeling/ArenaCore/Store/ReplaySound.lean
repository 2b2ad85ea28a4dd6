import Mathlib.Algebra.Order.BigOperators.Group.List
import ArenaCore.Lib.Numbered
import ArenaCore.Store.Disclosure
import ArenaCore.Store.Intents

/-!
# Replay Is Sound and Complete

Three mechanisms take rows out of the event table: the caps push out the
oldest, the sweep deletes expired rows in any order, and a new attempt empties
the table. Replay sees only what is left. That it never answers with a gap is
a matter of numbers: within an attempt they are dense, so rows from the table
whose numbers run from the cursor to the row's last one are the whole stretch
(`Numbered.Dense.eq_stretch_of_numbers`). That it answers whenever it can needs
the reverse, that rows which were neither pushed out nor expired are there, and
that there are never more of them than a replay reads. It also needs console
events that name their case as the database prints it (`capitals_not_replayed`).

## Main definitions

* `Capped`: The table is within both caps.

## Theorems

* `capped_run`: The caps hold along every run.
* `replayRowsAfter_eq_stretch`: Nothing is missing if nothing was dropped.
* `replay_sound`: What a replay that returns says.
* `replay_sound_complete`: Both directions, and what the caps keep.
-/

namespace ArenaCore

open JobStore Transaction

variable {e : ExecutionEvent} {j j' : Job} {d : Deployment} {t : Moment} {id : Uuid}
  {row : Execution} {app attempt after clock : Nat} {i : Job} {userId : Uuid} {r : Replay}
  {rows : List ExecutionEvent} {calls : List Call}

/-! ### The caps -/

/-- The event table of a job is within both caps. -/
def Capped (j : Job) : Prop :=
  j.events.length ≤ replayRows ∧ (j.events.map ExecutionEvent.bytes).sum ≤ replayBytes

/-- Writing an event leaves the caps in place, whatever the table was. -/
theorem Capped.of_record (hsorted : (e :: i.events).Pairwise newer) (hbytes : e.bytes ≤ 16384)
    (hevents : j.events = (i.record e).events) : Capped j := by
  rcases record_spec hsorted hbytes with ⟨k, _, hrows, hsum, htake, _⟩
  unfold Capped
  rw [hevents, htake]
  exact ⟨Nat.le_trans (List.length_take_le _ _) hrows, hsum⟩

theorem Capped.of_sublist (h : Capped i) (hevents : j.events.Sublist i.events) : Capped j :=
  ⟨Nat.le_trans hevents.length_le h.1,
    Nat.le_trans ((hevents.map ExecutionEvent.bytes).sum_le_sum fun _ _ => Nat.zero_le _) h.2⟩

theorem JobStore.Quiet.capped {op : Op} (step : Quiet d t op j j') (hstream : StreamInv t.now j)
    (h : Capped j) : Capped j' := by
  cases step with
  | renewed | yielded | intents => exact h
  | swept => exact h.of_sublist List.filter_sublist
  | started _ _ _ _ recordable | printed _ _ _ _ _ _ _ _ recordable
  | requested _ _ recordable | finished _ _ _ _ _ _ _ recordable
  | ended _ _ _ _ recordable | expired _ recordable =>
      exact .of_record (hstream.next_sorted t _) recordable.size rfl

theorem Created.capped (new : Created d t id j) : Capped j := by
  rcases new with ⟨call, versionId, round, _, _, ⟨_, hrec, rfl⟩⟩
  generalize Executions.newRow d t call versionId round = row at hrec
  refine .of_record (i := { row := row }) (List.pairwise_singleton _ _) hrec.size ?_
  simp only [newJob]

theorem JobStore.Grant.capped {token : Uuid} (grant : Grant t token j j') : Capped j' := by
  rw [grant.result]
  refine .of_record (i := { j with events := [] }) (List.pairwise_singleton _ _)
    grant.recordable.size ?_
  simp only [grantedEvent]

theorem capped_invariant (d : Deployment) :
    JobInvariant d fun _ clock j => StreamInv clock j ∧ Capped j where
  later hle h := ⟨h.1.later hle, h.2⟩
  created new := ⟨new.streamInv, new.capped⟩
  granted grant h := ⟨grant.streamInv h.1, grant.capped⟩
  quiet step h := ⟨step.streamInv h.1, step.capped h.1 h.2⟩

/-- The caps hold along every run. -/
theorem capped_run (d : Deployment) (calls : List Call) (id : Uuid) (j : Job)
    (hj : (Store.run d calls).jobs.lookup id = some j) : Capped j :=
  ((capped_invariant d).run calls id j hj).2

/-- In every run the columns of an execution are what its state calls for and its intents
    fit its row. Its event table has the numbered events of its attempt, but for those that
    were evicted or have expired, within the caps. -/
theorem executions_consistent (d : Deployment) (calls : List Call) :
    (∀ id j, (Store.run d calls).jobs.lookup id = some j →
      Lifecycle d id (Store.run d calls).clock j ∧ OutboxInv j) ∧
    ∀ id j, (Store.run d calls).jobs.lookup id = some j →
      StreamInv (Store.run d calls).clock j ∧ Capped j :=
  ⟨fun id j hj => ⟨lifecycle_run d calls id j hj, outbox_run d calls id j hj⟩,
    fun id j hj => ⟨stream_run d calls id j hj, capped_run d calls id j hj⟩⟩

/-! ### Snapshots -/

/-- A snapshot shows the row's counters. -/
theorem publicSnapshot_counters {snapshot : ExecutionSnapshot}
    (h : publicSnapshot d row = .ok snapshot) :
    snapshot.attempt = row.attempt ∧ snapshot.lastSequence = row.lastSequence := by
  unfold publicSnapshot at h
  split at h
  · cases h
  simp only [] at h
  split at h
  · split at h
    · cases h
    · cases h
      exact ⟨rfl, rfl⟩
  · cases h
    exact ⟨rfl, rfl⟩

/-- The snapshot of a stored execution can always be taken. -/
theorem publicSnapshot_ok (hreq : RequestInv d id j.row.request) (h : Disclosed d j) :
    ∃ snapshot, publicSnapshot d j.row = .ok snapshot := by
  unfold publicSnapshot
  split
  · rename_i hnone
    have hsome := hreq.published
    rw [show d.catalog j.row.request.problemVersionId = none from hnone] at hsome
    cases hsome
  simp only []
  split
  · rename_i results _ hres
    rw [if_neg (by rw [(h.results results hres).2.1]; decide)]
    exact ⟨_, rfl⟩
  · exact ⟨_, rfl⟩

/-! ### Reading the table -/

/-- What a replay that returns has found. -/
theorem replay_eq_ok {s : Store} :
    replay d app userId id.text attempt after s = .ok r ↔
      ∃ j snapshot, s.jobs.lookup id = some j ∧ j.row.userId = userId ∧
        publicSnapshot d j.row = .ok snapshot ∧
        r = { snapshot := snapshot,
              replayAvailable := replayContiguous d id.text j.row attempt after
                (replayRowsAfter app after j),
              events := if replayContiguous d id.text j.row attempt after
                  (replayRowsAfter app after j) then
                (replayRowsAfter app after j).map (·.payload) else [] } := by
  unfold replay
  simp only [Uuid.ofText?_text]
  cases hlookup : s.jobs.lookup id with
  | none => simp only [reduceCtorEq, false_and, exists_false]
  | some j =>
      simp only [Option.some.injEq]
      constructor
      · intro h
        split at h
        · cases h
        rename_i howner
        rcases bind_eq_ok.mp h with ⟨snapshot, hsnap, h⟩
        cases h
        exact ⟨j, snapshot, rfl, not_not.mp howner, hsnap, rfl⟩
      · rintro ⟨_, snapshot, rfl, howner, hsnap, rfl⟩
        rw [if_neg (not_not.mpr howner)]
        exact bind_eq_ok.mpr ⟨snapshot, hsnap, rfl⟩

/-- The rows a replay reads were written in the current attempt. -/
theorem replayRowsAfter_mem (h : StreamInv clock j) (he : e ∈ replayRowsAfter app after j) :
    e ∈ attemptJournal j := by
  have hsorted := List.mem_of_mem_take he
  rw [List.mem_insertionSort] at hsorted
  exact h.table.subset (List.mem_filter.mp hsorted).1

/-- Rows whose positions say their numbers have consecutive numbers. -/
theorem map_sequence_of_zipIdx {n : Nat} (hlength : rows.length = n)
    (hnumbers : (rows.zipIdx.all fun (e, i) => e.sequence == after + i + 1) = true) :
    rows.map ExecutionEvent.sequence = List.range' (after + 1) n := by
  rw [List.all_eq_true] at hnumbers
  refine List.ext_getElem (by rw [List.length_map, List.length_range', hlength]) fun i hi hi' => ?_
  rw [List.length_map] at hi
  have hat := hnumbers (rows[i], i) (List.mk_mem_zipIdx_iff_getElem?.mpr (List.getElem?_eq_getElem hi))
  rw [List.getElem_map, List.getElem_range', beq_iff_eq.mp hat]
  omega

/-- Rows of the journal that pass the check are the whole stretch after the
    cursor. -/
theorem eq_stretch_of_contiguous {id : String} (h : StreamInv clock j)
    (hrows : ∀ e ∈ rows, e ∈ attemptJournal j)
    (hcontiguous : replayContiguous d id j.row attempt after rows = true) :
    attempt = j.row.attempt ∧ after ≤ j.row.lastSequence ∧
      rows = Numbered.stretch ExecutionEvent.sequence (attemptJournal j) after := by
  simp only [replayContiguous, Bool.and_eq_true, beq_iff_eq, decide_eq_true_eq] at hcontiguous
  rcases hcontiguous with ⟨⟨⟨⟨_, hattempt⟩, hafter⟩, hlength⟩, hnumbers⟩
  have hdense : Numbered.Dense ExecutionEvent.sequence (attemptJournal j) j.row.lastSequence :=
    h.numbers
  exact ⟨hattempt, hafter,
    hdense.eq_stretch_of_numbers hrows (map_sequence_of_zipIdx hlength hnumbers)⟩

/-! ### Nothing missing -/

instance : Std.Total olderFirst where
  total a b := Nat.le_total a.sequence b.sequence

instance : IsTrans ExecutionEvent olderFirst where
  trans _ _ _ hab hbc := Nat.le_trans hab hbc

/-- If nothing after the cursor was pushed out or has expired, a replay reads
    all of it. -/
theorem replayRowsAfter_eq_stretch (h : StreamInv clock j) (hcap : Capped j)
    (hkept : ∀ e ∈ attemptJournal j, after < e.sequence →
      e ∉ j.evicted ∧ app < e.expiresAt ∧ clock ≤ e.expiresAt) :
    replayRowsAfter app after j
      = Numbered.stretch ExecutionEvent.sequence (attemptJournal j) after := by
  have hdense : Numbered.Dense ExecutionEvent.sequence (attemptJournal j) j.row.lastSequence :=
    h.numbers
  unfold replayRowsAfter
  generalize hfound : (j.events.filter fun e => decide (e.attempt = j.row.attempt) &&
    decide (after < e.sequence) && decide (app < e.expiresAt)) = found
  have hmem : ∀ e, e ∈ found ↔ e ∈ attemptJournal j ∧ after < e.sequence := by
    intro e
    rw [← hfound]
    simp only [List.mem_filter, Bool.and_eq_true, decide_eq_true_eq]
    constructor
    · rintro ⟨htable, ⟨_, hafter⟩, _⟩
      exact ⟨h.table.subset htable, hafter⟩
    · rintro ⟨hjournal, hafter⟩
      rcases hkept e hjournal hafter with ⟨hevicted, happ, hclock⟩
      -- what is not in the table was pushed out or had expired
      rcases h.missing e hjournal with htable | hout | hexpired
      · exact ⟨htable, ⟨StreamInv.attempt_eq hjournal, hafter⟩, happ⟩
      · exact absurd hout hevicted
      · exact absurd hexpired (Nat.not_lt.mpr hclock)
  have hsub : found.Sublist j.events := hfound ▸ List.filter_sublist
  have hnodup : found.Nodup := (h.table_sorted.imp newer.ne).sublist hsub
  have hsorted : found.insertionSort olderFirst
      = Numbered.stretch ExecutionEvent.sequence (attemptJournal j) after := by
    refine hdense.eq_stretch_of_sorted (List.pairwise_insertionSort olderFirst found)
      ((List.perm_insertionSort olderFirst found).nodup_iff.mpr hnodup) fun e => ?_
    rw [List.mem_insertionSort, hmem]
  rw [← hsorted]
  refine List.take_of_length_le ?_
  rw [List.length_insertionSort]
  exact Nat.le_trans hsub.length_le hcap.1

/-- A case that is public and named as the database prints it is among the
    texts a replay compares with. -/
theorem contains_of_isPublicCase {versionId : Uuid} (h : isPublicCase d versionId id.text = true) :
    ((d.catalog.publicCases versionId).map Uuid.text).contains id.text = true := by
  rcases isPublicCase_iff.mp h with ⟨found, hmem, hcast⟩
  rw [Uuid.ofText?_text] at hcast
  cases hcast
  rw [List.contains_iff_mem]
  exact List.mem_map_of_mem hmem

/-- A console event names its case as the database prints it. -/
def Canonical (e : ExecutionEvent) : Prop :=
  ∀ caseId stream text, e.payload.fields = .consoleOutput caseId stream text →
    ∃ id : Uuid, caseId = id.text

/-- An event of the current attempt passes the check of a replay, if it is about no case
    or names its case as the database does. -/
theorem replaySafe_iff (h : StreamInv clock j) (hkey : j.row.id = id)
    (hdisclosed : Disclosed d j) (he : e ∈ attemptJournal j) :
    replaySafe d id.text j.row e = true ↔ Canonical e := by
  have hw := h.wellFormed e he
  have hjournal := (List.mem_filter.mp he).1
  have hattempt : e.payload.attempt = j.row.attempt := hw.attempt.trans (StreamInv.attempt_eq he)
  have hid : e.payload.executionId = id.text := by rw [hw.executionId, hkey]
  simp only [replaySafe, hw.shape, hid, hattempt, hw.sequence, beq_self_eq_true, Bool.and_self,
    Bool.true_and]
  split
  · rename_i caseId stream text hfields
    rcases hdisclosed.console e hjournal caseId stream text hfields with ⟨hmode, hpublic⟩
    rw [hmode, beq_self_eq_true, Bool.true_and]
    constructor
    · intro hfound _ _ _ hsame
      cases hfields.symm.trans hsame
      rcases List.mem_map.mp (List.contains_iff_mem.mp hfound) with ⟨case, _, rfl⟩
      exact ⟨case, rfl⟩
    · intro hcanonical
      rcases hcanonical caseId stream text hfields with ⟨case, rfl⟩
      exact contains_of_isPublicCase hpublic
  · rename_i hother
    exact iff_of_true rfl fun caseId stream text hfields => absurd hfields (hother _ _ _)

/-- When the stretch after a cursor passes the check as a whole. -/
theorem replayContiguous_stretch_iff (h : StreamInv clock j) (hkey : j.row.id = id)
    (hdisclosed : Disclosed d j) (hafter : after ≤ j.row.lastSequence) :
    replayContiguous d id.text j.row j.row.attempt after
      (Numbered.stretch ExecutionEvent.sequence (attemptJournal j) after) = true ↔
      ∀ e ∈ attemptJournal j, after < e.sequence → Canonical e := by
  have hdense : Numbered.Dense ExecutionEvent.sequence (attemptJournal j) j.row.lastSequence :=
    h.numbers
  simp only [replayContiguous, Bool.and_eq_true, beq_iff_eq, decide_eq_true_eq, List.all_eq_true]
  refine ⟨fun hcheck e he hlater => ?_, fun hcanonical => ⟨⟨⟨⟨fun e he => ?_, trivial⟩, hafter⟩,
    hdense.length_stretch⟩, fun ⟨e, i⟩ he => ?_⟩⟩
  · exact (replaySafe_iff h hkey hdisclosed he).mp
      (hcheck.1.1.1.1 e (Numbered.mem_stretch.mpr ⟨he, hlater⟩))
  · rcases Numbered.mem_stretch.mp he with ⟨he, hlater⟩
    exact (replaySafe_iff h hkey hdisclosed he).mpr (hcanonical e he hlater)
  · have hat := List.mk_mem_zipIdx_iff_getElem?.mp he
    have hnumber : ((Numbered.stretch ExecutionEvent.sequence (attemptJournal j) after).map
        ExecutionEvent.sequence)[i]? = some e.sequence := by
      rw [List.getElem?_map, hat]
      rfl
    rw [hdense.map_stretch, List.getElem?_eq_some_iff] at hnumber
    rcases hnumber with ⟨_, hnumber⟩
    rw [List.getElem_range'] at hnumber
    change e.sequence = after + i + 1
    omega

/-! ### The main result -/

/-- The rows and jobs `event` is called with: a locked row with its job, the
    row of a new attempt after the old events are gone, and a row that was
    just inserted. -/
inductive EventSite (s : Store) : Execution → Job → Prop where
  | locked (id : Uuid) (j : Job) (hj : s.jobs.lookup id = some j) : EventSite s j.row j
  | restarted (id : Uuid) (j : Job) (hj : s.jobs.lookup id = some j) :
      EventSite s (restarted j.row) { j with events := [] }
  | inserted (row : Execution) : EventSite s row { row := row }

/-- At each of them the next event is newer than the table. -/
theorem EventSite.sorted (site : EventSite (Store.run d calls) row j) (t : Moment)
    (fields : EventFields) : (nextEvent t row fields :: j.events).Pairwise newer := by
  cases site with
  | locked id _ hj => exact (stream_run d calls id j hj).next_sorted t fields
  | restarted | inserted => exact List.pairwise_singleton _ _

/-- What the caps keep when an event is written. -/
theorem event_caps {fields : EventFields} {seq : Nat}
    (hsorted : (nextEvent t row fields :: j.events).Pairwise newer)
    (h : event t row fields j = .ok (seq, j')) :
    j'.events.length ≤ 256 ∧ (j'.events.map ExecutionEvent.bytes).sum ≤ 262144 ∧
      nextEvent t row fields ∈ j'.events ∧
      ∀ old ∈ nextEvent t row fields :: j.events, old ∉ j'.events →
        ∀ kept ∈ j'.events, newer kept old := by
  rcases event_eq_ok.mp h with ⟨hrec, _, rfl⟩
  have hcap : Capped (j.record (nextEvent t row fields)) := .of_record hsorted hrec.size rfl
  rcases record_spec hsorted hrec.size with ⟨k, hk, _, _, htake, _⟩
  refine ⟨hcap.1, hcap.2, ?_, ?_⟩
  · rw [htake, ← Nat.sub_add_cancel hk, List.take_succ_cons]
    exact List.mem_cons_self
  · rw [htake]
    intro old hold hgone kept hkept
    rw [← List.take_append_drop k (nextEvent t row fields :: j.events)] at hsorted hold
    have hdrop := (List.mem_append.mp hold).resolve_left hgone
    exact (List.pairwise_append.mp hsorted).2.2 kept hkept old hdrop

/-- What a replay that returns says, in a state a run reaches. -/
theorem replay_sound (h : replay d app userId id.text attempt after (Store.run d calls) = .ok r) :
    ∃ j, (Store.run d calls).jobs.lookup id = some j ∧ j.row.userId = userId ∧
      r.snapshot.attempt = j.row.attempt ∧ r.snapshot.lastSequence = j.row.lastSequence ∧
      (r.replayAvailable = true → attempt = j.row.attempt ∧ after ≤ j.row.lastSequence ∧
        r.events = (Numbered.stretch ExecutionEvent.sequence (attemptJournal j) after).map
          (·.payload) ∧
        r.events.map (·.sequence) = List.range' (after + 1) (r.snapshot.lastSequence - after) ∧
        ∀ e ∈ r.events, e.attempt = j.row.attempt) ∧
      (r.replayAvailable = false → r.events = []) := by
  rcases replay_eq_ok.mp h with ⟨j, snapshot, hj, howner, hsnap, rfl⟩
  rcases publicSnapshot_counters hsnap with ⟨hattempt, hlast⟩
  have hstream := stream_run d calls id j hj
  refine ⟨j, hj, howner, hattempt, hlast, fun havailable => ?_, fun hnone => ?_⟩
  · rcases eq_stretch_of_contiguous hstream (fun e => replayRowsAfter_mem hstream) havailable with
      ⟨hcursor, hafter, hrows⟩
    have hevents : (if replayContiguous d id.text j.row attempt after
        (replayRowsAfter app after j) = true then (replayRowsAfter app after j).map (·.payload)
        else []) = (Numbered.stretch ExecutionEvent.sequence (attemptJournal j) after).map
          (·.payload) := by
      rw [if_pos havailable, hrows]
    have hformed : ∀ e ∈ Numbered.stretch ExecutionEvent.sequence (attemptJournal j) after,
        WellFormed j.row e := fun e he =>
      hstream.wellFormed e (Numbered.mem_stretch.mp he).1
    refine ⟨hcursor, hafter, hevents, ?_, ?_⟩
    · -- the numbers in the payloads are those of the columns
      have hdense : Numbered.Dense ExecutionEvent.sequence (attemptJournal j) j.row.lastSequence :=
        hstream.numbers
      simp only [hevents, hlast]
      rw [← hdense.map_stretch, List.map_map]
      exact List.map_congr_left fun e he => (hformed e he).sequence
    · simp only [hevents, List.mem_map]
      rintro _ ⟨e, he, rfl⟩
      rw [(hformed e he).attempt]
      exact of_decide_eq_true (List.mem_filter.mp (Numbered.mem_stretch.mp he).1).2
  · simp only [] at hnone
    simp only [hnone, Bool.false_eq_true, if_false]

/-- Replay is sound and complete. In every state a run reaches, an answer with
    events is the whole stretch of the current attempt after the cursor, in
    order and up to the snapshot's last number, and an answer without replay
    has no events; and where the cursor is in the current attempt and nothing
    after it was pushed out or has expired, there is a replay exactly if the
    console events after it name their cases as the database prints them.
    Wherever an event is written, the caps hold afterwards, the event is kept,
    and what goes is older than all that stays. -/
theorem replay_sound_complete (d : Deployment) (calls : List Call) :
    (∀ (app : Nat) (userId id : Uuid) (attempt after : Nat) (r : Replay),
      replay d app userId id.text attempt after (Store.run d calls) = .ok r →
      ∃ j, (Store.run d calls).jobs.lookup id = some j ∧ j.row.userId = userId ∧
        r.snapshot.attempt = j.row.attempt ∧ r.snapshot.lastSequence = j.row.lastSequence ∧
        (r.replayAvailable = true → attempt = j.row.attempt ∧ after ≤ j.row.lastSequence ∧
          r.events = ((attemptJournal j).reverse.filter fun e => decide (after < e.sequence)).map
            (·.payload) ∧
          r.events.map (·.sequence)
            = List.range' (after + 1) (r.snapshot.lastSequence - after)) ∧
        (r.replayAvailable = false → r.events = [])) ∧
    (∀ (app : Nat) (id : Uuid) (after : Nat) (j : Job),
      (Store.run d calls).jobs.lookup id = some j → after ≤ j.row.lastSequence →
      (∀ e ∈ attemptJournal j, after < e.sequence →
        e ∉ j.evicted ∧ app < e.expiresAt ∧ (Store.run d calls).clock ≤ e.expiresAt) →
      ∃ r, replay d app j.row.userId id.text j.row.attempt after (Store.run d calls) = .ok r ∧
        (r.replayAvailable = true ↔
          ∀ e ∈ attemptJournal j, after < e.sequence → Canonical e)) ∧
    ∀ row j, EventSite (Store.run d calls) row j → ∀ t fields seq j',
      event t row fields j = .ok (seq, j') →
      j'.events.length ≤ 256 ∧ (j'.events.map ExecutionEvent.bytes).sum ≤ 262144 ∧
        nextEvent t row fields ∈ j'.events ∧
        ∀ old ∈ nextEvent t row fields :: j.events, old ∉ j'.events →
          ∀ kept ∈ j'.events, newer kept old := by
  refine ⟨?sound, ?complete, fun row j site t fields seq j' h => event_caps (site.sorted t fields) h⟩
  case sound =>
    intro app userId id attempt after r h
    rcases replay_sound h with ⟨j, hj, howner, hattempt, hlast, havailable, hnone⟩
    refine ⟨j, hj, howner, hattempt, hlast, fun htrue => ?_, hnone⟩
    rcases havailable htrue with ⟨hcursor, hafter, hevents, hnumbers, _⟩
    exact ⟨hcursor, hafter, hevents, hnumbers⟩
  case complete =>
    intro app id after j hj hafter hkept
    have hstream := stream_run d calls id j hj
    have hrequest := (lifecycle_run d calls id j hj).request
    have hdisclosed := disclosed_run d calls id j hj
    rcases publicSnapshot_ok hrequest hdisclosed with ⟨snapshot, hsnap⟩
    refine ⟨_, replay_eq_ok.mpr ⟨j, snapshot, hj, rfl, hsnap, rfl⟩, ?_⟩
    simp only [replayRowsAfter_eq_stretch hstream (capped_run d calls id j hj) hkept]
    exact replayContiguous_stretch_iff hstream hrequest.key hdisclosed hafter

namespace Sample

/-- A version whose public case has a letter in its identifier. -/
def letteredVersion : ProblemVersion :=
  { version with
    testCases :=
      [{ id := ⟨"00000000-0000-4000-8000-00000000000a", by decide⟩, ordinal := 0,
         visibility := .publicCase, input := "1 2", expectedOutput := "3" }]
    distinct := by decide }

def letteredDeployment : Deployment :=
  { deployment with catalog := fun id => if id = versionId then some letteredVersion else none }

/-- The worker names the case in capitals. -/
def capitals : Store :=
  Store.run letteredDeployment [created .run, claimed,
    acted (.console lease "00000000-0000-4000-8000-00000000000A" .stdout "3")]

end Sample

/-- A `uuid` column compares by value, so the console takes the name. Replay compares texts
    and gives nothing, though every event is there. -/
theorem capitals_not_replayed :
    ∃ j, Sample.capitals.jobs.lookup Sample.execution = some j ∧
      (∀ e ∈ attemptJournal j,
        e ∉ j.evicted ∧ 1020 < e.expiresAt ∧ Sample.capitals.clock ≤ e.expiresAt) ∧
      (replay Sample.letteredDeployment 1020 j.row.userId Sample.execution.text j.row.attempt 0
        Sample.capitals).toOption.map Replay.replayAvailable = some false := by
  refine ⟨_, (Option.some_get (by decide +kernel)).symm, ?_, ?_⟩ <;> decide +kernel

end ArenaCore
