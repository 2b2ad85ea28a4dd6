import ArenaCore.Lib.Ranking
import ArenaCore.Api.SessionRules
import ArenaCore.Api.Revocation

/-!
# The Limit on Sessions

An account has at most ten sessions that are neither revoked nor over. A login locks
its user before it counts, so no session of the account comes between the count and
the one that the login creates. Others may revoke sessions meanwhile, which only
makes them fewer. So the login ends with at most the nine that it has kept and its own
(`Limited`).

The clock does not go back, and a session that is over when it is counted stays so.

## Main definitions

* `Accounts.live`: The sessions of an account that count.
* `Accounts.Surplus`: The sessions beyond the nine newest.
* `Limited`: The invariant.

## Theorems

* `limited_step`, `limited_run`: Every statement keeps the invariant.
* `session_limit`: The sessions of an account, what a login revokes, and its cookie.
-/

namespace ArenaCore

open Dialogue Concurrent Account

variable {db : Accounts} {userId : Uuid} {time clock : Int} {row : SessionRow}
  {calls : List SessionCall} {s : AccountSystem}

/-! ### Live sessions -/

/-- The sessions of an account that are neither revoked nor over. -/
def Accounts.live (db : Accounts) (userId : Uuid) (time : Int) : List SessionRow :=
  db.sessions.rows.filter fun row => decide (row.userId = userId) && row.revokedAt.isNone &&
    decide (time < row.expiresAt)

theorem mem_live :
    row ∈ db.live userId time ↔ row ∈ db.sessions.rows ∧ row.userId = userId ∧
      row.revokedAt = none ∧ time < row.expiresAt := by
  rw [Accounts.live, List.mem_filter, Bool.and_eq_true, Bool.and_eq_true, decide_eq_true_iff,
    decide_eq_true_iff, Option.isNone_iff_eq_none, and_assoc]

/-- A session with nine newer ones in its account, by the time of creation and then by
    the identifier. -/
def Accounts.Surplus (db : Accounts) (userId : Uuid) (time : Int) (id : Uuid) : Prop :=
  ∃ row ∈ db.live userId time, row.id = id ∧
    9 ≤ (Ranking.ahead newerSession (db.live userId time) row).length

theorem live_of_sessions {db' : Accounts} (h : db'.sessions = db.sessions) (userId : Uuid)
    (time : Int) : db'.live userId time = db.live userId time := by
  rw [Accounts.live, Accounts.live, h]

theorem nodup_live (db : Accounts) (userId : Uuid) (time : Int) :
    ((db.live userId time).map SessionRow.id).Nodup :=
  (List.filter_sublist.map _).nodup db.sessions.nodup

theorem length_live_le {ids : List Uuid} (h : ∀ row ∈ db.live userId time, row.id ∈ ids) :
    (db.live userId time).length ≤ ids.length := by
  rw [← List.length_map SessionRow.id]
  refine (List.subperm_of_subset (nodup_live db userId time) fun id hid => ?_).length_le
  obtain ⟨row, hrow, rfl⟩ := List.mem_map.1 hid
  exact h row hrow

theorem length_live_mono {db' : Accounts} {time' : Int}
    (h : ∀ row ∈ db'.live userId time', row ∈ db.live userId time) :
    (db'.live userId time').length ≤ (db.live userId time).length := by
  have hle := length_live_le fun row hrow => List.mem_map_of_mem (f := SessionRow.id) (h row hrow)
  rwa [List.length_map] at hle

theorem live_later {later : Int} (h : time ≤ later) (hrow : row ∈ db.live userId later) :
    row ∈ db.live userId time := by
  obtain ⟨hmem, huser, hrevoked, hexpires⟩ := mem_live.1 hrow
  exact mem_live.2 ⟨hmem, huser, hrevoked, lt_of_le_of_lt h hexpires⟩

instance : Std.Total newerSession where
  total a b := by
    unfold newerSession
    rcases lt_trichotomy a.createdAt b.createdAt with h | h | h
    · exact .inr (.inl h)
    · exact (String.le_total b.id.text a.id.text).imp (fun hid => .inr ⟨h.symm, hid⟩)
        fun hid => .inr ⟨h, hid⟩
    · exact .inl (.inl h)

instance : IsTrans SessionRow newerSession where
  trans a b c hab hbc := by
    unfold newerSession at *
    rcases hab with hab | ⟨hab, hid⟩ <;> rcases hbc with hbc | ⟨hbc, hid'⟩
    · exact .inl (hbc.trans hab)
    · exact .inl (hbc ▸ hab)
    · exact .inl (hab ▸ hbc)
    · exact .inr ⟨hbc.trans hab, String.le_trans hid' hid⟩

/-- What a count has beyond the nine newest. -/
theorem mem_drop_findActive {choice : AccountChoice} {id : Uuid} :
    id ∈ (accountAnswer db choice (.findActive userId time)).drop 9 ↔
      db.Surplus userId time id := by
  have hnodup : (db.live userId time).Nodup := .of_map _ (nodup_live db userId time)
  have hanti (a : SessionRow) (ha : a ∈ db.live userId time) :
      ∀ b ∈ db.live userId time, newerSession a b → newerSession b a → b = a := by
    intro b hb hab hba
    have htext : b.id.text = a.id.text := by
      unfold newerSession at hab hba
      rcases hab with hab | ⟨hab, hid⟩ <;> rcases hba with hba | ⟨hba, hid'⟩
      · omega
      · omega
      · omega
      · exact String.le_antisymm hid hid'
    refine Rows.eq_of_key (mem_live.1 hb).1 (mem_live.1 ha).1 ?_
    cases hb' : b.id
    cases ha' : a.id
    rw [hb', ha'] at htext
    cases htext
    rfl
  change id ∈ (((db.live userId time).insertionSort newerSession).map (·.id)).drop 9 ↔ _
  rw [← List.map_drop, List.mem_map]
  constructor
  · rintro ⟨row, hrow, rfl⟩
    have hmem := (List.perm_insertionSort _ _).mem_iff.1 (List.mem_of_mem_drop hrow)
    exact ⟨row, hmem, rfl, ((Ranking.mem_drop_insertionSort_iff hnodup (hanti row hmem)).1 hrow).2⟩
  · rintro ⟨row, hmem, rfl, hplace⟩
    exact ⟨row, (Ranking.mem_drop_insertionSort_iff hnodup (hanti row hmem)).2 ⟨hmem, hplace⟩, rfl⟩

theorem mem_findActive (choice : AccountChoice) (h : row ∈ db.live userId time) :
    row.id ∈ accountAnswer db choice (.findActive userId time) :=
  List.mem_map_of_mem ((List.perm_insertionSort newerSession _).mem_iff.2 h)

/-- What no change removes is still there. -/
theorem mem_of_not_removed {changes : List AccountChange} (hrow : row ∈ db.sessions.rows)
    (h : ∀ c ∈ changes, row.id ∉ c.removes) :
    row ∈ (changes.foldl Accounts.apply db).sessions.rows := by
  induction changes generalizing db with
  | nil => exact hrow
  | cons c changes ih =>
      obtain ⟨hfirst, hrest⟩ := List.forall_mem_cons.1 h
      refine ih ?_ hrest
      cases c with
      | insertSession new => exact Rows.mem_insert_of_mem hrow
      | revokeSessions ids time => exact List.mem_map.2 ⟨row, hrow, if_neg hfirst⟩
      | deleteSessions ids => exact Rows.mem_delete.2 ⟨hrow, decide_eq_false hfirst⟩
      | _ => exact hrow

/-! ### The invariant -/

def cookieOf (calls : List SessionCall) (i : Nat) : Option Uuid :=
  calls[i]?.bind SessionCall.cookie

/-- Every program keeps to the rules. -/
abbrev SessionsWatched (calls : List SessionCall) (s : AccountSystem) : Prop :=
  s.Watched LoginRecord.add SessionRules (fun _ _ => True) fun i => (cookieOf calls i, [])

structure Limited (calls : List SessionCall) (clock : Int) (s : AccountSystem) : Prop where
  rules : SessionsWatched calls s
  exclusive : s.Exclusive
  tidy : s.Tidy
  history : ∀ (i : Nat) (p : AccountProcess), s.processes[i]? = some p →
    SessionHistory (cookieOf calls i) p.exchanges
  inside : ∀ (i : Nat) (p : AccountProcess), s.processes[i]? = some p → Open p →
    (⟨.transaction, ()⟩ : AccountExchange) ∈ p.exchanges → p.inside = true
  locked : ∀ (i : Nat) (p : AccountProcess) (userId : Uuid), s.processes[i]? = some p → Open p →
    (⟨.lockUser userId, ()⟩ : AccountExchange) ∈ p.exchanges → (i, .user userId) ∈ s.locks
  times : ∀ (i : Nat) (p : AccountProcess) (time : Int), s.processes[i]? = some p →
    (⟨.now, time⟩ : AccountExchange) ∈ p.exchanges → time ≤ clock
  inserts : ∀ (i : Nat) (p : AccountProcess) (row : SessionRow), s.processes[i]? = some p →
    .insertSession row ∈ p.pending → row.issuer = some i ∧ ∃ created,
      (⟨.createSession row.id row.userId row.expiresAt, created⟩ : AccountExchange) ∈ p.exchanges
  counted : ∀ (i : Nat) (p : AccountProcess) (userId : Uuid) (time : Int) (active : List Uuid),
    s.processes[i]? = some p → Open p →
    (⟨.findActive userId time, active⟩ : AccountExchange) ∈ p.exchanges →
    ∀ row ∈ s.db.live userId clock, (∀ c ∈ p.pending, row.id ∉ c.removes) → row.id ∈ active
  trimmed : ∀ (i : Nat) (p : AccountProcess) (userId : Uuid) (time time' : Int)
    (active : List Uuid), s.processes[i]? = some p → Open p →
    (⟨.findActive userId time, active⟩ : AccountExchange) ∈ p.exchanges →
    (⟨.revokeSessions (.many (active.drop 9)) time', ()⟩ : AccountExchange) ∈ p.exchanges →
    ∀ row ∈ s.db.live userId clock, (∀ c ∈ p.pending, row.id ∉ c.removes) →
      row.id ∈ active.take 9
  issued : ∀ row ∈ s.db.sessions.rows, row.revokedAt = none → ∀ i ∈ row.issuer,
    ∃ p, s.processes[i]? = some p ∧ Finished p
  bounded : ∀ userId, (s.db.live userId clock).length ≤ 10

/-- With time, sessions only end. -/
theorem Limited.later {later : Int} (h : Limited calls clock s) (hle : clock ≤ later) :
    Limited calls later s :=
  { h with
    times := fun i p time hp hnow => (h.times i p time hp hnow).trans hle
    counted := fun i p userId time active hp hopen hcounted row hrow =>
      h.counted i p userId time active hp hopen hcounted row (live_later hle hrow)
    trimmed := fun i p userId time time' active hp hopen hcounted hmany row hrow =>
      h.trimmed i p userId time time' active hp hopen hcounted hmany row (live_later hle hrow)
    bounded := fun userId =>
      (length_live_mono fun _ hrow => live_later hle hrow).trans (h.bounded userId) }

/-! ### One statement -/

section Step

variable {calls : List SessionCall} {clock : Int} {s s' : AccountSystem} {e : Nat × AccountChoice}
  {p p' : AccountProcess} {q : AccountQuery} {next : AccountAnswer q → Account Unit} {i : Nat}
  {r : AccountProcess} {row : SessionRow} {userId : Uuid}

section

variable (h : Limited calls clock s) (hstep : Stepped accountEngine s e p p' q next s')

include h hstep

theorem Limited.asked : SessionRules (cookieOf calls e.1, p.exchanges) q :=
  System.Watched.allowed_next h.rules hstep.process hstep.program

theorem Limited.running : Open p :=
  (h.asked hstep).last

/-- A statement that does not commit either waits to be committed, or changes no
    session. -/
theorem sessions_step : (q = .commit ∧ s'.db = p.view accountEngine s.db) ∨
      (q ≠ .commit ∧ s'.db.sessions = s.db.sessions ∧ (q.ends = false →
        (∀ c ∈ p.pending, c ∈ p'.pending) ∧
        ∀ c ∈ accountChanges e.1 (p.view accountEngine s.db) e.2 q,
          c.touchesSessions = true → c ∈ p'.pending)) := by
  have houtcome := hstep.outcome
  have hrules := h.asked hstep
  have hinside := h.inside e.1 p hstep.process (h.running hstep)
  have htidy := h.tidy e.1 p hstep.process
  generalize p'.pending = pending, s'.db = db, s'.locks = locks, p'.inside = inside at houtcome ⊢
  cases houtcome with
  | opened kind =>
      have hq : q = .transaction := by cases q <;> first | rfl | cases kind
      subst hq
      exact .inr ⟨nofun, rfl, fun _ => ⟨fun c hc => hc, fun c hc => by cases hc⟩⟩
  | staged kind =>
      exact .inr ⟨(by rintro rfl; cases kind), rfl, fun _ =>
        ⟨fun c hc => List.mem_append_left _ hc, fun c hc _ => List.mem_append_right _ hc⟩⟩
  | direct kind houtside =>
      -- what touches sessions is asked in a transaction
      have huntouched : ∀ c ∈ accountChanges e.1 (p.view accountEngine s.db) e.2 q,
          c.touchesSessions = false := by
        intro c hc
        cases htouches : c.touchesSessions with
        | false => rfl
        | true =>
            rw [hinside (hrules.inside (.inr (changes_touch hc htouches)))] at houtside
            cases houtside
      have hview : (p.view accountEngine s.db).sessions = s.db.sessions := by
        rw [Process.view, htidy houtside]
        rfl
      refine .inr ⟨(by rintro rfl; cases kind), (sessions_untouched huntouched).trans hview,
        fun _ => ⟨fun c hc => hc, fun c hc htouches => ?_⟩⟩
      rw [huntouched c hc] at htouches
      cases htouches
  | committed kind => exact .inl ⟨commit_of_kind kind, rfl⟩
  | aborted kind =>
      obtain rfl := rollback_of_kind kind
      exact .inr ⟨nofun, rfl, by rintro ⟨⟩⟩

/-- Where the sessions after a statement come from. -/
theorem unrevoked_before (hrow : row ∈ s'.db.sessions.rows) (hrevoked : row.revokedAt = none) :
    (q = .commit ∧ .insertSession row ∈ p.pending) ∨ (row ∈ s.db.sessions.rows ∧
      (q = .commit → ∀ c ∈ p.pending, row.id ∉ c.removes)) := by
  obtain ⟨hq, hdb⟩ | ⟨hq, hsessions, -⟩ := sessions_step h hstep
  · rw [hdb] at hrow
    obtain hnew | ⟨hold, hkept⟩ := unrevoked_origin hrow hrevoked
    · exact .inl ⟨hq, hnew⟩
    · exact .inr ⟨hold, fun _ => hkept⟩
  · exact .inr ⟨hsessions ▸ hrow, fun h => absurd h hq⟩

end

/-- A program that is about to create a session holds the lock of its user. -/
theorem Limited.holds (h : Limited calls clock s) (hr : s.processes[i]? = some r) (hopen : Open r)
    (hrow : .insertSession row ∈ r.pending) : (i, .user row.userId) ∈ s.locks := by
  obtain ⟨_, created, hcreated⟩ := h.inserts i r row hr hrow
  obtain ⟨time, active, hcounted, _⟩ := (h.history i r hr).creates _ _ _ _ hcreated
  exact h.locked i r row.userId hr hopen ((h.history i r hr).locks _ _ _ hcounted)

/-- Nobody else adds a session to an account whose lock is held. -/
theorem live_other (h : Limited calls clock s) (hstep : Stepped accountEngine s e p p' q next s')
    (hlock : (i, .user userId) ∈ s.locks) (hi : i ≠ e.1) (hrow : row ∈ s'.db.live userId clock) :
    row ∈ s.db.live userId clock := by
  obtain ⟨hmem, huser, hrevoked, hexpires⟩ := mem_live.1 hrow
  obtain ⟨-, hnew⟩ | ⟨hold, -⟩ := unrevoked_before h hstep hmem hrevoked
  · have hlock' := h.holds hstep.process (h.running hstep) hnew
    rw [huser] at hlock'
    exact absurd (h.exclusive _ _ _ hlock hlock') hi
  · exact mem_live.2 ⟨hold, huser, hrevoked, hexpires⟩

/-- The statement is not the end of a transaction that is still open afterwards. -/
theorem not_ends (hstep : Stepped accountEngine s e p p' q next s') (hopen : Open p') :
    q.ends = false :=
  hopen _ hstep.mem_exchanges_self

theorem session_locked_step (h : Limited calls clock s)
    (hstep : Stepped accountEngine s e p p' q next s') (i : Nat) (r : AccountProcess)
    (userId : Uuid) (hr : s'.processes[i]? = some r) (hopen : Open r)
    (hlocked : (⟨.lockUser userId, ()⟩ : AccountExchange) ∈ r.exchanges) :
    (i, .user userId) ∈ s'.locks := by
  obtain ⟨rfl, rfl⟩ | ⟨hi, hr⟩ := hstep.get hr
  · have hends := not_ends hstep hopen
    have hrules := h.asked hstep
    have hinside := h.inside e.1 p hstep.process (h.running hstep)
    have hbefore := (hstep.mem_exchanges hlocked).imp_left
      (h.locked e.1 p userId hstep.process (h.running hstep))
    have houtcome := hstep.outcome
    generalize r.pending = pending, s'.db = db, s'.locks = locks, r.inside = inside
      at houtcome ⊢
    cases houtcome with
    | opened kind =>
        rcases hbefore with hbefore | hnew
        · exact hbefore
        · cases congrArg Sigma.fst hnew
          cases kind
    | staged =>
        rcases hbefore with hbefore | hnew
        · exact List.mem_append_left _ hbefore
        · cases congrArg Sigma.fst hnew
          exact List.mem_append_right _ List.mem_cons_self
    | direct kind houtside =>
        rcases hbefore with hbefore | hnew
        · exact hbefore
        · cases congrArg Sigma.fst hnew
          rw [hinside (hrules.inside (.inl rfl))] at houtside
          cases houtside
    | committed kind =>
        obtain rfl := commit_of_kind kind
        cases hends
    | aborted kind =>
        obtain rfl := rollback_of_kind kind
        cases hends
  · exact hstep.locks_of_ne hi (h.locked i r userId hr hopen hlocked)

theorem session_inserts_step (h : Limited calls clock s)
    (hstep : Stepped accountEngine s e p p' q next s') (i : Nat) (r : AccountProcess)
    (row : SessionRow) (hr : s'.processes[i]? = some r) (hrow : .insertSession row ∈ r.pending) :
    row.issuer = some i ∧ ∃ created,
      (⟨.createSession row.id row.userId row.expiresAt, created⟩ : AccountExchange)
        ∈ r.exchanges := by
  obtain ⟨rfl, rfl⟩ | ⟨_, hr⟩ := hstep.get hr
  · obtain hold | hnew := hstep.mem_pending hrow
    · obtain ⟨hissuer, created, hcreated⟩ := h.inserts e.1 p row hstep.process hold
      exact ⟨hissuer, created, hstep.mem_exchanges_of_mem hcreated⟩
    · obtain ⟨hissuer, rfl⟩ := changes_insertSession hnew
      exact ⟨hissuer, _, hstep.mem_exchanges_self⟩
  · exact h.inserts i r row hr hrow

/-- A live session of the database that no change of the program removes is one that the
    program sees. -/
theorem live_view {time : Int} (hrow : row ∈ s.db.live userId time)
    (hkept : ∀ c ∈ r.pending, row.id ∉ c.removes) :
    row ∈ (r.view accountEngine s.db).live userId time := by
  obtain ⟨hmem, hlive⟩ := mem_live.1 hrow
  exact mem_live.2 ⟨mem_of_not_removed hmem hkept, hlive⟩

theorem session_counted_step (h : Limited calls clock s)
    (hstep : Stepped accountEngine s e p p' q next s') (i : Nat) (r : AccountProcess)
    (userId : Uuid) (time : Int) (active : List Uuid) (hr : s'.processes[i]? = some r)
    (hopen : Open r) (hcounted : (⟨.findActive userId time, active⟩ : AccountExchange)
      ∈ r.exchanges) (row : SessionRow) (hrow : row ∈ s'.db.live userId clock)
    (hkept : ∀ c ∈ r.pending, row.id ∉ c.removes) : row.id ∈ active := by
  obtain ⟨rfl, rfl⟩ | ⟨hi, hr⟩ := hstep.get hr
  · have hends := not_ends hstep hopen
    obtain ⟨rfl, -⟩ | ⟨-, hsessions, hpending⟩ := sessions_step h hstep
    · cases hends
    rw [live_of_sessions hsessions] at hrow
    have hkept : ∀ c ∈ p.pending, row.id ∉ c.removes :=
      fun c hc => hkept c ((hpending hends).1 c hc)
    obtain hold | hnew := hstep.mem_exchanges hcounted
    · exact h.counted e.1 p userId time active hstep.process (h.running hstep) hold row hrow hkept
    · cases hnew
      obtain ⟨-, hnow, -⟩ := (h.asked hstep).count userId time rfl
      have htime := h.times e.1 p time hstep.process hnow
      exact mem_findActive e.2 (live_later htime (live_view hrow hkept))
  · have hlock := h.locked i r userId hr hopen ((h.history i r hr).locks _ _ _ hcounted)
    exact h.counted i r userId time active hr hopen hcounted row
      (live_other h hstep hlock hi hrow) hkept

/-- The sessions beyond the nine newest are removed by the change of the statement. -/
theorem mem_take_of_trimmed {time' : Int} {active : List Uuid} (hrow : row ∈ s.db.live userId clock)
    (hmem : row.id ∈ active) (hkept : ∀ c ∈ p.pending, row.id ∉ c.removes)
    (hkept' : ∀ c ∈ accountChanges e.1 (p.view accountEngine s.db) e.2
      (.revokeSessions (.many (active.drop 9)) time'), row.id ∉ c.removes) :
    row.id ∈ active.take 9 := by
  rw [← List.take_append_drop 9 active, List.mem_append] at hmem
  refine hmem.resolve_right fun hdrop => hkept' _ List.mem_cons_self ?_
  refine List.mem_map.2 ⟨row, List.mem_filter.2 ⟨?_, decide_eq_true hdrop⟩, rfl⟩
  exact (mem_live.1 (live_view hrow hkept)).1

theorem trimmed_step (h : Limited calls clock s)
    (hstep : Stepped accountEngine s e p p' q next s') (i : Nat) (r : AccountProcess)
    (userId : Uuid) (time time' : Int) (active : List Uuid) (hr : s'.processes[i]? = some r)
    (hopen : Open r)
    (hcounted : (⟨.findActive userId time, active⟩ : AccountExchange) ∈ r.exchanges)
    (hmany : (⟨.revokeSessions (.many (active.drop 9)) time', ()⟩ : AccountExchange)
      ∈ r.exchanges) (row : SessionRow) (hrow : row ∈ s'.db.live userId clock)
    (hkept : ∀ c ∈ r.pending, row.id ∉ c.removes) : row.id ∈ active.take 9 := by
  obtain ⟨rfl, rfl⟩ | ⟨hi, hr⟩ := hstep.get hr
  · have hends := not_ends hstep hopen
    obtain ⟨rfl, -⟩ | ⟨-, hsessions, hpending⟩ := sessions_step h hstep
    · cases hends
    obtain ⟨hwaits, hadded⟩ := hpending hends
    rw [live_of_sessions hsessions] at hrow
    have hbefore : ∀ c ∈ p.pending, row.id ∉ c.removes := fun c hc => hkept c (hwaits c hc)
    have hrunning := h.running hstep
    obtain hcounted | hnew := hstep.mem_exchanges hcounted
    · obtain hmany | hnew := hstep.mem_exchanges hmany
      · exact h.trimmed e.1 p userId time time' active hstep.process hrunning hcounted hmany row
          hrow hbefore
      · cases congrArg Sigma.fst hnew
        refine mem_take_of_trimmed hrow
          (h.counted e.1 p userId time active hstep.process hrunning hcounted row hrow hbefore)
          hbefore fun c hc => hkept c (hadded c hc ?_)
        rw [List.mem_singleton.1 hc]
        rfl
    · -- a login has not revoked too many before it counts
      cases hnew
      obtain ⟨hlocked, -, hnone⟩ := (h.asked hstep).count userId time rfl
      obtain hmany | hnew := hstep.mem_exchanges hmany
      · obtain ⟨_, _, _, hfound, -⟩ :=
          (h.history e.1 p hstep.process).trims userId _ time' hlocked hmany
        cases hnone _ hfound
      · cases congrArg Sigma.fst hnew
  · have hlock := h.locked i r userId hr hopen ((h.history i r hr).locks _ _ _ hcounted)
    exact h.trimmed i r userId time time' active hr hopen hcounted hmany row
      (live_other h hstep hlock hi hrow) hkept

theorem finished_step (hstep : Stepped accountEngine s e p p' q next s') {j : Nat}
    (h : ∃ r, s.processes[j]? = some r ∧ Finished r) :
    ∃ r, s'.processes[j]? = some r ∧ Finished r := by
  obtain ⟨r, hr, hfinished⟩ := h
  refine ⟨r, (hstep.other fun heq => ?_).trans hr, hfinished⟩
  subst heq
  obtain rfl := Option.some.inj (hstep.process.symm.trans hr)
  exact not_finished hstep hfinished

theorem issued_step (h : Limited calls clock s) (hrules : SessionsWatched calls s')
    (hstep : Stepped accountEngine s e p p' q next s') (row : SessionRow)
    (hrow : row ∈ s'.db.sessions.rows) (hrevoked : row.revokedAt = none) (i : Nat)
    (hi : i ∈ row.issuer) : ∃ r, s'.processes[i]? = some r ∧ Finished r := by
  obtain ⟨rfl, hnew⟩ | ⟨hold, -⟩ := unrevoked_before h hstep hrow hrevoked
  · obtain ⟨hissuer, -⟩ := h.inserts e.1 p row hstep.process hnew
    obtain rfl := Option.some.inj (hissuer.symm.trans hi)
    exact ⟨p', hstep.self, System.Watched.ended (fun _ _ hkept => hkept.last) hrules hstep.self
      hstep.mem_exchanges_self rfl⟩
  · exact finished_step hstep (h.issued row hold hrevoked i hi)

/-- The sessions of an account after a login has committed: its own and the nine newest
    of those that it has counted. -/
theorem bounded_step (h : Limited calls clock s)
    (hstep : Stepped accountEngine s e p p' q next s') (userId : Uuid) :
    (s'.db.live userId clock).length ≤ 10 := by
  have hrunning := h.running hstep
  obtain ⟨rfl, hdb⟩ | ⟨-, hsessions, -⟩ := sessions_step h hstep
  · have horigin (row : SessionRow) (hrow : row ∈ s'.db.live userId clock) :
        .insertSession row ∈ p.pending ∨ row ∈ s.db.live userId clock ∧
          ∀ c ∈ p.pending, row.id ∉ c.removes := by
      obtain ⟨hmem, huser, hrevoked, hexpires⟩ := mem_live.1 hrow
      exact (unrevoked_before h hstep hmem hrevoked).imp And.right fun ⟨hold, hkept⟩ =>
        ⟨mem_live.2 ⟨hold, huser, hrevoked, hexpires⟩, hkept rfl⟩
    by_cases hissues : ∃ row, .insertSession row ∈ p.pending ∧ row.userId = userId
    · obtain ⟨issued, hissued, rfl⟩ := hissues
      obtain ⟨-, created, hcreated⟩ := h.inserts e.1 p issued hstep.process hissued
      obtain ⟨time, active, hcounted, htrimmed⟩ :=
        (h.history e.1 p hstep.process).creates _ _ _ _ hcreated
      have hids : ∀ row ∈ s'.db.live issued.userId clock,
          row.id ∈ issued.id :: active.take 9 := by
        intro row hrow
        obtain hnew | ⟨hold, hkept⟩ := horigin row hrow
        · obtain ⟨-, created', hcreated'⟩ := h.inserts e.1 p row hstep.process hnew
          have hsame := (h.history e.1 p hstep.process).created _ hcreated' _ hcreated rfl rfl
          rw [(AccountQuery.createSession.inj (congrArg Sigma.fst hsame)).1]
          exact List.mem_cons_self
        · refine List.mem_cons_of_mem _ ?_
          by_cases hlimit : 10 ≤ active.length
          · obtain ⟨time', hmany⟩ := htrimmed hlimit
            exact h.trimmed e.1 p _ time time' active hstep.process hrunning hcounted hmany row
              hold hkept
          · rw [List.take_of_length_le (by omega)]
            exact h.counted e.1 p _ time active hstep.process hrunning hcounted row hold hkept
      refine (length_live_le hids).trans ?_
      rw [List.length_cons, List.length_take]
      omega
    · refine (length_live_mono fun row hrow => ?_).trans (h.bounded userId)
      refine (horigin row hrow).elim (fun hnew => ?_) And.left
      exact absurd ⟨row, hnew, (mem_live.1 hrow).2.1⟩ hissues
  · rw [live_of_sessions hsessions]
    exact h.bounded userId

end Step

theorem limited_step (h : Limited calls clock s) {e : Nat × AccountChoice} (htime : clock ≤ e.2.now) :
    Limited calls e.2.now (s.step accountEngine e) := by
  have h := h.later htime
  have hrules : SessionsWatched calls (s.step accountEngine e) := watched_step h.rules e
  obtain hstep | ⟨p, p', q, next, hstep⟩ := step_cases accountEngine s e
  · rwa [hstep]
  refine
    { rules := hrules
      exclusive := exclusive_step h.exclusive e
      tidy := tidy_step h.tidy e
      history := fun i r hr => ?_
      inside := fun i r hr hopen htransaction => ?_
      locked := session_locked_step h hstep
      times := fun i r time hr hnow => ?_
      inserts := session_inserts_step h hstep
      counted := session_counted_step h hstep
      trimmed := trimmed_step h hstep
      issued := issued_step h hrules hstep
      bounded := bounded_step h hstep }
  · obtain ⟨rfl, rfl⟩ | ⟨_, hr⟩ := hstep.get hr
    · rw [hstep.exchanges]
      exact (h.history e.1 p hstep.process).snoc (h.asked hstep)
    · exact h.history i r hr
  · obtain ⟨rfl, rfl⟩ | ⟨_, hr⟩ := hstep.get hr
    · exact hopen.inside hstep (h.inside e.1 p hstep.process) htransaction
    · exact h.inside i r hr hopen htransaction
  · obtain ⟨rfl, rfl⟩ | ⟨_, hr⟩ := hstep.get hr
    · obtain hold | hnew := hstep.mem_exchanges hnow
      · exact h.times e.1 p time hstep.process hold
      · cases hnew
        exact le_refl _
    · exact h.times i r time hr hnow

/-- Events from a time on, up to another, whose times do not decrease. -/
def Timely : Int → List (Nat × AccountChoice) → Int → Prop
  | clock, [], now => clock ≤ now
  | clock, e :: events, now => clock ≤ e.2.now ∧ Timely e.2.now events now

instance decidableTimely : (clock : Int) → (events : List (Nat × AccountChoice)) → (now : Int) →
    Decidable (Timely clock events now)
  | clock, [], now => inferInstanceAs (Decidable (clock ≤ now))
  | clock, e :: events, now =>
      have := decidableTimely e.2.now events now
      inferInstanceAs (Decidable (clock ≤ e.2.now ∧ Timely e.2.now events now))

theorem timely_append {now : Int} {first second : List (Nat × AccountChoice)} :
    Timely clock (first ++ second) now → ∃ mid, Timely clock first mid ∧ Timely mid second now := by
  induction first generalizing clock with
  | nil => exact fun h => ⟨clock, le_refl _, h⟩
  | cons e first ih =>
      rintro ⟨htime, h⟩
      obtain ⟨mid, hfirst, hsecond⟩ := ih h
      exact ⟨mid, ⟨htime, hfirst⟩, hsecond⟩

theorem limited_run {now : Int} (h : Limited calls clock s) {events : List (Nat × AccountChoice)}
    (htimely : Timely clock events now) : Limited calls now (s.run accountEngine events) := by
  induction events generalizing s clock with
  | nil => exact h.later htimely
  | cons e events ih => exact ih (limited_step h htimely.1) htimely.2

theorem limited_init (lib : AccountLibrary) (calls : List SessionCall) {start : Int}
    (hstart : ∀ userId, (db.live userId start).length ≤ 10)
    (hissuer : ∀ row ∈ db.sessions.rows, row.issuer = none) :
    Limited calls start (sessionSystem lib db calls) := by
  have hget {i : Nat} {p : AccountProcess}
      (hp : (sessionSystem lib db calls).processes[i]? = some p) :
      ∃ call, calls[i]? = some call ∧ p = { program := call.program lib } := by
    rw [sessionSystem, List.getElem?_map, Option.map_eq_some_iff] at hp
    exact hp.imp fun call h => ⟨h.1, h.2.symm⟩
  have hnone {i : Nat} {p : AccountProcess} {x : AccountExchange}
      (hp : (sessionSystem lib db calls).processes[i]? = some p) : x ∉ p.exchanges := by
    obtain ⟨call, -, rfl⟩ := hget hp
    exact List.not_mem_nil
  exact
    { rules := fun i p hp => by
        obtain ⟨call, hcall, rfl⟩ := hget hp
        have hcookie : cookieOf calls i = call.cookie := by rw [cookieOf, hcall, Option.bind_some]
        change SessionWatched (fun _ _ => True) (call.program lib) (cookieOf calls i, [])
        rw [hcookie]
        exact session_program lib call
      exclusive := fun _ _ _ h => by cases h
      tidy := fun i p hp _ => by
        obtain ⟨call, -, rfl⟩ := hget hp
        rfl
      history := fun i p hp => by
        obtain ⟨call, -, rfl⟩ := hget hp
        exact sessionHistory_nil _
      inside := fun _ _ hp _ h => absurd h (hnone hp)
      locked := fun _ _ _ hp _ h => absurd h (hnone hp)
      times := fun _ _ _ hp h => absurd h (hnone hp)
      inserts := fun i p row hp h => by
        obtain ⟨call, -, rfl⟩ := hget hp
        cases h
      counted := fun _ _ _ _ _ hp _ h => absurd h (hnone hp)
      trimmed := fun _ _ _ _ _ _ hp _ h => absurd h (hnone hp)
      issued := fun row hrow _ i hi => by
        rw [hissuer row hrow] at hi
        cases hi
      bounded := hstart }

/-! ### The session of the cookie -/

/-- A session that a program has revoked with its cookie is about to be removed, or is not
    there any more, unless the program has failed. It does not come back, since its login
    is over. -/
structure CookieRevoked (i : Nat) (row : SessionRow) (s : AccountSystem) : Prop where
  issued : ∀ j ∈ row.issuer, ∃ p, s.processes[j]? = some p ∧ Finished p
  waits : ∀ (p : AccountProcess) (time : Int), s.processes[i]? = some p →
    (⟨.revokeSessions (.cookie row.id) time, ()⟩ : AccountExchange) ∈ p.exchanges →
    row ∈ s.db.sessions.rows → (⟨.rollback, ()⟩ : AccountExchange) ∈ p.exchanges ∨
      Open p ∧ ∃ c ∈ p.pending, row.id ∈ c.removes

section Cookie

variable {calls : List SessionCall} {clock : Int} {s s' : AccountSystem} {e : Nat × AccountChoice}
  {p p' : AccountProcess} {q : AccountQuery} {next : AccountAnswer q → Account Unit} {i : Nat}
  {row : SessionRow}

/-- The statement that revokes the session of the cookie. -/
theorem removes_of_cookie {time : Int} (hrow : row ∈ s.db.sessions.rows)
    (hrevoked : row.revokedAt = none) (hkept : ∀ c ∈ p.pending, row.id ∉ c.removes) :
    ∃ c ∈ accountChanges e.1 (p.view accountEngine s.db) e.2
      (.revokeSessions (.cookie row.id) time), c.touchesSessions = true ∧ row.id ∈ c.removes := by
  refine ⟨_, List.mem_cons_self, rfl, List.mem_map.2 ⟨row, List.mem_filter.2
    ⟨mem_of_not_removed hrow hkept, ?_⟩, rfl⟩⟩
  rw [SessionFilter.admits, decide_eq_true rfl, hrevoked]
  rfl

theorem cookieRevoked_step (h : Limited calls clock s) (hrevoked : row.revokedAt = none)
    (hcookie : CookieRevoked i row s) (hstep : Stepped accountEngine s e p p' q next s') :
    CookieRevoked i row s' where
  issued j hj := finished_step hstep (hcookie.issued j hj)
  waits r time hr hasked hrow := by
    have hrunning := h.running hstep
    have hbefore := unrevoked_before h hstep hrow hrevoked
    obtain ⟨hold, hkept⟩ := hbefore.resolve_left fun hnew => by
      -- the login of the session is over
      obtain ⟨hissuer, -⟩ := h.inserts e.1 p row hstep.process hnew.2
      obtain ⟨r', hr', hfinished⟩ := hcookie.issued e.1 hissuer
      obtain rfl := Option.some.inj (hstep.process.symm.trans hr')
      exact not_finished hstep hfinished
    obtain ⟨rfl, rfl⟩ | ⟨hi, hr⟩ := hstep.get hr
    · by_cases hends : q.ends = true
      · -- a commit would have removed the session
        refine .inl ?_
        rw [AccountQuery.ends, Bool.or_eq_true, decide_eq_true_iff, decide_eq_true_iff] at hends
        rcases hends with rfl | rfl
        · obtain hasked | hnew := hstep.mem_exchanges hasked
          · rcases hcookie.waits p time hstep.process hasked hold with hrollback | ⟨-, c, hc, hid⟩
            · exact hstep.mem_exchanges_of_mem hrollback
            · exact absurd hid (hkept rfl c hc)
          · cases congrArg Sigma.fst hnew
        · exact hstep.mem_exchanges_self
      · rw [Bool.not_eq_true] at hends
        have hopen : Open r := by
          intro x hx
          obtain hx | rfl := hstep.mem_exchanges hx
          · exact hrunning x hx
          · exact hends
        obtain ⟨rfl, -⟩ | ⟨-, -, hpending⟩ := sessions_step h hstep
        · cases hends
        obtain ⟨hwaits, hadded⟩ := hpending hends
        refine .inr ⟨hopen, ?_⟩
        by_cases hremoved : ∃ c ∈ p.pending, row.id ∈ c.removes
        · obtain ⟨c, hc, hid⟩ := hremoved
          exact ⟨c, hwaits c hc, hid⟩
        obtain hasked | hnew := hstep.mem_exchanges hasked
        · rcases hcookie.waits p time hstep.process hasked hold with hrollback | ⟨-, hexists⟩
          · cases hrunning _ hrollback
          · exact absurd hexists hremoved
        · cases congrArg Sigma.fst hnew
          push Not at hremoved
          obtain ⟨c, hc, htouches, hid⟩ := removes_of_cookie hold hrevoked hremoved
          exact ⟨c, hadded c hc htouches, hid⟩
    · exact hcookie.waits r time hr hasked hold

theorem cookieRevoked_run {now : Int} (h : Limited calls clock s) (hrevoked : row.revokedAt = none)
    (hcookie : CookieRevoked i row s) {events : List (Nat × AccountChoice)}
    (htimely : Timely clock events now) : CookieRevoked i row (s.run accountEngine events) := by
  induction events generalizing s clock with
  | nil => exact hcookie
  | cons e events ih =>
      refine ih (limited_step h htimely.1) ?_ htimely.2
      obtain hstep | ⟨p, p', q, next, hstep⟩ := step_cases accountEngine s e
      · rwa [hstep]
      · exact cookieRevoked_step h hrevoked hcookie hstep

end Cookie

/-! ### The limit -/

/-- When the login has created its session, it has revoked exactly the sessions beyond the
    nine newest that it had counted, and from then on it changes no session. -/
def KeepsNewest (s : AccountSystem) (events : List (Nat × AccountChoice)) (i : Nat)
    (p : AccountProcess) : Prop :=
  ∀ id userId expiresAt,
    (⟨.createSession id userId expiresAt, true⟩ : AccountExchange) ∈ p.exchanges →
    (∃ before e after r time next, events = before ++ e :: after ∧
      (s.run accountEngine before).processes[i]? = some r ∧
      r.program = .ask (.findActive userId time) next ∧
      ∀ id', (r.view accountEngine (s.run accountEngine before).db).Surplus userId time id' ↔
        ∃ ids time', (⟨.revokeSessions (.many ids) time', ()⟩ : AccountExchange) ∈ p.exchanges ∧
          id' ∈ ids) ∧
    ∀ first x rest, p.exchanges = first ++ x :: rest → x.1.createsSession = true →
      ∀ y ∈ rest, y.1.touchesSessions = false

/-- The session whose cookie a login has presented, if it was there when the login began,
    is not alive after its commit. -/
def DropsCookie (calls : List SessionCall) (s : AccountSystem)
    (events : List (Nat × AccountChoice)) (now : Int) (i : Nat) (p : AccountProcess) : Prop :=
  ∀ before after r row, events = before ++ after →
    (s.run accountEngine before).processes[i]? = some r → r.past = [] →
    row ∈ (s.run accountEngine before).db.sessions.rows → cookieOf calls i = some row.id →
    (⟨.commit, ()⟩ : AccountExchange) ∈ p.exchanges →
    row ∉ (s.run accountEngine events).db.live row.userId now

section Limit

variable {calls : List SessionCall} {start now : Int} {s : AccountSystem} {i : Nat}
  {p : AccountProcess} {events : List (Nat × AccountChoice)}

theorem keepsNewest_run (hinit : ∀ (i : Nat) (p : AccountProcess), s.processes[i]? = some p →
      p.past = []) (h : Limited calls now (s.run accountEngine events))
    (hp : (s.run accountEngine events).processes[i]? = some p) : KeepsNewest s events i p := by
  intro id userId expiresAt hcreated
  have hhistory := h.history i p hp
  refine ⟨?_, hhistory.order⟩
  obtain ⟨time, active, hcounted, htrimmed⟩ := hhistory.creates _ _ _ _ hcreated
  obtain ⟨before, e, after, r, next, hsplit, -, hr, hprogram, hanswer⟩ :=
    answered_run hinit events hp hcounted
  refine ⟨before, e, after, r, time, next, hsplit, hr, hprogram, fun id' => ?_⟩
  have hsurplus : id' ∈ active.drop 9 ↔
      (r.view accountEngine (s.run accountEngine before).db).Surplus userId time id' := by
    rw [show active = accountAnswer _ e.2 (.findActive userId time) from hanswer]
    exact mem_drop_findActive
  rw [← hsurplus]
  constructor
  · intro hid
    have hlimit : 10 ≤ active.length := by
      by_contra hlimit
      have hfew : active.length ≤ 9 := by omega
      rw [List.drop_eq_nil_of_le hfew] at hid
      cases hid
    obtain ⟨time', hmany⟩ := htrimmed hlimit
    exact ⟨_, time', hmany, hid⟩
  · rintro ⟨ids, time', hmany, hid⟩
    obtain ⟨userId', time'', active', hcounted', -, rfl⟩ :=
      hhistory.trims userId ids time' (hhistory.locks _ _ _ hcounted) hmany
    have hsame := hhistory.found _ hcounted' _ hcounted rfl rfl
    cases hsame
    exact hid

theorem dropsCookie_run (h : Limited calls start s) (htimely : Timely start events now)
    (hp : (s.run accountEngine events).processes[i]? = some p) :
    DropsCookie calls s events now i p := by
  rintro before after r row rfl hr hbegin hrow hcookie hcommit hlive
  obtain ⟨hmem, -, hrevoked, -⟩ := mem_live.1 hlive
  obtain ⟨mid, hbefore, hafter⟩ := timely_append htimely
  have hmid := limited_run h hbefore
  have hstart : CookieRevoked i row (s.run accountEngine before) := by
    refine ⟨hmid.issued row hrow hrevoked, fun r' time hr' hasked => ?_⟩
    obtain rfl := Option.some.inj (hr.symm.trans hr')
    rw [Process.exchanges, hbegin] at hasked
    cases hasked
  have hend := cookieRevoked_run hmid hrevoked hstart hafter
  have hlimited := limited_run hmid hafter
  rw [run_append] at hp hmem
  have hhistory := hlimited.history i p hp
  obtain ⟨time, hasked⟩ := hhistory.cookie hcommit row.id hcookie
  rcases hend.waits p time hp hasked hmem with hrollback | ⟨hopen, -⟩
  · cases congrArg Sigma.fst (hhistory.ended _ hrollback _ hcommit rfl rfl)
  · cases hopen _ hcommit

/-- At every time an account has at most ten live sessions, a login revokes the oldest
    ones and never its own, and it ends the session of its cookie. -/
theorem session_limit (lib : AccountLibrary) (db : Accounts) (calls : List SessionCall)
    (hstart : ∀ userId, (db.live userId start).length ≤ 10)
    (hissuer : ∀ row ∈ db.sessions.rows, row.issuer = none)
    (htimely : Timely start events now) :
    (∀ userId, (((sessionSystem lib db calls).run accountEngine events).db.live
      userId now).length ≤ 10) ∧
    ∀ i p, ((sessionSystem lib db calls).run accountEngine events).processes[i]? = some p →
      KeepsNewest (sessionSystem lib db calls) events i p ∧
      DropsCookie calls (sessionSystem lib db calls) events now i p := by
  have hinit := limited_init lib calls hstart hissuer
  have hlimited := limited_run hinit htimely
  refine ⟨hlimited.bounded, fun i p hp => ⟨keepsNewest_run (fun j r hr => ?_) hlimited hp,
    dropsCookie_run hinit htimely hp⟩⟩
  rw [sessionSystem, List.getElem?_map, Option.map_eq_some_iff] at hr
  obtain ⟨call, -, rfl⟩ := hr
  rfl

end Limit

namespace Sample

theorem uuidShape_digit (n : Fin 10) : uuidShape isHexLower
    ("00000000-0000-4000-8000-00000000000" ++ toString n.val).toList = true := by
  revert n
  decide

def digitSession (n : Fin 10) : Uuid := ⟨_, uuidShape_digit n⟩

/-- The member of the sample is at the limit. -/
def fullAccounts : Accounts :=
  { accounts with
    sessions := (List.finRange 10).foldl
      (fun rows n => rows.insert ⟨digitSession n, owner, n.val, 1000, none, none⟩) {} }

theorem uuidShape_new (n : Fin 2) : uuidShape isHexLower
    ("10000000-0000-4000-8000-00000000000" ++ toString n.val).toList = true := by
  revert n
  decide

def newSession (n : Fin 2) : Uuid := ⟨_, uuidShape_new n⟩

/-- The member signs in twice, the second time with the cookie of the newest session. -/
def signInTwice : List SessionCall :=
  [.account (.authenticate none "ada@example.org" "old password"),
    .account (.authenticate (some (digitSession 9)) "ada@example.org" "old password")]

/-- The second login begins before the first has its lock. -/
def loginsOverlap : List (Nat × AccountChoice) :=
  List.replicate 4 (1, { accountChoice with now := 10, fresh := newSession 1 }) ++
    List.replicate 14 (0, { accountChoice with now := 10, fresh := newSession 0 }) ++
    List.replicate 14 (1, { accountChoice with now := 11, fresh := newSession 1 })

end Sample

/-- The first login takes the place of the oldest session, the second that of its cookie. -/
theorem session_limit_signInTwice :
    Timely 0 Sample.loginsOverlap 11 ∧
      ((((sessionSystem Sample.accountLibrary Sample.fullAccounts Sample.signInTwice).run
        accountEngine Sample.loginsOverlap).db.live Sample.owner 11).length ≤ 10) ∧
      ((((sessionSystem Sample.accountLibrary Sample.fullAccounts Sample.signInTwice).run
        accountEngine Sample.loginsOverlap).db.live Sample.owner 11).map SessionRow.createdAt) =
          [1, 2, 3, 4, 5, 6, 7, 8, 10, 11] := by
  have hstart (userId : Uuid) : (Sample.fullAccounts.live userId 0).length ≤ 10 :=
    (List.length_filter_le _ _).trans (by decide +kernel)
  have htimely : Timely 0 Sample.loginsOverlap 11 := by decide
  obtain ⟨hbounded, -⟩ := session_limit Sample.accountLibrary Sample.fullAccounts
    Sample.signInTwice hstart (by decide +kernel) htimely
  exact ⟨htimely, hbounded Sample.owner, by decide +kernel⟩

end ArenaCore
