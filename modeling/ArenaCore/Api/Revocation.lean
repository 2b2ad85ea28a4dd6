import ArenaCore.Api.LoginRules
import ArenaCore.Store.System

/-!
# Revoking Sessions

A ban, a suspension, a new password, a new email and a deactivation revoke the
sessions of the user that they can see. A login looks the user up, checks the
password and the restriction, and creates its session later, in statements of
their own. Where the two overlap, a session may outlive the revocation.

Where they do not (`NoOverlap`), the revocation is complete: afterwards a live
session is the one that asked for the change, or its login has read nothing from
before the change. The invariant is `Revoking`. Its field `covered` says of every
session that a revocation must have dealt with how it did, and `late` that a login
with a session to commit has not read from before any revocation that is over.

## Main definitions

* `RevocationComplete`: Nothing from before a change is alive.
* `NoOverlap`: No revocation is between the lookup of a login and its session.
* `Revoking`: The invariant.

## Theorems

* `revoking_step`: A statement that does not overlap keeps the invariant.
* `revocation_complete`: Runs without overlaps revoke completely.
* `login_survives_change`: A login that overlaps a change of the password.
-/

namespace ArenaCore

open Dialogue Concurrent Account

variable {db : Accounts} {row : SessionRow} {q : AccountQuery} {calls : List AccountCall}
  {s : AccountSystem} {c : AccountChange} {changes : List AccountChange} {pid i : Nat}
  {choice : AccountChoice} {p : AccountProcess}

/-! ### The property and its condition -/

/-- All that the login has read, it has read at a time or later. -/
def ReadsFrom (p : AccountProcess) (time : Nat) : Prop :=
  ∀ x ∈ p.past, x.2.1.isRead = true → time ≤ x.1

/-- The login of a session looked its user up, and read nothing from before the
    time. -/
def IssuedAfter (s : AccountSystem) (row : SessionRow) (time : Nat) : Prop :=
  ∃ (i : Nat) (p : AccountProcess), row.issuer = some i ∧ s.processes[i]? = some p ∧
    (∃ x ∈ p.past, lookedUp x.2 = some row.userId) ∧ ReadsFrom p time

instance (p : AccountProcess) (time : Nat) : Decidable (ReadsFrom p time) :=
  inferInstanceAs (Decidable (∀ x ∈ p.past, x.2.1.isRead = true → time ≤ x.1))

instance (s : AccountSystem) (row : SessionRow) (time : Nat) : Decidable (IssuedAfter s row time) :=
  decidable_of_iff (∃ i ∈ row.issuer, ∃ p ∈ s.processes[i]?,
    (∃ x ∈ p.past, lookedUp x.2 = some row.userId) ∧ ReadsFrom p time)
    ⟨fun ⟨i, hi, p, hp, h⟩ => ⟨i, p, hi, hp, h⟩, fun ⟨i, p, hi, hp, h⟩ => ⟨i, hi, p, hp, h⟩⟩

/-- After a change of a user that was committed, a live session of the user is the
    one that asked for it, or its login has read nothing from before. -/
def RevocationComplete (calls : List AccountCall) (s : AccountSystem) (now : Int) : Prop :=
  ∀ (j : Nat) (call : AccountCall) (r : AccountProcess) (time : Nat) (userId : Uuid),
    calls[j]? = some call → s.processes[j]? = some r →
    (time, (⟨.commit, ()⟩ : AccountExchange)) ∈ r.past →
    (∃ x ∈ r.past, changedUser x.2 = some userId) →
    ∀ row ∈ s.db.sessions.rows, row.userId = userId → row.revokedAt = none →
      now < row.expiresAt → call.performing = some row.id ∨ IssuedAfter s row time

def Finished (p : AccountProcess) : Prop :=
  ∃ result, p.program = .done result

def LooksUp (userId : Uuid) (p : AccountProcess) : Prop :=
  ∃ x ∈ p.past, lookedUp x.2 = some userId

def Revokes (userId : Uuid) (p : AccountProcess) : Prop :=
  ∃ x ∈ p.past, ∃ kept, x.2.1.revokes = some (userId, kept)

/-- The user whose session a change inserts. -/
def AccountChange.sessionUser : AccountChange → Option Uuid
  | .insertSession row => some row.userId
  | _ => none

/-- A session of the user is created and not yet committed. -/
def Awaits (userId : Uuid) (p : AccountProcess) : Prop :=
  ∃ c ∈ p.pending, c.sessionUser = some userId

/-- The user that a statement creates a session for. -/
def AccountQuery.creates : AccountQuery → Option Uuid
  | .createSession _ userId _ => some userId
  | _ => none

/-- A login creates a session of a user whose sessions the other has revoked only if the
    other is over, and was committed before the login looked the user up. Sessions of a
    user are revoked only if the other has none to commit. -/
def Apart (p : AccountProcess) (q : AccountQuery) (r : AccountProcess) : Prop :=
  (∀ userId ∈ q.creates, Revokes userId r → Finished r ∧
    ∀ x ∈ p.past, lookedUp x.2 = some userId → ∀ y ∈ r.past, y.2.1 = .commit → y.1 ≤ x.1) ∧
  ∀ revoked ∈ q.revokes, ¬ Awaits revoked.1 r

def NoOverlap (s : AccountSystem) (e : Nat × AccountChoice) : Prop :=
  s.Next e.1 fun p q => ∀ r ∈ s.processes, Apart p q r

instance (p : AccountProcess) : Decidable (Finished p) :=
  match h : p.program with
  | .done result => isTrue ⟨result, h⟩
  | .ask q next => isFalse (by rintro ⟨result, hdone⟩; rw [h] at hdone; cases hdone)

instance (userId : Uuid) (p : AccountProcess) : Decidable (Revokes userId p) :=
  decidable_of_iff (∃ x ∈ p.past, x.2.1.revokes.map Prod.fst = some userId) (by
    simp only [Revokes, Option.map_eq_some_iff, Prod.exists, exists_and_right, exists_eq_right])

instance (userId : Uuid) (p : AccountProcess) : Decidable (Awaits userId p) :=
  inferInstanceAs (Decidable (∃ c ∈ p.pending, c.sessionUser = some userId))

instance (p r : AccountProcess) (q : AccountQuery) : Decidable (Apart p q r) := by
  unfold Apart
  infer_instance

instance (s : AccountSystem) (e : Nat × AccountChoice) : Decidable (NoOverlap s e) := by
  unfold NoOverlap
  infer_instance

/-! ### Where sessions come from -/

/-- The sessions that a change revokes or deletes. -/
def AccountChange.removes : AccountChange → List Uuid
  | .revokeSessions ids _ | .deleteSessions ids => ids
  | _ => []

theorem unrevoked_apply (hmem : row ∈ (db.apply c).sessions.rows) (hrow : row.revokedAt = none) :
    c = .insertSession row ∨ (row ∈ db.sessions.rows ∧ row.id ∉ c.removes) := by
  cases c with
  | insertSession new =>
      obtain rfl | hmem := Rows.mem_insert hmem
      · exact .inl rfl
      · exact .inr ⟨hmem, List.not_mem_nil⟩
  | revokeSessions ids time =>
      obtain ⟨old, hold, heq⟩ := List.mem_map.1 hmem
      unfold alter at heq
      split at heq
      · subst heq
        cases hrow
      · next hid =>
          subst heq
          exact .inr ⟨hold, hid⟩
  | deleteSessions ids =>
      obtain ⟨hold, hid⟩ := Rows.mem_delete.1 hmem
      exact .inr ⟨hold, of_decide_eq_false hid⟩
  | _ => exact .inr ⟨hmem, List.not_mem_nil⟩

/-- A session that is not revoked after some changes is one that they inserted,
    or was there before and is none that they removed. -/
theorem unrevoked_origin (hmem : row ∈ (changes.foldl Accounts.apply db).sessions.rows)
    (hrow : row.revokedAt = none) :
    .insertSession row ∈ changes ∨
      (row ∈ db.sessions.rows ∧ ∀ c ∈ changes, row.id ∉ c.removes) := by
  induction changes generalizing db with
  | nil => exact .inr ⟨hmem, fun _ h => by cases h⟩
  | cons c changes ih =>
      obtain hnew | ⟨hold, hrest⟩ := ih hmem
      · exact .inl (List.mem_cons_of_mem _ hnew)
      · obtain rfl | ⟨hold, hfirst⟩ := unrevoked_apply hold hrow
        · exact .inl List.mem_cons_self
        · exact .inr ⟨hold, List.forall_mem_cons.2 ⟨hfirst, hrest⟩⟩

/-- A change of sessions. -/
def AccountChange.touchesSessions : AccountChange → Bool
  | .insertSession _ | .revokeSessions .. | .deleteSessions _ => true
  | _ => false

theorem sessions_untouched (h : ∀ c ∈ changes, c.touchesSessions = false) :
    (changes.foldl Accounts.apply db).sessions = db.sessions := by
  induction changes generalizing db with
  | nil => rfl
  | cons c changes ih =>
      rw [List.foldl_cons, ih fun c' hc' => h c' (List.mem_cons_of_mem _ hc')]
      have hc := h c List.mem_cons_self
      cases c <;> first | rfl | cases hc

/-! ### What a statement changes -/

/-- Only statements that touch sessions change them. -/
theorem changes_touch (hc : c ∈ accountChanges pid db choice q)
    (htouches : c.touchesSessions = true) : q.touchesSessions = true := by
  cases q with
  | revokeSessions | deleteExpired | createSession => rfl
  | createUser row email hash =>
      simp only [accountChanges] at hc
      split at hc
      · simp only [List.mem_cons, List.not_mem_nil, or_false] at hc
        obtain rfl | rfl := hc <;> cases htouches
      · cases hc
  | upsertIdentity id suffix identity =>
      simp only [accountChanges] at hc
      split at hc
      · rw [List.mem_singleton.1 hc] at htouches
        cases htouches
      · obtain ⟨_, _, rfl⟩ := List.mem_map.1 hc
        cases htouches
  | updateUser | updateHash | updateEmail =>
      simp only [accountChanges] at hc
      split at hc
      · rw [List.mem_singleton.1 hc] at htouches
        cases htouches
      · cases hc
  | deleteCredentials =>
      rw [List.mem_singleton.1 hc] at htouches
      cases htouches
  | _ => cases hc

/-- A new session is that of the program that creates it. -/
theorem changes_insertSession (h : .insertSession row ∈ accountChanges pid db choice q) :
    row.issuer = some pid ∧ q = .createSession row.id row.userId row.expiresAt := by
  have htouches := changes_touch h rfl
  cases q with
  | createSession id userId expiresAt =>
      simp only [accountChanges] at h
      split at h
      · obtain ⟨⟩ := List.mem_singleton.1 h
        exact ⟨rfl, rfl⟩
      · cases h
  | revokeSessions => cases List.mem_singleton.1 h
  | deleteExpired => cases List.mem_singleton.1 h
  | _ => cases htouches

theorem creates_of_insert (h : .insertSession row ∈ accountChanges pid db choice q) :
    q.creates = some row.userId := by
  rw [(changes_insertSession h).2]
  rfl

/-! ### The invariant -/

/-- The session that a request asks for its user. -/
def performer (calls : List AccountCall) (i : Nat) : Option Uuid :=
  calls[i]?.bind AccountCall.performing

/-- Every program keeps to the rules. -/
def RulesKept (calls : List AccountCall) (s : AccountSystem) : Prop :=
  s.Watched LoginRecord.add LoginRules (fun _ _ => True) fun i => (performer calls i, [])

theorem RulesKept.next (h : RulesKept calls s) {next : AccountAnswer q → Account Unit}
    (hp : s.processes[i]? = some p) (hprogram : p.program = .ask q next) :
    LoginRules (performer calls i, p.exchanges) q :=
  System.Watched.allowed_next h hp hprogram

/-- A program whose transaction is over has ended. -/
theorem RulesKept.finished (h : RulesKept calls s) (hp : s.processes[i]? = some p)
    {x : AccountExchange} (hx : x ∈ p.exchanges) (hends : x.1.ends = true) : Finished p :=
  System.Watched.ended (fun _ _ hrules => hrules.last) h hp hx hends

/-- How a revocation has dealt with a session: it is the one to keep, it is about
    to be revoked, or it came later. -/
def Covered (s : AccountSystem) (r : AccountProcess) (kept : Option Uuid) (row : SessionRow) :
    Prop :=
  kept = some row.id ∨
    (∃ ids time, .revokeSessions ids time ∈ r.pending ∧ row.id ∈ ids) ∨
    (Finished r ∧ ∀ time, (time, (⟨.commit, ()⟩ : AccountExchange)) ∈ r.past →
      IssuedAfter s row time)

structure Revoking (calls : List AccountCall) (s : AccountSystem) : Prop where
  rules : RulesKept calls s
  times : ∀ (i : Nat) (p : AccountProcess), s.processes[i]? = some p → ∀ x ∈ p.past, x.1 < s.time
  inserts : ∀ (i : Nat) (p : AccountProcess), s.processes[i]? = some p →
    ∀ row, .insertSession row ∈ p.pending → row.issuer = some i ∧ LooksUp row.userId p
  touches : ∀ (i : Nat) (p : AccountProcess), s.processes[i]? = some p →
    ∀ c ∈ p.pending, c.touchesSessions = true → ∃ x ∈ p.exchanges, x.1.touchesSessions = true
  settled : ∀ (i : Nat) (p : AccountProcess), s.processes[i]? = some p →
    (⟨.commit, ()⟩ : AccountExchange) ∈ p.exchanges → p.pending = [] ∧
      ∀ x ∈ p.exchanges, ∀ userId, changedUser x = some userId →
        ∃ y ∈ p.exchanges, y.1.revokes = some (userId, performer calls i)
  first : ∀ (i : Nat) (p : AccountProcess), s.processes[i]? = some p → ∀ x ∈ p.past,
    x.2.1.isLookup = true → ∀ y ∈ p.past, y.2.1.isRead = true → x.1 ≤ y.1
  late : ∀ (i j : Nat) (p r : AccountProcess) (userId : Uuid), s.processes[i]? = some p →
    s.processes[j]? = some r → Awaits userId p → Revokes userId r →
    Finished r ∧ ∀ time, (time, (⟨.commit, ()⟩ : AccountExchange)) ∈ r.past → ReadsFrom p time
  covered : ∀ (j : Nat) (r : AccountProcess) (userId : Uuid) (kept : Option Uuid),
    s.processes[j]? = some r → (∃ x ∈ r.exchanges, x.1.revokes = some (userId, kept)) →
    ∀ row ∈ s.db.sessions.rows, row.userId = userId → row.revokedAt = none →
      Covered s r kept row

/-- What the invariant says of a system in which every revocation is over. -/
theorem Revoking.complete (h : Revoking calls s) (now : Int) : RevocationComplete calls s now := by
  intro j call r time userId hcall hr hcommit ⟨x, hx, hchanged⟩ row hrow huser hrevoked _
  have hcommits : (⟨.commit, ()⟩ : AccountExchange) ∈ r.exchanges :=
    List.mem_map.2 ⟨_, hcommit, rfl⟩
  obtain ⟨hpending, hsettled⟩ := h.settled j r hr hcommits
  have hrevokes := hsettled x.2 (List.mem_map_of_mem hx) userId hchanged
  have hperformer : performer calls j = call.performing := by rw [performer, hcall]; rfl
  rw [hperformer] at hrevokes
  obtain hkept | ⟨ids, time', hmem, _⟩ | ⟨_, hlater⟩ :=
    h.covered j r userId _ hr hrevokes row hrow huser hrevoked
  · exact .inl hkept
  · rw [hpending] at hmem
    cases hmem
  · exact .inr (hlater time hcommit)

/-! ### One statement -/

section Step

variable {calls : List AccountCall} {s s' : AccountSystem} {e : Nat × AccountChoice}
  {p p' : AccountProcess} {q : AccountQuery} {next : AccountAnswer q → Account Unit} {userId : Uuid}
  {row : SessionRow} {x : AccountExchange} {kept : Option Uuid} {time i : Nat}
  {login : AccountProcess}

section

variable (hstep : Stepped accountEngine s e p p' q next s')

include hstep

theorem not_finished : ¬ Finished p := by
  rintro ⟨result, hdone⟩
  rw [hstep.program] at hdone
  cases hdone

theorem looksUp_mono (h : LooksUp userId p) : LooksUp userId p' := by
  obtain ⟨x, hx, hlooked⟩ := h
  exact ⟨x, hstep.mem_past_of_mem hx, hlooked⟩

/-- What is read now is read later than anything before. -/
theorem readsFrom_step (h : ReadsFrom p time) (htime : time ≤ s.time) : ReadsFrom p' time := by
  intro x hx hread
  obtain hx | rfl := hstep.mem_past hx
  · exact h x hx hread
  · exact htime

theorem issuedAfter_step (h : IssuedAfter s row time) (htime : time ≤ s.time) :
    IssuedAfter s' row time := by
  obtain ⟨i, r, hissuer, hr, hlooked, hreads⟩ := h
  by_cases hi : i = e.1
  · subst hi
    obtain rfl := Option.some.inj (hstep.process.symm.trans hr)
    exact ⟨e.1, p', hissuer, hstep.self, looksUp_mono hstep hlooked,
      readsFrom_step hstep hreads htime⟩
  · exact ⟨i, r, hissuer, (hstep.other hi).trans hr, hlooked, hreads⟩

end

section

variable (h : Revoking calls s) (hstep : Stepped accountEngine s e p p' q next s')

include h hstep

theorem times_step (i : Nat) (r : AccountProcess) (hr : s'.processes[i]? = some r) :
    ∀ x ∈ r.past, x.1 < s'.time := by
  intro x hx
  rw [hstep.time]
  obtain ⟨rfl, rfl⟩ | ⟨_, hr⟩ := hstep.get hr
  · obtain hx | rfl := hstep.mem_past hx
    · exact Nat.lt_succ_of_lt (h.times e.1 p hstep.process x hx)
    · exact Nat.lt_succ_self _
  · exact Nat.lt_succ_of_lt (h.times i r hr x hx)

theorem looksUp_of_creates (hcreates : q.creates = some userId) : LooksUp userId p := by
  have hrules := h.rules.next hstep.process hstep.program
  cases q with
  | createSession id userId expiresAt =>
      obtain rfl := Option.some.inj hcreates
      obtain ⟨x, hx, hlooked⟩ := hrules.create _ _ _ rfl
      obtain ⟨y, hy, rfl⟩ := List.mem_map.1 hx
      exact ⟨y, hy, hlooked⟩
  | _ => cases hcreates

theorem looksUp_of_insert
    (hnew : .insertSession row ∈ accountChanges e.1 (p.view accountEngine s.db) e.2 q) :
    row.issuer = some e.1 ∧ LooksUp row.userId p :=
  ⟨(changes_insertSession hnew).1, looksUp_of_creates h hstep (creates_of_insert hnew)⟩

theorem inserts_step (i : Nat) (r : AccountProcess) (hr : s'.processes[i]? = some r)
    (row : SessionRow) (hrow : .insertSession row ∈ r.pending) :
    row.issuer = some i ∧ LooksUp row.userId r := by
  obtain ⟨rfl, rfl⟩ | ⟨_, hr⟩ := hstep.get hr
  · have hold : row.issuer = some e.1 ∧ LooksUp row.userId p := by
      obtain hold | hnew := hstep.mem_pending hrow
      · exact h.inserts e.1 p hstep.process row hold
      · exact looksUp_of_insert h hstep hnew
    exact ⟨hold.1, looksUp_mono hstep hold.2⟩
  · exact h.inserts i r hr row hrow

theorem touches_step (i : Nat) (r : AccountProcess) (hr : s'.processes[i]? = some r)
    (c : AccountChange) (hc : c ∈ r.pending) (htouches : c.touchesSessions = true) :
    ∃ x ∈ r.exchanges, x.1.touchesSessions = true := by
  obtain ⟨rfl, rfl⟩ | ⟨_, hr⟩ := hstep.get hr
  · obtain hold | hnew := hstep.mem_pending hc
    · obtain ⟨x, hx, hx'⟩ := h.touches e.1 p hstep.process c hold htouches
      exact ⟨x, hstep.mem_exchanges_of_mem hx, hx'⟩
    · have hq := changes_touch hnew htouches
      exact ⟨_, hstep.mem_exchanges_self, hq⟩
  · exact h.touches i r hr c hc htouches

end

/-- The database after a statement: changes have taken effect, either those that
    waited or those of the statement itself, or it is as it was. -/
theorem stepped_db (hstep : Stepped accountEngine s e p p' q next s') :
    (s'.db = s.db ∧ ∀ c ∈ p.pending, q = .rollback ∨ c ∈ p'.pending) ∨
    (q = .commit ∧ s'.db = p.pending.foldl Accounts.apply s.db) ∨
    (s'.db = (accountChanges e.1 (p.view accountEngine s.db) e.2 q).foldl Accounts.apply
        (p.pending.foldl Accounts.apply s.db) ∧ p'.pending = p.pending ∧
      q ≠ .commit ∧ q ≠ .rollback) := by
  have houtcome := hstep.outcome
  generalize hpending : p'.pending = pending, s'.db = db, s'.locks = locks,
    p'.inside = inside at houtcome ⊢
  cases houtcome with
  | opened => exact .inl ⟨rfl, fun c hc => .inr hc⟩
  | staged => exact .inl ⟨rfl, fun c hc => .inr (List.mem_append_left _ hc)⟩
  | direct kind =>
      exact .inr (.inr ⟨rfl, rfl, (by rintro rfl; cases kind), (by rintro rfl; cases kind)⟩)
  | committed kind => exact .inr (.inl ⟨commit_of_kind kind, rfl⟩)
  | aborted kind => exact .inl ⟨rfl, fun c _ => .inl (rollback_of_kind kind)⟩

theorem settled_step (h : Revoking calls s) (hstep : Stepped accountEngine s e p p' q next s')
    (i : Nat) (r : AccountProcess) (hr : s'.processes[i]? = some r)
    (hcommit : (⟨.commit, ()⟩ : AccountExchange) ∈ r.exchanges) : r.pending = [] ∧
      ∀ x ∈ r.exchanges, ∀ userId, changedUser x = some userId →
        ∃ y ∈ r.exchanges, y.1.revokes = some (userId, performer calls i) := by
  obtain ⟨rfl, rfl⟩ | ⟨_, hr⟩ := hstep.get hr
  · obtain hold | hnew := hstep.mem_exchanges hcommit
    · exact absurd (h.rules.finished hstep.process hold rfl) (not_finished hstep)
    · obtain rfl : AccountQuery.commit = q := congrArg Sigma.fst hnew
      refine ⟨?_, fun x hx userId hchanged => ?_⟩
      · generalize hpending : r.pending = pending
        have houtcome := hstep.outcome
        rw [hpending] at houtcome
        generalize s'.db = db, s'.locks = locks, r.inside = inside at houtcome
        cases houtcome with
        | committed | aborted => rfl
        | opened kind | staged kind | direct kind => cases kind
      · obtain hx | rfl := hstep.mem_exchanges hx
        · obtain ⟨y, hy, hrevokes⟩ :=
            (h.rules.next hstep.process hstep.program).commit rfl x hx userId hchanged
          exact ⟨y, hstep.mem_exchanges_of_mem hy, hrevokes⟩
        · cases hchanged
  · exact h.settled i r hr hcommit

theorem isLookup_of_lookedUp (h : lookedUp x = some userId) : x.1.isLookup = true := by
  obtain ⟨q, a⟩ := x
  cases q with
  | findCredentialByEmail | createUser | upsertIdentity => rfl
  | _ => cases h

/-- A statement that creates a session revokes none. -/
theorem revokes_of_creates (h : q.creates = some userId) : q.revokes = none := by
  cases q with
  | createSession => rfl
  | _ => cases h

theorem awaits_cases (hstep : Stepped accountEngine s e p p' q next s') (h : Awaits userId p') :
    Awaits userId p ∨ q.creates = some userId := by
  obtain ⟨c, hc, huser⟩ := h
  obtain hold | hnew := hstep.mem_pending hc
  · exact .inl ⟨c, hold, huser⟩
  · cases c with
    | insertSession row =>
        obtain rfl := Option.some.inj huser
        exact .inr (creates_of_insert hnew)
    | _ => cases huser

/-- A lookup is the first thing a login reads. -/
theorem first_step (h : Revoking calls s) (hstep : Stepped accountEngine s e p p' q next s')
    (i : Nat) (r : AccountProcess) (hr : s'.processes[i]? = some r) (x : Nat × AccountExchange)
    (hx : x ∈ r.past) (hlookup : x.2.1.isLookup = true) (y : Nat × AccountExchange)
    (hy : y ∈ r.past) (hread : y.2.1.isRead = true) : x.1 ≤ y.1 := by
  obtain ⟨rfl, rfl⟩ | ⟨_, hr⟩ := hstep.get hr
  · obtain hx | rfl := hstep.mem_past hx <;> obtain hy | rfl := hstep.mem_past hy
    · exact h.first e.1 p hstep.process x hx hlookup y hy hread
    · exact Nat.le_of_lt (h.times e.1 p hstep.process x hx)
    · have hfirst := (h.rules.next hstep.process hstep.program).lookup hlookup y.2
        (List.mem_map_of_mem hy)
      rw [hread] at hfirst
      cases hfirst
    · exact Nat.le_refl _
  · exact h.first i r hr x hx hlookup y hy hread

/-- Whose session waits or is created now has not read from before a revocation. -/
theorem issuing_late (h : Revoking calls s) (hoverlap : NoOverlap s e)
    (hstep : Stepped accountEngine s e p p' q next s') {j : Nat} {revoker : AccountProcess}
    (hissuing : Awaits userId p ∨ q.creates = some userId)
    (hrevoker : s.processes[j]? = some revoker) (hrevokes : Revokes userId revoker) :
    Finished revoker ∧ ∀ time, (time, (⟨.commit, ()⟩ : AccountExchange)) ∈ revoker.past →
      ReadsFrom p time := by
  obtain hawaits | hcreates := hissuing
  · exact h.late e.1 j p revoker userId hstep.process hrevoker hawaits hrevokes
  · obtain ⟨hfinished, hbefore⟩ := (hoverlap p q next hstep.process hstep.program revoker
      (List.mem_of_getElem? hrevoker)).1 userId hcreates hrevokes
    refine ⟨hfinished, fun time htime y hy hread => ?_⟩
    obtain ⟨x, hx, hlooked⟩ := looksUp_of_creates h hstep hcreates
    exact (hbefore x hx hlooked _ htime rfl).trans
      (h.first e.1 p hstep.process x hx (isLookup_of_lookedUp hlooked) y hy hread)

theorem late_step (h : Revoking calls s) (hoverlap : NoOverlap s e)
    (hstep : Stepped accountEngine s e p p' q next s') (i j : Nat)
    (login revoker : AccountProcess) (userId : Uuid) (hlogin : s'.processes[i]? = some login)
    (hrevoker : s'.processes[j]? = some revoker) (hawaits : Awaits userId login)
    (hrevokes : Revokes userId revoker) :
    Finished revoker ∧ ∀ time, (time, (⟨.commit, ()⟩ : AccountExchange)) ∈ revoker.past →
      ReadsFrom login time := by
  -- The same for a revocation that was there before this statement.
  have hbefore : ∀ (j : Nat) (r : AccountProcess), s.processes[j]? = some r → Revokes userId r →
      Finished r ∧ ∀ time, (time, (⟨.commit, ()⟩ : AccountExchange)) ∈ r.past →
        ReadsFrom login time := by
    intro j r hr hrevokes
    obtain ⟨rfl, rfl⟩ | ⟨_, hlogin⟩ := hstep.get hlogin
    · refine (issuing_late h hoverlap hstep (awaits_cases hstep hawaits) hr hrevokes).imp_right
        fun hreads time htime => readsFrom_step hstep (hreads time htime) ?_
      exact Nat.le_of_lt (h.times j r hr _ htime)
    · exact h.late i j login r userId hlogin hr hawaits hrevokes
  obtain ⟨rfl, rfl⟩ | ⟨_, hrevoker⟩ := hstep.get hrevoker
  · -- The statement is of the revoker: it is not over, and no session waits while it revokes.
    exfalso
    obtain ⟨x, hx, kept, hkept⟩ := hrevokes
    obtain hx | rfl := hstep.mem_past hx
    · exact not_finished hstep (hbefore e.1 p hstep.process ⟨x, hx, kept, hkept⟩).1
    · have hnone := fun r hr => (hoverlap p q next hstep.process hstep.program r hr).2 _ hkept
      obtain ⟨rfl, rfl⟩ | ⟨_, hlogin⟩ := hstep.get hlogin
      · obtain hold | hcreates := awaits_cases hstep hawaits
        · exact hnone p (List.mem_of_getElem? hstep.process) hold
        · rw [revokes_of_creates hcreates] at hkept
          cases hkept
      · exact hnone login (List.mem_of_getElem? hlogin) hawaits
  · exact hbefore j revoker hrevoker hrevokes

/-- A session that was not there before this statement, or is not revoked by it. -/
theorem unrevoked_step (h : Revoking calls s) (hstep : Stepped accountEngine s e p p' q next s')
    (hrow : row ∈ s'.db.sessions.rows) (hrevoked : row.revokedAt = none) :
    ((row.issuer = some e.1 ∧ LooksUp row.userId p) ∧
      (Awaits row.userId p ∨ q.creates = some row.userId)) ∨ row ∈ s.db.sessions.rows := by
  have hpending : .insertSession row ∈ p.pending → (row.issuer = some e.1 ∧ LooksUp row.userId p) ∧
      (Awaits row.userId p ∨ q.creates = some row.userId) :=
    fun hnew => ⟨h.inserts e.1 p hstep.process row hnew, .inl ⟨_, hnew, rfl⟩⟩
  obtain ⟨hdb, _⟩ | ⟨_, hdb⟩ | ⟨hdb, _⟩ := stepped_db hstep
  · exact .inr (hdb ▸ hrow)
  · rw [hdb] at hrow
    exact (unrevoked_origin hrow hrevoked).imp hpending And.left
  · rw [hdb] at hrow
    obtain hnew | ⟨hold, _⟩ := unrevoked_origin hrow hrevoked
    · exact .inl ⟨looksUp_of_insert h hstep hnew, .inr (creates_of_insert hnew)⟩
    · exact (unrevoked_origin hold hrevoked).imp hpending And.left

/-- A request that revokes sessions of a user creates none. -/
theorem not_issuing (h : Revoking calls s) (hoverlap : NoOverlap s e)
    (hstep : Stepped accountEngine s e p p' q next s') (hx : x ∈ p'.exchanges)
    (hrevokes : x.1.revokes = some (userId, kept)) :
    ¬ (Awaits userId p ∨ q.creates = some userId) := by
  intro hissuing
  obtain hx | rfl := hstep.mem_exchanges hx
  · obtain ⟨y, hy, rfl⟩ := List.mem_map.1 hx
    exact not_finished hstep (issuing_late h hoverlap hstep hissuing hstep.process
      ⟨y, hy, kept, hrevokes⟩).1
  · obtain hawaits | hcreates := hissuing
    · exact (hoverlap p q next hstep.process hstep.program p
        (List.mem_of_getElem? hstep.process)).2 _ hrevokes hawaits
    · rw [revokes_of_creates hcreates] at hrevokes
      cases hrevokes

/-- A revocation is of all sessions of the user that are not revoked, but one. -/
theorem mem_sessionsOf {db : Accounts} (hrow : row ∈ db.sessions.rows)
    (hrevoked : row.revokedAt = none) :
    kept = some row.id ∨ row.id ∈ db.sessionsOf (.user row.userId kept) := by
  by_cases hkept : kept = some row.id
  · exact .inl hkept
  · refine .inr (List.mem_map.2 ⟨row, List.mem_filter.2 ⟨hrow, ?_⟩, rfl⟩)
    cases kept with
    | none => simp [SessionFilter.admits, hrevoked]
    | some id =>
        have hid : row.id ≠ id := fun heq => hkept (congrArg some heq.symm)
        simp [SessionFilter.admits, hrevoked, hid]

theorem revoked_step (h : Revoking calls s) (hstep : Stepped accountEngine s e p p' q next s')
    (hrevokes : q.revokes = some (row.userId, kept)) (hold : row ∈ s.db.sessions.rows)
    (hrow : row ∈ s'.db.sessions.rows) (hrevoked : row.revokedAt = none) :
    kept = some row.id ∨ ∃ ids time, .revokeSessions ids time ∈ p'.pending ∧ row.id ∈ ids := by
  -- No session has been touched before, so the statement sees those of the database.
  have hview : (p.view accountEngine s.db).sessions = s.db.sessions := by
    refine sessions_untouched fun c hc => ?_
    cases htouches : c.touchesSessions with
    | false => rfl
    | true =>
        obtain ⟨x, hx, hx'⟩ := h.touches e.1 p hstep.process c hc htouches
        have hfirst := (h.rules.next hstep.process hstep.program).first _ _ hrevokes x hx
        rw [hx'] at hfirst
        cases hfirst
  cases q with
  | revokeSessions filter time =>
      cases filter with
      | cookie | many | unexpired => cases hrevokes
      | user userId kept' =>
          obtain ⟨rfl, rfl⟩ := Prod.mk.inj (Option.some.inj hrevokes)
          refine (mem_sessionsOf (hview ▸ hold) hrevoked).imp_right fun hid => ?_
          have houtcome := hstep.outcome
          generalize p'.pending = pending, s'.db = db, s'.locks = locks,
            p'.inside = inside at houtcome hrow ⊢
          cases houtcome with
          | staged => exact ⟨_, time, List.mem_append_right _ List.mem_cons_self, hid⟩
          | direct =>
              obtain hnew | ⟨_, hkeeps⟩ := unrevoked_origin hrow hrevoked
              · cases List.mem_singleton.1 hnew
              · exact absurd hid (hkeeps _ List.mem_cons_self)
          | opened kind | committed kind | aborted kind => cases kind
  | _ => cases hrevokes

/-- A revocation that waits to be committed keeps waiting, is committed, or is
    undone at the end of its program. -/
theorem waiting_step (h : Revoking calls s) (hrules : RulesKept calls s')
    (hstep : Stepped accountEngine s e p p' q next s') {ids : List Uuid} {time : Int}
    (hpending : .revokeSessions ids time ∈ p.pending) (hid : row.id ∈ ids)
    (hnone : ¬ Awaits row.userId p) (hrow : row ∈ s'.db.sessions.rows)
    (hrevoked : row.revokedAt = none) : Covered s' p' kept row := by
  obtain ⟨_, hwaits⟩ | ⟨_, hdb⟩ | ⟨_, hsame, _⟩ := stepped_db hstep
  · obtain rfl | hwaits := hwaits _ hpending
    · refine .inr (.inr ⟨hrules.finished hstep.self hstep.mem_exchanges_self rfl,
        fun time' hcommit => ?_⟩)
      obtain hcommit | hcommit := hstep.mem_past hcommit
      · exact absurd (h.rules.finished hstep.process (List.mem_map.2 ⟨_, hcommit, rfl⟩) rfl)
          (not_finished hstep)
      · cases congrArg (fun x => x.2.1) hcommit
    · exact .inr (.inl ⟨ids, time, hwaits, hid⟩)
  · rw [hdb] at hrow
    obtain hnew | ⟨_, hkeeps⟩ := unrevoked_origin hrow hrevoked
    · exact absurd ⟨_, hnew, rfl⟩ hnone
    · exact absurd hid (hkeeps _ hpending)
  · exact .inr (.inl ⟨ids, time, hsame ▸ hpending, hid⟩)

theorem covered_step (h : Revoking calls s) (hoverlap : NoOverlap s e) (hrules : RulesKept calls s')
    (hstep : Stepped accountEngine s e p p' q next s') (j : Nat) (r : AccountProcess)
    (userId : Uuid) (kept : Option Uuid) (hr : s'.processes[j]? = some r)
    (hrevokes : ∃ x ∈ r.exchanges, x.1.revokes = some (userId, kept)) (row : SessionRow)
    (hrow : row ∈ s'.db.sessions.rows) (huser : row.userId = userId)
    (hrevoked : row.revokedAt = none) : Covered s' r kept row := by
  subst huser
  obtain ⟨x, hx, hkept⟩ := hrevokes
  obtain ⟨rfl, rfl⟩ | ⟨_, hr⟩ := hstep.get hr
  · have hnone := not_issuing h hoverlap hstep hx hkept
    obtain ⟨_, hissuing⟩ | hold := unrevoked_step h hstep hrow hrevoked
    · exact absurd hissuing hnone
    · obtain hx | rfl := hstep.mem_exchanges hx
      · obtain hkept | ⟨ids, time, hpending, hid⟩ | ⟨hfinished, _⟩ :=
          h.covered e.1 p _ kept hstep.process ⟨x, hx, hkept⟩ row hold rfl hrevoked
        · exact .inl hkept
        · exact waiting_step h hrules hstep hpending hid (fun hawaits => hnone (.inl hawaits)) hrow
            hrevoked
        · exact absurd hfinished (not_finished hstep)
      · obtain hkept | hpending := revoked_step h hstep hkept hold hrow hrevoked
        · exact .inl hkept
        · exact .inr (.inl hpending)
  · have htimes : ∀ time, (time, (⟨.commit, ()⟩ : AccountExchange)) ∈ r.past → time ≤ s.time :=
      fun time htime => Nat.le_of_lt (h.times j r hr _ htime)
    obtain ⟨⟨hissuer, hlooks⟩, hissuing⟩ | hold := unrevoked_step h hstep hrow hrevoked
    · -- The session comes from a login that began when the others were over.
      obtain ⟨y, hy, rfl⟩ := List.mem_map.1 hx
      obtain ⟨hfinished, hreads⟩ := issuing_late h hoverlap hstep hissuing hr
        ⟨y, hy, kept, hkept⟩
      exact .inr (.inr ⟨hfinished, fun time htime => ⟨e.1, p', hissuer, hstep.self,
        looksUp_mono hstep hlooks, readsFrom_step hstep (hreads time htime) (htimes time htime)⟩⟩)
    · refine (h.covered j r _ kept hr ⟨x, hx, hkept⟩ row hold rfl hrevoked).imp_right fun hcases =>
        hcases.imp_right fun ⟨hfinished, hissued⟩ => ⟨hfinished, fun time htime => ?_⟩
      exact issuedAfter_step hstep (hissued time htime) (htimes time htime)

end Step

theorem revoking_step (h : Revoking calls s) {e : Nat × AccountChoice} (hoverlap : NoOverlap s e) :
    Revoking calls (s.step accountEngine e) := by
  have hrules : RulesKept calls (s.step accountEngine e) := watched_step h.rules e
  obtain hstep | ⟨p, p', q, next, hstep⟩ := step_cases accountEngine s e
  · rwa [hstep]
  · exact ⟨hrules, times_step h hstep, inserts_step h hstep, touches_step h hstep,
      settled_step h hstep, first_step h hstep, late_step h hoverlap hstep, covered_step h hoverlap hrules hstep⟩

/-- Before anything has happened. -/
theorem revoking_init (lib : AccountLibrary) (db : Accounts) (calls : List AccountCall) :
    Revoking calls (accountSystem lib db calls) := by
  have hinit : ∀ (i : Nat) (p : AccountProcess),
      (accountSystem lib db calls).processes[i]? = some p →
      ∃ call, calls[i]? = some call ∧ p = { program := call.program lib } := by
    intro i p hp
    rw [accountSystem, List.getElem?_map, Option.map_eq_some_iff] at hp
    obtain ⟨call, hcall, rfl⟩ := hp
    exact ⟨call, hcall, rfl⟩
  refine ⟨?_, ?_, ?_, ?_, ?_, ?_, ?_, ?_⟩
  · intro i p hp
    obtain ⟨call, hcall, rfl⟩ := hinit i p hp
    have hperformer : performer calls i = call.performing := by rw [performer, hcall]; rfl
    have hwatched := watched_program lib call
    rw [← hperformer] at hwatched
    exact hwatched
  · intro i p hp x hx
    obtain ⟨_, _, rfl⟩ := hinit i p hp
    cases hx
  · intro i p hp row hrow
    obtain ⟨_, _, rfl⟩ := hinit i p hp
    cases hrow
  · intro i p hp c hc
    obtain ⟨_, _, rfl⟩ := hinit i p hp
    cases hc
  · intro i p hp hcommit
    obtain ⟨_, _, rfl⟩ := hinit i p hp
    cases hcommit
  · intro i p hp x hx
    obtain ⟨_, _, rfl⟩ := hinit i p hp
    cases hx
  · intro i j p r userId hp _ hawaits
    obtain ⟨_, _, rfl⟩ := hinit i p hp
    obtain ⟨c, hc, _⟩ := hawaits
    cases hc
  · intro j r userId kept hr hrevokes
    obtain ⟨_, _, rfl⟩ := hinit j r hr
    obtain ⟨x, hx, _⟩ := hrevokes
    cases hx

namespace Sample

def member : UserRow where
  id := owner
  issuer := "arenacore:password"
  subject := "ada@example.org"
  username := "ada"
  displayName := "Ada"
  createdAt := 0

/-- A member with a session. -/
def accounts : Accounts where
  users := Rows.insert {} member
  credentials := Rows.insert {} ⟨owner, "ada@example.org", "old password"⟩
  sessions := Rows.insert {} ⟨execution, owner, 0, 1000, none, none⟩

def accountChoice : AccountChoice where
  now := 0
  fresh := problem
  hash := "new password"

/-- Somebody signs in with a password, and the member changes it. -/
def signIn (password : String) : List AccountCall :=
  [.authenticate none "ada@example.org" password,
    .changePassword execution "old password" "new password"]

/-- The password is changed between the check of the old one and the session. -/
def overlapping : List (Nat × AccountChoice) :=
  (0, accountChoice) :: List.replicate 9 (1, accountChoice) ++
    List.replicate 11 (0, accountChoice)

/-- The password is changed before the other request begins. -/
def inTurn : List (Nat × AccountChoice) :=
  List.replicate 9 (1, accountChoice) ++ List.replicate 12 (0, accountChoice)

end Sample

end ArenaCore
