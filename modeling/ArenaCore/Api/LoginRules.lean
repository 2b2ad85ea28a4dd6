import ArenaCore.Api.Accounts

/-!
# What Logins and Changes of Accounts Keep to

What the programs of `Api.Accounts` have in common, whatever the answers to their
statements: a login looks its user up before it reads anything else and creates
sessions for that user only, and a change of a user is committed together with a
revocation of their sessions. The rules are those of a monitor that records the
exchanges, so what they say of a run is said of its past.

## Main definitions

* `lookedUp`, `changedUser`, `AccountQuery.revokes`: What an exchange is about.
* `LoginRules`: What a program may ask after the exchanges so far.

## Theorems

* `watched_authenticate`, `watched_register`, `watched_issueIdentity`: Logins.
* `watched_changePassword`, `watched_changeEmail`, `watched_deactivate`,
  `watched_restrict`, `watched_setRole`: Changes.
* `watched_program`: Every request keeps to the rules.
-/

namespace ArenaCore

open Dialogue Concurrent Account

variable {q : AccountQuery} {x : AccountExchange} {α : Type} {userId : Uuid} {kept : Option Uuid}
  {P : AccountExchange → Prop} {f : AccountAnswer q → Account α}

abbrev AccountExchange := Exchange AccountQuery AccountAnswer

abbrev AccountProcess := Process AccountChange AccountQuery AccountAnswer ApiError Unit

abbrev AccountSystem :=
  System Accounts AccountChange AccountLock AccountQuery AccountAnswer ApiError Unit

/-! ### Exchanges -/

/-- The user that a login has found or created. -/
def lookedUp : AccountExchange → Option Uuid
  | ⟨.findCredentialByEmail _, credential⟩ => credential.map (·.userId)
  | ⟨.createUser row _ _, collision⟩ => if collision.isNone then some row.id else none
  | ⟨.upsertIdentity _ _ _, user⟩ => user.map (·.id)
  | _ => none

/-- A statement that looks up who logs in. -/
def AccountQuery.isLookup : AccountQuery → Bool
  | .findCredentialByEmail _ | .createUser .. | .upsertIdentity .. => true
  | _ => false

/-- What a login reads: who it is, and whether they are restricted. -/
def AccountQuery.isRead : AccountQuery → Bool
  | .findUser _ => true
  | q => q.isLookup

/-- The user that a statement has restricted, deactivated or given a new
    credential. -/
def changedUser : AccountExchange → Option Uuid
  | ⟨.updateHash userId _, .done⟩ => some userId
  | ⟨.updateEmail userId _, .done⟩ => some userId
  | ⟨.updateUser id (.deactivated ..), .done⟩ => some id
  | ⟨.updateUser id (.restriction bannedAt suspendedUntil _), .done⟩ =>
      if bannedAt.isSome || suspendedUntil.isSome then some id else none
  | _ => none

/-- The user whose sessions a statement revokes, all but one. -/
def AccountQuery.revokes : AccountQuery → Option (Uuid × Option Uuid)
  | .revokeSessions (.user userId kept) _ => some (userId, kept)
  | _ => none

/-- A statement that changes sessions. -/
def AccountQuery.touchesSessions : AccountQuery → Bool
  | .revokeSessions .. | .deleteExpired .. | .createSession .. => true
  | _ => false

def AccountQuery.ends (q : AccountQuery) : Bool :=
  decide (q = .commit) || decide (q = .rollback)

theorem ends_iff : q.ends = true ↔ accountKind q = .commits ∨ accountKind q = .aborts := by
  cases q <;> simp [AccountQuery.ends, accountKind]

/-- No transaction of the program is over. -/
def Open (p : AccountProcess) : Prop :=
  ∀ x ∈ p.exchanges, x.1.ends = false

theorem Open.of_step {s s' : AccountSystem} {e : Nat × AccountChoice} {p p' : AccountProcess}
    {next : AccountAnswer q → Account Unit} (hstep : Stepped accountEngine s e p p' q next s')
    (h : Open p') : Open p :=
  fun x hx => h x (hstep.mem_exchanges_of_mem hx)

/-- A program whose transaction is open is inside of it. -/
theorem Open.inside {s s' : AccountSystem} {e : Nat × AccountChoice} {p p' : AccountProcess}
    {next : AccountAnswer q → Account Unit} (h : Open p')
    (hstep : Stepped accountEngine s e p p' q next s')
    (hinside : Open p → (⟨.transaction, ()⟩ : AccountExchange) ∈ p.exchanges → p.inside = true)
    (htransaction : (⟨.transaction, ()⟩ : AccountExchange) ∈ p'.exchanges) :
    p'.inside = true := by
  have hends : ¬ q.ends = true := Bool.eq_false_iff.1 (h _ hstep.mem_exchanges_self)
  rw [ends_iff, not_or] at hends
  exact hstep.inside_opened rfl htransaction (hinside (h.of_step hstep)) hends.1 hends.2

/-- The session that asks for a change of its own credential. -/
def AccountCall.performing : AccountCall → Option Uuid
  | .changePassword sessionId _ _ | .changeEmail sessionId _ _ => some sessionId
  | _ => none

/-! ### What the programs keep to -/

/-- A session, and the exchanges so far. It is the session that asks for the change
    in `LoginRules`, and the one of the cookie in `SessionRules`. -/
abbrev LoginRecord := Option Uuid × List AccountExchange

def LoginRecord.add (st : LoginRecord) (x : AccountExchange) : LoginRecord :=
  (st.1, st.2 ++ [x])

/-- A transaction is the last thing a program does. A login looks its user up
    before it reads anything else, and creates sessions for that user only.
    Sessions of a user are revoked before any other change of sessions, and a
    change of the user is committed with a revocation. -/
structure LoginRules (st : LoginRecord) (q : AccountQuery) : Prop where
  last : ∀ x ∈ st.2, x.1.ends = false
  lookup : q.isLookup = true → ∀ x ∈ st.2, x.1.isRead = false
  create : ∀ id userId expiresAt, q = .createSession id userId expiresAt →
    ∃ x ∈ st.2, lookedUp x = some userId
  first : ∀ userId kept, q.revokes = some (userId, kept) → ∀ x ∈ st.2, x.1.touchesSessions = false
  commit : q = .commit → ∀ x ∈ st.2, ∀ userId, changedUser x = some userId →
    ∃ y ∈ st.2, y.1.revokes = some (userId, st.1)

abbrev LoginWatched {α : Type} (post : Except ApiError α → LoginRecord → Prop) (p : Account α)
    (st : LoginRecord) : Prop :=
  Watched LoginRecord.add LoginRules post p st

/-- All exchanges so far are of some kind. -/
def LoginRecord.All (P : AccountExchange → Prop) (st : LoginRecord) : Prop :=
  ∀ x ∈ st.2, P x

variable {st : LoginRecord}

theorem LoginRecord.All.add (h : st.All P) (hx : P x) : (st.add x).All P := by
  intro y hy
  obtain hy | hy := List.mem_append.1 hy
  · exact h y hy
  · rw [List.mem_singleton.1 hy]
    exact hx

theorem LoginRecord.All.mono {P' : AccountExchange → Prop} (h : st.All P) (himp : ∀ x, P x → P' x) :
    st.All P' :=
  fun x hx => himp x (h x hx)

variable {post : Except ApiError α → LoginRecord → Prop}

/-- A statement on its own. -/
theorem watched_statement (hq : LoginRules st q) (hf : ∀ a, LoginWatched post (f a) (st.add ⟨q, a⟩)) :
    LoginWatched post (statement q >>= f) st :=
  ⟨hq, hf⟩

/-- The rules for a statement that none of them is about. -/
theorem LoginRules.plain (hlast : st.All fun x => x.1.ends = false) (hlookup : q.isLookup = false)
    (htouches : q.touchesSessions = false) (hends : q.ends = false) : LoginRules st q where
  last := hlast
  lookup h := by rw [hlookup] at h; cases h
  create _ _ _ h := by subst h; cases htouches
  first _ _ h := by
    cases q with
    | revokeSessions => cases htouches
    | _ => cases h
  commit h := by subst h; cases hends

/-- The body of a transaction leaves it open, and what it has done may be
    committed. -/
def Committable {α : Type} (r : Except ApiError α) (st : LoginRecord) : Prop :=
  (st.All fun x => x.1.ends = false) ∧
    ∀ a, r = .ok a → st.All fun x => ∀ userId, changedUser x = some userId →
      ∃ y ∈ st.2, y.1.revokes = some (userId, st.1)

theorem watched_transaction {body : Account α} (hlast : st.All fun x => x.1.ends = false)
    (hbody : LoginWatched Committable body (st.add ⟨.transaction, ()⟩)) :
    LoginWatched (fun _ _ => True) (transaction body) st := by
  refine watched_statement (.plain hlast rfl rfl rfl) fun _ => ?_
  have hattempt : LoginWatched (fun r st => ∃ r', r = .ok r' ∧ Committable r' st) body.attempt
      (st.add ⟨.transaction, ()⟩) :=
    Watched.attempt (hbody.mono fun r st hr => ⟨r, rfl, hr⟩)
  refine hattempt.bind (fun _ _ _ => trivial) fun r st ⟨r', hr, hopen, hcommit⟩ => ?_
  cases hr
  cases r with
  | ok a =>
      exact ⟨⟨hopen, by rintro ⟨⟩, by rintro _ _ _ ⟨⟩, by rintro _ _ ⟨⟩, fun _ => hcommit a rfl⟩,
        fun _ => trivial⟩
  | error e =>
      exact ⟨⟨hopen, by rintro ⟨⟩, by rintro _ _ _ ⟨⟩, by rintro _ _ ⟨⟩, by rintro ⟨⟩⟩,
        fun _ => trivial⟩

/-! ### Logins -/

/-- Nothing is over, and no user has been changed. -/
def Unchanging (x : AccountExchange) : Prop :=
  x.1.ends = false ∧ changedUser x = none

/-- A statement of a login that has looked up a user. -/
structure LoginStatement (userId : Uuid) (q : AccountQuery) : Prop where
  lookup : q.isLookup = false
  unchanging : ∀ a, Unchanging ⟨q, a⟩
  revokes : q.revokes = none
  create : ∀ id userId' expiresAt, q = .createSession id userId' expiresAt → userId' = userId

/-- A statement that changes neither users nor sessions. -/
theorem LoginStatement.plain (hlookup : q.isLookup = false) (htouches : q.touchesSessions = false)
    (hunchanging : ∀ a, Unchanging ⟨q, a⟩) : LoginStatement userId q where
  lookup := hlookup
  unchanging := hunchanging
  revokes := by
    cases q with
    | revokeSessions => cases htouches
    | _ => rfl
  create _ _ _ h := by subst h; cases htouches

theorem asks_statement {P : AccountQuery → Prop} (hq : P q) : (statement q).Asks P :=
  ⟨hq, fun _ => trivial⟩

theorem loginStatement_now (userId : Uuid) : LoginStatement userId .now :=
  .plain rfl rfl fun _ => ⟨rfl, rfl⟩

theorem asks_ensureAllowed (userId : Uuid) (user : UserRow) :
    (ensureAllowed user).Asks (LoginStatement userId) := by
  unfold ensureAllowed
  split
  · trivial
  · split
    · trivial
    · refine (asks_statement (loginStatement_now userId)).bind fun now => ?_
      split
      · exact (asks_statement (loginStatement_now userId)).bind fun _ => trivial
      · trivial

theorem loginStatement_revoke (userId : Uuid) {filter : SessionFilter} (time : Int)
    (hfilter : (AccountQuery.revokeSessions filter time).revokes = none) :
    LoginStatement userId (.revokeSessions filter time) :=
  ⟨rfl, fun _ => ⟨rfl, rfl⟩, hfilter, by rintro _ _ _ ⟨⟩⟩

theorem asks_revokeOld (userId : Uuid) (cookie : Option Uuid) :
    (revokeOld cookie).Asks (LoginStatement userId) := by
  cases cookie with
  | none => trivial
  | some id =>
      exact (asks_statement (loginStatement_now userId)).bind fun time =>
        asks_statement (loginStatement_revoke userId time rfl)

theorem asks_makeRoom (userId : Uuid) : (makeRoom userId).Asks (LoginStatement userId) := by
  refine (asks_statement (loginStatement_now userId)).bind fun _ => ?_
  refine (asks_statement (.plain rfl rfl fun _ => ⟨rfl, rfl⟩)).bind fun active => ?_
  split
  · exact (asks_statement (loginStatement_now userId)).bind fun time =>
      asks_statement (loginStatement_revoke userId time rfl)
  · trivial

theorem asks_persistSession (cookie : Option Uuid) (userId : Uuid) (expiresAt : Int) :
    (persistSession cookie userId expiresAt).Asks (LoginStatement userId) := by
  refine (asks_statement (.plain rfl rfl fun _ => ⟨rfl, rfl⟩)).bind fun _ => ?_
  refine (asks_revokeOld userId cookie).bind fun _ => ?_
  refine (asks_statement (loginStatement_now userId)).bind fun time => ?_
  refine (asks_statement ⟨rfl, fun _ => ⟨rfl, rfl⟩, rfl, by rintro _ _ _ ⟨⟩⟩).bind fun _ => ?_
  refine (asks_makeRoom userId).bind fun _ => ?_
  refine (asks_statement (.plain rfl rfl fun _ => ⟨rfl, rfl⟩)).bind fun id => ?_
  have hcreate : LoginStatement userId (.createSession id userId expiresAt) :=
    ⟨rfl, fun _ => ⟨rfl, rfl⟩, rfl, by rintro _ _ _ ⟨⟩; rfl⟩
  refine (asks_statement hcreate).bind fun created => ?_
  split <;> trivial

/-- A login that has looked up its user. -/
def LoggingIn (userId : Uuid) (st : LoginRecord) : Prop :=
  st.All Unchanging ∧ ∃ x ∈ st.2, lookedUp x = some userId

theorem watched_login {p : Account α} (hasks : p.Asks (LoginStatement userId))
    (hst : LoggingIn userId st) : LoginWatched (fun _ st => LoggingIn userId st) p st := by
  refine Watched.of_asks hasks hst (fun st q hst hq => ?_) fun st q a hst hq => ?_
  · refine ⟨hst.1.mono fun _ hx => hx.1, fun h => ?_, fun id userId' expiresAt h => ?_,
      fun _ _ h => ?_, fun h => ?_⟩
    · rw [hq.lookup] at h
      cases h
    · rw [hq.create id userId' expiresAt h]
      exact hst.2
    · rw [hq.revokes] at h
      cases h
    · subst h
      cases (hq.unchanging ()).1
  · obtain ⟨x, hx, hlooked⟩ := hst.2
    exact ⟨hst.1.add (hq.unchanging a), x, List.mem_append_left _ hx, hlooked⟩

/-- A session is issued in a transaction of its own, to the user that has been
    looked up. -/
theorem LoggingIn.committable (h : LoggingIn userId st) (r : Except ApiError α) :
    Committable r st :=
  ⟨h.1.mono fun _ hx => hx.1, fun _ _ x hx _ hchanged => by
    rw [(h.1 x hx).2] at hchanged
    cases hchanged⟩

theorem LoggingIn.add (h : LoggingIn userId st) (hx : Unchanging x) :
    LoggingIn userId (st.add x) := by
  obtain ⟨y, hy, hlooked⟩ := h.2
  exact ⟨h.1.add hx, y, List.mem_append_left _ hy, hlooked⟩

theorem watched_issueUser (lib : AccountLibrary) (cookie : Option Uuid) (h : LoggingIn userId st) :
    LoginWatched (fun _ _ => True) (issueUser lib cookie userId) st := by
  refine watched_statement (.plain (h.1.mono fun _ hx => hx.1) rfl rfl rfl) fun present => ?_
  have hst : LoggingIn userId (st.add ⟨.now, present⟩) := h.add ⟨rfl, rfl⟩
  refine watched_transaction (hst.1.mono fun _ hx => hx.1) ?_
  refine (watched_login ?_ (hst.add ⟨rfl, rfl⟩)).mono fun r st hst => hst.committable r
  refine (asks_statement (.plain rfl rfl fun _ => ⟨rfl, rfl⟩)).bind fun user => ?_
  match user with
  | none => trivial
  | some ⟨user, hid⟩ =>
      refine (asks_ensureAllowed userId user).bind fun _ => ?_
      rw [hid]
      exact asks_persistSession cookie userId _

/-- A request that has only read its session and the clock. -/
def Blank (x : AccountExchange) : Prop :=
  Unchanging x ∧ x.1.isRead = false ∧ x.1.touchesSessions = false

theorem blank_last (h : st.All Blank) : st.All fun x => x.1.ends = false :=
  h.mono fun _ hx => hx.1.1

/-- A statement that none of the rules is about and that changes no user. -/
theorem watched_blank (h : st.All Blank)
    (hq : (q.isLookup || q.isRead || q.touchesSessions || q.ends) = false)
    (hchanged : ∀ a, changedUser ⟨q, a⟩ = none)
    (hf : ∀ a, (st.add ⟨q, a⟩).All Blank → LoginWatched post (f a) (st.add ⟨q, a⟩)) :
    LoginWatched post (statement q >>= f) st := by
  simp only [Bool.or_eq_false_iff] at hq
  obtain ⟨⟨⟨hlookup, hread⟩, htouches⟩, hends⟩ := hq
  exact watched_statement (.plain (blank_last h) hlookup htouches hends) fun a =>
    hf a (h.add ⟨⟨hends, hchanged a⟩, hread, htouches⟩)

/-- The lookup of a login, its first reading. -/
theorem watched_lookup (h : st.All Blank) (htouches : q.touchesSessions = false)
    (hends : q.ends = false) (hf : ∀ a, LoginWatched post (f a) (st.add ⟨q, a⟩)) :
    LoginWatched post (statement q >>= f) st := by
  refine watched_statement ⟨blank_last h, fun _ x hx => (h x hx).2.1, ?_, ?_, ?_⟩ hf
  · rintro _ _ _ rfl
    cases htouches
  · intro _ _ hrevokes
    cases q with
    | revokeSessions => cases htouches
    | _ => cases hrevokes
  · rintro rfl
    cases hends

/-- A user that the last statement has found. -/
theorem loggingIn_add (h : st.All Blank) (hx : Unchanging x) (hlooked : lookedUp x = some userId) :
    LoggingIn userId (st.add x) :=
  ⟨(h.mono fun _ hx => hx.1).add hx, x, List.mem_append_right _ (List.mem_singleton_self x),
    hlooked⟩

theorem watched_authenticate (lib : AccountLibrary) (cookie : Option Uuid) (email password : String)
    (h : st.All Blank) :
    LoginWatched (fun _ _ => True) (authenticate lib cookie email password) st := by
  unfold authenticate enabled
  split
  · refine watched_lookup h rfl rfl fun credential => ?_
    match credential with
    | none => trivial
    | some credential =>
        dsimp only
        split
        · exact watched_issueUser lib cookie (loggingIn_add h ⟨rfl, rfl⟩ rfl)
        · trivial
  · trivial

theorem watched_register (lib : AccountLibrary) (cookie : Option Uuid)
    (email password displayName username : String) (h : st.All Blank) :
    LoginWatched (fun _ _ => True) (register lib cookie email password displayName username)
      st := by
  unfold register enabled
  split
  · refine watched_blank h rfl (fun _ => rfl) fun hash h => ?_
    refine watched_blank h rfl (fun _ => rfl) fun id h => ?_
    refine watched_blank h rfl (fun _ => rfl) fun time h => ?_
    refine watched_lookup h rfl rfl fun collision => ?_
    match collision with
    | some .username => trivial
    | some .email => trivial
    | none => exact watched_issueUser lib cookie (loggingIn_add h ⟨rfl, rfl⟩ rfl)
  · trivial

theorem watched_issueIdentity (lib : AccountLibrary) (cookie : Option Uuid) (identity : Identity)
    (h : st.All Blank) : LoginWatched (fun _ _ => True) (issueIdentity lib cookie identity) st := by
  refine watched_blank h rfl (fun _ => rfl) fun present h => ?_
  refine watched_transaction (blank_last h) ?_
  have h := h.add (x := ⟨.transaction, ()⟩) ⟨⟨rfl, rfl⟩, rfl, rfl⟩
  refine watched_blank h rfl (fun _ => rfl) fun id h => ?_
  refine watched_blank h rfl (fun _ => rfl) fun suffix h => ?_
  refine watched_lookup h rfl rfl fun user => ?_
  match user with
  | none =>
      exact ⟨(blank_last h).add rfl, fun _ ha => by cases ha⟩
  | some user =>
      refine (watched_login ?_ (loggingIn_add h ⟨rfl, rfl⟩ rfl)).mono
        fun r st hst => hst.committable r
      exact (asks_ensureAllowed user.id user).bind fun _ => asks_persistSession cookie user.id _

/-! ### Changes of an account -/

/-- A statement of a guard. -/
def GuardStatement (q : AccountQuery) : Prop :=
  q = .now ∨ ∃ sessionId, q = .resolve sessionId

theorem GuardStatement.plain (h : GuardStatement q) (hst : st.All Blank) : LoginRules st q := by
  obtain rfl | ⟨_, rfl⟩ := h <;> exact .plain (blank_last hst) rfl rfl rfl

theorem GuardStatement.blank (h : GuardStatement q) (a : AccountAnswer q) : Blank ⟨q, a⟩ := by
  obtain rfl | ⟨_, rfl⟩ := h <;> exact ⟨⟨rfl, rfl⟩, rfl, rfl⟩

theorem guardStatement_now : GuardStatement .now :=
  .inl rfl

theorem asks_resolve (sessionId : Uuid) : (resolve sessionId).Asks GuardStatement := by
  refine (asks_statement (.inr ⟨sessionId, rfl⟩)).bind fun found => ?_
  match found with
  | none => trivial
  | some (session, user) =>
      dsimp only
      split
      · trivial
      · refine (asks_statement guardStatement_now).bind fun _ => ?_
        split
        · trivial
        · split
          · exact (asks_statement guardStatement_now).bind fun _ => trivial
          · trivial

theorem asks_guard (sessionId : Uuid) (allowRestricted requireAdmin : Bool) :
    (guard sessionId allowRestricted requireAdmin).Asks GuardStatement := by
  refine (asks_resolve sessionId).bind fun found => ?_
  obtain ⟨user, restriction⟩ := found
  dsimp only
  split
  · trivial
  · exact (asks_statement guardStatement_now).bind fun _ => trivial
  · split <;> trivial

/-- What follows the guards of a request. -/
theorem watched_guard {sessionId : Uuid} {allowRestricted requireAdmin : Bool}
    {f : UserRow → Account Unit} (h : st.All Blank)
    (hf : ∀ user (st' : LoginRecord), st'.1 = st.1 → st'.All Blank →
      LoginWatched (fun _ _ => True) (f user) st') :
    LoginWatched (fun _ _ => True) (guard sessionId allowRestricted requireAdmin >>= f) st := by
  have hguard : LoginWatched (fun _ st' => st'.1 = st.1 ∧ st'.All Blank)
      (guard sessionId allowRestricted requireAdmin) st :=
    Watched.of_asks (I := fun st' : LoginRecord => st'.1 = st.1 ∧ st'.All Blank)
      (asks_guard sessionId allowRestricted requireAdmin) ⟨rfl, h⟩
      (fun st' q hst hq => hq.plain hst.2) fun st' q a hst hq => ⟨hst.1, hst.2.add (hq.blank a)⟩
  exact hguard.bind (fun _ _ _ => trivial) fun user st' hst => hf user st' hst.1 hst.2

/-- Nothing is over, no session is touched, and only one user is changed. -/
def Changing (userId : Uuid) (x : AccountExchange) : Prop :=
  x.1.ends = false ∧ x.1.touchesSessions = false ∧ ∀ v, changedUser x = some v → v = userId

theorem Blank.changing (h : Blank x) (userId : Uuid) : Changing userId x :=
  ⟨h.1.1, h.2.2, fun v hv => by rw [h.1.2] at hv; cases hv⟩

/-- The sessions of the changed user are revoked. -/
def SessionsRevoked (userId : Uuid) (st : LoginRecord) : Prop :=
  (st.All fun x => x.1.ends = false ∧ ∀ v, changedUser x = some v → v = userId) ∧
    ∃ y ∈ st.2, y.1.revokes = some (userId, st.1)

theorem SessionsRevoked.add (h : SessionsRevoked userId st) (hends : x.1.ends = false)
    (hx : ∀ v, changedUser x = some v → v = userId) : SessionsRevoked userId (st.add x) := by
  obtain ⟨y, hy, hrevokes⟩ := h.2
  exact ⟨h.1.add ⟨hends, hx⟩, y, List.mem_append_left _ hy, hrevokes⟩

theorem SessionsRevoked.committable (h : SessionsRevoked userId st) (r : Except ApiError α) :
    Committable r st :=
  ⟨h.1.mono fun _ hx => hx.1, fun _ _ x hx v hchanged => by
    rw [(h.1 x hx).2 v hchanged]
    exact h.2⟩

theorem rules_revoke {time : Int} (h : st.All (Changing userId)) :
    LoginRules st (.revokeSessions (.user userId kept) time) :=
  ⟨fun x hx => (h x hx).1, by rintro ⟨⟩, by rintro _ _ _ ⟨⟩, fun _ _ _ x hx => (h x hx).2.1,
    by rintro ⟨⟩⟩

theorem sessionsRevoked_add (time : Int) (h : st.All (Changing userId)) (hkept : kept = st.1) :
    SessionsRevoked userId (st.add ⟨.revokeSessions (.user userId kept) time, ()⟩) := by
  refine ⟨(h.mono fun x hx => ⟨hx.1, hx.2.2⟩).add ⟨rfl, by rintro _ ⟨⟩⟩, _,
    List.mem_append_right _ (List.mem_singleton_self _), ?_⟩
  rw [hkept]
  rfl

/-- The end of a change: the clock is read and the sessions are revoked. -/
theorem watched_revoke (h : st.All (Changing userId)) (hkept : kept = st.1) :
    LoginWatched Committable
      (statement .now >>= fun time => statement (.revokeSessions (.user userId kept) time)) st := by
  refine watched_statement (.plain (fun x hx => (h x hx).1) rfl rfl rfl) fun time => ?_
  have h := h.add (x := ⟨.now, time⟩) ⟨rfl, rfl, by rintro _ ⟨⟩⟩
  exact ⟨rules_revoke h, fun _ => (sessionsRevoked_add time h hkept).committable _⟩

theorem committable_error (h : st.All fun x => x.1.ends = false) (e : ApiError) :
    Committable (.error e : Except ApiError Unit) st :=
  ⟨h, fun _ ha => by cases ha⟩

theorem watched_changePassword (lib : AccountLibrary) (userId sessionId : Uuid)
    (currentPassword newPassword : String) (h : st.All Blank) (hkept : st.1 = some sessionId) :
    LoginWatched (fun _ _ => True)
      (changePassword lib userId sessionId currentPassword newPassword) st := by
  refine watched_blank h rfl (fun _ => rfl) fun credential h => ?_
  match credential with
  | none => trivial
  | some ⟨credential, hid⟩ =>
      dsimp only
      split
      · refine watched_blank h rfl (fun _ => rfl) fun hash h => ?_
        refine watched_transaction (blank_last h) ?_
        have h := h.add (x := ⟨.transaction, ()⟩) ⟨⟨rfl, rfl⟩, rfl, rfl⟩
        refine watched_statement (.plain (blank_last h) rfl rfl rfl) fun written => ?_
        cases written with
        | missing | conflict => exact committable_error ((blank_last h).add rfl) _
        | done =>
            refine watched_revoke ((h.mono fun _ hx => hx.changing userId).add ?_) hkept.symm
            exact ⟨rfl, rfl, fun v hv => (Option.some.inj hv).symm.trans hid⟩
      · trivial

theorem watched_changeEmail (lib : AccountLibrary) (userId sessionId : Uuid)
    (currentPassword newEmail : String) (h : st.All Blank) (hkept : st.1 = some sessionId) :
    LoginWatched (fun _ _ => True) (changeEmail lib userId sessionId currentPassword newEmail)
      st := by
  refine watched_blank h rfl (fun _ => rfl) fun credential h => ?_
  match credential with
  | none => trivial
  | some ⟨credential, hid⟩ =>
      dsimp only
      split
      · split
        · trivial
        · refine watched_transaction (blank_last h) ?_
          have h := h.add (x := ⟨.transaction, ()⟩) ⟨⟨rfl, rfl⟩, rfl, rfl⟩
          refine watched_statement (.plain (blank_last h) rfl rfl rfl) fun written => ?_
          cases written with
          | missing | conflict => exact committable_error ((blank_last h).add rfl) _
          | done =>
              have h := (h.mono fun _ hx => hx.changing userId).add
                (x := ⟨.updateEmail credential.userId (lib.toLowerCase (lib.trim newEmail)), .done⟩)
                ⟨rfl, rfl, fun v hv => (Option.some.inj hv).symm.trans hid⟩
              refine watched_statement (.plain (fun x hx => (h x hx).1) rfl rfl rfl)
                fun written => ?_
              have h := h.add (x := ⟨.updateUser userId
                (.subject (lib.toLowerCase (lib.trim newEmail))), written⟩)
                ⟨rfl, rfl, by rintro _ ⟨⟩⟩
              cases written with
              | missing | conflict => exact committable_error (fun x hx => (h x hx).1) _
              | done => exact watched_revoke h hkept.symm
      · trivial

theorem watched_deactivate (lib : AccountLibrary) (userId : Uuid) (currentPassword : Option String)
    (h : st.All Blank) (hkept : st.1 = none) :
    LoginWatched (fun _ _ => True) (deactivate lib userId currentPassword) st := by
  refine watched_blank h rfl (fun _ => rfl) fun credential h => ?_
  split
  · refine watched_blank h rfl (fun _ => rfl) fun suffix h => ?_
    refine watched_transaction (blank_last h) ?_
    have h := h.add (x := ⟨.transaction, ()⟩) ⟨⟨rfl, rfl⟩, rfl, rfl⟩
    refine watched_blank h rfl (fun _ => rfl) fun time h => ?_
    have h := h.mono fun _ hx => hx.changing userId
    -- The sessions are revoked first, and the user is changed last.
    refine watched_statement (rules_revoke h) fun _ => ?_
    have h := sessionsRevoked_add time h hkept.symm
    refine watched_statement (.plain (h.1.mono fun _ hx => hx.1) rfl rfl rfl) fun _ => ?_
    have h := h.add (x := ⟨.deleteCredentials userId, ()⟩) rfl (by rintro _ ⟨⟩)
    refine watched_statement (.plain (h.1.mono fun _ hx => hx.1) rfl rfl rfl) fun time => ?_
    have h := h.add (x := ⟨.now, time⟩) rfl (by rintro _ ⟨⟩)
    refine watched_statement (.plain (h.1.mono fun _ hx => hx.1) rfl rfl rfl) fun written => ?_
    cases written with
    | missing | conflict => exact (h.add rfl (by rintro _ ⟨⟩)).committable _
    | done =>
        refine (h.add rfl ?_).committable _
        intro v hv
        exact (Option.some.inj hv).symm
  · trivial

/-- The columns that are written either clear the restriction or impose one. -/
theorem restriction_data {input : RestrictionInput} {now : Int} {data : UserChange}
    (h : input.data now = .ok data) : ∃ bannedAt suspendedUntil reason,
      data = .restriction bannedAt suspendedUntil reason ∧
      (input = .clear → bannedAt = none ∧ suspendedUntil = none) := by
  cases input with
  | ban reason =>
      cases h
      exact ⟨_, _, _, rfl, by rintro ⟨⟩⟩
  | suspend time reason =>
      simp only [RestrictionInput.data] at h
      split at h
      · cases h
      · cases h
        exact ⟨_, _, _, rfl, by rintro ⟨⟩⟩
  | clear =>
      cases h
      exact ⟨_, _, _, rfl, fun _ => ⟨rfl, rfl⟩⟩

theorem changedUser_restriction {v : Uuid} {bannedAt suspendedUntil : Option Int}
    {reason : Option String} {written : Written}
    (h : changedUser ⟨.updateUser userId (.restriction bannedAt suspendedUntil reason), written⟩ =
      some v) : v = userId ∧ (bannedAt = none → suspendedUntil = none → False) := by
  cases written with
  | missing | conflict => cases h
  | done =>
      simp only [changedUser] at h
      split at h
      · next hsome =>
          refine ⟨(Option.some.inj h).symm, ?_⟩
          rintro rfl rfl
          cases hsome
      · cases h

theorem committable_unchanging (h : st.All Unchanging) (r : Except ApiError α) : Committable r st :=
  ⟨h.mono fun _ hx => hx.1, fun _ _ x hx _ hchanged => by
    rw [(h x hx).2] at hchanged
    cases hchanged⟩

theorem watched_restrict (actorId userId : Uuid) (input : RestrictionInput) (h : st.All Blank)
    (hkept : st.1 = none) : LoginWatched (fun _ _ => True) (restrict actorId userId input) st := by
  unfold restrict
  split
  · trivial
  · refine watched_statement (.plain (blank_last h) rfl rfl rfl) fun user => ?_
    have h : (st.add ⟨.findUser userId, user⟩).All
        fun x => Unchanging x ∧ x.1.touchesSessions = false :=
      (h.mono fun _ hx => ⟨hx.1, hx.2.2⟩).add ⟨⟨rfl, rfl⟩, rfl⟩
    match user with
    | none => trivial
    | some ⟨user, _⟩ =>
        dsimp only
        split
        · trivial
        · refine watched_statement (.plain (fun x hx => (h x hx).1.1) rfl rfl rfl) fun now => ?_
          have h := h.add (x := ⟨.now, now⟩) ⟨⟨rfl, rfl⟩, rfl⟩
          cases hdata : input.data now with
          | error e => trivial
          | ok data =>
              obtain ⟨bannedAt, suspendedUntil, reason, rfl, hclear⟩ := restriction_data hdata
              refine watched_transaction (fun x hx => (h x hx).1.1) ?_
              have h := h.add (x := ⟨.transaction, ()⟩) ⟨⟨rfl, rfl⟩, rfl⟩
              refine watched_statement (.plain (fun x hx => (h x hx).1.1) rfl rfl rfl)
                fun written => ?_
              cases written with
              | missing | conflict =>
                  exact committable_error ((h.mono fun _ hx => hx.1.1).add rfl) _
              | done =>
                  change LoginWatched Committable (if input = .clear then pure ()
                    else statement (.revokeSessions (.user userId none) now)) _
                  split
                  · next heq =>
                      obtain ⟨rfl, rfl⟩ := hclear heq
                      exact committable_unchanging ((h.mono fun _ hx => hx.1).add ⟨rfl, rfl⟩) _
                  · have h := (h.mono fun x hx => (⟨hx.1.1, hx.2, fun v hv => by
                        rw [hx.1.2] at hv; cases hv⟩ : Changing userId x)).add
                      (x := ⟨.updateUser userId
                        (.restriction bannedAt suspendedUntil reason), .done⟩)
                      ⟨rfl, rfl, fun v hv => (changedUser_restriction hv).1⟩
                    exact ⟨rules_revoke h, fun _ =>
                      (sessionsRevoked_add now h hkept.symm).committable _⟩

theorem watched_ensureAdminRemains (current role : Role) (h : st.All Unchanging) :
    LoginWatched (fun _ st => st.All Unchanging) (ensureAdminRemains current role) st := by
  unfold ensureAdminRemains
  split
  · refine watched_statement (.plain (h.mono fun _ hx => hx.1) rfl rfl rfl) fun _ => ?_
    have h := h.add (x := ⟨.lockAdmins, ()⟩) ⟨rfl, rfl⟩
    refine watched_statement (.plain (h.mono fun _ hx => hx.1) rfl rfl rfl) fun count => ?_
    have h := h.add (x := ⟨.countAdmins, count⟩) ⟨rfl, rfl⟩
    split <;> exact h
  · exact h

theorem watched_setRole (actorId userId : Uuid) (role : Role) (h : st.All Blank) :
    LoginWatched (fun _ _ => True) (setRole actorId userId role) st := by
  unfold setRole
  split
  · trivial
  · refine watched_statement (.plain (blank_last h) rfl rfl rfl) fun user => ?_
    have h : (st.add ⟨.findUser userId, user⟩).All Unchanging :=
      (h.mono fun _ hx => hx.1).add ⟨rfl, rfl⟩
    match user with
    | none => trivial
    | some ⟨user, _⟩ =>
        dsimp only
        split
        · trivial
        · refine watched_transaction (h.mono fun _ hx => hx.1) ?_
          refine (watched_ensureAdminRemains user.role role (h.add ⟨rfl, rfl⟩)).bind
            (fun e st h => committable_unchanging h _) fun _ st h => ?_
          refine watched_statement (.plain (h.mono fun _ hx => hx.1) rfl rfl rfl)
            fun written => ?_
          have h := h.add (x := ⟨.updateUser userId (.role role), written⟩) ⟨rfl, rfl⟩
          cases written <;> exact committable_unchanging h _

/-- Every request keeps to the rules. -/
theorem watched_program (lib : AccountLibrary) (call : AccountCall) :
    LoginWatched (fun _ _ => True) (call.program lib) (call.performing, []) := by
  have hblank : LoginRecord.All Blank (call.performing, []) := fun x hx => by cases hx
  cases call with
  | authenticate cookie email password =>
      exact watched_authenticate lib cookie email password hblank
  | register cookie email password displayName username =>
      exact watched_register lib cookie email password displayName username hblank
  | issueIdentity cookie identity => exact watched_issueIdentity lib cookie identity hblank
  | changePassword sessionId current new =>
      exact watched_guard hblank fun user st hst h =>
        watched_changePassword lib user.id sessionId current new h hst
  | changeEmail sessionId current new =>
      exact watched_guard hblank fun user st hst h =>
        watched_changeEmail lib user.id sessionId current new h hst
  | deactivate sessionId current =>
      exact watched_guard hblank fun user st hst h => watched_deactivate lib user.id current h hst
  | setRole sessionId userId role =>
      exact watched_guard hblank fun user st _ h => watched_setRole user.id userId role h
  | restrict sessionId userId input =>
      exact watched_guard hblank fun user st hst h => watched_restrict user.id userId input h hst

end ArenaCore
