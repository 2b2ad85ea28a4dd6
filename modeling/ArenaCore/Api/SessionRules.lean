import ArenaCore.Api.LoginRules

/-!
# What Programs Keep to about Sessions

The requests that revoke sessions and nothing else (`logout`, `revokeSession`,
`revokeOtherSessions`), and the rules that all requests keep to. A login locks its
user, revokes the session of its cookie, counts the sessions under the lock, revokes
those beyond the nine newest, and creates one as the last change of sessions. No
other request counts or creates sessions, and all of them change sessions in
transactions only.

## Main definitions

* `logout`, `revokeSession`, `revokeOtherSessions`: Revocations on request.
* `SessionCall`: A request of any kind.
* `SessionRules`: What a request may ask after the exchanges so far.
* `SessionHistory`: What that means for its exchanges.

## Theorems

* `session_program`: Every request keeps to the rules.
-/

namespace ArenaCore

open Dialogue Concurrent Account

/-! ### Revocations on request -/

/-- An update of a session by its key fails if the session is gone. Its row is locked
    by then, so the answer is that of the update. -/
def updateSession (sessionId : Uuid) : Account Unit := do
  let time ← statement .now
  statement (.revokeSessions (.many [sessionId]) time)
  let found ← statement (.resolve sessionId)
  if found.isNone then .raise internalError else pure ()

def logout (sessionId : Uuid) : Account Unit :=
  transaction (updateSession sessionId)

def activeSessionNotFound : ApiError :=
  ⟨404, "NOT_FOUND", "Active session not found.", none⟩

def revokeSession (userId sessionId : Uuid) : Account Unit := do
  let found ← statement (.resolve sessionId)
  match found with
  | none => .raise activeSessionNotFound
  | some (session, _) =>
      if session.userId = userId ∧ session.revokedAt = none then
        transaction (updateSession sessionId)
      else .raise activeSessionNotFound

def revokeOtherSessions (userId currentSessionId : Uuid) : Account Unit :=
  transaction do
    let time ← statement .now
    let revokedAt ← statement .now
    statement (.revokeSessions (.unexpired userId currentSessionId time) revokedAt)

inductive SessionCall where
  | account (call : AccountCall)
  | logout (sessionId : Uuid)
  | revokeSession (currentSessionId sessionId : Uuid)
  | revokeOtherSessions (currentSessionId : Uuid)

def SessionCall.program (lib : AccountLibrary) : SessionCall → Account Unit
  | .account call => call.program lib
  | .logout sessionId => do
      let _ ← guard sessionId true false
      ArenaCore.logout sessionId
  | .revokeSession currentSessionId sessionId => do
      let user ← guard currentSessionId false false
      ArenaCore.revokeSession user.id sessionId
  | .revokeOtherSessions currentSessionId => do
      let user ← guard currentSessionId false false
      ArenaCore.revokeOtherSessions user.id currentSessionId

/-- The session whose cookie a login presents. -/
def AccountCall.cookie : AccountCall → Option Uuid
  | .authenticate cookie _ _ | .register cookie _ _ _ _ | .issueIdentity cookie _ => cookie
  | _ => none

def SessionCall.cookie : SessionCall → Option Uuid
  | .account call => call.cookie
  | _ => none

/-- Requests that have not begun. -/
def sessionSystem (lib : AccountLibrary) (db : Accounts) (calls : List SessionCall) :
    AccountSystem where
  db := db
  processes := calls.map fun call => { program := call.program lib }

/-! ### The rules -/

def AccountQuery.findsActive : AccountQuery → Bool
  | .findActive .. => true
  | _ => false

def AccountQuery.createsSession : AccountQuery → Bool
  | .createSession .. => true
  | _ => false

/-- A statement that only a login makes, from the lock on. -/
def AccountQuery.issues : AccountQuery → Bool
  | .lockUser _ | .deleteExpired .. | .findActive .. | .createSession .. => true
  | _ => false

/-- A request is recorded with the session of its cookie. The last statement is the
    end of a transaction. Sessions are changed in it. A login counts once, under the
    lock and at a time that it has read, and revokes the sessions beyond the nine
    newest. It creates a session when that is done, and then changes no more. It
    commits when the session of the cookie is revoked. -/
structure SessionRules (st : LoginRecord) (q : AccountQuery) : Prop where
  last : ∀ x ∈ st.2, x.1.ends = false
  inside : q.issues = true ∨ q.touchesSessions = true →
    (⟨.transaction, ()⟩ : AccountExchange) ∈ st.2
  lock : ∀ userId, q = .lockUser userId → ∀ x ∈ st.2, x.1.touchesSessions = false
  count : ∀ userId time, q = .findActive userId time →
    (⟨.lockUser userId, ()⟩ : AccountExchange) ∈ st.2 ∧
      (⟨.now, time⟩ : AccountExchange) ∈ st.2 ∧ ∀ x ∈ st.2, x.1.findsActive = false
  trim : ∀ ids time, q = .revokeSessions (.many ids) time → (∃ x ∈ st.2, x.1.issues = true) →
    ∃ userId time' active, (⟨.findActive userId time', active⟩ : AccountExchange) ∈ st.2 ∧
      10 ≤ active.length ∧ ids = active.drop 9
  create : ∀ id userId expiresAt, q = .createSession id userId expiresAt → ∃ time active,
    (⟨.findActive userId time, active⟩ : AccountExchange) ∈ st.2 ∧ (10 ≤ active.length →
      ∃ time', (⟨.revokeSessions (.many (active.drop 9)) time', ()⟩ : AccountExchange) ∈ st.2)
  once : q.touchesSessions = true → ∀ x ∈ st.2, x.1.createsSession = false
  cookie : q = .commit → ∀ id ∈ st.1, ∃ time,
    (⟨.revokeSessions (.cookie id) time, ()⟩ : AccountExchange) ∈ st.2

abbrev SessionWatched {α : Type} (post : Except ApiError α → LoginRecord → Prop) (p : Account α)
    (st : LoginRecord) : Prop :=
  Watched LoginRecord.add SessionRules post p st

variable {st : LoginRecord} {q : AccountQuery} {x : AccountExchange} {inside : Bool} {α : Type}

theorem LoginRecord.mem_add {x y : AccountExchange} : y ∈ (st.add x).2 ↔ y ∈ st.2 ∨ y = x := by
  rw [LoginRecord.add, List.mem_append, List.mem_singleton]

theorem session_statement {post : Except ApiError α → LoginRecord → Prop}
    {f : AccountAnswer q → Account α} (hq : SessionRules st q)
    (hf : ∀ a, SessionWatched post (f a) (st.add ⟨q, a⟩)) :
    SessionWatched post (statement q >>= f) st :=
  ⟨hq, hf⟩

/-- The rules for a statement that does not change sessions and is none of a login. -/
theorem SessionRules.quiet (hlast : st.All fun x => x.1.ends = false) (hissues : q.issues = false)
    (htouches : q.touchesSessions = false)
    (hcommit : q = .commit → ∀ id ∈ st.1, ∃ time,
      (⟨.revokeSessions (.cookie id) time, ()⟩ : AccountExchange) ∈ st.2) :
    SessionRules st q where
  last := hlast
  inside h := by
    rw [hissues, htouches] at h
    simp at h
  lock _ h := by subst h; cases hissues
  count _ _ h := by subst h; cases hissues
  trim _ _ h := by subst h; cases htouches
  create _ _ _ h := by subst h; cases hissues
  once h := by rw [htouches] at h; cases h
  cookie := hcommit

theorem SessionRules.plain (hlast : st.All fun x => x.1.ends = false) (hissues : q.issues = false)
    (htouches : q.touchesSessions = false) (hends : q.ends = false) : SessionRules st q :=
  .quiet hlast hissues htouches fun h => by subst h; cases hends

/-- No transaction is over, and no login is at its lock. -/
def Idle (x : AccountExchange) : Prop :=
  x.1.ends = false ∧ x.1.issues = false

theorem Idle.last (h : st.All Idle) : st.All fun x => x.1.ends = false :=
  h.mono fun _ hx => hx.1

theorem AccountQuery.of_not_issues (h : q.issues = false) :
    q.findsActive = false ∧ q.createsSession = false := by
  cases q <;> first | exact ⟨rfl, rfl⟩ | cases h

/-- The rules for a revocation that is none of a login. -/
theorem SessionRules.revoke {filter : SessionFilter} {time : Int} (h : st.All Idle)
    (hinside : (⟨.transaction, ()⟩ : AccountExchange) ∈ st.2) :
    SessionRules st (.revokeSessions filter time) where
  last := Idle.last h
  inside _ := hinside
  lock _ h := by cases h
  count _ _ h := by cases h
  trim _ _ _ := fun ⟨x, hx, hissues⟩ => by rw [(h x hx).2] at hissues; cases hissues
  create _ _ _ h := by cases h
  once _ x hx := (AccountQuery.of_not_issues (h x hx).2).2
  cookie h := by cases h

/-- The body of a transaction leaves it open, and the session of the cookie is revoked
    if it succeeds. -/
def Ready {α : Type} (r : Except ApiError α) (st : LoginRecord) : Prop :=
  (st.All fun x => x.1.ends = false) ∧ ∀ a, r = .ok a → ∀ id ∈ st.1, ∃ time,
    (⟨.revokeSessions (.cookie id) time, ()⟩ : AccountExchange) ∈ st.2

theorem session_transaction {body : Account α} (hlast : st.All fun x => x.1.ends = false)
    (hbody : SessionWatched Ready body (st.add ⟨.transaction, ()⟩)) :
    SessionWatched (fun _ _ => True) (transaction body) st := by
  refine session_statement (.plain hlast rfl rfl rfl) fun _ => ?_
  have hattempt : SessionWatched (fun r st => ∃ r', r = .ok r' ∧ Ready r' st) body.attempt
      (st.add ⟨.transaction, ()⟩) :=
    Watched.attempt (hbody.mono fun r st hr => ⟨r, rfl, hr⟩)
  refine hattempt.bind (fun _ _ _ => trivial) fun r st ⟨r', hr, hopen, hcookie⟩ => ?_
  cases hr
  cases r with
  | ok a => exact ⟨.quiet hopen rfl rfl fun _ => hcookie a rfl, fun _ => trivial⟩
  | error e => exact ⟨.quiet hopen rfl rfl (by rintro ⟨⟩), fun _ => trivial⟩

/-! ### Requests that are no logins -/

/-- A statement of these requests, outside of their transactions or within. -/
def Ordinary (inside : Bool) (q : AccountQuery) : Prop :=
  q.issues = false ∧ q.ends = false ∧ (q.touchesSessions = true → inside = true ∧
    ∃ filter time, q = .revokeSessions filter time)

theorem ordinary_plain (hissues : q.issues = false) (hends : q.ends = false)
    (htouches : q.touchesSessions = false) : Ordinary inside q :=
  ⟨hissues, hends, fun h => by rw [htouches] at h; cases h⟩

theorem ordinary_revoke (filter : SessionFilter) (time : Int) :
    Ordinary true (.revokeSessions filter time) :=
  ⟨rfl, rfl, fun _ => ⟨rfl, filter, time, rfl⟩⟩

theorem asks_plain (hissues : q.issues = false) (hends : q.ends = false)
    (htouches : q.touchesSessions = false) : (statement q).Asks (Ordinary inside) :=
  asks_statement (ordinary_plain hissues hends htouches)

theorem asks_now : (statement .now).Asks (Ordinary inside) :=
  asks_plain rfl rfl rfl

/-- Before the lock of a login. Outside of the transactions above no session has been
    changed either. -/
structure Waiting (inside : Bool) (st : LoginRecord) : Prop where
  idle : st.All Idle
  opened : inside = true → (⟨.transaction, ()⟩ : AccountExchange) ∈ st.2
  untouched : inside = false → st.All fun x => x.1.touchesSessions = false

theorem Waiting.last (h : Waiting inside st) : st.All fun x => x.1.ends = false :=
  h.idle.mono fun _ hx => hx.1

theorem Waiting.add (h : Waiting inside st) (hx : Ordinary inside x.1) :
    Waiting inside (st.add x) where
  idle := h.idle.add ⟨hx.2.1, hx.1⟩
  opened hinside := LoginRecord.mem_add.2 (.inl (h.opened hinside))
  untouched hinside := (h.untouched hinside).add (by
    cases htouches : x.1.touchesSessions with
    | false => rfl
    | true => rw [(hx.2.2 htouches).1] at hinside; cases hinside)

theorem Waiting.rules (h : Waiting inside st) (hq : Ordinary inside q) : SessionRules st q := by
  obtain ⟨hissues, hends, htouches⟩ := hq
  cases htouch : q.touchesSessions with
  | false => exact .plain h.last hissues htouch hends
  | true =>
      obtain ⟨hinside, filter, time, rfl⟩ := htouches htouch
      exact .revoke h.idle (h.opened hinside)

theorem session_ordinary {p : Account α} (hasks : p.Asks (Ordinary inside))
    (h : Waiting inside st) :
    SessionWatched (fun _ st' => Waiting inside st' ∧ st'.1 = st.1 ∧ ∀ x ∈ st.2, x ∈ st'.2)
      p st := by
  refine Watched.of_asks (I := fun st' : LoginRecord => Waiting inside st' ∧ st'.1 = st.1 ∧
    ∀ x ∈ st.2, x ∈ st'.2) hasks ⟨h, rfl, fun _ hx => hx⟩ (fun st' q hst hq => hst.1.rules hq)
    fun st' q a hst hq => ⟨hst.1.add hq, hst.2.1, fun x hx => ?_⟩
  exact LoginRecord.mem_add.2 (.inl (hst.2.2 x hx))

/-- A transaction of a request without a cookie. -/
theorem session_change {body : Account Unit} (hasks : body.Asks (Ordinary true))
    (h : Waiting false st) (hcookie : st.1 = none) :
    SessionWatched (fun _ _ => True) (transaction body) st := by
  have hinside : Waiting true (st.add ⟨.transaction, ()⟩) :=
    ⟨h.idle.add ⟨rfl, rfl⟩, fun _ => LoginRecord.mem_add.2 (.inr rfl), (by rintro ⟨⟩)⟩
  refine session_transaction h.last ((session_ordinary hasks hinside).mono ?_)
  rintro r st' ⟨hst, hsame, -⟩
  refine ⟨hst.last, fun _ _ id hid => ?_⟩
  rw [hsame, LoginRecord.add, hcookie] at hid
  cases hid

/-- What comes before a transaction. -/
theorem session_before {α β : Type} {p : Account α} {f : α → Account β}
    (hasks : p.Asks (Ordinary false)) (h : Waiting false st)
    (hf : ∀ a st', Waiting false st' → st'.1 = st.1 → SessionWatched (fun _ _ => True) (f a) st') :
    SessionWatched (fun _ _ => True) (p >>= f) st :=
  (session_ordinary hasks h).bind (fun _ _ _ => trivial) fun a st' hst => hf a st' hst.1 hst.2.1

theorem asks_written (conflict : ApiError) (written : Written) :
    (Account.written conflict written).Asks (Ordinary inside) := by
  cases written <;> trivial

theorem ordinary_guard (sessionId : Uuid) (allowRestricted requireAdmin : Bool) :
    (guard sessionId allowRestricted requireAdmin).Asks (Ordinary false) :=
  (asks_guard sessionId allowRestricted requireAdmin).mono fun q hq => by
    obtain rfl | ⟨_, rfl⟩ := hq <;> exact ordinary_plain rfl rfl rfl

theorem session_updateSession (sessionId : Uuid) :
    (updateSession sessionId).Asks (Ordinary true) := by
  refine asks_now.bind fun time => ?_
  refine (asks_statement (ordinary_revoke _ time)).bind fun _ => ?_
  refine (asks_plain rfl rfl rfl).bind fun found => ?_
  split <;> trivial

theorem session_changePassword (lib : AccountLibrary) (userId sessionId : Uuid)
    (currentPassword newPassword : String) (h : Waiting false st) (hcookie : st.1 = none) :
    SessionWatched (fun _ _ => True)
      (changePassword lib userId sessionId currentPassword newPassword) st := by
  refine session_before (asks_plain rfl rfl rfl) h
    fun credential st' hst hsame => ?_
  match credential with
  | none => trivial
  | some ⟨credential, _⟩ =>
      dsimp only
      split
      · refine session_before (asks_plain rfl rfl rfl) hst
          fun hash st'' hst hsame' => session_change ?_ hst (by rw [hsame', hsame, hcookie])
        refine (asks_plain rfl rfl rfl).bind fun written => ?_
        refine (asks_written internalError written).bind fun _ => ?_
        exact asks_now.bind fun time =>
          asks_statement (ordinary_revoke _ time)
      · trivial

theorem session_changeEmail (lib : AccountLibrary) (userId sessionId : Uuid)
    (currentPassword newEmail : String) (h : Waiting false st) (hcookie : st.1 = none) :
    SessionWatched (fun _ _ => True)
      (changeEmail lib userId sessionId currentPassword newEmail) st := by
  refine session_before (asks_plain rfl rfl rfl) h
    fun credential st' hst hsame => ?_
  match credential with
  | none => trivial
  | some ⟨credential, _⟩ =>
      dsimp only
      split
      · split
        · trivial
        · refine session_change ?_ hst (hsame.trans hcookie)
          refine (asks_plain rfl rfl rfl).bind fun written => ?_
          refine (asks_written emailTakenError written).bind fun _ => ?_
          refine (asks_plain rfl rfl rfl).bind fun written => ?_
          refine (asks_written emailTakenError written).bind fun _ => ?_
          exact asks_now.bind fun time =>
            asks_statement (ordinary_revoke _ time)
      · trivial

theorem session_deactivate (lib : AccountLibrary) (userId : Uuid) (currentPassword : Option String)
    (h : Waiting false st) (hcookie : st.1 = none) :
    SessionWatched (fun _ _ => True) (deactivate lib userId currentPassword) st := by
  refine session_before (asks_plain rfl rfl rfl) h
    fun credential st' hst hsame => ?_
  split
  · refine session_before (asks_plain rfl rfl rfl) hst
      fun suffix st'' hst hsame' => session_change ?_ hst (by rw [hsame', hsame, hcookie])
    refine asks_now.bind fun time => ?_
    refine (asks_statement (ordinary_revoke _ time)).bind fun _ => ?_
    refine (asks_plain rfl rfl rfl).bind fun _ => ?_
    refine asks_now.bind fun _ => ?_
    exact (asks_plain rfl rfl rfl).bind fun written =>
      asks_written internalError written
  · trivial

theorem session_restrict (actorId userId : Uuid) (input : RestrictionInput) (h : Waiting false st)
    (hcookie : st.1 = none) :
    SessionWatched (fun _ _ => True) (restrict actorId userId input) st := by
  unfold restrict
  split
  · trivial
  refine session_before (asks_plain rfl rfl rfl) h
    fun user st' hst hsame => ?_
  match user with
  | none => trivial
  | some ⟨user, _⟩ =>
      dsimp only
      split
      · trivial
      refine session_before asks_now hst
        fun now st'' hst hsame' => ?_
      cases input.data now with
      | error e => trivial
      | ok data =>
          refine session_change ?_ hst (by rw [hsame', hsame, hcookie])
          refine (asks_plain rfl rfl rfl).bind fun written => ?_
          refine (asks_written internalError written).bind fun _ => ?_
          split
          · trivial
          · exact asks_statement (ordinary_revoke _ now)

theorem session_setRole (actorId userId : Uuid) (role : Role) (h : Waiting false st)
    (hcookie : st.1 = none) :
    SessionWatched (fun _ _ => True) (setRole actorId userId role) st := by
  unfold setRole
  split
  · trivial
  refine session_before (asks_plain rfl rfl rfl) h
    fun user st' hst hsame => ?_
  match user with
  | none => trivial
  | some ⟨user, _⟩ =>
      dsimp only
      split
      · trivial
      refine session_change ?_ hst (hsame.trans hcookie)
      have hremains : (ensureAdminRemains user.role role).Asks (Ordinary true) := by
        unfold ensureAdminRemains
        split
        · refine (asks_plain rfl rfl rfl).bind fun _ => ?_
          refine (asks_plain rfl rfl rfl).bind fun count => ?_
          split <;> trivial
        · trivial
      refine hremains.bind fun _ => ?_
      exact (asks_plain rfl rfl rfl).bind fun written =>
        asks_written internalError written

theorem session_revokeSession (userId sessionId : Uuid) (h : Waiting false st)
    (hcookie : st.1 = none) :
    SessionWatched (fun _ _ => True) (revokeSession userId sessionId) st := by
  refine session_before (asks_plain rfl rfl rfl) h
    fun found st' hst hsame => ?_
  match found with
  | none => trivial
  | some (session, _) =>
      dsimp only
      split
      · exact session_change (session_updateSession sessionId) hst (hsame.trans hcookie)
      · trivial

theorem session_revokeOtherSessions (userId currentSessionId : Uuid) (h : Waiting false st)
    (hcookie : st.1 = none) :
    SessionWatched (fun _ _ => True) (revokeOtherSessions userId currentSessionId) st := by
  refine session_change ?_ h hcookie
  refine asks_now.bind fun time => ?_
  exact asks_now.bind fun revokedAt =>
    asks_statement (ordinary_revoke _ revokedAt)

/-! ### Logins -/

/-- A transaction is open, and no session is created yet. -/
structure InTransaction (st : LoginRecord) : Prop where
  last : st.All fun x => x.1.ends = false
  inside : (⟨.transaction, ()⟩ : AccountExchange) ∈ st.2
  fresh : st.All fun x => x.1.createsSession = false

theorem InTransaction.add (h : InTransaction st) (hends : x.1.ends = false)
    (hcreates : x.1.createsSession = false) : InTransaction (st.add x) where
  last := h.last.add hends
  inside := LoginRecord.mem_add.2 (.inl h.inside)
  fresh := h.fresh.add hcreates

/-- A login that holds the lock of its user and has not counted yet. -/
structure Locked (userId : Uuid) (st : LoginRecord) : Prop extends InTransaction st where
  locked : (⟨.lockUser userId, ()⟩ : AccountExchange) ∈ st.2
  uncounted : st.All fun x => x.1.findsActive = false

theorem Locked.add {userId : Uuid} (h : Locked userId st) (hends : x.1.ends = false)
    (hcreates : x.1.createsSession = false) (hfinds : x.1.findsActive = false) :
    Locked userId (st.add x) where
  toInTransaction := h.toInTransaction.add hends hcreates
  locked := LoginRecord.mem_add.2 (.inl h.locked)
  uncounted := h.uncounted.add hfinds

/-- A login that has counted, and has revoked what is too much. -/
structure Trimmed (userId : Uuid) (st : LoginRecord) : Prop extends InTransaction st where
  trimmed : ∃ time active, (⟨.findActive userId time, active⟩ : AccountExchange) ∈ st.2 ∧
    (10 ≤ active.length →
      ∃ time', (⟨.revokeSessions (.many (active.drop 9)) time', ()⟩ : AccountExchange) ∈ st.2)

theorem Trimmed.add {userId : Uuid} (h : Trimmed userId st) (hends : x.1.ends = false)
    (hcreates : x.1.createsSession = false) : Trimmed userId (st.add x) where
  toInTransaction := h.toInTransaction.add hends hcreates
  trimmed := by
    obtain ⟨time, active, hcounted, hrevoked⟩ := h.trimmed
    refine ⟨time, active, LoginRecord.mem_add.2 (.inl hcounted), fun hlimit => ?_⟩
    obtain ⟨time', hmem⟩ := hrevoked hlimit
    exact ⟨time', LoginRecord.mem_add.2 (.inl hmem)⟩

/-- The session of the cookie is revoked. -/
def CookieGone (st : LoginRecord) : Prop :=
  ∀ id ∈ st.1, ∃ time, (⟨.revokeSessions (.cookie id) time, ()⟩ : AccountExchange) ∈ st.2

theorem CookieGone.add (h : CookieGone st) (x : AccountExchange) : CookieGone (st.add x) := by
  intro id hid
  obtain ⟨time, hmem⟩ := h id hid
  exact ⟨time, LoginRecord.mem_add.2 (.inl hmem)⟩

/-- The rules for a statement under the lock, before a session is created. -/
theorem InTransaction.touch (h : InTransaction st) (hlocks : ∀ userId, q ≠ .lockUser userId)
    (hfinds : q.findsActive = false) (hcreates : q.createsSession = false) (hends : q.ends = false)
    (hmany : ∀ ids time, q = .revokeSessions (.many ids) time →
      ∃ userId time' active, (⟨.findActive userId time', active⟩ : AccountExchange) ∈ st.2 ∧
        10 ≤ active.length ∧ ids = active.drop 9) :
    SessionRules st q where
  last := h.last
  inside _ := h.inside
  lock userId heq := absurd heq (hlocks userId)
  count _ _ heq := by subst heq; cases hfinds
  trim ids time heq _ := hmany ids time heq
  create _ _ _ heq := by subst heq; cases hcreates
  once _ := h.fresh
  cookie heq := by subst heq; cases hends

theorem session_revokeOld {userId : Uuid} (h : Locked userId st) :
    SessionWatched (fun _ st' => st'.1 = st.1 ∧ Locked userId st' ∧ CookieGone st')
      (revokeOld st.1) st := by
  unfold revokeOld
  split
  · next hcookie =>
      exact ⟨rfl, h, fun id hid => by rw [hcookie] at hid; cases hid⟩
  · next id hcookie =>
      refine session_statement (.plain h.last rfl rfl rfl) fun time => ?_
      have h := h.add (x := ⟨.now, time⟩) rfl rfl rfl
      refine ⟨h.touch nofun rfl rfl rfl (by rintro _ _ ⟨⟩), fun _ => ⟨rfl, h.add rfl rfl rfl, ?_⟩⟩
      intro id' hid
      obtain rfl := Option.some.inj (hcookie.symm.trans hid)
      exact ⟨time, LoginRecord.mem_add.2 (.inr rfl)⟩

theorem session_makeRoom {userId : Uuid} (h : Locked userId st) (hgone : CookieGone st) :
    SessionWatched (fun _ st' => Trimmed userId st' ∧ CookieGone st') (makeRoom userId) st := by
  refine session_statement (.plain h.last rfl rfl rfl) fun time => ?_
  have hnow := h.add (x := ⟨.now, time⟩) rfl rfl rfl
  refine session_statement ⟨hnow.last, fun _ => hnow.inside, nofun, ?_, (by rintro _ _ ⟨⟩),
    (by rintro _ _ _ ⟨⟩), (by rintro ⟨⟩), (by rintro ⟨⟩)⟩ fun active => ?_
  · rintro _ _ ⟨⟩
    exact ⟨hnow.locked, LoginRecord.mem_add.2 (.inr rfl), hnow.uncounted⟩
  have hopen := hnow.toInTransaction.add (x := ⟨.findActive userId time, active⟩) rfl rfl
  have hgone := (hgone.add ⟨.now, time⟩).add ⟨.findActive userId time, active⟩
  have hcounted (st : LoginRecord) : (⟨.findActive userId time, active⟩ : AccountExchange) ∈
      (st.add ⟨.findActive userId time, active⟩).2 := LoginRecord.mem_add.2 (.inr rfl)
  split
  · next hlimit =>
      refine session_statement (.plain hopen.last rfl rfl rfl) fun time' => ?_
      have hopen := hopen.add (x := ⟨.now, time'⟩) rfl rfl
      have hcounted := LoginRecord.mem_add.2
        (.inl (hcounted (st.add ⟨.now, time⟩)) : _ ∨ _ = ⟨.now, time'⟩)
      refine ⟨hopen.touch nofun rfl rfl rfl ?_, fun _ => ⟨⟨hopen.add rfl rfl, time, active,
        LoginRecord.mem_add.2 (.inl hcounted), fun _ => ⟨time', LoginRecord.mem_add.2 (.inr rfl)⟩⟩,
        (hgone.add _).add _⟩⟩
      rintro _ _ ⟨⟩
      exact ⟨userId, time, active, hcounted, hlimit, rfl⟩
  · next hlimit =>
      exact ⟨⟨hopen, time, active, hcounted _, fun h => absurd h hlimit⟩, hgone⟩

theorem session_persistSession (userId : Uuid) (expiresAt : Int) (h : Waiting false st)
    (hopened : (⟨.transaction, ()⟩ : AccountExchange) ∈ st.2) :
    SessionWatched Ready (persistSession st.1 userId expiresAt) st := by
  have hnone := h.idle.mono fun _ hx => AccountQuery.of_not_issues hx.2
  have hopen : InTransaction st := ⟨h.last, hopened, hnone.mono fun _ hx => hx.2⟩
  refine session_statement ⟨h.last, fun _ => hopened, fun _ _ => h.untouched rfl, nofun,
    (by rintro _ _ ⟨⟩), (by rintro _ _ _ ⟨⟩), (by rintro ⟨⟩), (by rintro ⟨⟩)⟩ fun _ => ?_
  have hlocked : Locked userId (st.add ⟨.lockUser userId, ()⟩) :=
    ⟨hopen.add rfl rfl, LoginRecord.mem_add.2 (.inr rfl),
      (hnone.mono fun _ hx => hx.1).add rfl⟩
  refine (session_revokeOld hlocked).bind (fun _ st' hst => ⟨hst.2.1.last, (by rintro _ ⟨⟩)⟩)
    fun _ st' hst => ?_
  obtain ⟨-, hlocked, hgone⟩ := hst
  refine session_statement (.plain hlocked.last rfl rfl rfl) fun time => ?_
  have hlocked := hlocked.add (x := ⟨.now, time⟩) rfl rfl rfl
  refine session_statement (hlocked.touch nofun rfl rfl rfl (by rintro _ _ ⟨⟩)) fun _ => ?_
  have hlocked := hlocked.add (x := ⟨.deleteExpired userId time, ()⟩) rfl rfl rfl
  refine (session_makeRoom hlocked ((hgone.add _).add _)).bind
    (fun _ st' hst => ⟨hst.1.last, (by rintro _ ⟨⟩)⟩) fun _ st' hst => ?_
  obtain ⟨htrimmed, hgone⟩ := hst
  refine session_statement (.plain htrimmed.last rfl rfl rfl) fun id => ?_
  have htrimmed := htrimmed.add (x := ⟨.fresh, id⟩) rfl rfl
  have hgone := hgone.add ⟨.fresh, id⟩
  refine session_statement ⟨htrimmed.last, fun _ => htrimmed.inside, nofun, (by rintro _ _ ⟨⟩),
    (by rintro _ _ ⟨⟩), ?_, fun _ => htrimmed.fresh, (by rintro ⟨⟩)⟩ fun created => ?_
  · rintro _ _ _ ⟨⟩
    exact htrimmed.trimmed
  · have hlast := htrimmed.last.add (x := ⟨.createSession id userId expiresAt, created⟩) rfl
    have hgone := hgone.add ⟨.createSession id userId expiresAt, created⟩
    split
    · exact ⟨hlast, fun _ _ => hgone⟩
    · exact ⟨hlast, (by rintro _ ⟨⟩)⟩

theorem ordinary_ensureAllowed (inside : Bool) (user : UserRow) :
    (ensureAllowed user).Asks (Ordinary inside) := by
  unfold ensureAllowed
  split
  · trivial
  · split
    · trivial
    · refine asks_now.bind fun now => ?_
      split
      · exact asks_now.bind fun _ => trivial
      · trivial

/-- The part of a transaction that issues a session to a user. -/
theorem session_issue (user : UserRow) (expiresAt : Int) {cookie : Option Uuid}
    (h : Waiting false st) (hopened : (⟨.transaction, ()⟩ : AccountExchange) ∈ st.2)
    (hcookie : st.1 = cookie) : SessionWatched Ready
      (ensureAllowed user >>= fun _ => persistSession cookie user.id expiresAt) st := by
  refine (session_ordinary (ordinary_ensureAllowed false user) h).bind
    (fun _ st' hst => ⟨hst.1.last, (by rintro _ ⟨⟩)⟩) fun _ st' hst => ?_
  rw [← hcookie, ← hst.2.1]
  exact session_persistSession user.id expiresAt hst.1 (hst.2.2 _ hopened)

theorem session_issueUser (lib : AccountLibrary) {cookie : Option Uuid} (userId : Uuid)
    (h : Waiting false st) (hcookie : st.1 = cookie) :
    SessionWatched (fun _ _ => True) (issueUser lib cookie userId) st := by
  refine session_before asks_now h fun present st' hst hsame => ?_
  refine session_transaction hst.last ?_
  have hst := hst.add (x := ⟨.transaction, ()⟩) (ordinary_plain rfl rfl rfl)
  refine session_statement (hst.rules (ordinary_plain rfl rfl rfl)) fun user => ?_
  have hst := hst.add (x := ⟨.findUser userId, user⟩) (ordinary_plain rfl rfl rfl)
  match user with
  | none => exact ⟨hst.last, (by rintro _ ⟨⟩)⟩
  | some ⟨user, _⟩ =>
      refine session_issue user _ hst ?_ (hsame.trans hcookie)
      simp only [LoginRecord.mem_add, or_true, true_or]

theorem session_issueIdentity (lib : AccountLibrary) (cookie : Option Uuid) (identity : Identity)
    (h : Waiting false st) (hcookie : st.1 = cookie) :
    SessionWatched (fun _ _ => True) (issueIdentity lib cookie identity) st := by
  refine session_before asks_now h fun present st' hst hsame => ?_
  refine session_transaction hst.last ?_
  have hst := hst.add (x := ⟨.transaction, ()⟩) (ordinary_plain rfl rfl rfl)
  refine session_statement (hst.rules (ordinary_plain rfl rfl rfl)) fun id => ?_
  have hst := hst.add (x := ⟨.fresh, id⟩) (ordinary_plain rfl rfl rfl)
  refine session_statement (hst.rules (ordinary_plain rfl rfl rfl)) fun suffix => ?_
  have hst := hst.add (x := ⟨.fresh, suffix⟩) (ordinary_plain rfl rfl rfl)
  refine session_statement (hst.rules (ordinary_plain rfl rfl rfl)) fun user => ?_
  have hst := hst.add (x := ⟨.upsertIdentity id suffix identity, user⟩)
    (ordinary_plain rfl rfl rfl)
  match user with
  | none => exact ⟨hst.last, (by rintro _ ⟨⟩)⟩
  | some user =>
      refine session_issue user _ hst ?_ (hsame.trans hcookie)
      simp only [LoginRecord.mem_add, or_true, true_or]

theorem ordinary_enabled (lib : AccountLibrary) : (enabled lib).Asks (Ordinary false) := by
  unfold enabled
  split <;> trivial

theorem session_authenticate (lib : AccountLibrary) (cookie : Option Uuid) (email password : String)
    (h : Waiting false st) (hcookie : st.1 = cookie) :
    SessionWatched (fun _ _ => True) (authenticate lib cookie email password) st := by
  refine session_before (ordinary_enabled lib) h fun _ st₁ h₁ hsame₁ => ?_
  refine session_before (asks_plain rfl rfl rfl) h₁
    fun credential st₂ h₂ hsame₂ => ?_
  match credential with
  | none => trivial
  | some credential =>
      dsimp only
      split
      · exact session_issueUser lib credential.userId h₂ (by rw [hsame₂, hsame₁, hcookie])
      · trivial

theorem session_register (lib : AccountLibrary) (cookie : Option Uuid)
    (email password displayName username : String) (h : Waiting false st)
    (hcookie : st.1 = cookie) : SessionWatched (fun _ _ => True)
      (register lib cookie email password displayName username) st := by
  refine session_before (ordinary_enabled lib) h fun _ st₁ h₁ hsame₁ => ?_
  refine session_before (asks_plain rfl rfl rfl) h₁
    fun hash st₂ h₂ hsame₂ => ?_
  refine session_before (asks_plain rfl rfl rfl) h₂
    fun id st₃ h₃ hsame₃ => ?_
  refine session_before asks_now h₃ fun time st₄ h₄ hsame₄ => ?_
  refine session_before (asks_plain rfl rfl rfl) h₄
    fun collision st₅ h₅ hsame₅ => ?_
  match collision with
  | some .username => trivial
  | some .email => trivial
  | none =>
      exact session_issueUser lib id h₅
        (by rw [hsame₅, hsame₄, hsame₃, hsame₂, hsame₁, hcookie])

/-- Every request keeps to the rules. -/
theorem session_program (lib : AccountLibrary) (call : SessionCall) :
    SessionWatched (fun _ _ => True) (call.program lib) (call.cookie, []) := by
  have hwaiting : Waiting false (call.cookie, []) :=
    ⟨fun x hx => (by cases hx), (by rintro ⟨⟩), fun _ x hx => (by cases hx)⟩
  have hguarded {sessionId : Uuid} {allowRestricted requireAdmin : Bool}
      {f : UserRow → Account Unit} (hnone : call.cookie = none)
      (hf : ∀ user st, Waiting false st → st.1 = none →
        SessionWatched (fun _ _ => True) (f user) st) :
      SessionWatched (fun _ _ => True) (guard sessionId allowRestricted requireAdmin >>= f)
        (call.cookie, []) :=
    session_before (ordinary_guard sessionId allowRestricted requireAdmin) hwaiting
      fun user st hst hsame => hf user st hst (hsame.trans hnone)
  cases call with
  | logout sessionId =>
      exact hguarded rfl fun _ st hst hnone =>
        session_change (session_updateSession sessionId) hst hnone
  | revokeSession currentSessionId sessionId =>
      exact hguarded rfl fun user st => session_revokeSession user.id sessionId
  | revokeOtherSessions currentSessionId =>
      exact hguarded rfl fun user st => session_revokeOtherSessions user.id currentSessionId
  | account call =>
      cases call with
      | authenticate cookie email password =>
          exact session_authenticate lib cookie email password hwaiting rfl
      | register cookie email password displayName username =>
          exact session_register lib cookie email password displayName username hwaiting rfl
      | issueIdentity cookie identity =>
          exact session_issueIdentity lib cookie identity hwaiting rfl
      | changePassword sessionId current new =>
          exact hguarded rfl fun user st =>
            session_changePassword lib user.id sessionId current new
      | changeEmail sessionId current new =>
          exact hguarded rfl fun user st => session_changeEmail lib user.id sessionId current new
      | deactivate sessionId current =>
          exact hguarded rfl fun user st => session_deactivate lib user.id current
      | setRole sessionId userId role =>
          exact hguarded rfl fun user st => session_setRole user.id userId role
      | restrict sessionId userId input =>
          exact hguarded rfl fun user st => session_restrict user.id userId input

/-! ### What has happened -/

/-- What the rules say of the exchanges of a request. -/
structure SessionHistory (cookie : Option Uuid) (past : List AccountExchange) : Prop where
  created : ∀ x ∈ past, ∀ y ∈ past, x.1.createsSession = true → y.1.createsSession = true → x = y
  found : ∀ x ∈ past, ∀ y ∈ past, x.1.findsActive = true → y.1.findsActive = true → x = y
  ended : ∀ x ∈ past, ∀ y ∈ past, x.1.ends = true → y.1.ends = true → x = y
  locks : ∀ userId time active, (⟨.findActive userId time, active⟩ : AccountExchange) ∈ past →
    (⟨.lockUser userId, ()⟩ : AccountExchange) ∈ past
  trims : ∀ userId ids time, (⟨.lockUser userId, ()⟩ : AccountExchange) ∈ past →
    (⟨.revokeSessions (.many ids) time, ()⟩ : AccountExchange) ∈ past →
    ∃ userId time' active, (⟨.findActive userId time', active⟩ : AccountExchange) ∈ past ∧
      10 ≤ active.length ∧ ids = active.drop 9
  creates : ∀ id userId expiresAt created,
    (⟨.createSession id userId expiresAt, created⟩ : AccountExchange) ∈ past →
    ∃ time active, (⟨.findActive userId time, active⟩ : AccountExchange) ∈ past ∧
      (10 ≤ active.length → ∃ time',
        (⟨.revokeSessions (.many (active.drop 9)) time', ()⟩ : AccountExchange) ∈ past)
  order : ∀ first x rest, past = first ++ x :: rest → x.1.createsSession = true →
    ∀ y ∈ rest, y.1.touchesSessions = false
  cookie : (⟨.commit, ()⟩ : AccountExchange) ∈ past → ∀ id ∈ cookie, ∃ time,
    (⟨.revokeSessions (.cookie id) time, ()⟩ : AccountExchange) ∈ past

theorem sessionHistory_nil (cookie : Option Uuid) : SessionHistory cookie [] where
  created _ h := by cases h
  found _ h := by cases h
  ended _ h := by cases h
  locks _ _ _ h := by cases h
  trims _ _ _ h := by cases h
  creates _ _ _ _ h := by cases h
  order first x rest h := by cases first <;> cases h
  cookie h := by cases h

/-- At most one exchange of a kind, if there was none before. -/
theorem unique_snoc {past : List AccountExchange} {P : AccountExchange → Prop}
    (h : ∀ y ∈ past, ∀ z ∈ past, P y → P z → y = z) (hnone : P x → ∀ y ∈ past, ¬ P y) :
    ∀ y ∈ past ++ [x], ∀ z ∈ past ++ [x], P y → P z → y = z := by
  intro y hy z hz hPy hPz
  rw [List.mem_append, List.mem_singleton] at hy hz
  rcases hy with hy | rfl <;> rcases hz with hz | rfl
  · exact h y hy z hz hPy hPz
  · exact absurd hPy (hnone hPz y hy)
  · exact absurd hPz (hnone hPy z hz)
  · rfl

theorem SessionHistory.snoc {cookie : Option Uuid} {past : List AccountExchange}
    (h : SessionHistory cookie past) (hx : SessionRules (cookie, past) x.1) :
    SessionHistory cookie (past ++ [x]) where
  created := unique_snoc h.created fun hcreates y hy hy' => by
    have htouches : x.1.touchesSessions = true := by
      cases hq : x.1 <;> rw [hq] at hcreates <;> first | rfl | cases hcreates
    rw [hx.once htouches y hy] at hy'
    cases hy'
  found := unique_snoc h.found fun hfinds y hy hy' => by
    cases hq : x.1 with
    | findActive userId time =>
        rw [(hx.count userId time hq).2.2 y hy] at hy'
        cases hy'
    | _ => rw [hq] at hfinds; cases hfinds
  ended := unique_snoc h.ended fun _ y hy hy' => by
    rw [hx.last y hy] at hy'
    cases hy'
  locks userId time active hmem := by
    rw [List.mem_append, List.mem_singleton] at hmem ⊢
    rcases hmem with hmem | rfl
    · exact .inl (h.locks userId time active hmem)
    · exact .inl (hx.count userId time rfl).1
  trims userId ids time hlocked hmany := by
    rw [List.mem_append, List.mem_singleton] at hlocked hmany
    have hbefore : ∃ userId time' active,
        (⟨.findActive userId time', active⟩ : AccountExchange) ∈ past ∧ 10 ≤ active.length ∧
          ids = active.drop 9 := by
      rcases hmany with hmany | rfl
      · rcases hlocked with hlocked | rfl
        · exact h.trims userId ids time hlocked hmany
        · cases hx.lock userId rfl _ hmany
      · rcases hlocked with hlocked | hlocked
        · exact hx.trim ids time rfl ⟨_, hlocked, rfl⟩
        · cases hlocked
    obtain ⟨userId, time', active, hcounted, hrest⟩ := hbefore
    exact ⟨userId, time', active, List.mem_append_left _ hcounted, hrest⟩
  creates id userId expiresAt created hmem := by
    rw [List.mem_append, List.mem_singleton] at hmem
    have hbefore := hmem.elim (h.creates id userId expiresAt created)
      fun heq => hx.create id userId expiresAt (by rw [← heq])
    obtain ⟨time, active, hcounted, htrimmed⟩ := hbefore
    refine ⟨time, active, List.mem_append_left _ hcounted, fun hlimit => ?_⟩
    obtain ⟨time', hmany⟩ := htrimmed hlimit
    exact ⟨time', List.mem_append_left _ hmany⟩
  order first y rest hsplit hcreates z hz := by
    -- the exchange is the last one, or one of those before
    rcases List.eq_nil_or_concat rest with rfl | ⟨rest, last, rfl⟩
    · cases hz
    rw [List.concat_eq_append, ← List.cons_append, ← List.append_assoc] at hsplit
    obtain ⟨rfl, hlast⟩ := List.append_inj' hsplit rfl
    cases hlast
    rw [List.concat_eq_append, List.mem_append, List.mem_singleton] at hz
    rcases hz with hz | rfl
    · exact h.order first y rest rfl hcreates z hz
    · cases htouches : z.1.touchesSessions with
      | false => rfl
      | true =>
          rw [hx.once htouches y (by simp)] at hcreates
          cases hcreates
  cookie hcommit id hid := by
    rw [List.mem_append, List.mem_singleton] at hcommit
    have hbefore := hcommit.elim h.cookie fun heq => hx.cookie (by rw [← heq])
    obtain ⟨time, hgone⟩ := hbefore id hid
    exact ⟨time, List.mem_append_left _ hgone⟩

end ArenaCore
