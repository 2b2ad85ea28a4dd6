import Mathlib.Data.List.Sort
import ArenaCore.Api.Users
import ArenaCore.Lib.Concurrent
import ArenaCore.Lib.Rows

/-!
# Accounts

Logging in, and what changes an account: `PasswordAuthService`, the part of
`LoginService` that issues sessions, `AccountService.changePassword`,
`changeEmail` and `deactivate`, and `AdminService.setRole` and `restrict`. Each
is a program of statements as in the source, and any number of them run side by
side on one database.

Row locks are taken where the source has `FOR UPDATE` or changes a row. A cookie
stands for the session whose token it holds. Left out are the tables that none of
these programs reads (audit events, competitions, registrations, likes), the rate
limit and the checks of the origin.

## Main definitions

* `Accounts`: The users, credentials and sessions.
* `AccountQuery`, `accountEngine`: The statements and what they do.
* `authenticate`, `register`, `issueIdentity`: Logging in.
* `changePassword`, `changeEmail`, `deactivate`, `restrict`, `setRole`: Changes.
* `AccountCall.program`: A request with its guards.
-/

namespace ArenaCore

open Dialogue Concurrent

/-! ### Tables -/

structure CredentialRow where
  userId : Uuid
  email : String
  passwordHash : String
deriving DecidableEq

structure SessionRow where
  id : Uuid
  userId : Uuid
  createdAt : Int
  expiresAt : Int
  revokedAt : Option Int := none
  /-- The program that created it, if it is one of those that run. -/
  issuer : Option Nat := none
deriving DecidableEq

/-- Users and sessions by their identifiers, credentials by their users. -/
structure Accounts where
  users : Rows UserRow.id := {}
  credentials : Rows CredentialRow.userId := {}
  sessions : Rows SessionRow.id := {}

/-! ### Changes -/

/-- What the programs change in a user. -/
inductive UserChange where
  | displayName (name : String)
  | restriction (bannedAt suspendedUntil : Option Int) (reason : Option String)
  | subject (email : String)
  | deactivated (suffix : String) (time : Int)
  | role (role : Role)
deriving DecidableEq

def UserChange.apply (user : UserRow) : UserChange → UserRow
  | .displayName name => { user with displayName := name }
  | .restriction bannedAt suspendedUntil reason =>
      { user with bannedAt, suspendedUntil, restrictionReason := reason }
  | .subject email => { user with subject := email }
  | .deactivated suffix time =>
      { user with issuer := "arenacore:deleted", subject := suffix
                  username := "deleted_" ++ String.ofList (suffix.toList.take 24)
                  displayName := "Deleted user", bio := none, location := none, website := none
                  avatarUrl := none, isPrivate := true, productNotifications := false
                  competitionNotifications := false, deactivatedAt := some time }
  | .role value => { user with role := value }

theorem UserChange.apply_id (user : UserRow) (change : UserChange) :
    (change.apply user).id = user.id := by
  cases change <;> rfl

def SessionRow.revoke (time : Int) (row : SessionRow) : SessionRow :=
  { row with revokedAt := some time }

theorem SessionRow.revoke_id (time : Int) (row : SessionRow) : (row.revoke time).id = row.id := rfl

def CredentialRow.setHash (passwordHash : String) (row : CredentialRow) : CredentialRow :=
  { row with passwordHash }

theorem CredentialRow.setHash_userId (passwordHash : String) (row : CredentialRow) :
    (row.setHash passwordHash).userId = row.userId := rfl

def CredentialRow.setEmail (email : String) (row : CredentialRow) : CredentialRow :=
  { row with email }

theorem CredentialRow.setEmail_userId (email : String) (row : CredentialRow) :
    (row.setEmail email).userId = row.userId := rfl

/-- A change of the rows with some keys. -/
def alter {α : Type} (key : α → Uuid) (ids : List Uuid) (f : α → α) (row : α) : α :=
  if key row ∈ ids then f row else row

theorem alter_key {α : Type} {key : α → Uuid} {f : α → α} (hf : ∀ row, key (f row) = key row)
    (ids : List Uuid) (row : α) : key (alter key ids f row) = key row := by
  unfold alter
  split
  · exact hf row
  · rfl

inductive AccountChange where
  | insertUser (row : UserRow)
  | updateUser (id : Uuid) (change : UserChange)
  | insertCredential (row : CredentialRow)
  | updateHash (userId : Uuid) (passwordHash : String)
  | updateEmail (userId : Uuid) (email : String)
  | deleteCredential (userId : Uuid)
  | insertSession (row : SessionRow)
  | revokeSessions (ids : List Uuid) (time : Int)
  | deleteSessions (ids : List Uuid)
deriving DecidableEq

def Accounts.apply (db : Accounts) : AccountChange → Accounts
  | .insertUser row => { db with users := db.users.insert row }
  | .updateUser id change =>
      { db with users := db.users.update (alter UserRow.id [id] change.apply)
                  (alter_key (fun user => change.apply_id user) [id]) }
  | .insertCredential row => { db with credentials := db.credentials.insert row }
  | .updateHash userId passwordHash =>
      { db with credentials := db.credentials.update
                  (alter CredentialRow.userId [userId] (CredentialRow.setHash passwordHash))
                  (alter_key (CredentialRow.setHash_userId passwordHash) [userId]) }
  | .updateEmail userId email =>
      { db with credentials := db.credentials.update
                  (alter CredentialRow.userId [userId] (CredentialRow.setEmail email))
                  (alter_key (CredentialRow.setEmail_userId email) [userId]) }
  | .deleteCredential userId =>
      { db with credentials := db.credentials.delete fun row => decide (row.userId = userId) }
  | .insertSession row => { db with sessions := db.sessions.insert row }
  | .revokeSessions ids time =>
      { db with sessions := db.sessions.update
                  (alter SessionRow.id ids (SessionRow.revoke time))
                  (alter_key (SessionRow.revoke_id time) ids) }
  | .deleteSessions ids =>
      { db with sessions := db.sessions.delete fun row => decide (row.id ∈ ids) }

/-! ### Statements -/

/-- Which sessions are revoked: the one of a cookie, those with some identifiers, or
    those of a user but one. -/
inductive SessionFilter where
  | cookie (id : Uuid)
  | many (ids : List Uuid)
  | user (userId : Uuid) (kept : Option Uuid)
  | unexpired (userId kept : Uuid) (time : Int)
deriving DecidableEq

def SessionFilter.admits (row : SessionRow) : SessionFilter → Bool
  | .cookie id => decide (row.id = id) && row.revokedAt.isNone
  | .many ids => decide (row.id ∈ ids)
  | .user userId kept =>
      decide (row.userId = userId) && row.revokedAt.isNone &&
        kept.all fun id => decide (row.id ≠ id)
  | .unexpired userId kept time =>
      decide (row.userId = userId) && decide (row.id ≠ kept) && row.revokedAt.isNone &&
        decide (time < row.expiresAt)

/-- The unique column a new user collides on. -/
inductive UniqueTarget where
  | username
  | email
deriving DecidableEq

/-- What came of an update by key: the row may be missing, or a unique column
    taken. -/
inductive Written where
  | done
  | missing
  | conflict
deriving DecidableEq

structure Identity where
  issuer : String
  subject : String
  displayName : String
deriving DecidableEq

inductive AccountQuery where
  | now
  | fresh
  | hash (password : String)
  | transaction
  | commit
  | rollback
  | resolve (sessionId : Uuid)
  | findUser (id : Uuid)
  | findCredentialByEmail (email : String)
  | findCredentialByUser (userId : Uuid)
  | createUser (row : UserRow) (email passwordHash : String)
  | upsertIdentity (id suffix : Uuid) (identity : Identity)
  | lockUser (id : Uuid)
  | lockAdmins
  | countAdmins
  | updateUser (id : Uuid) (change : UserChange)
  | updateHash (userId : Uuid) (passwordHash : String)
  | updateEmail (userId : Uuid) (email : String)
  | deleteCredentials (userId : Uuid)
  | revokeSessions (filter : SessionFilter) (time : Int)
  | deleteExpired (userId : Uuid) (time : Int)
  | findActive (userId : Uuid) (time : Int)
  | createSession (id userId : Uuid) (expiresAt : Int)
deriving DecidableEq

@[reducible] def AccountAnswer : AccountQuery → Type
  | .now => Int
  | .fresh => Uuid
  | .hash _ => String
  | .resolve _ => Option (SessionRow × UserRow)
  | .findUser id => Option { user : UserRow // user.id = id }
  | .findCredentialByEmail _ => Option CredentialRow
  | .findCredentialByUser userId => Option { row : CredentialRow // row.userId = userId }
  | .createUser .. => Option UniqueTarget
  | .upsertIdentity .. => Option UserRow
  | .countAdmins => Nat
  | .updateUser .. | .updateHash .. | .updateEmail .. => Written
  | .findActive .. => List Uuid
  | .createSession .. => Bool
  | _ => Unit

/-- What the environment decides for a statement. -/
structure AccountChoice where
  now : Int
  fresh : Uuid
  hash : String

/-- The sessions of a filter. -/
def Accounts.sessionsOf (db : Accounts) (filter : SessionFilter) : List Uuid :=
  (db.sessions.rows.filter fun row => filter.admits row).map (·.id)

/-- The sessions of a user that have ended. -/
def Accounts.expired (db : Accounts) (userId : Uuid) (time : Int) : List Uuid :=
  (db.sessions.rows.filter fun row => decide (row.userId = userId) &&
    decide (row.expiresAt ≤ time)).map (·.id)

def Accounts.admins (db : Accounts) : List UserRow :=
  db.users.rows.filter fun row => decide (row.role = .admin)

/-- The user of an identity. -/
def Accounts.ofIdentity (db : Accounts) (identity : Identity) : Option UserRow :=
  db.users.rows.find? fun row => decide (row.issuer = identity.issuer) &&
    decide (row.subject = identity.subject)

/-- A user that did not exist. The default of the username is random. -/
def Identity.newUser (identity : Identity) (id suffix : Uuid) (time : Int) : UserRow where
  id := id
  issuer := identity.issuer
  subject := identity.subject
  username := "user_" ++ String.ofList (suffix.text.toList.filter fun c => c != '-')
  displayName := identity.displayName
  createdAt := time

/-- Another user has the identity. -/
def Accounts.identityTaken (db : Accounts) (id : Uuid) (issuer subject : String) : Bool :=
  db.users.rows.any fun row =>
    decide (row.id ≠ id) && decide (row.issuer = issuer) && decide (row.subject = subject)

def Accounts.usernameTaken (db : Accounts) (id : Uuid) (username : String) : Bool :=
  db.users.rows.any fun row => decide (row.id ≠ id) && decide (row.username = username)

def Accounts.emailTaken (db : Accounts) (userId : Uuid) (email : String) : Bool :=
  db.credentials.rows.any fun row =>
    decide (row.userId ≠ userId) && decide (row.email = email)

/-- The unique column that a new user breaks first: the indices on the key and on
    the identity are older than the one on the username, and the credential comes
    last. -/
def Accounts.collision (db : Accounts) (row : UserRow) (email : String) : Option UniqueTarget :=
  if (db.users.find row.id).isSome || db.identityTaken row.id row.issuer row.subject then
    some .email
  else if db.usernameTaken row.id row.username then some .username
  else if db.emailTaken row.id email then some .email
  else none

/-- A new user without a credential, unless its key or username is taken. -/
def Accounts.accepts (db : Accounts) (row : UserRow) : Option UserRow :=
  if (db.users.find row.id).isSome || db.usernameTaken row.id row.username then none else some row

def Accounts.writtenUser (db : Accounts) (id : Uuid) (change : UserChange) : Written :=
  match db.users.find id with
  | none => .missing
  | some user =>
      let user := change.apply user
      if db.identityTaken id user.issuer user.subject || db.usernameTaken id user.username then
        .conflict
      else .done

def Accounts.writtenHash (db : Accounts) (userId : Uuid) : Written :=
  if (db.credentials.find userId).isSome then .done else .missing

def Accounts.writtenEmail (db : Accounts) (userId : Uuid) (email : String) : Written :=
  if (db.credentials.find userId).isNone then .missing
  else if db.emailTaken userId email then .conflict
  else .done

/-- The newest sessions first. -/
def newerSession (a b : SessionRow) : Prop :=
  b.createdAt < a.createdAt ∨ b.createdAt = a.createdAt ∧ b.id.text ≤ a.id.text

instance (a b : SessionRow) : Decidable (newerSession a b) :=
  inferInstanceAs (Decidable (_ ∨ _))

def accountAnswer (db : Accounts) (choice : AccountChoice) : (q : AccountQuery) → AccountAnswer q
  | .now => choice.now
  | .fresh => choice.fresh
  | .hash _ => choice.hash
  | .transaction | .commit | .rollback => ()
  | .resolve sessionId =>
      (db.sessions.find sessionId).bind fun session =>
        (db.users.find session.userId).map fun user => (session, user)
  | .findUser id => db.users.lookup id
  | .findCredentialByEmail email =>
      db.credentials.rows.find? fun row => decide (row.email = email)
  | .findCredentialByUser userId => db.credentials.lookup userId
  | .createUser row email _ => db.collision row email
  | .upsertIdentity id suffix identity =>
      match db.ofIdentity identity with
      | some user => some (UserChange.apply user (.displayName identity.displayName))
      | none => db.accepts (identity.newUser id suffix choice.now)
  | .lockUser _ | .lockAdmins => ()
  | .countAdmins => db.admins.length
  | .updateUser id change => db.writtenUser id change
  | .updateHash userId _ => db.writtenHash userId
  | .updateEmail userId email => db.writtenEmail userId email
  | .deleteCredentials _ => ()
  | .revokeSessions .. | .deleteExpired .. => ()
  | .findActive userId time =>
      ((db.sessions.rows.filter fun row => decide (row.userId = userId) &&
        row.revokedAt.isNone && decide (time < row.expiresAt)).insertionSort
          newerSession).map (·.id)
  | .createSession id .. => (db.sessions.find id).isNone

def accountChanges (pid : Nat) (db : Accounts) (choice : AccountChoice) :
    AccountQuery → List AccountChange
  | .createUser row email passwordHash =>
      if db.collision row email = none then
        [.insertUser row, .insertCredential ⟨row.id, email, passwordHash⟩]
      else []
  | .upsertIdentity id suffix identity =>
      match db.ofIdentity identity with
      | some user => [.updateUser user.id (.displayName identity.displayName)]
      | none => (db.accepts (identity.newUser id suffix choice.now)).toList.map .insertUser
  | .updateUser id change =>
      if db.writtenUser id change = .done then [.updateUser id change] else []
  | .updateHash userId passwordHash =>
      if db.writtenHash userId = .done then [.updateHash userId passwordHash] else []
  | .updateEmail userId email =>
      if db.writtenEmail userId email = .done then [.updateEmail userId email] else []
  | .deleteCredentials userId => [.deleteCredential userId]
  | .revokeSessions filter time => [.revokeSessions (db.sessionsOf filter) time]
  | .deleteExpired userId time => [.deleteSessions (db.expired userId time)]
  | .createSession id userId expiresAt =>
      if (db.sessions.find id).isNone then
        [.insertSession { id, userId, createdAt := choice.now, expiresAt, issuer := some pid }]
      else []
  | _ => []

/-- A row that is changed or selected for update. -/
inductive AccountLock where
  | user (id : Uuid)
  | credential (userId : Uuid)
  | session (id : Uuid)
deriving DecidableEq

def accountLocks (db : Accounts) : AccountQuery → List AccountLock
  | .upsertIdentity _ _ identity => (db.ofIdentity identity).toList.map fun user => .user user.id
  | .lockUser id => [.user id]
  | .lockAdmins => db.admins.map fun user => .user user.id
  | .updateUser id _ => [.user id]
  | .updateHash userId _ | .updateEmail userId _ | .deleteCredentials userId => [.credential userId]
  | .revokeSessions filter _ => (db.sessionsOf filter).map .session
  | .deleteExpired userId time => (db.expired userId time).map .session
  | _ => []

def accountKind : AccountQuery → Kind
  | .transaction => .opens
  | .commit => .commits
  | .rollback => .aborts
  | _ => .statement

variable {q : AccountQuery}

theorem commit_of_kind (h : accountKind q = .commits) : q = .commit := by
  cases q <;> first | rfl | cases h

theorem rollback_of_kind (h : accountKind q = .aborts) : q = .rollback := by
  cases q <;> first | rfl | cases h

def accountEngine : Engine Accounts AccountChange AccountLock AccountChoice AccountQuery
    AccountAnswer where
  kind := accountKind
  answer := accountAnswer
  changes := accountChanges
  apply := Accounts.apply
  locks := accountLocks

/-! ### Programs -/

/-- The text functions of JavaScript, the settings, and `verifyPassword` of
    `auth/password.ts`, which is left open. -/
structure AccountLibrary where
  trim : String → String
  toLowerCase : String → String
  passwordAuthEnabled : Bool
  verifyPassword : String → String → Bool
  sessionTtl : Int

abbrev Account := Dialogue AccountQuery AccountAnswer ApiError

namespace Account

def statement (q : AccountQuery) : Account (AccountAnswer q) :=
  .ask q fun a => .done (.ok a)

/-- `$transaction`: commit, unless there is an exception. -/
def transaction {α : Type} (body : Account α) : Account α := do
  statement .transaction
  let result ← body.attempt
  match result with
  | .ok a => do
      statement .commit
      pure a
  | .error e => do
      statement .rollback
      .raise e

end Account

open Account

section Programs

variable (lib : AccountLibrary)

def invalidCredentials (message : String) : ApiError :=
  ⟨401, "INVALID_CREDENTIALS", message, none⟩

/-- What `ErrorFilter` makes of an exception that is no `ApiError`. -/
def internalError : ApiError :=
  ⟨500, "INTERNAL_ERROR", "The request could not be completed.", none⟩

/-- An update by key, with the error of a unique column that is taken. -/
def Account.written (conflict : ApiError) : Written → Account Unit
  | .done => pure ()
  | .missing => .raise internalError
  | .conflict => .raise conflict

/-- The error of a suspension, with the seconds until it ends. -/
def suspendedError (suspendedUntil now : Int) : ApiError :=
  ⟨403, "ACCOUNT_SUSPENDED", "This account is temporarily suspended.",
    some (max 1 ((suspendedUntil - now + 999) / 1000))⟩

def bannedError : ApiError :=
  ⟨403, "ACCOUNT_BANNED",
    "This account has been banned. Contact support if you believe this is a mistake.", none⟩

def ensureAllowed (user : UserRow) : Account Unit :=
  if user.bannedAt.isSome then .raise bannedError
  else
    match user.suspendedUntil with
    | none => pure ()
    | some time => do
        let now ← statement .now
        if now < time then do
          let later ← statement .now
          .raise (suspendedError time later)
        else pure ()

/-- The session that the browser had before is revoked. -/
def revokeOld (cookie : Option Uuid) : Account Unit :=
  match cookie with
  | none => pure ()
  | some id => do
      let time ← statement .now
      statement (.revokeSessions (.cookie id) time)

/-- All sessions but the nine newest are revoked. -/
def makeRoom (userId : Uuid) : Account Unit := do
  let time ← statement .now
  let active ← statement (.findActive userId time)
  if 10 ≤ active.length then do
    let time ← statement .now
    statement (.revokeSessions (.many (active.drop 9)) time)
  else pure ()

def persistSession (cookie : Option Uuid) (userId : Uuid) (expiresAt : Int) : Account Unit := do
  statement (.lockUser userId)
  revokeOld cookie
  let time ← statement .now
  statement (.deleteExpired userId time)
  makeRoom userId
  let id ← statement .fresh
  let created ← statement (.createSession id userId expiresAt)
  if created then pure () else .raise internalError

def issueUser (cookie : Option Uuid) (userId : Uuid) : Account Unit := do
  let present ← statement .now
  transaction do
    let user ← statement (.findUser userId)
    match user with
    | none => .raise (invalidCredentials "Email or password is incorrect.")
    | some ⟨user, _⟩ => do
        ensureAllowed user
        persistSession cookie user.id (present + lib.sessionTtl * 1000)

def issueIdentity (cookie : Option Uuid) (identity : Identity) : Account Unit := do
  let present ← statement .now
  transaction do
    let id ← statement .fresh
    let suffix ← statement .fresh
    let user ← statement (.upsertIdentity id suffix identity)
    match user with
    | none => .raise internalError
    | some user => do
        ensureAllowed user
        persistSession cookie user.id (present + lib.sessionTtl * 1000)

def enabled : Account Unit :=
  if lib.passwordAuthEnabled then pure ()
  else .raise ⟨503, "IDENTITY_NOT_CONFIGURED", "Email sign-in is not available yet.", none⟩

def authenticate (cookie : Option Uuid) (email password : String) : Account Unit := do
  enabled lib
  let credential ← statement (.findCredentialByEmail (lib.toLowerCase (lib.trim email)))
  match credential with
  | none => .raise (invalidCredentials "Email or password is incorrect.")
  | some credential =>
      if lib.verifyPassword password credential.passwordHash then
        issueUser lib cookie credential.userId
      else .raise (invalidCredentials "Email or password is incorrect.")

def register (cookie : Option Uuid) (email password displayName username : String) :
    Account Unit := do
  enabled lib
  let passwordHash ← statement (.hash password)
  let id ← statement .fresh
  let time ← statement .now
  let row : UserRow :=
    { id, issuer := "arenacore:password", subject := lib.toLowerCase (lib.trim email)
      username := lib.toLowerCase (lib.trim username), displayName := lib.trim displayName
      createdAt := time }
  let collision ← statement (.createUser row (lib.toLowerCase (lib.trim email)) passwordHash)
  match collision with
  | some .username => .raise ⟨409, "USERNAME_TAKEN", "That username is already in use.", none⟩
  | some .email =>
      .raise ⟨409, "ACCOUNT_EXISTS", "An account already uses this email. Sign in instead.", none⟩
  | none => issueUser lib cookie id

def changePassword (userId sessionId : Uuid) (currentPassword newPassword : String) :
    Account Unit := do
  let credential ← statement (.findCredentialByUser userId)
  match credential with
  | none =>
      .raise ⟨409, "PASSWORD_NOT_AVAILABLE",
        "This account signs in through an external provider and has no ArenaCore password.", none⟩
  | some ⟨credential, _⟩ =>
      if lib.verifyPassword currentPassword credential.passwordHash then do
        let passwordHash ← statement (.hash newPassword)
        transaction do
          let written ← statement (.updateHash credential.userId passwordHash)
          Account.written internalError written
          let time ← statement .now
          statement (.revokeSessions (.user userId (some sessionId)) time)
      else .raise (invalidCredentials "Current password is incorrect.")

def emailTakenError : ApiError :=
  ⟨409, "EMAIL_TAKEN", "An account already uses this email.", none⟩

def changeEmail (userId sessionId : Uuid) (currentPassword newEmail : String) :
    Account Unit := do
  let credential ← statement (.findCredentialByUser userId)
  match credential with
  | none =>
      .raise ⟨409, "EMAIL_NOT_AVAILABLE",
        "This account signs in through an external provider and has no ArenaCore email credential.",
        none⟩
  | some ⟨credential, _⟩ =>
      if lib.verifyPassword currentPassword credential.passwordHash then
        if lib.toLowerCase (lib.trim newEmail) = credential.email then pure ()
        else transaction do
          let written ← statement (.updateEmail credential.userId
            (lib.toLowerCase (lib.trim newEmail)))
          Account.written emailTakenError written
          let written ← statement (.updateUser userId
            (.subject (lib.toLowerCase (lib.trim newEmail))))
          Account.written emailTakenError written
          let time ← statement .now
          statement (.revokeSessions (.user userId (some sessionId)) time)
      else .raise (invalidCredentials "Current password is incorrect.")

def deactivate (userId : Uuid) (currentPassword : Option String) : Account Unit := do
  let credential ← statement (.findCredentialByUser userId)
  if credential.all fun c => currentPassword.any fun p => lib.verifyPassword p c.1.passwordHash
    then do
      let suffix ← statement .fresh
      transaction do
        let time ← statement .now
        statement (.revokeSessions (.user userId none) time)
        statement (.deleteCredentials userId)
        let time ← statement .now
        let written ← statement (.updateUser userId
          (.deactivated (String.ofList (suffix.text.toList.filter fun c => c != '-')) time))
        Account.written internalError written
  else .raise (invalidCredentials "Current password is required to deactivate this account.")

def userNotFound : ApiError :=
  ⟨404, "NOT_FOUND", "User not found.", none⟩

/-- Administrators are counted under their locks before one is removed. -/
def ensureAdminRemains (current role : Role) : Account Unit :=
  if current = .admin ∧ role ≠ .admin then do
    statement .lockAdmins
    let count ← statement .countAdmins
    if count ≤ 1 then
      .raise ⟨409, "LAST_ADMIN_REQUIRED", "At least one administrator must remain.", none⟩
    else pure ()
  else pure ()

def setRole (actorId userId : Uuid) (role : Role) : Account Unit :=
  if actorId = userId ∧ role ≠ .admin then
    .raise ⟨409, "SELF_DEMOTION_FORBIDDEN", "You cannot remove your own admin role.", none⟩
  else do
    let user ← statement (.findUser userId)
    match user with
    | none => .raise userNotFound
    | some ⟨user, _⟩ =>
        if user.role = role then pure ()
        else transaction do
          ensureAdminRemains user.role role
          let written ← statement (.updateUser userId (.role role))
          Account.written internalError written

inductive RestrictionInput where
  | suspend (until_ : Int) (reason : String)
  | ban (reason : String)
  | clear
deriving DecidableEq

/-- The columns of a restriction, or the error of a suspension that is over or
    too long. -/
def RestrictionInput.data (now : Int) : RestrictionInput → Except ApiError UserChange
  | .ban reason => .ok (.restriction (some now) none (some reason))
  | .suspend until_ reason =>
      if until_ ≤ now ∨ now + 365 * 24 * 60 * 60 * 1000 < until_ then
        .error ⟨400, "INVALID_SUSPENSION", "Suspension must end within the next 365 days.", none⟩
      else .ok (.restriction none (some until_) (some reason))
  | .clear => .ok (.restriction none none none)

def restrict (actorId userId : Uuid) (input : RestrictionInput) : Account Unit :=
  if actorId = userId then
    .raise ⟨409, "SELF_RESTRICTION_FORBIDDEN", "You cannot restrict your own account.", none⟩
  else do
    let user ← statement (.findUser userId)
    match user with
    | none => .raise userNotFound
    | some ⟨user, _⟩ =>
        if user.role = .admin then
          .raise ⟨409, "ADMIN_RESTRICTION_FORBIDDEN",
            "Remove administrator access before restricting this account.", none⟩
        else do
          let now ← statement .now
          let data ← .done (input.data now)
          transaction do
            let written ← statement (.updateUser userId data)
            Account.written internalError written
            if input = .clear then pure ()
            else statement (.revokeSessions (.user userId none) now)

/-! ### Requests -/

def authenticationRequired : ApiError :=
  ⟨401, "AUTHENTICATION_REQUIRED", "Sign in to continue.", none⟩

/-- The user of the session and the restriction in force. -/
def resolve (sessionId : Uuid) : Account (UserRow × Option Restriction) := do
  let found ← statement (.resolve sessionId)
  match found with
  | none => .raise authenticationRequired
  | some (session, user) =>
      if session.revokedAt.isSome then .raise authenticationRequired
      else do
        let now ← statement .now
        if session.expiresAt ≤ now ∨ user.deactivatedAt.isSome then .raise authenticationRequired
        else if user.bannedAt.isNone ∧ user.suspendedUntil.isSome then do
          let now ← statement .now
          pure (user, user.restriction now)
        else pure (user, user.restriction now)

/-- `SessionGuard` and `RolesGuard`, without the checks of the origin and of the
    CSRF token, which read no table. -/
def guard (sessionId : Uuid) (allowRestricted requireAdmin : Bool) : Account UserRow := do
  let (user, restriction) ← resolve sessionId
  match restriction, allowRestricted with
  | some ⟨.banned, _, _⟩, false => .raise bannedError
  | some ⟨.suspended, _, until_⟩, false => do
      let now ← statement .now
      .raise (suspendedError (until_.getD now) now)
  | _, _ =>
      if requireAdmin = true ∧ user.role ≠ .admin then
        .raise ⟨403, "PERMISSION_DENIED", "You do not have permission for this action.", none⟩
      else pure user

inductive AccountCall where
  | authenticate (cookie : Option Uuid) (email password : String)
  | register (cookie : Option Uuid) (email password displayName username : String)
  | issueIdentity (cookie : Option Uuid) (identity : Identity)
  | changePassword (sessionId : Uuid) (currentPassword newPassword : String)
  | changeEmail (sessionId : Uuid) (currentPassword newEmail : String)
  | deactivate (sessionId : Uuid) (currentPassword : Option String)
  | setRole (sessionId userId : Uuid) (role : Role)
  | restrict (sessionId userId : Uuid) (input : RestrictionInput)

/-- A request from its guards to its end. -/
def AccountCall.program : AccountCall → Account Unit
  | .authenticate cookie email password => ArenaCore.authenticate lib cookie email password
  | .register cookie email password displayName username =>
      ArenaCore.register lib cookie email password displayName username
  | .issueIdentity cookie identity => ArenaCore.issueIdentity lib cookie identity
  | .changePassword sessionId currentPassword newPassword => do
      let user ← guard sessionId false false
      ArenaCore.changePassword lib user.id sessionId currentPassword newPassword
  | .changeEmail sessionId currentPassword newEmail => do
      let user ← guard sessionId false false
      ArenaCore.changeEmail lib user.id sessionId currentPassword newEmail
  | .deactivate sessionId currentPassword => do
      let user ← guard sessionId true false
      ArenaCore.deactivate lib user.id currentPassword
  | .setRole sessionId userId role => do
      let user ← guard sessionId false true
      ArenaCore.setRole user.id userId role
  | .restrict sessionId userId input => do
      let user ← guard sessionId false true
      ArenaCore.restrict user.id userId input

/-- Requests that have not begun. -/
def accountSystem (db : Accounts) (calls : List AccountCall) :
    System Accounts AccountChange AccountLock AccountQuery AccountAnswer ApiError Unit where
  db := db
  processes := calls.map fun call => { program := call.program lib }

end Programs

namespace Sample

/-- Passwords and their hashes are the same, and nothing is normalised. -/
def accountLibrary : AccountLibrary where
  trim := id
  toLowerCase := id
  passwordAuthEnabled := true
  verifyPassword password hash := decide (password = hash)
  sessionTtl := 3600

end Sample

end ArenaCore
