import ArenaCore.Api.LoginRules
import ArenaCore.Store.System

/-!
# Administrators

`setRole` keeps one administrator: before it removes one it locks them all and
counts. It counts those that are deactivated too, it decides on a role that it
read before its transaction, and `deactivate` and `restrict` also take people out
of service, without any count.

Where those gaps are not hit (`Careful`), an administrator in service remains.
The argument is in `Administered`. At most one request is between the locking of
the administrators and its end, since it holds one of them (`alone`). So what it
has counted stays true (`counted`), and nobody else removes an administrator.

## Main definitions

* `AdminRemains`: There is an administrator in service.
* `Careful`: A statement that does not hit the gaps.
* `Administered`: The invariant.

## Theorems

* `administered_step`: Careful statements keep the invariant.
* `admin_remains`: Careful runs leave an administrator.
* `last_admin_leaves`: The only administrator may leave.
-/

namespace ArenaCore

open Dialogue Concurrent Account

variable {now : Int} {past : List AccountExchange} {q : AccountQuery} {db : Accounts}
  {x : AccountExchange} {db' : Accounts} {c : AccountChange} {s : AccountSystem}

/-! ### The property and its condition -/

/-- Neither deactivated nor banned nor suspended. -/
def UserRow.inService (user : UserRow) (now : Int) : Bool :=
  user.deactivatedAt.isNone && user.bannedAt.isNone && !user.suspended now

theorem usable_iff {user : UserRow} :
    user.usable now = true ↔ user.role = .admin ∧ user.inService now = true := by
  simp only [UserRow.usable, UserRow.inService, Bool.and_eq_true, decide_eq_true_eq, and_assoc]

def AdminRemains (db : Accounts) (now : Int) : Prop :=
  ∃ user ∈ db.users.rows, user.usable now = true

instance (db : Accounts) (now : Int) : Decidable (AdminRemains db now) :=
  inferInstanceAs (Decidable (∃ user ∈ db.users.rows, user.usable now = true))

/-- The requests in question. -/
def AccountCall.administers : AccountCall → Bool
  | .setRole .. | .restrict .. | .deactivate .. => true
  | _ => false

/-- The role of a user that an exchange has read. -/
def readRole (id : Uuid) : AccountExchange → Option Role
  | ⟨.findUser id', some found⟩ => if id' = id then some found.1.role else none
  | _ => none

/-- Who is an administrator afterwards is in service, and who no longer is one had
    been read as one. -/
def UserChange.careful (now : Int) (past : List AccountExchange) (user : UserRow)
    (change : UserChange) : Prop :=
  ((change.apply user).role = .admin → (change.apply user).inService now = true) ∧
    (user.role = .admin → (change.apply user).role ≠ .admin →
      ∀ x ∈ past, ∀ role ∈ readRole user.id x, role = .admin)

instance (now : Int) (past : List AccountExchange) (user : UserRow) (change : UserChange) :
    Decidable (change.careful now past user) := by
  unfold UserChange.careful
  infer_instance

/-- The user that a statement is about to change. -/
def AccountQuery.userChange : AccountQuery → Option (Uuid × UserChange)
  | .updateUser id change => some (id, change)
  | _ => none

/-- The next statement of a program does not change a user carelessly. -/
def Careful (now : Int) (s : AccountSystem) (e : Nat × AccountChoice) : Prop :=
  s.Next e.1 fun p q => ∀ c ∈ q.userChange, ∀ user ∈ s.db.users.rows, user.id = c.1 →
    c.2.careful now p.exchanges user

instance (now : Int) (s : AccountSystem) (e : Nat × AccountChoice) :
    Decidable (Careful now s e) := by
  unfold Careful
  infer_instance

/-! ### What the programs keep to -/

/-- A statement of one of these requests. -/
def AccountQuery.administers : AccountQuery → Bool
  | .now | .fresh | .transaction | .commit | .rollback | .resolve _ | .findUser _
  | .findCredentialByUser _ | .lockAdmins | .countAdmins | .updateUser .. | .deleteCredentials _
  | .revokeSessions .. => true
  | _ => false

def AccountQuery.changesUser : AccountQuery → Bool
  | .updateUser .. => true
  | _ => false

/-- A statement that the removal of an administrator rests on. -/
def AccountQuery.counts : AccountQuery → Bool
  | .lockAdmins | .countAdmins => true
  | _ => false

/-- A transaction is the last thing a program does, and it changes one user at
    most. Administrators are locked and counted in it before that, and removed only
    where there was another. -/
structure AdminRules (past : List AccountExchange) (q : AccountQuery) : Prop where
  last : ∀ x ∈ past, x.1.ends = false
  kind : q.administers = true
  once : q.changesUser = true ∨ q.counts = true →
    (∀ x ∈ past, x.1.changesUser = false) ∧ (⟨.transaction, ()⟩ : AccountExchange) ∈ past
  locked : q = .countAdmins → (⟨.lockAdmins, ()⟩ : AccountExchange) ∈ past
  role : ∀ id value, q = .updateUser id (.role value) →
    ∃ found, (⟨.findUser id, some found⟩ : AccountExchange) ∈ past ∧
      (found.1.role = .admin → value ≠ .admin →
        ∃ count, 1 < count ∧ (⟨.countAdmins, count⟩ : AccountExchange) ∈ past)

abbrev AdminWatched {α : Type} (post : Except ApiError α → List AccountExchange → Prop)
    (p : Account α) (past : List AccountExchange) : Prop :=
  Watched (fun past x => past ++ [x]) AdminRules post p past

/-- No transaction is over, and no user has been changed. -/
def Reading (past : List AccountExchange) : Prop :=
  ∀ x ∈ past, x.1.ends = false ∧ x.1.changesUser = false

theorem Reading.add (h : Reading past) (hends : x.1.ends = false)
    (hchanges : x.1.changesUser = false) : Reading (past ++ [x]) := by
  intro y hy
  obtain hy | hy := List.mem_append.1 hy
  · exact h y hy
  · rw [List.mem_singleton.1 hy]
    exact ⟨hends, hchanges⟩

theorem admin_statement {α : Type} {post : Except ApiError α → List AccountExchange → Prop}
    {f : AccountAnswer q → Account α} (hq : AdminRules past q)
    (hf : ∀ a, AdminWatched post (f a) (past ++ [⟨q, a⟩])) :
    AdminWatched post (statement q >>= f) past :=
  ⟨hq, hf⟩

/-- The rules for a statement that neither changes users nor counts. -/
theorem AdminRules.plain (hlast : ∀ x ∈ past, x.1.ends = false) (hkind : q.administers = true)
    (hchanges : q.changesUser = false) (hcounts : q.counts = false) : AdminRules past q where
  last := hlast
  kind := hkind
  once h := by
    rw [hchanges, hcounts] at h
    simp at h
  locked h := by subst h; cases hcounts
  role _ _ h := by subst h; cases hchanges

theorem Reading.plain (h : Reading past) (hkind : q.administers = true)
    (hchanges : q.changesUser = false) (hcounts : q.counts = false) : AdminRules past q :=
  .plain (fun x hx => (h x hx).1) hkind hchanges hcounts

/-- The rules for the change of a user. -/
theorem Reading.change (h : Reading past) {id : Uuid} {change : UserChange}
    (htransaction : (⟨.transaction, ()⟩ : AccountExchange) ∈ past)
    (hrole : ∀ value, change = .role value →
      ∃ found, (⟨.findUser id, some found⟩ : AccountExchange) ∈ past ∧
        (found.1.role = .admin → value ≠ .admin →
          ∃ count, 1 < count ∧ (⟨.countAdmins, count⟩ : AccountExchange) ∈ past)) :
    AdminRules past (.updateUser id change) where
  last x hx := (h x hx).1
  kind := rfl
  once _ := ⟨fun x hx => (h x hx).2, htransaction⟩
  locked := by rintro ⟨⟩
  role id' value heq := by
    cases heq
    exact hrole value rfl

theorem Reading.last_add (h : Reading past) (hends : x.1.ends = false) :
    ∀ y ∈ past ++ [x], y.1.ends = false := by
  intro y hy
  obtain hy | hy := List.mem_append.1 hy
  · exact (h y hy).1
  · rw [List.mem_singleton.1 hy]
    exact hends

theorem admin_transaction {body : Account Unit} (h : Reading past)
    (hbody : AdminWatched (fun _ past => ∀ x ∈ past, x.1.ends = false) body
      (past ++ [⟨.transaction, ()⟩])) : AdminWatched (fun _ _ => True) (transaction body) past := by
  refine admin_statement (h.plain rfl rfl rfl) fun _ => ?_
  have hattempt : AdminWatched (fun _ past => ∀ x ∈ past, x.1.ends = false) body.attempt
      (past ++ [⟨.transaction, ()⟩]) :=
    Watched.attempt (hbody.mono fun _ _ hr => hr)
  refine hattempt.bind (fun _ _ _ => trivial) fun r past hlast => ?_
  cases r with
  | ok | error => exact ⟨.plain hlast rfl rfl rfl, fun _ => trivial⟩

/-- The guards of a request only read. -/
theorem admin_guard {sessionId : Uuid} {allowRestricted requireAdmin : Bool}
    {f : UserRow → Account Unit}
    (hf : ∀ user past, Reading past → AdminWatched (fun _ _ => True) (f user) past) :
    AdminWatched (fun _ _ => True) (guard sessionId allowRestricted requireAdmin >>= f) [] := by
  have hguard : AdminWatched (fun _ past => Reading past)
      (guard sessionId allowRestricted requireAdmin) [] := by
    refine Watched.of_asks (asks_guard sessionId allowRestricted requireAdmin)
      (fun x hx => by cases hx) (fun past q h hq => ?_) fun past q a h hq => ?_
    · obtain rfl | ⟨_, rfl⟩ := hq <;> exact h.plain rfl rfl rfl
    · obtain rfl | ⟨_, rfl⟩ := hq <;> exact h.add rfl rfl
  exact hguard.bind (fun _ _ _ => trivial) fun user past h => hf user past h

theorem admin_deactivate (lib : AccountLibrary) (userId : Uuid) (currentPassword : Option String)
    (h : Reading past) :
    AdminWatched (fun _ _ => True) (deactivate lib userId currentPassword) past := by
  refine admin_statement (h.plain rfl rfl rfl) fun credential => ?_
  have h := h.add (x := ⟨.findCredentialByUser userId, credential⟩) rfl rfl
  split
  · refine admin_statement (h.plain rfl rfl rfl) fun suffix => ?_
    have h := h.add (x := ⟨.fresh, suffix⟩) rfl rfl
    refine admin_transaction h ?_
    have h := h.add (x := ⟨.transaction, ()⟩) rfl rfl
    refine admin_statement (h.plain rfl rfl rfl) fun time => ?_
    have h := h.add (x := ⟨.now, time⟩) rfl rfl
    refine admin_statement (h.plain rfl rfl rfl) fun _ => ?_
    have h := h.add (x := ⟨.revokeSessions (.user userId none) time, ()⟩) rfl rfl
    refine admin_statement (h.plain rfl rfl rfl) fun _ => ?_
    have h := h.add (x := ⟨.deleteCredentials userId, ()⟩) rfl rfl
    refine admin_statement (h.plain rfl rfl rfl) fun time' => ?_
    have h := h.add (x := ⟨.now, time'⟩) rfl rfl
    refine admin_statement (h.change (by simp) (by rintro _ ⟨⟩)) fun written => ?_
    have hlast := h.last_add (x := ⟨_, written⟩) rfl
    cases written <;> exact hlast
  · trivial

theorem admin_restrict (actorId userId : Uuid) (input : RestrictionInput) (h : Reading past) :
    AdminWatched (fun _ _ => True) (restrict actorId userId input) past := by
  unfold restrict
  split
  · trivial
  · refine admin_statement (h.plain rfl rfl rfl) fun user => ?_
    have h := h.add (x := ⟨.findUser userId, user⟩) rfl rfl
    match user with
    | none => trivial
    | some ⟨user, _⟩ =>
        dsimp only
        split
        · trivial
        · refine admin_statement (h.plain rfl rfl rfl) fun now => ?_
          have h := h.add (x := ⟨.now, now⟩) rfl rfl
          cases hdata : input.data now with
          | error e => trivial
          | ok data =>
              obtain ⟨bannedAt, suspendedUntil, reason, rfl, _⟩ := restriction_data hdata
              refine admin_transaction h ?_
              have h := h.add (x := ⟨.transaction, ()⟩) rfl rfl
              refine admin_statement (h.change (by simp) (by rintro _ ⟨⟩)) fun written => ?_
              have hlast := h.last_add (x := ⟨.updateUser userId
                (.restriction bannedAt suspendedUntil reason), written⟩) rfl
              cases written with
              | missing | conflict => exact hlast
              | done =>
                  change AdminWatched _ (if input = .clear then pure ()
                    else statement (.revokeSessions (.user userId none) now)) _
                  split
                  · exact hlast
                  · refine ⟨.plain hlast rfl rfl rfl, fun _ x hx => ?_⟩
                    obtain hx | hx := List.mem_append.1 hx
                    · exact hlast x hx
                    · rw [List.mem_singleton.1 hx]
                      rfl

/-- Nothing is counted for a change that removes no administrator, and otherwise
    more than one has been counted. -/
theorem admin_ensureAdminRemains (current role : Role) (h : Reading past)
    (htransaction : (⟨.transaction, ()⟩ : AccountExchange) ∈ past) :
    AdminWatched (fun r past' => Reading past' ∧ (∀ x ∈ past, x ∈ past') ∧
      (r = .ok () → current = .admin → role ≠ .admin →
        ∃ count, 1 < count ∧ (⟨.countAdmins, count⟩ : AccountExchange) ∈ past'))
      (ensureAdminRemains current role) past := by
  unfold ensureAdminRemains
  split
  · refine admin_statement ⟨fun x hx => (h x hx).1, rfl, fun _ => ⟨fun x hx => (h x hx).2,
      htransaction⟩, (by rintro ⟨⟩), (by rintro _ _ ⟨⟩)⟩ fun _ => ?_
    have h' := h.add (x := ⟨.lockAdmins, ()⟩) rfl rfl
    refine admin_statement ⟨fun x hx => (h' x hx).1, rfl, fun _ => ⟨fun x hx => (h' x hx).2,
      List.mem_append_left _ htransaction⟩, fun _ => by simp, (by rintro _ _ ⟨⟩)⟩ fun count => ?_
    have h'' := h'.add (x := ⟨.countAdmins, count⟩) rfl rfl
    have hmem : ∀ x ∈ past, x ∈ past ++ [⟨.lockAdmins, ()⟩] ++ [⟨.countAdmins, count⟩] :=
      fun x hx => List.mem_append_left _ (List.mem_append_left _ hx)
    split
    · exact ⟨h'', hmem, by rintro ⟨⟩⟩
    · next hcount =>
        exact ⟨h'', hmem, fun _ _ _ => ⟨count, Nat.lt_of_not_le hcount, by simp⟩⟩
  · next hnot =>
      exact ⟨h, fun x hx => hx, fun _ hadmin hrole => absurd ⟨hadmin, hrole⟩ hnot⟩

theorem admin_setRole (actorId userId : Uuid) (role : Role) (h : Reading past) :
    AdminWatched (fun _ _ => True) (setRole actorId userId role) past := by
  unfold setRole
  split
  · trivial
  · refine admin_statement (h.plain rfl rfl rfl) fun user => ?_
    have h := h.add (x := ⟨.findUser userId, user⟩) rfl rfl
    match user with
    | none => trivial
    | some found =>
        obtain ⟨user, hid⟩ := found
        dsimp only
        split
        · trivial
        · refine admin_transaction h ?_
          have h := h.add (x := ⟨.transaction, ()⟩) rfl rfl
          refine (admin_ensureAdminRemains user.role role h (by simp)).bind
            (fun e past' h' x hx => (h'.1 x hx).1) fun _ past' h' => ?_
          obtain ⟨hreading, hmem, hcounted⟩ := h'
          refine admin_statement (hreading.change (hmem _ (by simp)) ?_) fun written => ?_
          · rintro value ⟨⟩
            exact ⟨⟨user, hid⟩, hmem _ (by simp), hcounted rfl⟩
          · have hlast := hreading.last_add
              (x := ⟨.updateUser userId (.role role), written⟩) rfl
            cases written <;> exact hlast

/-- Every request keeps to the rules. -/
theorem watched_administration (lib : AccountLibrary) {call : AccountCall}
    (hcall : call.administers = true) :
    AdminWatched (fun _ _ => True) (call.program lib) [] := by
  cases call with
  | deactivate sessionId current =>
      exact admin_guard fun user past h => admin_deactivate lib user.id current h
  | setRole sessionId userId role =>
      exact admin_guard fun user past h => admin_setRole user.id userId role h
  | restrict sessionId userId input =>
      exact admin_guard fun user past h => admin_restrict user.id userId input h
  | _ => cases hcall

/-! ### Changes of users -/

def AccountChange.changesUser : AccountChange → Bool
  | .insertUser _ | .updateUser .. => true
  | _ => false

theorem users_apply_congr (h : db.users = db'.users) (c : AccountChange) :
    (db.apply c).users = (db'.apply c).users := by
  cases c <;> simp only [Accounts.apply, h]

theorem users_apply (hc : c.changesUser = false) (db : Accounts) :
    (db.apply c).users = db.users := by
  cases c <;> first | rfl | cases hc

theorem users_foldl_congr (h : db.users = db'.users) (changes : List AccountChange) :
    (changes.foldl Accounts.apply db).users = (changes.foldl Accounts.apply db').users := by
  induction changes generalizing db db' with
  | nil => exact h
  | cons c changes ih => exact ih (users_apply_congr h c)

/-- Only changes of users matter to the users. -/
theorem users_foldl (changes : List AccountChange) (db : Accounts) :
    (changes.foldl Accounts.apply db).users =
      ((changes.filter AccountChange.changesUser).foldl Accounts.apply db).users := by
  induction changes generalizing db with
  | nil => rfl
  | cons c changes ih =>
      cases hc : c.changesUser with
      | true => rw [List.filter_cons_of_pos hc, List.foldl_cons, List.foldl_cons, ih]
      | false =>
          rw [List.filter_cons_of_neg (by simp [hc]), List.foldl_cons, ih]
          exact users_foldl_congr (users_apply hc db) _

theorem users_unchanged {changes : List AccountChange} (db : Accounts)
    (h : ∀ c ∈ changes, c.changesUser = false) :
    (changes.foldl Accounts.apply db).users = db.users := by
  rw [users_foldl, List.filter_eq_nil_iff.2 fun c hc => by simp [h c hc]]
  rfl

/-- What one of the statements changes of users. -/
theorem administers_changes {pid : Nat} {choice : AccountChoice} (hq : q.administers = true)
    (hc : c ∈ accountChanges pid db choice q) (hchanges : c.changesUser = true) :
    ∃ id change, q = .updateUser id change ∧ c = .updateUser id change ∧
      accountChanges pid db choice q = [c] ∧ ∃ user ∈ db.users.rows, user.id = id := by
  cases q with
  | updateUser id change =>
      simp only [accountChanges] at hc ⊢
      split at hc
      · next hwritten =>
          obtain rfl := List.mem_singleton.1 hc
          refine ⟨id, change, rfl, rfl, by rw [if_pos hwritten], ?_⟩
          unfold Accounts.writtenUser at hwritten
          split at hwritten
          · cases hwritten
          · next user hfind => exact ⟨user, Rows.mem_of_find hfind⟩
      · cases hc
  | deleteCredentials | revokeSessions =>
      rw [List.mem_singleton.1 hc] at hchanges
      cases hchanges
  | now | fresh | transaction | commit | rollback | resolve | findUser | findCredentialByUser
  | lockAdmins | countAdmins => cases hc
  | _ => cases hq

/-! ### The invariant -/

/-- Between the locking of the administrators and the end. -/
def Locking (p : AccountProcess) : Prop :=
  Open p ∧ (⟨.lockAdmins, ()⟩ : AccountExchange) ∈ p.exchanges

/-- More than one administrator has been counted. -/
def Counting (p : AccountProcess) : Prop :=
  Open p ∧ ∃ count, 1 < count ∧ (⟨.countAdmins, count⟩ : AccountExchange) ∈ p.exchanges

/-- A change that keeps an administrator in service. -/
structure Permitted (now : Int) (p : AccountProcess) (user : UserRow) (change : UserChange) :
    Prop where
  service : (change.apply user).role = .admin → (change.apply user).inService now = true
  counting : user.role = .admin → (change.apply user).role ≠ .admin → Counting p

structure Administered (now : Int) (s : AccountSystem) : Prop where
  rules : s.Watched (fun past x => past ++ [x]) AdminRules (fun _ _ => True) fun _ => []
  exclusive : s.Exclusive
  inside : ∀ (i : Nat) (p : AccountProcess), s.processes[i]? = some p →
    Open p → (⟨.transaction, ()⟩ : AccountExchange) ∈ p.exchanges → p.inside = true
  pending : ∀ (i : Nat) (p : AccountProcess), s.processes[i]? = some p →
    (p.pending.filter AccountChange.changesUser).length ≤ 1 ∧
    ∀ c ∈ p.pending, c.changesUser = true → (∃ x ∈ p.exchanges, x.1.changesUser = true) ∧
      (⟨.transaction, ()⟩ : AccountExchange) ∈ p.exchanges ∧
      ∃ id change, c = .updateUser id change ∧ (i, .user id) ∈ s.locks ∧
        ∃ user ∈ s.db.users.rows, user.id = id ∧ Permitted now p user change
  locked : ∀ (i : Nat) (p : AccountProcess), s.processes[i]? = some p →
    ∀ count, (⟨.countAdmins, count⟩ : AccountExchange) ∈ p.exchanges →
      (⟨.lockAdmins, ()⟩ : AccountExchange) ∈ p.exchanges
  service : ∀ user ∈ s.db.users.rows, user.role = .admin → user.inService now = true
  remains : ∃ user ∈ s.db.users.rows, user.role = .admin
  holds : ∀ (i : Nat) (p : AccountProcess), s.processes[i]? = some p → Locking p →
    ∃ user ∈ s.db.users.rows, user.role = .admin ∧ (i, .user user.id) ∈ s.locks
  alone : ∀ (i j : Nat) (p r : AccountProcess), s.processes[i]? = some p →
    s.processes[j]? = some r → Locking p → Locking r → i = j
  counted : ∀ (i : Nat) (p : AccountProcess), s.processes[i]? = some p → Counting p →
    2 ≤ s.db.admins.length

section Step

variable {now : Int} {s s' : AccountSystem} {e : Nat × AccountChoice} {p p' : AccountProcess}
  {q : AccountQuery} {next : AccountAnswer q → Account Unit} {i : Nat} {db : Accounts} {id : Uuid}
  {change : UserChange} {user : UserRow} {f : UserRow → UserRow} {r : AccountProcess}

/-- The statement that is carried out is one the rules allow. -/
theorem admin_next (h : Administered now s) (hstep : Stepped accountEngine s e p p' q next s') :
    AdminRules p.exchanges q := by
  have hrules := System.Watched.safe_next h.rules hstep.process hstep.program
  rwa [List.foldl_append_eq_append, List.nil_append, ← List.flatMap_def,
    List.flatMap_singleton'] at hrules

theorem open_before (h : Administered now s) (hstep : Stepped accountEngine s e p p' q next s') :
    Open p :=
  (admin_next h hstep).last

theorem Counting.locking (h : Administered now s) (hp : s.processes[i]? = some p)
    (hcounting : Counting p) : Locking p := by
  obtain ⟨hopen, count, _, hcount⟩ := hcounting
  exact ⟨hopen, h.locked i p hp count hcount⟩

/-- A program that waits for a change of a user to be committed has changed one. -/
theorem view_users (h : Administered now s) (hp : s.processes[i]? = some p)
    (hpast : ∀ x ∈ p.exchanges, x.1.changesUser = false) :
    (p.view accountEngine s.db).users = s.db.users := by
  refine users_unchanged s.db fun c hc => ?_
  cases hchanges : c.changesUser with
  | false => rfl
  | true =>
      obtain ⟨⟨x, hx, hx'⟩, _⟩ := (h.pending i p hp).2 c hc hchanges
      rw [hpast x hx] at hx'
      cases hx'

/-- Users are changed by a commit only, and then one user as was permitted. -/
theorem users_step (h : Administered now s) (hstep : Stepped accountEngine s e p p' q next s') :
    s'.db.users = s.db.users ∨ (q = .commit ∧ ∃ id change, (e.1, .user id) ∈ s.locks ∧
      (∃ user ∈ s.db.users.rows, user.id = id ∧ Permitted now p user change) ∧
      s'.db.users = (s.db.apply (.updateUser id change)).users) := by
  have hrules := admin_next h hstep
  have houtcome := hstep.outcome
  generalize p'.pending = pending, s'.db = db, s'.locks = locks, p'.inside = inside at houtcome ⊢
  cases houtcome with
  | opened | staged | aborted => exact .inl rfl
  | direct kind outside =>
      left
      -- users are changed in a transaction, and none has been opened
      have hunopened : (⟨.transaction, ()⟩ : AccountExchange) ∉ p.exchanges := by
        intro htransaction
        have hinside := h.inside e.1 p hstep.process hrules.last htransaction
        rw [outside] at hinside
        cases hinside
      have hnone : ∀ c ∈ p.pending, c.changesUser = false := by
        intro c hc
        cases hchanges : c.changesUser with
        | false => rfl
        | true => exact absurd ((h.pending e.1 p hstep.process).2 c hc hchanges).2.1 hunopened
      have hstatement : ∀ c ∈ accountChanges e.1 (p.view accountEngine s.db) e.2 q,
          c.changesUser = false := by
        intro c hc
        cases hchanges : c.changesUser with
        | false => rfl
        | true =>
            obtain ⟨id, change, rfl, _⟩ := administers_changes hrules.kind hc hchanges
            exact absurd (hrules.once (.inl rfl)).2 hunopened
      exact (users_unchanged _ hstatement).trans (users_unchanged _ hnone)
  | committed kind =>
      obtain ⟨hone, hpending⟩ := h.pending e.1 p hstep.process
      have hview : (p.view accountEngine s.db).users =
          ((p.pending.filter AccountChange.changesUser).foldl Accounts.apply s.db).users :=
        users_foldl p.pending s.db
      -- a request has at most one change of a user to commit
      cases hfilter : p.pending.filter AccountChange.changesUser with
      | nil =>
          left
          rw [hview, hfilter]
          rfl
      | cons c rest =>
          have hrest : rest = [] := by
            rw [hfilter, List.length_cons] at hone
            exact List.length_eq_zero_iff.1 (by omega)
          have hmem := List.mem_filter.1 (hfilter ▸ List.mem_cons_self : c ∈ _)
          obtain ⟨_, _, id, change, rfl, hlock, hpermitted⟩ := hpending c hmem.1 hmem.2
          refine .inr ⟨commit_of_kind kind, id, change, hlock, hpermitted, ?_⟩
          rw [hview, hfilter, hrest]
          rfl

/-! ### A change that is committed -/

theorem mem_updated :
    user ∈ (db.apply (.updateUser id change)).users.rows ↔
      ∃ old ∈ db.users.rows, alter UserRow.id [id] change.apply old = user :=
  List.mem_map

theorem alter_of_ne (h : user.id ≠ id) : alter UserRow.id [id] f user = user :=
  if_neg fun hmem => h (List.mem_singleton.1 hmem)

theorem alter_of_eq (h : user.id = id) : alter UserRow.id [id] f user = f user :=
  if_pos (List.mem_singleton.2 h)

/-- Who has another key stays as they are. -/
theorem mem_updated_of_ne (huser : user ∈ db.users.rows) (hne : user.id ≠ id) :
    user ∈ (db.apply (.updateUser id change)).users.rows :=
  mem_updated.2 ⟨user, huser, alter_of_ne hne⟩

/-- Of two administrators, one has another key. -/
theorem exists_admin_ne (h : 2 ≤ db.admins.length) (id : Uuid) :
    ∃ user ∈ db.users.rows, user.role = .admin ∧ user.id ≠ id := by
  by_contra hnone
  push Not at hnone
  have hall : ∀ k ∈ db.admins.map UserRow.id, k = id := by
    intro k hk
    obtain ⟨user, huser, rfl⟩ := List.mem_map.1 hk
    obtain ⟨hmem, hadmin⟩ := List.mem_filter.1 huser
    exact hnone user hmem (of_decide_eq_true hadmin)
  have hnodup : (db.admins.map UserRow.id).Nodup :=
    (List.filter_sublist.map UserRow.id).nodup db.users.nodup
  rw [List.eq_replicate_of_mem hall, List.nodup_replicate, List.length_map] at hnodup
  omega

/-- No administrator is lost when all of them stay. -/
theorem admins_length_le (h : ∀ user ∈ db.users.rows, user.role = .admin →
      (alter UserRow.id [id] change.apply user).role = .admin) :
    db.admins.length ≤ (db.apply (.updateUser id change)).admins.length := by
  have hrows : (db.apply (.updateUser id change)).users.rows =
      db.users.rows.map (alter UserRow.id [id] change.apply) := rfl
  rw [Accounts.admins, Accounts.admins, hrows, ← List.countP_eq_length_filter,
    ← List.countP_eq_length_filter, List.countP_map]
  exact List.countP_mono_left fun user huser hadmin =>
    decide_eq_true (h user huser (of_decide_eq_true hadmin))

section Commit

variable {id : Uuid} {change : UserChange} {target : UserRow}

/-- The row that is changed, and the others. -/
theorem updated_cases (change : UserChange) (htarget : target ∈ s.db.users.rows)
    (hid : target.id = id) {user : UserRow} (huser : user ∈ s.db.users.rows) :
    (user = target ∧ alter UserRow.id [id] change.apply user = change.apply target) ∨
      (user.id ≠ id ∧ alter UserRow.id [id] change.apply user = user) := by
  by_cases hkey : user.id = id
  · obtain rfl := Rows.eq_of_key huser htarget (hkey.trans hid.symm)
    exact .inl ⟨rfl, alter_of_eq hkey⟩
  · exact .inr ⟨hkey, alter_of_ne hkey⟩

theorem service_updated (h : Administered now s) (htarget : target ∈ s.db.users.rows)
    (hid : target.id = id) (hpermitted : Permitted now p target change) :
    ∀ user ∈ (s.db.apply (.updateUser id change)).users.rows, user.role = .admin →
      user.inService now = true := by
  intro user huser hadmin
  obtain ⟨old, hold, rfl⟩ := mem_updated.1 huser
  obtain ⟨rfl, heq⟩ | ⟨_, heq⟩ := updated_cases change htarget hid hold
  · rw [heq] at hadmin ⊢
    exact hpermitted.service hadmin
  · rw [heq] at hadmin ⊢
    exact h.service old hold hadmin

theorem admin_updated (htarget : target ∈ s.db.users.rows) (hid : target.id = id)
    (hpermitted : Permitted now p target change) (hcounting : ¬ Counting p) :
    ∀ user ∈ s.db.users.rows, user.role = .admin →
      (alter UserRow.id [id] change.apply user).role = .admin := by
  intro user huser hadmin
  obtain ⟨rfl, heq⟩ | ⟨_, heq⟩ := updated_cases change htarget hid huser
  · rw [heq]
    exact not_not.1 fun hremoved => hcounting (hpermitted.counting hadmin hremoved)
  · rw [heq]
    exact hadmin

theorem remains_updated (h : Administered now s) (hp : s.processes[e.1]? = some p)
    (htarget : target ∈ s.db.users.rows) (hid : target.id = id)
    (hpermitted : Permitted now p target change) :
    ∃ user ∈ (s.db.apply (.updateUser id change)).users.rows, user.role = .admin := by
  by_cases hcounting : Counting p
  · obtain ⟨user, huser, hadmin, hne⟩ := exists_admin_ne (h.counted e.1 p hp hcounting) id
    exact ⟨user, mem_updated_of_ne huser hne, hadmin⟩
  · obtain ⟨user, huser, hadmin⟩ := h.remains
    exact ⟨_, mem_updated.2 ⟨user, huser, rfl⟩,
      admin_updated htarget hid hpermitted hcounting user huser hadmin⟩

end Commit

/-! ### One statement -/

section

variable (h : Administered now s) (hstep : Stepped accountEngine s e p p' q next s')

include h hstep

theorem locked_step (i : Nat) (r : AccountProcess) (hr : s'.processes[i]? = some r) (count : Nat)
    (hcount : (⟨.countAdmins, count⟩ : AccountExchange) ∈ r.exchanges) :
    (⟨.lockAdmins, ()⟩ : AccountExchange) ∈ r.exchanges := by
  obtain ⟨rfl, rfl⟩ | ⟨_, hr⟩ := hstep.get hr
  · obtain hold | hq := hstep.mem_exchanges hcount
    · exact hstep.mem_exchanges_of_mem (h.locked e.1 p hstep.process count hold)
    · obtain rfl : AccountQuery.countAdmins = q := congrArg Sigma.fst hq
      exact hstep.mem_exchanges_of_mem ((admin_next h hstep).locked rfl)
  · exact h.locked i r hr count hcount

theorem service_step :
    ∀ user ∈ s'.db.users.rows, user.role = .admin → user.inService now = true := by
  obtain hsame | ⟨_, id, change, _, ⟨target, htarget, hid, hpermitted⟩, hdb⟩ := users_step h hstep
  · rw [hsame]
    exact h.service
  · rw [hdb]
    exact service_updated h htarget hid hpermitted

theorem remains_step : ∃ user ∈ s'.db.users.rows, user.role = .admin := by
  obtain hsame | ⟨_, id, change, _, ⟨target, htarget, hid, hpermitted⟩, hdb⟩ := users_step h hstep
  · rw [hsame]
    exact h.remains
  · rw [hdb]
    exact remains_updated h hstep.process htarget hid hpermitted

/-- A row that another program has locked is not changed. -/
theorem locked_row (hi : i ≠ e.1) (huser : user ∈ s.db.users.rows)
    (hlock : (i, .user user.id) ∈ s.locks) :
    user ∈ s'.db.users.rows ∧ (i, .user user.id) ∈ s'.locks := by
  refine ⟨?_, hstep.locks_of_ne hi hlock⟩
  obtain hsame | ⟨_, id, change, hheld, _, hdb⟩ := users_step h hstep
  · rwa [hsame]
  · rw [hdb]
    refine mem_updated_of_ne huser fun heq => hi ?_
    rw [heq] at hlock
    exact h.exclusive i e.1 _ hlock hheld

end

/-- A program that is not at its end keeps its locks. -/
theorem locks_of_open (hstep : Stepped accountEngine s e p p' q next s') (hopen : Open p')
    {l : Nat × AccountLock} (hl : l ∈ s.locks) : l ∈ s'.locks := by
  have hnew := hopen _ hstep.mem_exchanges_self
  have houtcome := hstep.outcome
  generalize p'.pending = pending, s'.db = db, s'.locks = locks, p'.inside = inside
    at houtcome ⊢
  cases houtcome with
  | opened | direct => exact hl
  | staged => exact List.mem_append_left _ hl
  | committed kind =>
      obtain rfl := commit_of_kind kind
      cases hnew
  | aborted kind =>
      obtain rfl := rollback_of_kind kind
      cases hnew

theorem users_of_open (h : Administered now s) (hstep : Stepped accountEngine s e p p' q next s')
    (hopen : Open p') : s'.db.users = s.db.users := by
  obtain hsame | ⟨rfl, _⟩ := users_step h hstep
  · exact hsame
  · cases hopen _ hstep.mem_exchanges_self

/-- A statement that takes locks in a transaction holds them afterwards. -/
theorem locks_new (h : Administered now s) (hstep : Stepped accountEngine s e p p' q next s')
    (hkind : accountKind q = .statement)
    (htransaction : (⟨.transaction, ()⟩ : AccountExchange) ∈ p.exchanges) {l : AccountLock}
    (hl : l ∈ accountLocks (p.view accountEngine s.db) q) : (e.1, l) ∈ s'.locks := by
  have hinside := h.inside e.1 p hstep.process (open_before h hstep) htransaction
  have houtcome := hstep.outcome
  generalize p'.pending = pending, s'.db = db, s'.locks = locks, p'.inside = inside
    at houtcome ⊢
  cases houtcome with
  | staged => exact List.mem_append_right _ (List.mem_map_of_mem hl)
  | direct _ outside =>
      rw [hinside] at outside
      cases outside
  | opened kind | committed kind | aborted kind => cases hkind.symm.trans kind

theorem mem_lockAdmins (huser : user ∈ db.users.rows) (hadmin : user.role = .admin) :
    .user user.id ∈ accountLocks db .lockAdmins :=
  List.mem_map.2 ⟨user, List.mem_filter.2 ⟨huser, decide_eq_true hadmin⟩, rfl⟩

/-- Before administrators are locked or counted, no user has been changed. -/
theorem view_counts (h : Administered now s) (hstep : Stepped accountEngine s e p p' q next s')
    (hcounts : q.counts = true) : (p.view accountEngine s.db).users = s.db.users :=
  view_users h hstep.process ((admin_next h hstep).once (.inr hcounts)).1

theorem holds_step (h : Administered now s) (hstep : Stepped accountEngine s e p p' q next s')
    (i : Nat) (r : AccountProcess) (hr : s'.processes[i]? = some r) (hlocking : Locking r) :
    ∃ user ∈ s'.db.users.rows, user.role = .admin ∧ (i, .user user.id) ∈ s'.locks := by
  obtain ⟨rfl, rfl⟩ | ⟨hi, hr⟩ := hstep.get hr
  · rw [users_of_open h hstep hlocking.1]
    obtain hold | hq := hstep.mem_exchanges hlocking.2
    · obtain ⟨user, huser, hadmin, hlock⟩ :=
        h.holds e.1 p hstep.process ⟨open_before h hstep, hold⟩
      exact ⟨user, huser, hadmin, locks_of_open hstep hlocking.1 hlock⟩
    · obtain rfl : AccountQuery.lockAdmins = q := congrArg Sigma.fst hq
      obtain ⟨user, huser, hadmin⟩ := h.remains
      have htransaction := ((admin_next h hstep).once (.inr rfl)).2
      refine ⟨user, huser, hadmin, locks_new h hstep rfl htransaction (mem_lockAdmins ?_ hadmin)⟩
      rwa [view_counts h hstep rfl]
  · obtain ⟨user, huser, hadmin, hlock⟩ := h.holds i r hr hlocking
    obtain ⟨huser', hlock'⟩ := locked_row h hstep hi huser hlock
    exact ⟨user, huser', hadmin, hlock'⟩

/-- Who locks the administrators finds them free of others that have. -/
theorem alone_lock (h : Administered now s) {next : AccountAnswer .lockAdmins → Account Unit}
    (hstep : Stepped accountEngine s e p p' .lockAdmins next s') (hr : s.processes[i]? = some r)
    (hlocking : Locking r) : i = e.1 := by
  obtain ⟨user, huser, hadmin, hlock⟩ := h.holds i r hr hlocking
  refine eq_of_free (hstep.free _ (mem_lockAdmins ?_ hadmin)) hlock
  rwa [view_counts h hstep rfl]

theorem alone_step (h : Administered now s) (hstep : Stepped accountEngine s e p p' q next s')
    (i j : Nat) (r t : AccountProcess) (hr : s'.processes[i]? = some r)
    (ht : s'.processes[j]? = some t) (hlr : Locking r) (hlt : Locking t) : i = j := by
  -- The program that has run was locking before, or is alone with its locks now.
  have hself : Locking p' → ∀ (k : Nat) (u : AccountProcess), s.processes[k]? = some u →
      Locking u → k = e.1 := by
    intro hlocking k u hu hlu
    obtain hold | hq := hstep.mem_exchanges hlocking.2
    · exact h.alone k e.1 u p hu hstep.process hlu ⟨open_before h hstep, hold⟩
    · obtain rfl : AccountQuery.lockAdmins = q := congrArg Sigma.fst hq
      exact alone_lock h hstep hu hlu
  obtain ⟨rfl, rfl⟩ | ⟨_, hr⟩ := hstep.get hr <;> obtain ⟨rfl, heq⟩ | ⟨_, ht⟩ := hstep.get ht
  · rfl
  · exact (hself hlr j t ht hlt).symm
  · subst heq
    exact hself hlt i r hr hlr
  · exact h.alone i j r t hr ht hlr hlt

theorem admins_congr {db' : Accounts} (h : db.users = db'.users) : db.admins = db'.admins := by
  rw [Accounts.admins, Accounts.admins, h]

theorem counted_step (h : Administered now s) (hstep : Stepped accountEngine s e p p' q next s')
    (i : Nat) (r : AccountProcess) (hr : s'.processes[i]? = some r) (hcounting : Counting r) :
    2 ≤ s'.db.admins.length := by
  obtain ⟨rfl, rfl⟩ | ⟨hi, hr⟩ := hstep.get hr
  · obtain ⟨hopen, count, hmore, hcount⟩ := hcounting
    rw [admins_congr (users_of_open h hstep hopen)]
    obtain hold | hq := hstep.mem_exchanges hcount
    · exact h.counted e.1 p hstep.process ⟨open_before h hstep, count, hmore, hold⟩
    · obtain rfl : AccountQuery.countAdmins = q := congrArg Sigma.fst hq
      obtain rfl : count = (p.view accountEngine s.db).admins.length :=
        eq_of_heq (Sigma.mk.inj hq).2
      rwa [admins_congr (view_counts h hstep rfl)] at hmore
  · have hbefore := h.counted i r hr hcounting
    obtain hsame | ⟨_, id, change, _, ⟨target, htarget, hid, hpermitted⟩, hdb⟩ :=
      users_step h hstep
    · rwa [admins_congr hsame]
    · -- The one that removes an administrator is alone, so it is not this one.
      have hnot : ¬ Counting p := fun hcounting' => hi
        (h.alone i e.1 r p hr hstep.process (hcounting.locking h hr)
          (hcounting'.locking h hstep.process))
      rw [admins_congr hdb]
      exact hbefore.trans (admins_length_le (admin_updated htarget hid hpermitted hnot))

theorem Permitted.mono {r' : AccountProcess} (hcounting : Counting r → Counting r')
    (h : Permitted now r user change) : Permitted now r' user change :=
  ⟨h.service, fun hadmin hremoved => hcounting (h.counting hadmin hremoved)⟩

theorem counting_step (hstep : Stepped accountEngine s e p p' q next s')
    (hq : q.ends = false) (h : Counting p) : Counting p' := by
  obtain ⟨hopen, count, hmore, hcount⟩ := h
  refine ⟨fun x hx => ?_, count, hmore, hstep.mem_exchanges_of_mem hcount⟩
  obtain hx | rfl := hstep.mem_exchanges hx
  · exact hopen x hx
  · exact hq

/-- The change of a user that a careful statement makes is permitted. -/
theorem permitted_step (h : Administered now s) (hcareful : Careful now s e)
    {next : AccountAnswer (.updateUser id change) → Account Unit}
    (hstep : Stepped accountEngine s e p p' (.updateUser id change) next s')
    (huser : user ∈ s.db.users.rows) (hid : user.id = id) : Permitted now p' user change := by
  subst hid
  have hchange := hcareful p _ next hstep.process hstep.program (_, change) rfl user huser rfl
  refine ⟨hchange.1, fun hadmin hremoved => ?_⟩
  cases change with
  | role value =>
      obtain ⟨found, hfound, hcounts⟩ := (admin_next h hstep).role _ value rfl
      have hread : found.1.role = .admin := hchange.2 hadmin hremoved _ hfound _ (if_pos rfl)
      obtain ⟨count, hmore, hcount⟩ := hcounts hread hremoved
      exact counting_step hstep rfl ⟨open_before h hstep, count, hmore, hcount⟩
  | displayName | subject | restriction | deactivated => exact absurd hadmin hremoved

/-- One user at most is changed in a transaction. -/
theorem changesUser_length (h : Administered now s)
    (hstep : Stepped accountEngine s e p p' q next s') :
    (p'.pending.filter AccountChange.changesUser).length ≤ 1 := by
  have hbefore := h.pending e.1 p hstep.process
  have hrules := admin_next h hstep
  have houtcome := hstep.outcome
  generalize p'.pending = pending, s'.db = db, s'.locks = locks, p'.inside = inside
    at houtcome ⊢
  cases houtcome with
  | opened | direct => exact hbefore.1
  | committed | aborted => exact Nat.zero_le 1
  | staged =>
      rw [List.filter_append]
      cases hnew : (accountChanges e.1 (p.view accountEngine s.db) e.2 q).filter
        AccountChange.changesUser with
      | nil =>
          change (_ ++ (accountChanges e.1 (p.view accountEngine s.db) e.2 q).filter
            AccountChange.changesUser).length ≤ 1
          rw [hnew, List.append_nil]
          exact hbefore.1
      | cons c rest =>
          have hmem := List.mem_filter.1 (hnew ▸ List.mem_cons_self : c ∈ _)
          obtain ⟨id, change, rfl, hc, hall, _⟩ := administers_changes hrules.kind hmem.1 hmem.2
          -- The statement is the first to change a user, so nothing waits.
          have hnone : p.pending.filter AccountChange.changesUser = [] := by
            refine List.filter_eq_nil_iff.2 fun c' hc' hchanges => ?_
            obtain ⟨⟨x, hx, hx'⟩, _⟩ := hbefore.2 c' hc' hchanges
            rw [(hrules.once (.inl rfl)).1 x hx] at hx'
            cases hx'
          change (_ ++ (accountChanges e.1 (p.view accountEngine s.db) e.2
            (.updateUser id change)).filter AccountChange.changesUser).length ≤ 1
          rw [hnone, hall, List.nil_append]
          exact (List.length_filter_le _ _).trans (Nat.le_refl 1)

theorem pending_change_step (h : Administered now s) (hcareful : Careful now s e)
    (hstep : Stepped accountEngine s e p p' q next s') (i : Nat) (r : AccountProcess)
    (hr : s'.processes[i]? = some r) (c : AccountChange) (hc : c ∈ r.pending)
    (hchanges : c.changesUser = true) : (∃ x ∈ r.exchanges, x.1.changesUser = true) ∧
      (⟨.transaction, ()⟩ : AccountExchange) ∈ r.exchanges ∧
      ∃ id change, c = .updateUser id change ∧ (i, .user id) ∈ s'.locks ∧
        ∃ user ∈ s'.db.users.rows, user.id = id ∧ Permitted now r user change := by
  obtain ⟨rfl, rfl⟩ | ⟨hi, hr⟩ := hstep.get hr
  · have hends : q.ends = false := by
      cases hq : q.ends with
      | false => rfl
      | true =>
          rw [hstep.pending_closed (ends_iff.1 hq)] at hc
          cases hc
    have hopen : Open r := by
      intro x hx
      obtain hx | rfl := hstep.mem_exchanges hx
      · exact open_before h hstep x hx
      · exact hends
    rw [users_of_open h hstep hopen]
    obtain hold | hnew := hstep.mem_pending hc
    · obtain ⟨⟨x, hx, hx'⟩, htransaction, id, change, rfl, hlock, user, huser, hid, hpermitted⟩ :=
        (h.pending e.1 p hstep.process).2 c hold hchanges
      exact ⟨⟨x, hstep.mem_exchanges_of_mem hx, hx'⟩, hstep.mem_exchanges_of_mem htransaction,
        id, change, rfl, locks_of_open hstep hopen hlock, user, huser, hid,
        hpermitted.mono (counting_step hstep hends)⟩
    · have hrules := admin_next h hstep
      obtain ⟨id, change, rfl, rfl, _, user, huser, hid⟩ :=
        administers_changes hrules.kind hnew hchanges
      obtain ⟨hfirst, htransaction⟩ := hrules.once (.inl rfl)
      rw [view_users h hstep.process hfirst] at huser
      exact ⟨⟨_, hstep.mem_exchanges_self, rfl⟩, hstep.mem_exchanges_of_mem htransaction,
        id, change, rfl, locks_new h hstep rfl htransaction List.mem_cons_self, user, huser, hid,
        permitted_step h hcareful hstep huser hid⟩
  · obtain ⟨hx, htransaction, id, change, rfl, hlock, user, huser, rfl, hpermitted⟩ :=
      (h.pending i r hr).2 c hc hchanges
    obtain ⟨huser', hlock'⟩ := locked_row h hstep hi huser hlock
    exact ⟨hx, htransaction, user.id, change, rfl, hlock', user, huser', rfl, hpermitted⟩

end Step

theorem administered_step (h : Administered now s) {e : Nat × AccountChoice}
    (hcareful : Careful now s e) : Administered now (s.step accountEngine e) := by
  have hrules := watched_step (E := accountEngine) h.rules e
  have hexclusive := exclusive_step (E := accountEngine) h.exclusive e
  obtain hstep | ⟨p, p', q, next, hstep⟩ := step_cases accountEngine s e
  · rwa [hstep]
  · refine ⟨hrules, hexclusive, fun i r hr hopen htransaction => ?_, fun i r hr => ⟨?_,
      pending_change_step h hcareful hstep i r hr⟩, locked_step h hstep, service_step h hstep,
      remains_step h hstep, holds_step h hstep, alone_step h hstep, counted_step h hstep⟩
    · obtain ⟨rfl, rfl⟩ | ⟨_, hr⟩ := hstep.get hr
      · exact hopen.inside hstep (h.inside e.1 p hstep.process) htransaction
      · exact h.inside i r hr hopen htransaction
    · obtain ⟨_, rfl⟩ | ⟨_, hr⟩ := hstep.get hr
      · exact changesUser_length h hstep
      · exact (h.pending i r hr).1

/-- Before anything has happened. -/
theorem administered_init (lib : AccountLibrary) {calls : List AccountCall}
    (hcalls : ∀ call ∈ calls, call.administers = true)
    (hservice : ∀ user ∈ db.users.rows, user.role = .admin → user.inService now = true)
    (hremains : ∃ user ∈ db.users.rows, user.role = .admin) :
    Administered now (accountSystem lib db calls) := by
  have hinit : ∀ (i : Nat) (p : AccountProcess),
      (accountSystem lib db calls).processes[i]? = some p →
      ∃ call ∈ calls, p = { program := call.program lib } := by
    intro i p hp
    rw [accountSystem, List.getElem?_map, Option.map_eq_some_iff] at hp
    obtain ⟨call, hcall, rfl⟩ := hp
    exact ⟨call, List.mem_of_getElem? hcall, rfl⟩
  have hpast : ∀ (i : Nat) (p : AccountProcess),
      (accountSystem lib db calls).processes[i]? = some p → p.exchanges = [] ∧ p.pending = [] := by
    intro i p hp
    obtain ⟨_, _, rfl⟩ := hinit i p hp
    exact ⟨rfl, rfl⟩
  refine ⟨?_, fun i j l hi => (by cases hi), fun i p hp _ h => ?_, fun i p hp => ?_,
    fun i p hp _ h => ?_, hservice, hremains, fun i p hp h => ?_, fun i j p r hp _ h => ?_,
    fun i p hp h => ?_⟩
  · intro i p hp
    obtain ⟨call, hcall, rfl⟩ := hinit i p hp
    exact watched_administration lib (hcalls call hcall)
  · rw [(hpast i p hp).1] at h
    cases h
  · rw [(hpast i p hp).2]
    exact ⟨Nat.zero_le 1, fun c hc => by cases hc⟩
  · rw [(hpast i p hp).1] at h
    cases h
  · rw [Locking, (hpast i p hp).1] at h
    cases h.2
  · rw [Locking, (hpast i p hp).1] at h
    cases h.2
  · rw [Counting, (hpast i p hp).1] at h
    obtain ⟨_, _, _, hmem⟩ := h
    cases hmem

namespace Sample

def administrator (id : Uuid) (subject username : String) : UserRow where
  id := id
  issuer := "arenacore:password"
  subject := subject
  username := username
  displayName := username
  role := .admin
  createdAt := 0

/-- One administrator, who has a session. -/
def oneAdmin : Accounts where
  users := Rows.insert {} (administrator owner "ada@example.org" "ada")
  credentials := Rows.insert {} ⟨owner, "ada@example.org", "secret"⟩
  sessions := Rows.insert {} ⟨execution, owner, 0, 1000, none, none⟩

def twoAdmins : Accounts :=
  { oneAdmin with
    users := oneAdmin.users.insert (administrator token "grace@example.org" "grace") }

def adminChoice : AccountChoice where
  now := 0
  fresh := problem
  hash := ""

/-- As many statements of the first request as a run needs. -/
def alone : List (Nat × AccountChoice) :=
  List.replicate 12 (0, adminChoice)

end Sample

end ArenaCore
