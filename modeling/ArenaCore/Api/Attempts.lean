import ArenaCore.Api.Accounts

/-!
# Login Attempts

`LoginService.begin` and `finish` up to the exchange with the identity provider.
`begin` draws a state and a browser token, and stores their hashes with a proof
that is encrypted for the state. `finish` finds the attempt of the state, deletes
it if its browser and the time are right, and only then decrypts the proof and
goes to the provider. The lookup, the deletion and the exchange are statements of
their own, and requests run side by side.

What follows the exchange is `issueIdentity`, in `Api.Accounts`. The rate limit and
the checks of the origin come before anything here.

## Main definitions

* `AttemptRow`, `Attempts`: The stored attempts.
* `LoginQuery`, `loginEngine`: The statements and what they do.
* `LoginLibrary`: Hashing and encryption, and `LoginLibrary.Sound` of them.
* `beginLogin`, `finishLogin`: The programs.
* `AttemptRules`: What the programs keep to.

## Theorems

* `watched_login_call`: Every request keeps to the rules.
-/

namespace ArenaCore

open Dialogue Concurrent

variable {state token : String} {key : String}

/-! ### Tables -/

structure AttemptRow where
  stateHash : String
  browserTokenHash : String
  encryptedPayload : String
  expiresAt : Int
deriving DecidableEq

abbrev Attempts := Rows AttemptRow.stateHash

inductive AttemptChange where
  | insert (row : AttemptRow)
  | delete (stateHashes : List String)
deriving DecidableEq

def Attempts.apply (db : Attempts) : AttemptChange → Attempts
  | .insert row => Rows.insert db row
  | .delete stateHashes => Rows.delete db fun row => decide (row.stateHash ∈ stateHashes)

/-! ### Statements -/

inductive SocialProvider where
  | auth0
  | google
  | github
deriving DecidableEq

structure LoginProof where
  provider : SocialProvider
  verifier : String
  nonce : String
  returnTo : Option String
deriving DecidableEq

/-- The parameters of a callback, without its state. -/
abbrev CallbackParams := List (String × String)

inductive LoginQuery where
  | now
  | fresh
  | iv
  | authorizationUrl (state : String) (proof : LoginProof)
  | transaction
  | commit
  | rollback
  | deleteStale (time : Int) (browserTokenHash : Option String)
  | createAttempt (row : AttemptRow)
  | findAttempt (stateHash : String)
  | consume (stateHash browserTokenHash : String) (time : Int)
  | exchange (params : CallbackParams) (state : String) (proof : LoginProof)
deriving DecidableEq

@[reducible] def LoginAnswer : LoginQuery → Type
  | .now => Int
  | .fresh | .iv => String
  | .authorizationUrl .. => Except ApiError String
  | .createAttempt _ => Bool
  | .findAttempt stateHash => Option { row : AttemptRow // row.stateHash = stateHash }
  | .consume .. => Nat
  | .exchange .. => Except ApiError Identity
  | _ => Unit

/-- What the environment decides for a statement. -/
structure LoginChoice where
  now : Int
  token : String
  iv : String
  location : Except ApiError String
  identity : Except ApiError Identity

/-- Attempts that are over, and those of the browser. -/
def Attempts.stale (db : Attempts) (time : Int) (browserTokenHash : Option String) : List String :=
  (db.rows.filter fun row => decide (row.expiresAt ≤ time) ||
    browserTokenHash.any fun h => decide (row.browserTokenHash = h)).map (·.stateHash)

def Attempts.consumable (db : Attempts) (stateHash browserTokenHash : String) (time : Int) :
    List String :=
  (db.rows.filter fun row => decide (row.stateHash = stateHash) &&
    decide (row.browserTokenHash = browserTokenHash) && decide (time < row.expiresAt)).map
      (·.stateHash)

def loginAnswer (db : Attempts) (choice : LoginChoice) : (q : LoginQuery) → LoginAnswer q
  | .now => choice.now
  | .fresh => choice.token
  | .iv => choice.iv
  | .authorizationUrl .. => choice.location
  | .transaction | .commit | .rollback | .deleteStale .. => ()
  | .createAttempt row => (Rows.find db row.stateHash).isNone
  | .findAttempt stateHash => Rows.lookup db stateHash
  | .consume stateHash browserTokenHash time =>
      (db.consumable stateHash browserTokenHash time).length
  | .exchange .. => choice.identity

def loginChanges (db : Attempts) : LoginQuery → List AttemptChange
  | .deleteStale time browserTokenHash => [.delete (db.stale time browserTokenHash)]
  | .createAttempt row => if (Rows.find db row.stateHash).isNone then [.insert row] else []
  | .consume stateHash browserTokenHash time =>
      [.delete (db.consumable stateHash browserTokenHash time)]
  | _ => []

/-- Rows are locked by the hash of their state, new ones too. -/
def loginLocks (db : Attempts) : LoginQuery → List String
  | .deleteStale time browserTokenHash => db.stale time browserTokenHash
  | .createAttempt row => [row.stateHash]
  | .consume stateHash browserTokenHash time => db.consumable stateHash browserTokenHash time
  | _ => []

def loginKind : LoginQuery → Kind
  | .transaction => .opens
  | .commit => .commits
  | .rollback => .aborts
  | _ => .statement

def loginEngine : Engine Attempts AttemptChange String LoginChoice LoginQuery LoginAnswer where
  kind := loginKind
  answer := loginAnswer
  changes _ db _ q := loginChanges db q
  apply := Attempts.apply
  locks := loginLocks

/-! ### Where rows come from -/

/-- A statement that changes attempts. -/
def LoginQuery.stores : LoginQuery → Bool
  | .deleteStale .. | .createAttempt _ | .consume .. => true
  | _ => false

variable {db : Attempts} {row : AttemptRow} {c : AttemptChange}

theorem attempt_apply (h : row ∈ (db.apply c).rows) : c = .insert row ∨
      (row ∈ db.rows ∧ ∀ hashes, c = .delete hashes → row.stateHash ∉ hashes) := by
  cases c with
  | insert new =>
      obtain rfl | h := Rows.mem_insert h
      · exact .inl rfl
      · exact .inr ⟨h, by rintro _ ⟨⟩⟩
  | delete hashes =>
      obtain ⟨hmem, hkeeps⟩ := Rows.mem_delete.1 h
      refine .inr ⟨hmem, ?_⟩
      rintro _ ⟨⟩
      exact of_decide_eq_false hkeeps

variable {changes : List AttemptChange}

/-- A row after some changes is new, or it was there and none of them deletes it. -/
theorem attempt_origin (h : row ∈ (changes.foldl Attempts.apply db).rows) : .insert row ∈ changes ∨
      (row ∈ db.rows ∧ ∀ hashes, .delete hashes ∈ changes → row.stateHash ∉ hashes) := by
  induction changes generalizing db with
  | nil => exact .inr ⟨h, fun _ h => by cases h⟩
  | cons c changes ih =>
      obtain hnew | ⟨hold, hrest⟩ := ih h
      · exact .inl (List.mem_cons_of_mem _ hnew)
      · obtain rfl | ⟨hold, hfirst⟩ := attempt_apply hold
        · exact .inl List.mem_cons_self
        · refine .inr ⟨hold, fun hashes hmem => ?_⟩
          obtain hmem | hmem := List.mem_cons.1 hmem
          · exact hfirst hashes hmem.symm
          · exact hrest hashes hmem

/-- A row stays unless it is deleted. -/
theorem attempt_kept (hrow : row ∈ db.rows)
    (h : ∀ c ∈ changes, ∃ hashes, c = .delete hashes ∧ row.stateHash ∉ hashes) :
    row ∈ (changes.foldl Attempts.apply db).rows := by
  induction changes generalizing db with
  | nil => exact hrow
  | cons c changes ih =>
      obtain ⟨hashes, rfl, hnot⟩ := h c List.mem_cons_self
      exact ih (Rows.mem_delete.2 ⟨hrow, decide_eq_false hnot⟩) fun c hc =>
        h c (List.mem_cons_of_mem _ hc)

variable {q : LoginQuery}

/-- A statement that changes attempts stores. -/
theorem stores_of_changes (h : c ∈ loginChanges db q) : q.stores = true := by
  cases q with
  | deleteStale | createAttempt | consume => rfl
  | _ => cases h

theorem insert_of_changes (h : .insert row ∈ loginChanges db q) :
    q = .createAttempt row ∧ (Rows.find db row.stateHash).isNone = true := by
  cases q with
  | createAttempt new =>
      simp only [loginChanges] at h
      split at h
      · next hnone =>
          cases List.mem_singleton.1 h
          exact ⟨rfl, hnone⟩
      · cases h
  | deleteStale | consume => cases List.mem_singleton.1 h
  | _ => cases h

theorem mem_stale (hrow : row ∈ db.rows) (time : Int) :
    row.stateHash ∈ db.stale time (some row.browserTokenHash) :=
  List.mem_map.2 ⟨row, List.mem_filter.2 ⟨hrow, by simp⟩, rfl⟩

theorem mem_consumable {stateHash hash stateHash' : String} {time : Int} :
    stateHash' ∈ db.consumable stateHash hash time ↔ ∃ row ∈ db.rows, row.stateHash = stateHash' ∧
      row.stateHash = stateHash ∧ row.browserTokenHash = hash ∧ time < row.expiresAt := by
  simp only [Attempts.consumable, List.mem_map, List.mem_filter, Bool.and_eq_true,
    decide_eq_true_eq]
  constructor
  · rintro ⟨row, ⟨hrow, ⟨hstate, hhash⟩, htime⟩, rfl⟩
    exact ⟨row, hrow, rfl, hstate, hhash, htime⟩
  · rintro ⟨row, hrow, rfl, hstate, hhash, htime⟩
    exact ⟨row, ⟨hrow, ⟨hstate, hhash⟩, htime⟩, rfl⟩

/-! ### Programs -/

/-- The key of the deployment, with `hashToken` of `auth/session.ts` and the functions of
    `auth/login-proof.ts`, which are left open. -/
structure LoginLibrary where
  authTransactionKey : Option String
  hashToken : String → String
  /-- With the key, the hash of the state, and the random vector last. -/
  encryptProof : String → String → LoginProof → String → String
  decryptProof : String → String → String → Option LoginProof

/-- Hashes do not collide, and a payload decrypts to what was encrypted or not at
    all. -/
structure LoginLibrary.Sound (lib : LoginLibrary) : Prop where
  hash_injective : Function.Injective lib.hashToken
  decrypt_encrypt : ∀ key stateHash proof iv proof',
    lib.decryptProof key stateHash (lib.encryptProof key stateHash proof iv) = some proof' →
      proof' = proof

abbrev Login := Dialogue LoginQuery LoginAnswer ApiError

def Login.statement (q : LoginQuery) : Login (LoginAnswer q) :=
  .ask q fun a => .done (.ok a)

def loginTtlSeconds : Int := 300

/-- `/^[A-Za-z0-9_-]{43}$/`. -/
def validToken (token : String) : Bool :=
  decide (token.length = 43) && token.toList.all fun c => c.isAlphanum || c == '_' || c == '-'

inductive LoginOutcome where
  | begun (location browserToken : String)
  | identified (identity : Identity) (returnTo : String)

section Programs

variable (lib : LoginLibrary)

open Login

def loginKey : Login String :=
  match lib.authTransactionKey with
  | none => .raise ⟨503, "IDENTITY_NOT_CONFIGURED", "Sign-in is not available yet.", none⟩
  | some key => pure key

/-- The hash of the token that the browser had before. -/
def oldBrowserHash (cookie : Option String) : Option String :=
  (cookie.filter validToken).map lib.hashToken

/-- The transaction of `begin`. -/
def storeAttempt (key : String) (cookie : Option String) (state browserToken : String)
    (proof : LoginProof) : Login Unit := do
  statement .transaction
  let time ← statement .now
  statement (.deleteStale time (oldBrowserHash lib cookie))
  let iv ← statement .iv
  let present ← statement .now
  let created ← statement (.createAttempt
    { stateHash := lib.hashToken state
      browserTokenHash := lib.hashToken browserToken
      encryptedPayload := lib.encryptProof key (lib.hashToken state) proof iv
      expiresAt := present + loginTtlSeconds * 1000 })
  if created then statement .commit
  else do
    statement .rollback
    .raise internalError

def beginLogin (provider : SocialProvider) (returnTo : String) (cookie : Option String) :
    Login LoginOutcome := do
  let key ← loginKey lib
  let state ← statement .fresh
  let browserToken ← statement .fresh
  let verifier ← statement .fresh
  let nonce ← statement .fresh
  let proof : LoginProof := ⟨provider, verifier, nonce, some returnTo⟩
  let location ← statement (.authorizationUrl state proof)
  match location with
  | .error e => .raise e
  | .ok location => do
      storeAttempt lib key cookie state browserToken proof
      pure (.begun location browserToken)

def invalidLoginState (message : String) : ApiError :=
  ⟨403, "INVALID_LOGIN_STATE", message, none⟩

def loginFailed : ApiError :=
  ⟨401, "LOGIN_FAILED", "Sign-in could not be verified. Please start again.", none⟩

/-- What `finish` does once the attempt is its own. -/
def exchangeProof (key : String) (state : String) (params : CallbackParams) (payload : String) :
    Login LoginOutcome :=
  match lib.decryptProof key (lib.hashToken state) payload with
  | none => .raise loginFailed
  | some proof => do
      let identity ← statement (.exchange params state proof)
      match identity with
      | .error e => .raise e
      | .ok identity => pure (.identified identity (proof.returnTo.getD "/problems"))

def finishLogin (cookie : Option String) (state : String) (params : CallbackParams) :
    Login LoginOutcome := do
  let key ← loginKey lib
  match cookie.filter validToken with
  | none =>
      .raise (invalidLoginState "Sign-in browser state is missing. Please start again.")
  | some browserToken => do
      let attempt ← statement (.findAttempt (lib.hashToken state))
      match attempt with
      | none =>
          .raise (invalidLoginState
            "Sign-in has expired or was already used. Please start again.")
      | some attempt => do
          let time ← statement .now
          let count ← statement
            (.consume (lib.hashToken state) (lib.hashToken browserToken) time)
          if count ≠ 1 then
            .raise (invalidLoginState
              "Sign-in state could not be verified. Please start again.")
          else exchangeProof lib key state params attempt.1.encryptedPayload

inductive LoginCall where
  | begin (provider : SocialProvider) (returnTo : String) (cookie : Option String)
  | finish (cookie : Option String) (state : String) (params : CallbackParams)

def LoginCall.program : LoginCall → Login LoginOutcome
  | .begin provider returnTo cookie => beginLogin lib provider returnTo cookie
  | .finish cookie state params => finishLogin lib cookie state params

/-- Requests that have not begun, and no attempts. -/
def loginSystem (calls : List LoginCall) :
    System Attempts AttemptChange String LoginQuery LoginAnswer ApiError LoginOutcome where
  db := {}
  processes := calls.map fun call => { program := call.program lib }

end Programs

/-! ### What the programs keep to -/

abbrev LoginExchange := Exchange LoginQuery LoginAnswer

def LoginQuery.closes : LoginQuery → Bool
  | .commit | .rollback => true
  | _ => false

/-- The request has drawn its state, its token and its proof, and the row is made
    of them. -/
def Drafts (lib : LoginLibrary) (call : LoginCall) (past : List LoginExchange)
    (state token : String) (proof : LoginProof) (row : AttemptRow) : Prop :=
  ∃ provider returnTo cookie verifier nonce key iv rest,
    call = .begin provider returnTo cookie ∧
    past = ⟨.fresh, state⟩ :: ⟨.fresh, token⟩ :: ⟨.fresh, verifier⟩ :: ⟨.fresh, nonce⟩ :: rest ∧
    proof = ⟨provider, verifier, nonce, some returnTo⟩ ∧
    lib.authTransactionKey = some key ∧ row.stateHash = lib.hashToken state ∧
    row.browserTokenHash = lib.hashToken token ∧
    row.encryptedPayload = lib.encryptProof key (lib.hashToken state) proof iv

variable {lib : LoginLibrary} {past : List LoginExchange} {call : LoginCall}

theorem Drafts.append {proof : LoginProof} (h : Drafts lib call past state token proof row)
    (xs : List LoginExchange) : Drafts lib call (past ++ xs) state token proof row := by
  obtain ⟨provider, returnTo, cookie, verifier, nonce, key, iv, rest, hcall, rfl, hrest⟩ := h
  exact ⟨provider, returnTo, cookie, verifier, nonce, key, iv, rest ++ xs, hcall, rfl, hrest⟩

/-- A transaction is the last thing a request does, and it cleans up after the
    browser that asks. Rows are made of what the request has drawn. An attempt is
    consumed for the state and by the token of the request, and the provider is
    asked with the proof of an attempt that was found before and consumed. -/
structure AttemptRules (lib : LoginLibrary) (st : LoginCall × List LoginExchange)
    (q : LoginQuery) : Prop where
  last : ∀ x ∈ st.2, x.1.closes = false
  inside : (∃ time hash, q = .deleteStale time hash) ∨ (∃ row, q = .createAttempt row) →
    (⟨.transaction, ()⟩ : LoginExchange) ∈ st.2
  first : ∀ time hash, q = .deleteStale time hash → ∀ x ∈ st.2, x.1.stores = false
  cleanup : ∀ time hash, q = .deleteStale time hash →
    ∃ provider returnTo cookie, st.1 = .begin provider returnTo cookie ∧
      hash = oldBrowserHash lib cookie
  create : ∀ row, q = .createAttempt row →
    ∃ state token proof, Drafts lib st.1 st.2 state token proof row
  consume : ∀ stateHash hash time, q = .consume stateHash hash time →
    (∀ x ∈ st.2, x.1 ≠ .transaction) ∧
    ∃ token state params, st.1 = .finish (some token) state params ∧ validToken token = true ∧
      stateHash = lib.hashToken state ∧ hash = lib.hashToken token
  exchange : ∀ params state proof, q = .exchange params state proof →
    ∃ token key time attempt, st.1 = .finish (some token) state params ∧
      lib.authTransactionKey = some key ∧
      (⟨.findAttempt (lib.hashToken state), some attempt⟩ : LoginExchange) ∈ st.2 ∧
      (⟨.consume (lib.hashToken state) (lib.hashToken token) time, 1⟩ : LoginExchange) ∈ st.2 ∧
      lib.decryptProof key (lib.hashToken state) attempt.1.encryptedPayload = some proof

abbrev AttemptWatched (lib : LoginLibrary) {α : Type}
    (post : Except ApiError α → LoginCall × List LoginExchange → Prop) (p : Login α)
    (st : LoginCall × List LoginExchange) : Prop :=
  Watched (fun st x => (st.1, st.2 ++ [x])) (AttemptRules lib) post p st

/-- A statement that the rules are not about. -/
def LoginQuery.plain : LoginQuery → Bool
  | .now | .fresh | .iv | .authorizationUrl .. | .transaction | .commit | .rollback
  | .findAttempt _ => true
  | _ => false

theorem AttemptRules.of_plain {st : LoginCall × List LoginExchange}
    (hlast : ∀ x ∈ st.2, x.1.closes = false) (hq : q.plain = true) : AttemptRules lib st q where
  last := hlast
  inside h := by obtain ⟨_, _, rfl⟩ | ⟨_, rfl⟩ := h <;> cases hq
  first _ _ h := by subst h; cases hq
  cleanup _ _ h := by subst h; cases hq
  create _ h := by subst h; cases hq
  consume _ _ _ h := by subst h; cases hq
  exchange _ _ _ h := by subst h; cases hq

theorem attempt_statement {α : Type}
    {post : Except ApiError α → LoginCall × List LoginExchange → Prop} {f : LoginAnswer q → Login α}
    (hq : AttemptRules lib (call, past) q)
    (hf : ∀ a, AttemptWatched lib post (f a) (call, past ++ [⟨q, a⟩])) :
    AttemptWatched lib post (Login.statement q >>= f) (call, past) :=
  ⟨hq, hf⟩

/-- Nothing is over yet. -/
def Ongoing (past : List LoginExchange) : Prop :=
  ∀ x ∈ past, x.1.closes = false

theorem Ongoing.add (h : Ongoing past) {x : LoginExchange} (hx : x.1.closes = false) :
    Ongoing (past ++ [x]) := by
  intro y hy
  obtain hy | hy := List.mem_append.1 hy
  · exact h y hy
  · rw [List.mem_singleton.1 hy]
    exact hx

/-- A callback that succeeds has asked the provider. -/
def Asked (r : Except ApiError LoginOutcome) (st : LoginCall × List LoginExchange) : Prop :=
  ∀ outcome cookie state params, r = .ok outcome → st.1 = .finish cookie state params →
    ∃ proof answer, (⟨.exchange params state proof, answer⟩ : LoginExchange) ∈ st.2

theorem watched_storeAttempt (lib : LoginLibrary) {provider : SocialProvider} {returnTo : String}
    {cookie : Option String} {verifier nonce : String} {rest : List LoginExchange}
    (hkey : lib.authTransactionKey = some key) (hongoing : Ongoing rest)
    (hstores : ∀ x ∈ rest, x.1.stores = false) :
    AttemptWatched lib (fun _ st => st.1 = .begin provider returnTo cookie)
      (storeAttempt lib key cookie state token ⟨provider, verifier, nonce, some returnTo⟩)
      (.begin provider returnTo cookie, ⟨.fresh, state⟩ :: ⟨.fresh, token⟩ ::
        ⟨.fresh, verifier⟩ :: ⟨.fresh, nonce⟩ :: rest) := by
  have h : Ongoing (⟨.fresh, state⟩ :: ⟨.fresh, token⟩ :: ⟨.fresh, verifier⟩ ::
      ⟨.fresh, nonce⟩ :: rest) := by
    intro x hx
    simp only [List.mem_cons] at hx
    obtain rfl | rfl | rfl | rfl | hx := hx
    · rfl
    · rfl
    · rfl
    · rfl
    · exact hongoing x hx
  refine attempt_statement (.of_plain h rfl) fun _ => ?_
  have h := h.add (x := ⟨.transaction, ()⟩) rfl
  refine attempt_statement (.of_plain h rfl) fun time => ?_
  have h := h.add (x := ⟨.now, time⟩) rfl
  refine attempt_statement ⟨h, fun _ => by simp, ?_, ?_, (by rintro _ ⟨⟩), (by rintro _ _ _ ⟨⟩),
    (by rintro _ _ _ ⟨⟩)⟩ fun _ => ?_
  · rintro _ _ _ x hx
    simp only [List.mem_append, List.mem_cons, List.not_mem_nil, or_false] at hx
    obtain ((rfl | rfl | rfl | rfl | hx) | rfl) | rfl := hx
    all_goals first | rfl | exact hstores x hx
  · rintro _ _ ⟨⟩
    exact ⟨provider, returnTo, cookie, rfl, rfl⟩
  have h := h.add (x := ⟨.deleteStale time (oldBrowserHash lib cookie), ()⟩) rfl
  refine attempt_statement (.of_plain h rfl) fun iv => ?_
  have h := h.add (x := ⟨.iv, iv⟩) rfl
  refine attempt_statement (.of_plain h rfl) fun present => ?_
  have h := h.add (x := ⟨.now, present⟩) rfl
  refine attempt_statement ⟨h, fun _ => by simp, (by rintro _ _ ⟨⟩), (by rintro _ _ ⟨⟩), ?_,
    (by rintro _ _ _ ⟨⟩), (by rintro _ _ _ ⟨⟩)⟩ fun created => ?_
  · rintro _ ⟨⟩
    exact ⟨state, token, _, provider, returnTo, cookie, verifier, nonce, key, iv, _, rfl, rfl, rfl,
      hkey, rfl, rfl, rfl⟩
  have h := h.add (x := ⟨.createAttempt _, created⟩) rfl
  cases created with
  | true | false => exact ⟨.of_plain h rfl, fun _ => rfl⟩

theorem watched_beginLogin (lib : LoginLibrary) (provider : SocialProvider) (returnTo : String)
    (cookie : Option String) :
    AttemptWatched lib Asked (beginLogin lib provider returnTo cookie)
      (.begin provider returnTo cookie, []) := by
  unfold beginLogin loginKey
  cases hkey : lib.authTransactionKey with
  | none => rintro _ _ _ _ ⟨⟩
  | some key =>
      refine attempt_statement (.of_plain (fun x hx => by cases hx) rfl) fun state => ?_
      refine attempt_statement (.of_plain (by simp [LoginQuery.closes]) rfl) fun token => ?_
      refine attempt_statement (.of_plain (by simp [LoginQuery.closes]) rfl) fun verifier => ?_
      refine attempt_statement (.of_plain (by simp [LoginQuery.closes]) rfl) fun nonce => ?_
      refine attempt_statement (.of_plain (by simp [LoginQuery.closes]) rfl) fun location => ?_
      cases location with
      | error e => rintro _ _ _ _ ⟨⟩
      | ok location =>
          refine (watched_storeAttempt lib hkey (fun x hx => ?_) fun x hx => ?_).bind
            (fun e st hst => by rintro _ _ _ _ ⟨⟩) fun _ st hst => ?_
          · rw [List.mem_singleton.1 hx]
            rfl
          · rw [List.mem_singleton.1 hx]
            rfl
          · rintro _ _ _ _ _ hfinish
            rw [hst] at hfinish
            cases hfinish

/-- The end of a callback: the provider is asked with the proof of the attempt. -/
theorem watched_exchangeProof (lib : LoginLibrary) {params : CallbackParams}
    (hkey : lib.authTransactionKey = some key)
    (attempt : { row : AttemptRow // row.stateHash = lib.hashToken state }) (time : Int)
    (count : Nat) :
    AttemptWatched lib Asked
      (if count ≠ 1 then .raise (invalidLoginState
          "Sign-in state could not be verified. Please start again.")
        else exchangeProof lib key state params attempt.1.encryptedPayload)
      (.finish (some token) state params,
        [⟨.findAttempt (lib.hashToken state), some attempt⟩, ⟨.now, time⟩,
          ⟨.consume (lib.hashToken state) (lib.hashToken token) time, count⟩]) := by
  split
  · rintro _ _ _ _ ⟨⟩
  · next hcount =>
      obtain rfl : count = 1 := not_not.1 hcount
      unfold exchangeProof
      split
      · rintro _ _ _ _ ⟨⟩
      · next proof hproof =>
          refine attempt_statement ⟨by simp [LoginQuery.closes], ?_, (by rintro _ _ ⟨⟩),
            (by rintro _ _ ⟨⟩), (by rintro _ ⟨⟩), (by rintro _ _ _ ⟨⟩), ?_⟩ fun identity => ?_
          · rintro (⟨_, _, ⟨⟩⟩ | ⟨_, ⟨⟩⟩)
          · rintro _ _ _ ⟨⟩
            exact ⟨token, key, time, attempt, rfl, hkey, by simp, by simp, hproof⟩
          · cases identity with
            | error e => rintro _ _ _ _ ⟨⟩
            | ok identity =>
                rintro _ _ _ _ _ ⟨⟩
                exact ⟨proof, .ok identity, by simp⟩

theorem watched_finishLogin (lib : LoginLibrary) (cookie : Option String) (state : String)
    (params : CallbackParams) :
    AttemptWatched lib Asked (finishLogin lib cookie state params)
      (.finish cookie state params, []) := by
  unfold finishLogin loginKey
  cases hkey : lib.authTransactionKey with
  | none => rintro _ _ _ _ ⟨⟩
  | some key =>
      cases hcookie : cookie.filter validToken with
      | none => rintro _ _ _ _ ⟨⟩
      | some token =>
          obtain ⟨rfl, hvalid⟩ := Option.filter_eq_some_iff.1 hcookie
          refine attempt_statement (.of_plain (fun x hx => by cases hx) rfl) fun attempt => ?_
          cases attempt with
          | none => rintro _ _ _ _ ⟨⟩
          | some attempt =>
              refine attempt_statement (.of_plain (by simp [LoginQuery.closes]) rfl) fun time => ?_
              refine attempt_statement ⟨by simp [LoginQuery.closes], ?_, (by rintro _ _ ⟨⟩),
                (by rintro _ _ ⟨⟩), (by rintro _ ⟨⟩), ?_, (by rintro _ _ _ ⟨⟩)⟩ fun count => ?_
              · rintro (⟨_, _, ⟨⟩⟩ | ⟨_, ⟨⟩⟩)
              · rintro _ _ _ ⟨⟩
                exact ⟨by simp, token, state, params, rfl, hvalid, rfl, rfl⟩
              · exact watched_exchangeProof lib hkey attempt time count

/-- Every request keeps to the rules. -/
theorem watched_login_call (lib : LoginLibrary) (call : LoginCall) :
    AttemptWatched lib Asked (call.program lib) (call, []) := by
  cases call with
  | begin provider returnTo cookie => exact watched_beginLogin lib provider returnTo cookie
  | finish cookie state params => exact watched_finishLogin lib cookie state params

end ArenaCore
