import ArenaCore.Api.Attempts

/-!
# An Attempt Is Used Once

However `begin` and `finish` requests interleave, a state that `begin` has issued
takes at most one callback to the provider. That callback comes from the browser
that the state was issued to, in time, before the browser began anew, and with the
proof that was made for the state.

The rows say who issued them: a state is drawn once (`FreshRun`) and hashes do not
collide, so the hash of a state leads to one request, and a row that has gone does
not come back. What a cleanup has done to a row that is still there is in
`Attempted.cleaned`: it waits with the row locked, or it was undone.

## Main definitions

* `FreshRun`: Tokens are drawn once.
* `Issued`: The attempt that a request has stored.
* `SingleUse`: The property.
* `Attempted`: The invariant.

## Theorems

* `attempted_step`, `attempted_run`: Statements keep the invariant.
* `attempt_single_use`: Every run has the property.
-/

namespace ArenaCore

open Dialogue Concurrent

variable {lib : LoginLibrary} {calls : List LoginCall} {call : LoginCall}

abbrev LoginProcess := Process AttemptChange LoginQuery LoginAnswer ApiError LoginOutcome

abbrev LoginSystem :=
  System Attempts AttemptChange String LoginQuery LoginAnswer ApiError LoginOutcome

/-! ### The property and its assumption -/

/-- The token that an exchange has drawn. -/
def drawn : LoginExchange → Option String
  | ⟨.fresh, token⟩ => some token
  | _ => none

/-- A token that is drawn has not been drawn before. -/
def FreshStep (s : LoginSystem) (e : Nat × LoginChoice) : Prop :=
  ∀ (p : LoginProcess) (next : LoginAnswer .fresh → Login LoginOutcome),
    s.processes[e.1]? = some p → p.program = .ask .fresh next →
    ∀ r ∈ s.processes, ∀ x ∈ r.exchanges, drawn x ≠ some e.2.token

def LoginQuery.asksProvider : LoginQuery → Bool
  | .exchange .. => true
  | _ => false

/-- The statement draws a token. -/
def LoginQuery.draws : LoginQuery → Bool
  | .fresh => true
  | _ => false

instance (s : LoginSystem) (e : Nat × LoginChoice) : Decidable (FreshStep s e) :=
  match hp : s.processes[e.1]? with
  | none => isTrue fun p _ hp' _ => by rw [hp] at hp'; cases hp'
  | some p =>
      match hprogram : p.program with
      | .done _ => isTrue fun p' _ hp' hq => by
          obtain rfl := Option.some.inj (hp.symm.trans hp')
          rw [hprogram] at hq
          cases hq
      | .ask q next =>
          decidable_of_iff (q.draws = true →
            ∀ r ∈ s.processes, ∀ x ∈ r.exchanges, drawn x ≠ some e.2.token) (by
            constructor
            · intro h p' next' hp' hq
              obtain rfl := Option.some.inj (hp.symm.trans hp')
              cases hprogram.symm.trans hq
              exact h rfl
            · intro h hdraws
              cases q with
              | fresh => exact h p next hp hprogram
              | _ => cases hdraws)

def FreshRun : LoginSystem → List (Nat × LoginChoice) → Prop
  | _, [] => True
  | s, e :: events => FreshStep s e ∧ FreshRun (s.step loginEngine e) events

instance decidableFreshRun :
    (s : LoginSystem) → (events : List (Nat × LoginChoice)) → Decidable (FreshRun s events)
  | _, [] => isTrue trivial
  | s, e :: events =>
      have := decidableFreshRun (s.step loginEngine e) events
      inferInstanceAs (Decidable (FreshStep s e ∧ FreshRun (s.step loginEngine e) events))

/-- The request at a place, where there is one. -/
def callAt (calls : List LoginCall) (i : Nat) : LoginCall :=
  calls[i]?.getD (.finish none "" [])

/-- The attempt that a request has stored, for its state, its browser token and its
    proof. -/
def Issued (lib : LoginLibrary) (calls : List LoginCall) (s : LoginSystem) (j : Nat)
    (state token : String) (proof : LoginProof) (row : AttemptRow) : Prop :=
  ∃ issuer, s.processes[j]? = some issuer ∧
    Drafts lib (callAt calls j) issuer.exchanges state token proof row ∧
    (⟨.createAttempt row, true⟩ : LoginExchange) ∈ issuer.exchanges

/-- The request has gone to the provider. -/
def Exchanged (s : LoginSystem) (i : Nat) (proof : LoginProof) : Prop :=
  ∃ time params state answer, s.Did i time ⟨.exchange params state proof, answer⟩

/-- The attempt of a state, and the callback that has used it: it carries the token
    of the attempt, it was in time, and the browser had not begun anew. -/
def UsedBy (lib : LoginLibrary) (calls : List LoginCall) (s : LoginSystem) (i : Nat)
    (cookie : Option String) (state : String) (proof : LoginProof) : Prop :=
  ∃ (j : Nat) (token : String) (row : AttemptRow) (issuedAt usedAt : Nat) (clock : Int),
    Issued lib calls s j state token proof row ∧ s.Did j issuedAt ⟨.commit, ()⟩ ∧
    cookie = some token ∧
    s.Did i usedAt ⟨.consume (lib.hashToken state) (lib.hashToken token) clock, (1 : Nat)⟩ ∧
    issuedAt < usedAt ∧ clock < row.expiresAt ∧
    ∀ (k : Nat) (provider : SocialProvider) (returnTo : String) (cleanedAt committedAt : Nat)
      (time : Int) (hash : Option String),
      callAt calls k = .begin provider returnTo (some token) →
      s.Did k cleanedAt ⟨.deleteStale time hash, ()⟩ → issuedAt < cleanedAt →
      s.Did k committedAt ⟨.commit, ()⟩ → usedAt < cleanedAt

structure SingleUse (lib : LoginLibrary) (calls : List LoginCall) (s : LoginSystem) : Prop where
  /-- Who goes to the provider uses an attempt of its own. -/
  genuine : ∀ (i : Nat) (cookie : Option String) (state : String) (params : CallbackParams)
    (proof : LoginProof), callAt calls i = .finish cookie state params → Exchanged s i proof →
    UsedBy lib calls s i cookie state proof
  /-- Nobody else goes there for the same state. -/
  once : ∀ (i j : Nat) (cookie cookie' : Option String) (state : String)
    (params params' : CallbackParams) (proof proof' : LoginProof),
    callAt calls i = .finish cookie state params →
    callAt calls j = .finish cookie' state params' →
    Exchanged s i proof → Exchanged s j proof' → i = j
  /-- All other callbacks fail. -/
  fails : ∀ (i : Nat) (p : LoginProcess) (cookie : Option String) (state : String)
    (params : CallbackParams) (result : Except ApiError LoginOutcome),
    s.processes[i]? = some p → callAt calls i = .finish cookie state params →
    p.program = .done result → (∀ proof, ¬ Exchanged s i proof) → ∃ e, result = .error e
  /-- A callback from another browser leaves the attempt where it is. -/
  keeps : ∀ (e : Nat × LoginChoice) (cookie : Option String) (state state' token : String)
    (params : CallbackParams) (j : Nat) (proof : LoginProof) (row : AttemptRow),
    callAt calls e.1 = .finish cookie state params → Issued lib calls s j state' token proof row →
    row ∈ s.db.rows → cookie ≠ some token → row ∈ (s.step loginEngine e).db.rows

/-! ### The invariant -/

/-- No token is drawn by two requests. -/
def DrawnOnce (s : LoginSystem) : Prop :=
  ∀ i j time time' token, s.Did i time ⟨.fresh, token⟩ → s.Did j time' ⟨.fresh, token⟩ → i = j

/-- A transaction is closed once. -/
def ClosedOnce (s : LoginSystem) : Prop :=
  ∀ (i time time' : Nat) (x x' : LoginExchange), s.Did i time x → s.Did i time' x' →
    x.1.closes = true → x'.1.closes = true → time = time' ∧ x = x'

/-- What an exchange says about its request. -/
structure AttemptFact (lib : LoginLibrary) (call : LoginCall) (did : LoginExchange → Prop)
    (x : LoginExchange) : Prop where
  cleanup : ∀ time hash, x.1 = .deleteStale time hash → did ⟨.transaction, ()⟩ ∧
    ∃ provider returnTo cookie, call = .begin provider returnTo cookie ∧
      hash = oldBrowserHash lib cookie
  consume : ∀ stateHash hash time, x.1 = .consume stateHash hash time →
    ∃ token state params, call = .finish (some token) state params ∧ validToken token = true ∧
      stateHash = lib.hashToken state ∧ hash = lib.hashToken token
  exchange : ∀ params state proof, x.1 = .exchange params state proof →
    ∃ token key time attempt, call = .finish (some token) state params ∧
      lib.authTransactionKey = some key ∧
      did ⟨.findAttempt (lib.hashToken state), some attempt⟩ ∧
      did ⟨.consume (lib.hashToken state) (lib.hashToken token) time, (1 : Nat)⟩ ∧
      lib.decryptProof key (lib.hashToken state) attempt.1.encryptedPayload = some proof

theorem AttemptFact.mono {did did' : LoginExchange → Prop} {x : LoginExchange}
    (h : AttemptFact lib call did x) (hdid : ∀ y, did y → did' y) :
    AttemptFact lib call did' x where
  cleanup time hash hx := (h.cleanup time hash hx).imp_left (hdid _)
  consume := h.consume
  exchange params state proof hx := by
    obtain ⟨token, key, time, attempt, hcall, hkey, hfound, hused, hproof⟩ :=
      h.exchange params state proof hx
    exact ⟨token, key, time, attempt, hcall, hkey, hdid _ hfound, hdid _ hused, hproof⟩

theorem AttemptRules.fact {past : List LoginExchange} {q : LoginQuery}
    (h : AttemptRules lib (call, past) q) (a : LoginAnswer q) :
    AttemptFact lib call (· ∈ past) ⟨q, a⟩ where
  cleanup time hash hq := ⟨h.inside (.inl ⟨time, hash, hq⟩), h.cleanup time hash hq⟩
  consume stateHash hash time hq := (h.consume stateHash hash time hq).2
  exchange := h.exchange

def Undone (s : LoginSystem) (k : Nat) : Prop :=
  ∃ time, s.Did k time ⟨.rollback, ()⟩

/-- A transaction waits to delete a row, and holds it. -/
def Deleting (s : LoginSystem) (k : Nat) (stateHash : String) : Prop :=
  ∃ newer hashes, s.processes[k]? = some newer ∧ .delete hashes ∈ newer.pending ∧
    stateHash ∈ hashes ∧ (k, stateHash) ∈ s.locks

structure Attempted (lib : LoginLibrary) (calls : List LoginCall) (s : LoginSystem) : Prop where
  rules : s.Watched (fun st x => (st.1, st.2 ++ [x])) (AttemptRules lib) Asked
    fun i => (callAt calls i, [])
  times : ∀ i time x, s.Did i time x → time < s.time
  facts : ∀ i time x, s.Did i time x →
    AttemptFact lib (callAt calls i) (fun y => ∃ time, s.Did i time y) x
  fresh : DrawnOnce s
  closed : ClosedOnce s
  inside : ∀ (i : Nat) (p : LoginProcess), s.processes[i]? = some p →
    ((⟨.transaction, ()⟩ : LoginExchange) ∈ p.exchanges → Ongoing p.exchanges →
      p.inside = true) ∧
    ((∀ x ∈ p.exchanges, x.1 ≠ .transaction) → p.inside = false ∧ p.pending = [])
  stores : ∀ (i : Nat) (p : LoginProcess), s.processes[i]? = some p →
    (∀ x ∈ p.exchanges, x.1.stores = false) → p.pending = []
  owners : ∀ (i : Nat) (p : LoginProcess), s.processes[i]? = some p →
    ∀ cookie state params, callAt calls i = .finish cookie state params → p.pending = []
  inserts : ∀ (i : Nat) (p : LoginProcess), s.processes[i]? = some p →
    ∀ row, .insert row ∈ p.pending → Ongoing p.exchanges ∧
      ∃ state token proof, Issued lib calls s i state token proof row
  rows : ∀ row ∈ s.db.rows, ∃ j state token proof time,
    Issued lib calls s j state token proof row ∧ s.Did j time ⟨.commit, ()⟩
  found : ∀ i time stateHash attempt, s.Did i time ⟨.findAttempt stateHash, some attempt⟩ →
    ∃ j state token proof, Issued lib calls s j state token proof attempt.1
  cleaned : ∀ row ∈ s.db.rows, ∀ j k state token proof issuedAt cleanedAt time,
    Issued lib calls s j state token proof row → s.Did j issuedAt ⟨.commit, ()⟩ →
    s.Did k cleanedAt ⟨.deleteStale time (some row.browserTokenHash), ()⟩ →
    issuedAt < cleanedAt → Deleting s k row.stateHash ∨ Undone s k
  used : ∀ (i usedAt : Nat) (stateHash hash : String) (clock : Int) (count : Nat), count ≠ 0 →
    s.Did i usedAt ⟨.consume stateHash hash clock, count⟩ →
    (∀ row ∈ s.db.rows, row.stateHash ≠ stateHash) ∧
    ∃ j state token proof row issuedAt, Issued lib calls s j state token proof row ∧
      s.Did j issuedAt ⟨.commit, ()⟩ ∧ issuedAt < usedAt ∧ row.stateHash = stateHash ∧
      row.browserTokenHash = hash ∧ clock < row.expiresAt ∧
      ∀ k cleanedAt time, s.Did k cleanedAt ⟨.deleteStale time (some hash), ()⟩ →
        issuedAt < cleanedAt → usedAt < cleanedAt ∨ Undone s k
  alone : ∀ (i j usedAt usedAt' : Nat) (stateHash hash hash' : String) (clock clock' : Int)
    (count count' : Nat), count ≠ 0 → count' ≠ 0 →
    s.Did i usedAt ⟨.consume stateHash hash clock, count⟩ →
    s.Did j usedAt' ⟨.consume stateHash hash' clock', count'⟩ → i = j

variable {s : LoginSystem}

/-- The hash of a state leads to one request, with its token and its proof. -/
theorem issuer_unique (hsound : lib.Sound) (hfresh : DrawnOnce s) {j j' : Nat}
    {state state' token token' : String} {proof proof' : LoginProof} {row row' : AttemptRow}
    (h : Issued lib calls s j state token proof row)
    (h' : Issued lib calls s j' state' token' proof' row') (hhash : row.stateHash = row'.stateHash) :
    j = j' ∧ state = state' ∧ token = token' ∧ proof = proof' := by
  obtain ⟨issuer, hissuer, ⟨provider, returnTo, cookie, verifier, nonce, key, iv, rest, hcall,
    hpast, rfl, -, hrow, -⟩, -⟩ := h
  obtain ⟨issuer', hissuer', ⟨provider', returnTo', cookie', verifier', nonce', key', iv', rest',
    hcall', hpast', rfl, -, hrow', -⟩, -⟩ := h'
  obtain rfl : state = state' := hsound.hash_injective (by rw [← hrow, ← hrow', hhash])
  have hdraws : (⟨.fresh, state⟩ : LoginExchange) ∈ issuer.exchanges := by
    rw [hpast]
    exact List.mem_cons_self
  have hdraws' : (⟨.fresh, state⟩ : LoginExchange) ∈ issuer'.exchanges := by
    rw [hpast']
    exact List.mem_cons_self
  obtain ⟨time, hdid⟩ := (System.did_iff hissuer).2 hdraws
  obtain ⟨time', hdid'⟩ := (System.did_iff hissuer').2 hdraws'
  obtain rfl := hfresh j j' time time' state hdid hdid'
  obtain rfl := Option.some.inj (hissuer.symm.trans hissuer')
  cases hpast.symm.trans hpast'
  cases hcall.symm.trans hcall'
  exact ⟨rfl, rfl, rfl, rfl⟩

section Step

variable {lib : LoginLibrary} {calls : List LoginCall} {s s' : LoginSystem} {e : Nat × LoginChoice}
  {p p' : LoginProcess} {q : LoginQuery} {next : LoginAnswer q → Login LoginOutcome}
  {row : AttemptRow} {j k time : Nat} {state token stateHash hash : String} {proof : LoginProof}

theorem closes_iff :
    q.closes = true ↔ loginEngine.kind q = .commits ∨ loginEngine.kind q = .aborts := by
  cases q <;> simp [LoginQuery.closes, loginEngine, loginKind]

/-- The statement that is carried out is one the rules allow. -/
theorem attempt_next (h : Attempted lib calls s)
    (hstep : Stepped loginEngine s e p p' q next s') :
    AttemptRules lib (callAt calls e.1, p.exchanges) q :=
  h.rules.allowed_next hstep.process hstep.program

theorem Issued.step (hstep : Stepped loginEngine s e p p' q next s')
    (h : Issued lib calls s j state token proof row) :
    Issued lib calls s' j state token proof row := by
  obtain ⟨issuer, hissuer, hdrafts, hcreated⟩ := h
  by_cases hj : j = e.1
  · subst hj
    obtain rfl := Option.some.inj (hstep.process.symm.trans hissuer)
    refine ⟨p', hstep.self, ?_, hstep.mem_exchanges_of_mem hcreated⟩
    rw [hstep.exchanges]
    exact hdrafts.append _
  · exact ⟨issuer, (hstep.other hj).trans hissuer, hdrafts, hcreated⟩

theorem Undone.step (hstep : Stepped loginEngine s e p p' q next s') (h : Undone s k) :
    Undone s' k :=
  h.imp fun _ hdid => hstep.did.2 (.inl hdid)

section

variable (h : Attempted lib calls s) (hstep : Stepped loginEngine s e p p' q next s')

include h hstep

/-- Nothing is over before a statement. -/
theorem not_closed {x : LoginExchange} (hx : s.Did e.1 time x) : x.1.closes = false :=
  (attempt_next h hstep).last x ((System.did_iff hstep.process).1 ⟨time, hx⟩)

theorem Attempted.times_step : ∀ i time x, s'.Did i time x → time < s'.time := by
  intro i time x hx
  rw [hstep.time]
  obtain hx | ⟨_, rfl, _⟩ := hstep.did.1 hx
  · exact Nat.lt_succ_of_lt (h.times i time x hx)
  · exact Nat.lt_succ_self _

theorem Attempted.facts_step : ∀ i time x, s'.Did i time x →
      AttemptFact lib (callAt calls i) (fun y => ∃ time, s'.Did i time y) x := by
  intro i time x hx
  obtain hx | ⟨rfl, _, rfl⟩ := hstep.did.1 hx
  · exact (h.facts i time x hx).mono fun y ⟨time, hy⟩ => ⟨time, hstep.did.2 (.inl hy)⟩
  · refine ((attempt_next h hstep).fact _).mono fun y hy => ?_
    obtain ⟨time, hdid⟩ := (System.did_iff hstep.process).2 hy
    exact ⟨time, hstep.did.2 (.inl hdid)⟩

end

theorem Attempted.fresh_step (h : Attempted lib calls s) (hfresh : FreshStep s e)
    (hstep : Stepped loginEngine s e p p' q next s') : DrawnOnce s' := by
  -- a token that the statement draws has been drawn by nobody
  have hnew : ∀ i time token, s.Did i time ⟨.fresh, token⟩ →
      (⟨.fresh, token⟩ : LoginExchange) ≠
        ⟨q, loginEngine.answer (p.view loginEngine s.db) e.2 q⟩ := by
    rintro i time token ⟨r, hr, hmem⟩ heq
    cases q with
    | fresh =>
        cases heq
        exact hfresh p next hstep.process hstep.program r (List.mem_of_getElem? hr) _
          (List.mem_map.2 ⟨_, hmem, rfl⟩) rfl
    | _ => cases heq
  intro i j time time' token hi hj
  obtain hi | ⟨rfl, _, hi⟩ := hstep.did.1 hi <;> obtain hj | ⟨rfl, _, hj⟩ := hstep.did.1 hj
  · exact h.fresh i j time time' token hi hj
  · exact absurd hj (hnew i time token hi)
  · exact absurd hi (hnew j time' token hj)
  · rfl

section

variable (h : Attempted lib calls s) (hstep : Stepped loginEngine s e p p' q next s')

include h hstep

theorem Attempted.closed_step : ClosedOnce s' := by
  intro i time time' x x' hx hx' hcloses hcloses'
  obtain hx | ⟨rfl, rfl, rfl⟩ := hstep.did.1 hx <;>
    obtain hx' | ⟨hi, rfl, rfl⟩ := hstep.did.1 hx'
  · exact h.closed i time time' x x' hx hx' hcloses hcloses'
  · subst hi
    rw [not_closed h hstep hx] at hcloses
    cases hcloses
  · rw [not_closed h hstep hx'] at hcloses'
    cases hcloses'
  · exact ⟨rfl, rfl⟩

theorem Attempted.inside_step : ∀ (i : Nat) (p : LoginProcess), s'.processes[i]? = some p →
      ((⟨.transaction, ()⟩ : LoginExchange) ∈ p.exchanges → Ongoing p.exchanges →
        p.inside = true) ∧
      ((∀ x ∈ p.exchanges, x.1 ≠ .transaction) → p.inside = false ∧ p.pending = []) := by
  intro i r hr
  obtain ⟨rfl, rfl⟩ | ⟨_, hr⟩ := hstep.get hr
  · have hbefore := h.inside e.1 p hstep.process
    have hself := hstep.mem_exchanges_self
    have hold : ∀ {x}, x ∈ p.exchanges → x ∈ r.exchanges := hstep.mem_exchanges_of_mem
    refine ⟨fun htransaction hongoing => ?_, fun hnone => ?_⟩
    · have hcloses : ¬ q.closes = true := Bool.eq_false_iff.1 (hongoing _ hself)
      rw [closes_iff, not_or] at hcloses
      exact hstep.inside_opened rfl htransaction
        (fun hmem => hbefore.1 hmem fun x hx => hongoing x (hold hx)) hcloses.1 hcloses.2
    · -- nothing was open, and the statement opens nothing
      obtain ⟨houtside, hpending⟩ := hbefore.2 fun x hx => hnone x (hold hx)
      have houtcome := hstep.outcome
      generalize r.pending = pending, s'.db = db, s'.locks = locks, r.inside = inside
        at houtcome ⊢
      cases houtcome with
      | opened kind =>
          refine absurd ?_ (hnone _ hself)
          cases q with
          | transaction => rfl
          | _ => cases kind
      | staged kind hinside => cases houtside.symm.trans hinside
      | direct => exact ⟨rfl, hpending⟩
      | committed | aborted => exact ⟨rfl, rfl⟩
  · exact h.inside i r hr

theorem Attempted.stores_step : ∀ (i : Nat) (p : LoginProcess), s'.processes[i]? = some p →
      (∀ x ∈ p.exchanges, x.1.stores = false) → p.pending = [] := by
  intro i r hr hstores
  obtain ⟨rfl, rfl⟩ | ⟨_, hr⟩ := hstep.get hr
  · refine List.eq_nil_iff_forall_not_mem.2 fun c hc => ?_
    obtain hc | hc := hstep.mem_pending hc
    · rw [h.stores e.1 p hstep.process fun x hx =>
        hstores x (hstep.mem_exchanges_of_mem hx)] at hc
      cases hc
    · have hself := hstores _ hstep.mem_exchanges_self
      rw [stores_of_changes hc] at hself
      cases hself
  · exact h.stores i r hr hstores

theorem Attempted.owners_step : ∀ (i : Nat) (p : LoginProcess), s'.processes[i]? = some p →
      ∀ cookie state params, callAt calls i = .finish cookie state params → p.pending = [] := by
  intro i r hr cookie state params hcall
  obtain ⟨rfl, rfl⟩ | ⟨_, hr⟩ := hstep.get hr
  · have hbefore := h.owners e.1 p hstep.process cookie state params hcall
    have hrules := attempt_next h hstep
    have houtcome := hstep.outcome
    generalize r.pending = pending, s'.db = db, s'.locks = locks, r.inside = inside
      at houtcome ⊢
    cases houtcome with
    | opened | direct => exact hbefore
    | committed | aborted => rfl
    | staged kind hinside =>
        rw [hbefore, List.nil_append]
        cases q with
        | deleteStale time hash =>
            obtain ⟨_, _, _, hbegin, _⟩ := hrules.cleanup time hash rfl
            cases hcall.symm.trans hbegin
        | createAttempt row =>
            obtain ⟨_, _, _, _, _, _, _, _, _, _, _, hbegin, _⟩ := hrules.create row rfl
            cases hcall.symm.trans hbegin
        | consume stateHash hash time =>
            rw [((h.inside e.1 p hstep.process).2 (hrules.consume _ _ _ rfl).1).1] at hinside
            cases hinside
        | _ => rfl
  · exact h.owners i r hr cookie state params hcall

theorem Attempted.inserts_step : ∀ (i : Nat) (p : LoginProcess), s'.processes[i]? = some p →
      ∀ row, .insert row ∈ p.pending → Ongoing p.exchanges ∧
        ∃ state token proof, Issued lib calls s' i state token proof row := by
  intro i r hr row hrow
  obtain ⟨rfl, rfl⟩ | ⟨_, hr⟩ := hstep.get hr
  · have hrules := attempt_next h hstep
    refine ⟨?_, ?_⟩
    · cases hcloses : q.closes with
      | true =>
          rw [hstep.pending_closed (closes_iff.1 hcloses)] at hrow
          cases hrow
      | false =>
          rw [hstep.exchanges]
          exact Ongoing.add hrules.last hcloses
    · obtain hrow | hrow := hstep.mem_pending hrow
      · obtain ⟨_, state, token, proof, hissued⟩ := h.inserts e.1 p hstep.process row hrow
        exact ⟨state, token, proof, hissued.step hstep⟩
      · obtain ⟨rfl, hnone⟩ := insert_of_changes hrow
        obtain ⟨state, token, proof, hdrafts⟩ := hrules.create row rfl
        have hcreated := hstep.mem_exchanges_self
        change (⟨.createAttempt row, (Rows.find _ row.stateHash).isNone⟩ : LoginExchange) ∈ _
          at hcreated
        rw [hnone] at hcreated
        refine ⟨state, token, proof, r, hstep.self, ?_, hcreated⟩
        rw [hstep.exchanges]
        exact hdrafts.append _
  · obtain ⟨hongoing, state, token, proof, hissued⟩ := h.inserts i r hr row hrow
    exact ⟨hongoing, state, token, proof, hissued.step hstep⟩

end

/-- A program that has stored nothing sees the committed attempts. -/
theorem view_of_no_stores (h : Attempted lib calls s) {i : Nat} {p : LoginProcess}
    (hp : s.processes[i]? = some p) (hstores : ∀ x ∈ p.exchanges, x.1.stores = false) :
    p.view loginEngine s.db = s.db := by
  rw [Process.view, h.stores i p hp hstores]
  rfl

/-- A statement outside of a transaction sees the committed attempts, and deletes at
    most the one that it consumes. -/
theorem direct_statement (h : Attempted lib calls s)
    (hstep : Stepped loginEngine s e p p' q next s') (hkind : loginEngine.kind q = .statement)
    (houtside : p.inside = false) :
    p.view loginEngine s.db = s.db ∧ ∀ c ∈ loginChanges s.db q, ∃ stateHash hash time,
      q = .consume stateHash hash time ∧ c = .delete (s.db.consumable stateHash hash time) := by
  have hrules := attempt_next h hstep
  have hnone : (⟨.transaction, ()⟩ : LoginExchange) ∉ p.exchanges := by
    intro hmem
    rw [(h.inside e.1 p hstep.process).1 hmem hrules.last] at houtside
    cases houtside
  have hpending : p.pending = [] :=
    ((h.inside e.1 p hstep.process).2 fun x hx heq => hnone (by
      obtain ⟨_, a⟩ := x
      cases heq
      exact hx)).2
  refine ⟨by rw [Process.view, hpending]; rfl, fun c hc => ?_⟩
  cases q with
  | deleteStale time hash => exact absurd (hrules.inside (.inl ⟨time, hash, rfl⟩)) hnone
  | createAttempt row => exact absurd (hrules.inside (.inr ⟨row, rfl⟩)) hnone
  | consume stateHash hash time => exact ⟨stateHash, hash, time, rfl, List.mem_singleton.1 hc⟩
  | _ => cases hc

/-- A statement of `finish` that deletes an attempt runs outside of a transaction. -/
theorem consume_direct (h : Attempted lib calls s) {time : Int}
    {next : LoginAnswer (.consume stateHash hash time) → Login LoginOutcome}
    (hstep : Stepped loginEngine s e p p' (.consume stateHash hash time) next s') :
    p.view loginEngine s.db = s.db ∧
      s'.db = s.db.apply (.delete (s.db.consumable stateHash hash time)) := by
  have hinside := (h.inside e.1 p hstep.process).2
    ((attempt_next h hstep).consume stateHash hash time rfl).1
  have hview := (direct_statement h hstep rfl hinside.1).1
  refine ⟨hview, ?_⟩
  have houtcome := hstep.outcome
  generalize p'.pending = pending, s'.locks = locks, p'.inside = inside, s'.db = db
    at houtcome ⊢
  cases houtcome with
  | direct => rw [hview]; rfl
  | staged kind hinside' =>
      rw [hinside.1] at hinside'
      cases hinside'
  | opened kind | committed kind | aborted kind => cases kind

section

variable (h : Attempted lib calls s) (hstep : Stepped loginEngine s e p p' q next s')

include h hstep

/-- A committed attempt was there before and is not deleted, or is one of the
    transaction that is committed. -/
theorem row_before (hrow : row ∈ s'.db.rows) :
    (row ∈ s.db.rows ∧ (q = .commit → ∀ hashes, .delete hashes ∈ p.pending →
      row.stateHash ∉ hashes)) ∨ (q = .commit ∧ .insert row ∈ p.pending) := by
  have houtcome := hstep.outcome
  generalize p'.pending = pending, s'.db = db, s'.locks = locks, p'.inside = inside
    at houtcome hrow
  cases houtcome with
  | opened kind | staged kind | aborted kind =>
      refine .inl ⟨hrow, ?_⟩
      rintro rfl
      cases kind
  | direct kind outside =>
      obtain ⟨hview, hchanges⟩ := direct_statement h hstep kind outside
      rw [hview] at hrow
      obtain hnew | ⟨hold, _⟩ := attempt_origin hrow
      · obtain ⟨_, _, _, _, heq⟩ := hchanges _ hnew
        cases heq
      · refine .inl ⟨hold, ?_⟩
        rintro rfl
        cases kind
  | committed kind =>
      obtain rfl : q = .commit := by
        cases q with
        | commit => rfl
        | _ => cases kind
      obtain hnew | ⟨hold, hkept⟩ := attempt_origin hrow
      · exact .inr ⟨rfl, hnew⟩
      · exact .inl ⟨hold, fun _ => hkept⟩

theorem Attempted.rows_step : ∀ row ∈ s'.db.rows, ∃ j state token proof time,
      Issued lib calls s' j state token proof row ∧ s'.Did j time ⟨.commit, ()⟩ := by
  intro row hrow
  obtain ⟨hold, _⟩ | ⟨rfl, hnew⟩ := row_before h hstep hrow
  · obtain ⟨j, state, token, proof, time, hissued, hcommit⟩ := h.rows row hold
    exact ⟨j, state, token, proof, time, hissued.step hstep, hstep.did.2 (.inl hcommit)⟩
  · obtain ⟨_, state, token, proof, hissued⟩ := h.inserts e.1 p hstep.process row hnew
    exact ⟨e.1, state, token, proof, s.time, hissued.step hstep,
      hstep.did.2 (.inr ⟨rfl, rfl, rfl⟩)⟩

theorem Attempted.found_step :
    ∀ i time stateHash attempt, s'.Did i time ⟨.findAttempt stateHash, some attempt⟩ →
      ∃ j state token proof, Issued lib calls s' j state token proof attempt.1 := by
  intro i time stateHash attempt hdid
  obtain hdid | ⟨rfl, _, heq⟩ := hstep.did.1 hdid
  · obtain ⟨j, state, token, proof, hissued⟩ := h.found i time stateHash attempt hdid
    exact ⟨j, state, token, proof, hissued.step hstep⟩
  · cases q with
    | findAttempt stateHash' =>
        obtain ⟨hq, heq⟩ := Sigma.mk.inj heq
        cases hq
        have hlookup := (Rows.map_lookup (p.view loginEngine s.db) stateHash).symm
        rw [show Rows.lookup (p.view loginEngine s.db) stateHash = some attempt from
          (eq_of_heq heq).symm] at hlookup
        -- the row is one of the transaction's own, or committed
        obtain hnew | ⟨hold, _⟩ := attempt_origin (Rows.mem_of_find hlookup).1
        · obtain ⟨_, state, token, proof, hissued⟩ := h.inserts e.1 p hstep.process _ hnew
          exact ⟨e.1, state, token, proof, hissued.step hstep⟩
        · obtain ⟨j, state, token, proof, _, hissued, _⟩ := h.rows _ hold
          exact ⟨j, state, token, proof, hissued.step hstep⟩
    | _ => cases heq

end

/-- A transaction that has been committed does not wait to insert a row. -/
theorem not_inserting (hsound : lib.Sound) (h : Attempted lib calls s)
    (hstep : Stepped loginEngine s e p p' q next s') {row' : AttemptRow}
    (hissued : Issued lib calls s j state token proof row) (hcommit : s.Did j time ⟨.commit, ()⟩)
    (hhash : row'.stateHash = row.stateHash) : .insert row' ∉ p.pending := by
  intro hinsert
  obtain ⟨_, state', token', proof', hissued'⟩ := h.inserts e.1 p hstep.process row' hinsert
  obtain ⟨rfl, _⟩ := issuer_unique hsound h.fresh hissued' hissued hhash
  cases not_closed h hstep hcommit

/-- What a cleanup does to a row waits for the commit, with the row locked. -/
theorem deleting_of_cleanup (h : Attempted lib calls s) {time : Int}
    {next : LoginAnswer (.deleteStale time (some row.browserTokenHash)) → Login LoginOutcome}
    (hstep : Stepped loginEngine s e p p' (.deleteStale time (some row.browserTokenHash)) next s')
    (hrow : row ∈ s.db.rows) : Deleting s' e.1 row.stateHash := by
  have hrules := attempt_next h hstep
  have hinside := (h.inside e.1 p hstep.process).1 (hrules.inside (.inl ⟨_, _, rfl⟩)) hrules.last
  have hview := view_of_no_stores h hstep.process (hrules.first _ _ rfl)
  refine ⟨p', s.db.stale time (some row.browserTokenHash), hstep.self, ?_⟩
  have hmem := mem_stale hrow time
  have houtcome := hstep.outcome
  generalize p'.pending = pending, s'.db = db, s'.locks = locks, p'.inside = inside at houtcome ⊢
  cases houtcome with
  | staged =>
      rw [hview]
      exact ⟨List.mem_append_right _ (List.mem_singleton_self _), hmem,
        List.mem_append_right _ (List.mem_map.2 ⟨_, hmem, rfl⟩)⟩
  | direct kind outside =>
      rw [hinside] at outside
      cases outside
  | opened kind | committed kind | aborted kind => cases kind

/-- A transaction goes on waiting to delete a row that is still there, or it is
    undone. -/
theorem deleting_step (h : Attempted lib calls s) (hstep : Stepped loginEngine s e p p' q next s')
    (hkept : q = .commit → ∀ hashes, .delete hashes ∈ p.pending → row.stateHash ∉ hashes)
    (htransaction : ∃ time, s.Did k time ⟨.transaction, ()⟩)
    (hdeleting : Deleting s k row.stateHash) : Deleting s' k row.stateHash ∨ Undone s' k := by
  obtain ⟨newer, hashes, hnewer, hdelete, hmem, hlock⟩ := hdeleting
  by_cases hk : k = e.1
  · subst hk
    obtain rfl := Option.some.inj (hstep.process.symm.trans hnewer)
    have hinside := (h.inside e.1 p hstep.process).1
      ((System.did_iff hstep.process).1 htransaction) (attempt_next h hstep).last
    have hself := hstep.self
    have hdid := hstep.did.2 (.inr ⟨rfl, rfl, rfl⟩)
    have houtcome := hstep.outcome
    unfold Deleting
    rw [hself]
    generalize hpending : p'.pending = pending, s'.db = db, s'.locks = locks,
      p'.inside = inside at houtcome ⊢
    cases houtcome with
    | opened =>
        exact .inl ⟨p', hashes, rfl, hpending ▸ hdelete, hmem, hlock⟩
    | staged =>
        exact .inl ⟨p', hashes, rfl, hpending ▸ List.mem_append_left _ hdelete, hmem,
          List.mem_append_left _ hlock⟩
    | direct kind outside =>
        rw [hinside] at outside
        cases outside
    | committed kind =>
        cases q with
        | commit => exact absurd hmem (hkept rfl hashes hdelete)
        | _ => cases kind
    | aborted kind =>
        cases q with
        | rollback => exact .inr ⟨s.time, hdid⟩
        | _ => cases kind
  · exact .inl ⟨newer, hashes, (hstep.other hk).trans hnewer, hdelete, hmem,
      hstep.locks_of_ne hk hlock⟩

theorem Attempted.cleaned_step (hsound : lib.Sound) (h : Attempted lib calls s)
    (hfresh : FreshStep s e) (hstep : Stepped loginEngine s e p p' q next s') :
    ∀ row ∈ s'.db.rows, ∀ j k state token proof issuedAt cleanedAt time,
      Issued lib calls s' j state token proof row → s'.Did j issuedAt ⟨.commit, ()⟩ →
      s'.Did k cleanedAt ⟨.deleteStale time (some row.browserTokenHash), ()⟩ →
      issuedAt < cleanedAt → Deleting s' k row.stateHash ∨ Undone s' k := by
  intro row hrow j k state token proof issuedAt cleanedAt time hissued hcommit hcleanup hlt
  have hunique : ∀ {j' state' token' proof' issuedAt'},
      Issued lib calls s' j' state' token' proof' row → s'.Did j' issuedAt' ⟨.commit, ()⟩ →
      issuedAt' = issuedAt := by
    intro j' state' token' proof' issuedAt' hissued' hcommit'
    obtain ⟨rfl, _⟩ := issuer_unique hsound (h.fresh_step hfresh hstep) hissued' hissued rfl
    exact (h.closed_step hstep j' _ _ _ _ hcommit' hcommit rfl rfl).1
  obtain ⟨hold, hkept⟩ | ⟨rfl, hnew⟩ := row_before h hstep hrow
  · -- the row was there: what was done to it before, or by this statement
    obtain ⟨j', state', token', proof', issuedAt', hissued', hcommit'⟩ := h.rows row hold
    obtain rfl := hunique (hissued'.step hstep) (hstep.did.2 (.inl hcommit'))
    obtain hcleanup | ⟨rfl, _, heq⟩ := hstep.did.1 hcleanup
    · have htransaction := ((h.facts k cleanedAt _ hcleanup).cleanup _ _ rfl).1
      obtain hdeleting | hundone := h.cleaned row hold j' k state' token' proof' issuedAt' cleanedAt
        time hissued' hcommit' hcleanup hlt
      · exact deleting_step h hstep hkept htransaction hdeleting
      · exact .inr (hundone.step hstep)
    · cases q with
      | deleteStale time' hash' =>
          cases heq
          exact .inl (deleting_of_cleanup h hstep hold)
      | _ => cases heq
  · -- the row comes with this commit, so nothing has been done to it
    obtain ⟨_, state', token', proof', hissued'⟩ := h.inserts e.1 p hstep.process row hnew
    obtain rfl := hunique (hissued'.step hstep) (hstep.did.2 (.inr ⟨rfl, rfl, rfl⟩))
    have hbefore := h.times_step hstep k cleanedAt _ hcleanup
    rw [hstep.time] at hbefore
    omega

/-- The attempt that a callback consumes. -/
theorem consumed_row (h : Attempted lib calls s) {clock : Int}
    {next : LoginAnswer (.consume stateHash hash clock) → Login LoginOutcome}
    (hstep : Stepped loginEngine s e p p' (.consume stateHash hash clock) next s')
    (hcount : (loginEngine.answer (p.view loginEngine s.db) e.2
      (.consume stateHash hash clock) : Nat) ≠ 0) :
    ∃ row ∈ s.db.rows, row.stateHash = stateHash ∧ row.browserTokenHash = hash ∧
      clock < row.expiresAt ∧ s.free e.1 stateHash = true ∧
      ∀ row ∈ s'.db.rows, row.stateHash ≠ stateHash := by
  obtain ⟨hview, hdb⟩ := consume_direct h hstep
  rw [hview] at hcount
  obtain ⟨stateHash', hmem⟩ := List.exists_mem_of_length_pos (Nat.pos_of_ne_zero hcount)
  obtain ⟨row, hrow, rfl, rfl, rfl, hclock⟩ := mem_consumable.1 hmem
  refine ⟨row, hrow, rfl, rfl, hclock, hstep.free _ (by rw [hview]; exact hmem), ?_⟩
  rw [hdb]
  intro row' hrow' heq
  obtain hinsert | ⟨_, hkept⟩ := attempt_apply hrow'
  · cases hinsert
  · exact hkept _ rfl (heq ▸ hmem)

theorem Attempted.used_step (hsound : lib.Sound) (h : Attempted lib calls s)
    (hstep : Stepped loginEngine s e p p' q next s') :
    ∀ (i usedAt : Nat) (stateHash hash : String) (clock : Int) (count : Nat), count ≠ 0 →
      s'.Did i usedAt ⟨.consume stateHash hash clock, count⟩ →
      (∀ row ∈ s'.db.rows, row.stateHash ≠ stateHash) ∧
      ∃ j state token proof row issuedAt, Issued lib calls s' j state token proof row ∧
        s'.Did j issuedAt ⟨.commit, ()⟩ ∧ issuedAt < usedAt ∧ row.stateHash = stateHash ∧
        row.browserTokenHash = hash ∧ clock < row.expiresAt ∧
        ∀ k cleanedAt time, s'.Did k cleanedAt ⟨.deleteStale time (some hash), ()⟩ →
          issuedAt < cleanedAt → usedAt < cleanedAt ∨ Undone s' k := by
  intro i usedAt stateHash hash clock count hcount hused
  obtain hused | ⟨rfl, rfl, heq⟩ := hstep.did.1 hused
  · obtain ⟨hgone, j, state, token, proof, row, issuedAt, hissued, hcommit, hlt, rfl, rfl, hclock,
      hcleanups⟩ := h.used i usedAt stateHash hash clock count hcount hused
    refine ⟨fun row' hrow' hhash => ?_, j, state, token, proof, row, issuedAt, hissued.step hstep,
      hstep.did.2 (.inl hcommit), hlt, rfl, rfl, hclock, fun k cleanedAt time hcleanup hlt' => ?_⟩
    · obtain ⟨hold, _⟩ | ⟨_, hnew⟩ := row_before h hstep hrow'
      · exact hgone row' hold hhash
      · exact not_inserting hsound h hstep hissued hcommit hhash hnew
    · obtain hcleanup | ⟨_, rfl, _⟩ := hstep.did.1 hcleanup
      · exact (hcleanups k cleanedAt time hcleanup hlt').imp_right fun hundone =>
          hundone.step hstep
      · exact .inl (h.times i usedAt _ hused)
  · cases q with
    | consume stateHash' hash' clock' =>
        cases heq
        obtain ⟨row, hrow, rfl, rfl, hclock, hfree, hgone⟩ := consumed_row h hstep hcount
        obtain ⟨j, state, token, proof, issuedAt, hissued, hcommit⟩ := h.rows row hrow
        refine ⟨hgone, j, state, token, proof, row, issuedAt, hissued.step hstep,
          hstep.did.2 (.inl hcommit), h.times j issuedAt _ hcommit, rfl, rfl, hclock,
          fun k cleanedAt time hcleanup hlt => .inr ?_⟩
        obtain hcleanup | ⟨_, _, heq⟩ := hstep.did.1 hcleanup
        · obtain ⟨_, _, _, _, _, hlock⟩ | hundone := h.cleaned row hrow j k state token proof
            issuedAt cleanedAt time hissued hcommit hcleanup hlt
          · -- whoever cleans up holds the row, and it is not the callback
            obtain rfl := eq_of_free hfree hlock
            obtain ⟨_, _, _, _, hbegin, _⟩ := (h.facts _ cleanedAt _ hcleanup).cleanup _ _ rfl
            obtain ⟨_, _, _, _, hfinish, _⟩ := (attempt_next h hstep).consume _ _ _ rfl
            cases hbegin.symm.trans hfinish
          · exact hundone.step hstep
        · cases heq
    | _ => cases heq

theorem Attempted.alone_step (h : Attempted lib calls s)
    (hstep : Stepped loginEngine s e p p' q next s') :
    ∀ (i j usedAt usedAt' : Nat) (stateHash hash hash' : String) (clock clock' : Int)
      (count count' : Nat), count ≠ 0 → count' ≠ 0 →
      s'.Did i usedAt ⟨.consume stateHash hash clock, count⟩ →
      s'.Did j usedAt' ⟨.consume stateHash hash' clock', count'⟩ → i = j := by
  -- what has been consumed is not there to be consumed again
  have hnew : ∀ (i usedAt : Nat) (stateHash hash hash' : String) (clock clock' : Int)
      (count count' : Nat), count ≠ 0 → count' ≠ 0 →
      s.Did i usedAt ⟨.consume stateHash hash clock, count⟩ →
      (⟨.consume stateHash hash' clock', count'⟩ : LoginExchange) ≠
        ⟨q, loginEngine.answer (p.view loginEngine s.db) e.2 q⟩ := by
    intro i usedAt stateHash hash hash' clock clock' count count' hcount hcount' hused heq
    cases q with
    | consume stateHash'' hash'' clock'' =>
        cases heq
        obtain ⟨row, hrow, hhash, _⟩ := consumed_row h hstep hcount'
        exact (h.used i usedAt stateHash hash clock count hcount hused).1 row hrow hhash
    | _ => cases heq
  intro i j usedAt usedAt' stateHash hash hash' clock clock' count count' hcount hcount' hi hj
  obtain hi | ⟨rfl, _, hi⟩ := hstep.did.1 hi <;> obtain hj | ⟨rfl, _, hj⟩ := hstep.did.1 hj
  · exact h.alone i j usedAt usedAt' stateHash hash hash' clock clock' count count' hcount hcount'
      hi hj
  · exact absurd hj (hnew i usedAt _ _ _ _ _ _ _ hcount hcount' hi)
  · exact absurd hi (hnew j usedAt' _ _ _ _ _ _ _ hcount' hcount hj)
  · rfl

end Step

theorem attempted_step (hsound : lib.Sound) (h : Attempted lib calls s) {e : Nat × LoginChoice}
    (hfresh : FreshStep s e) : Attempted lib calls (s.step loginEngine e) := by
  have hrules := watched_step h.rules e (E := loginEngine)
  obtain heq | ⟨p, p', q, next, hstep⟩ := step_cases loginEngine s e
  · rwa [heq]
  · exact ⟨hrules, h.times_step hstep, h.facts_step hstep, h.fresh_step hfresh hstep,
      h.closed_step hstep, h.inside_step hstep, h.stores_step hstep, h.owners_step hstep,
      h.inserts_step hstep, h.rows_step hstep, h.found_step hstep,
      h.cleaned_step hsound hfresh hstep, h.used_step hsound hstep, h.alone_step hstep⟩

theorem attempted_run (hsound : lib.Sound) (h : Attempted lib calls s)
    {events : List (Nat × LoginChoice)} (hfresh : FreshRun s events) :
    Attempted lib calls (s.run loginEngine events) := by
  induction events generalizing s with
  | nil => exact h
  | cons e events ih => exact ih (attempted_step hsound h hfresh.1) hfresh.2

/-- Requests that have not begun. -/
theorem attempted_start (lib : LoginLibrary) (calls : List LoginCall) :
    Attempted lib calls (loginSystem lib calls) := by
  have hget : ∀ {i : Nat} {p : LoginProcess}, (loginSystem lib calls).processes[i]? = some p →
      ∃ call : LoginCall, calls[i]? = some call ∧
        p = ({ program := call.program lib } : LoginProcess) := by
    intro i p hp
    rw [loginSystem, List.getElem?_map, Option.map_eq_some_iff] at hp
    obtain ⟨call, hcall, rfl⟩ := hp
    exact ⟨call, hcall, rfl⟩
  have hdid : ∀ {i time x}, ¬ (loginSystem lib calls).Did i time x := by
    rintro i time x ⟨p, hp, hx⟩
    obtain ⟨_, _, rfl⟩ := hget hp
    cases hx
  refine ⟨fun i p hp => ?_, fun _ _ _ h => absurd h hdid, fun _ _ _ h => absurd h hdid,
    fun _ _ _ _ _ h => absurd h hdid, fun _ _ _ _ _ h => absurd h hdid, fun i p hp => ?_,
    fun i p hp _ => ?_, fun i p hp _ _ _ _ => ?_, fun i p hp row hrow => ?_, (by rintro row ⟨⟩),
    fun _ _ _ _ h => absurd h hdid, (by rintro row ⟨⟩), fun _ _ _ _ _ _ _ h => absurd h hdid,
    fun _ _ _ _ _ _ _ _ _ _ _ _ _ h => absurd h hdid⟩
  · obtain ⟨call, hcall, rfl⟩ := hget hp
    have hcallAt : callAt calls i = call := by simp [callAt, hcall]
    change AttemptWatched lib Asked (call.program lib) (callAt calls i, [])
    rw [hcallAt]
    exact watched_login_call lib call
  · obtain ⟨_, _, rfl⟩ := hget hp
    exact ⟨(by rintro ⟨⟩), fun _ => ⟨rfl, rfl⟩⟩
  · obtain ⟨_, _, rfl⟩ := hget hp
    rfl
  · obtain ⟨_, _, rfl⟩ := hget hp
    rfl
  · obtain ⟨_, _, rfl⟩ := hget hp
    cases hrow

/-! ### What follows from it -/

section Property

variable {lib : LoginLibrary} {calls : List LoginCall} {s : LoginSystem} {i : Nat}
  {cookie : Option String} {state : String} {params : CallbackParams} {proof : LoginProof}

/-- Whoever has gone to the provider has consumed an attempt. -/
theorem consumed_of_exchanged (h : Attempted lib calls s)
    (hcall : callAt calls i = .finish cookie state params) (hexchanged : Exchanged s i proof) :
    ∃ token usedAt clock, cookie = some token ∧
      s.Did i usedAt ⟨.consume (lib.hashToken state) (lib.hashToken token) clock, (1 : Nat)⟩ := by
  obtain ⟨time, params', state', answer, hdid⟩ := hexchanged
  obtain ⟨token, _, clock, _, hcall', _, _, ⟨usedAt, hused⟩, _⟩ :=
    (h.facts i time _ hdid).exchange _ _ _ rfl
  cases hcall.symm.trans hcall'
  exact ⟨token, usedAt, clock, rfl, hused⟩

theorem genuine_of_attempted (hsound : lib.Sound) (h : Attempted lib calls s)
    (hcall : callAt calls i = .finish cookie state params) (hexchanged : Exchanged s i proof) :
    UsedBy lib calls s i cookie state proof := by
  obtain ⟨time, params', state', answer, hdid⟩ := hexchanged
  obtain ⟨token, key, clock, attempt, hcall', hkey, ⟨_, hfound⟩, ⟨usedAt, hused⟩, hproof⟩ :=
    (h.facts i time _ hdid).exchange _ _ _ rfl
  cases hcall.symm.trans hcall'
  obtain ⟨_, j, state₁, token₁, proof₁, row, issuedAt, hissued, hcommit, hlt, hstate, htoken,
    hclock, hcleanups⟩ := h.used i usedAt _ _ clock 1 one_ne_zero hused
  -- the attempt that was found is the one that was consumed
  obtain ⟨j₂, state₂, token₂, proof₂, hissued₂⟩ := h.found _ _ _ _ hfound
  obtain ⟨rfl, rfl, rfl, rfl⟩ := issuer_unique hsound h.fresh hissued₂ hissued
    (attempt.2.trans hstate.symm)
  obtain ⟨issuer, hissuer, hdrafts, hcreated⟩ := hissued
  obtain ⟨_, _, hdrafts₂, _⟩ := hissued₂
  have hissued : Issued lib calls s j₂ state₂ token₂ proof₂ row :=
    ⟨issuer, hissuer, hdrafts, hcreated⟩
  obtain ⟨_, _, _, _, _, _, _, _, _, _, _, _, hrow, hbrowser, _⟩ := hdrafts
  obtain ⟨_, _, _, _, _, key', iv, _, _, _, _, hkey', _, _, hpayload⟩ := hdrafts₂
  obtain rfl := Option.some.inj (hkey.symm.trans hkey')
  obtain rfl : state₂ = state := hsound.hash_injective (hrow.symm.trans hstate)
  obtain rfl : token₂ = token := hsound.hash_injective (hbrowser.symm.trans htoken)
  rw [hpayload] at hproof
  obtain rfl := hsound.decrypt_encrypt _ _ _ _ _ hproof
  refine ⟨j₂, token₂, row, issuedAt, usedAt, clock, hissued, hcommit, rfl, hused, hlt, hclock, ?_⟩
  intro k provider returnTo cleanedAt committedAt time' hash hbegin hcleanup hlt' hcommitted
  -- the cleanup was for the token of the attempt, and it was not undone
  obtain ⟨_, _, _, hcall₁, hvalid, _, _⟩ := (h.facts i usedAt _ hused).consume _ _ _ rfl
  cases hcall.symm.trans hcall₁
  obtain ⟨_, _, cookie, hbegin', rfl⟩ := (h.facts k cleanedAt _ hcleanup).cleanup _ _ rfl |>.2
  cases hbegin.symm.trans hbegin'
  have hhash : oldBrowserHash lib (some token₂) = some (lib.hashToken token₂) := by
    rw [oldBrowserHash, Option.filter_some_pos hvalid]
    rfl
  rw [hhash] at hcleanup
  obtain hlate | ⟨undoneAt, hundone⟩ := hcleanups k cleanedAt time' hcleanup hlt'
  · exact hlate
  · cases (h.closed k _ _ _ _ hundone hcommitted rfl rfl).2

theorem fails_of_attempted (h : Attempted lib calls s) {p : LoginProcess}
    {result : Except ApiError LoginOutcome} (hp : s.processes[i]? = some p)
    (hcall : callAt calls i = .finish cookie state params) (hprogram : p.program = .done result)
    (hnot : ∀ proof, ¬ Exchanged s i proof) : ∃ e, result = .error e := by
  cases result with
  | error e => exact ⟨e, rfl⟩
  | ok outcome =>
      have hpost := h.rules i p hp
      rw [hprogram, foldl_record, List.nil_append] at hpost
      obtain ⟨proof, answer, hmem⟩ := hpost outcome cookie state params rfl hcall
      obtain ⟨time, hdid⟩ := (System.did_iff hp).2 hmem
      exact absurd ⟨time, params, state, answer, hdid⟩ (hnot proof)

/-- A callback stores nothing but by consuming an attempt. -/
theorem keeps_of_attempted (hsound : lib.Sound) (h : Attempted lib calls s) {e : Nat × LoginChoice}
    {state' token : String} {j : Nat} {row : AttemptRow}
    (hcall : callAt calls e.1 = .finish cookie state params)
    (hissued : Issued lib calls s j state' token proof row) (hrow : row ∈ s.db.rows)
    (hcookie : cookie ≠ some token) : row ∈ (s.step loginEngine e).db.rows := by
  obtain heq | ⟨p, p', q, next, hstep⟩ := step_cases loginEngine s e
  · rwa [heq]
  · have hview : p.view loginEngine s.db = s.db := by
      rw [Process.view, h.owners e.1 p hstep.process cookie state params hcall]
      rfl
    have houtcome := hstep.outcome
    generalize (s.step loginEngine e).db = db, (s.step loginEngine e).locks = locks,
      p'.pending = pending, p'.inside = inside at houtcome ⊢
    cases houtcome with
    | opened | staged | aborted => exact hrow
    | committed => rwa [hview]
    | direct kind outside =>
        have hchanges := (direct_statement h hstep kind outside).2
        rw [hview]
        refine attempt_kept hrow fun c hc => ?_
        obtain ⟨stateHash, hash, time, rfl, rfl⟩ := hchanges c hc
        refine ⟨_, rfl, fun hmem => hcookie ?_⟩
        -- the attempt would be one for the token of the callback
        obtain ⟨row', hrow', hkey, _, hbrowser, _⟩ := mem_consumable.1 hmem
        obtain rfl := Rows.eq_of_key hrow' hrow hkey
        obtain ⟨token', _, _, hcall', _, _, rfl⟩ :=
          ((attempt_next h hstep).consume _ _ _ rfl).2
        cases hcall.symm.trans hcall'
        obtain ⟨_, _, ⟨_, _, _, _, _, _, _, _, _, _, _, _, _, htoken, _⟩, _⟩ := hissued
        rw [hsound.hash_injective (hbrowser.symm.trans htoken)]

end Property

/-- Every run of requests, side by side, uses each attempt at most once, and for the
    browser that it was issued to. -/
theorem attempt_single_use (lib : LoginLibrary) (hsound : lib.Sound) (calls : List LoginCall)
    (events : List (Nat × LoginChoice)) (hfresh : FreshRun (loginSystem lib calls) events) :
    SingleUse lib calls ((loginSystem lib calls).run loginEngine events) := by
  have h := attempted_run hsound (attempted_start lib calls) hfresh
  refine ⟨fun i cookie state params proof => genuine_of_attempted hsound h, ?_,
    fun i p cookie state params result => fails_of_attempted h,
    fun e cookie state state' token params j proof row => keeps_of_attempted hsound h⟩
  intro i j cookie cookie' state params params' proof proof' hi hj hexchanged hexchanged'
  obtain ⟨token, usedAt, clock, _, hused⟩ := consumed_of_exchanged h hi hexchanged
  obtain ⟨token', usedAt', clock', _, hused'⟩ := consumed_of_exchanged h hj hexchanged'
  exact h.alone i j usedAt usedAt' _ _ _ clock clock' 1 1 one_ne_zero one_ne_zero hused hused'

namespace Sample

/-- 43 characters, as `base64url` writes 32 bytes. -/
def loginToken (c : Char) : String := String.ofList (List.replicate 43 c)

def loginProof : LoginProof := ⟨.google, loginToken 'v', loginToken 'n', some "/problems"⟩

/-- A cipher for one proof. -/
def loginLibrary : LoginLibrary where
  authTransactionKey := some "key"
  hashToken := id
  encryptProof _ _ proof _ := if proof = loginProof then "sealed" else ""
  decryptProof _ _ payload := if payload = "sealed" then some loginProof else none

theorem loginLibrary_sound : loginLibrary.Sound where
  hash_injective := Function.injective_id
  decrypt_encrypt := by
    intro key stateHash proof iv proof' h
    simp only [loginLibrary] at h
    split at h
    · next hproof =>
        rw [if_pos rfl] at h
        rw [hproof, Option.some.inj h]
    · rw [if_neg (by decide)] at h
      cases h

def loginChoice (token : String) : LoginChoice where
  now := 0
  token := token
  iv := "iv"
  location := .ok "https://accounts.google.com"
  identity := .ok ⟨"google", "1", "Ada"⟩

/-- A sign-in, its callback twice, and a callback from another browser. -/
def logins : List LoginCall :=
  [.begin .google "/problems" none, .finish (some (loginToken 'b')) (loginToken 's') [],
    .finish (some (loginToken 'x')) (loginToken 's') [],
    .finish (some (loginToken 'b')) (loginToken 's') []]

/-- Everybody has looked the attempt up before anybody consumes it. -/
def callbacks : List (Nat × LoginChoice) :=
  [(0, loginChoice (loginToken 's')), (0, loginChoice (loginToken 'b')),
    (0, loginChoice (loginToken 'v')), (0, loginChoice (loginToken 'n'))] ++
  ([0, 0, 0, 0, 0, 0, 0, 0, 1, 2, 3, 1, 2, 3, 2, 1, 3, 1].map fun i => (i, loginChoice ""))

end Sample

/-- One of the callbacks goes to the provider, and it alone. -/
theorem attempt_single_use_callbacks :
    FreshRun (loginSystem Sample.loginLibrary Sample.logins) Sample.callbacks ∧
    (((loginSystem Sample.loginLibrary Sample.logins).run loginEngine
      Sample.callbacks).processes.map fun p => p.exchanges.any fun x => x.1.asksProvider) =
        [false, true, false, false] ∧
    SingleUse Sample.loginLibrary Sample.logins
      ((loginSystem Sample.loginLibrary Sample.logins).run loginEngine Sample.callbacks) :=
  ⟨by decide +kernel, by decide +kernel,
    attempt_single_use _ Sample.loginLibrary_sound _ _ (by decide +kernel)⟩

end ArenaCore
