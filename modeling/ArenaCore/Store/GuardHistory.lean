import Mathlib.Data.List.Chain
import ArenaCore.Store.System

/-!
# What the Guard Enforces Alone

Any client of the database may update an execution, and the trigger and the
`CHECK` constraints see one update at a time. A history is a list of row
versions each of which the guard let replace the one before, at clock readings
that do not go back. The question is what such a history can look like.

The guard compares nullable columns. An active row without a lease makes its
comparisons unknown, and a trigger raises only on a true condition, so such a
row slips past two checks: a second update can give it a new token at once, and
it may go back from running to compiling with no lease having expired. As long
as active rows carry a lease the comparisons are known, and the guard enforces
the lifecycle graph and the fencing of leases.

## Main definitions

* `Version`: A row version and the clock reading of its update.
* `Accepted`: An update the guard lets through.
* `Leased`: An active row has a lease.
* `LegalChange`: An edge of the lifecycle graph, or a reclaim after expiry.

## Theorems

* `legalChange_of_accepted`: What an update of a leased row can do to its state.
* `expired_of_accepted`: When an update can take a token away.
* `guard_enforces_lifecycle`: Both, along every history of leased rows.
* `guard_bypassed`: Both fail on a history with a row that lost its lease.
-/

namespace ArenaCore

open Sql

/-- A version of a row, with the trigger's clock when it was written. -/
structure Version where
  clock : Nat
  row : Execution

/-- The guard lets the second version replace the first. -/
def Accepted (x y : Version) : Prop :=
  x.clock ≤ y.clock ∧ guardUpdate y.clock x.row y.row = none

instance (x y : Version) : Decidable (Accepted x y) :=
  inferInstanceAs (Decidable (_ ∧ _))

/-- An active row has a lease. -/
def Leased (row : Execution) : Prop :=
  row.state = .compiling ∨ row.state = .running → row.leaseToken.isSome = true

instance (row : Execution) : Decidable (Leased row) :=
  inferInstanceAs (Decidable (_ → _))

/-- A reclaim: the lease has expired, the attempt is the next and the token is
    another. -/
def Reclaimed (x y : Version) : Prop :=
  x.row.state = .running ∧ y.row.state = .compiling ∧ x.row.leaseToken.isSome = true ∧
    (∃ e, x.row.leaseExpiresAt = some e ∧ e ≤ y.clock) ∧
    y.row.attempt = x.row.attempt + 1 ∧ y.row.leaseToken ≠ x.row.leaseToken

/-- What an update may do to the state. -/
def LegalChange (x y : Version) : Prop :=
  y.row.state = x.row.state ∨ canTransition x.row.state y.row.state = true ∨ Reclaimed x y

/-! ### One update -/

/-- The constraints a stored row meets. -/
def Checked (row : Execution) : Prop :=
  ∀ c ∈ executionChecks row, checks c.2 = true

theorem Checked.leasePair {row : Execution} (h : Checked row) :
    checks (validLeasePair row) = true := by
  simp only [Checked, executionChecks, List.forall_mem_cons] at h
  exact h.2.2.2.2.2.2.2.1

/-- A token comes with an expiry time, in an active state. -/
theorem Checked.lease {row : Execution} (h : Checked row) (hsome : row.leaseToken.isSome = true) :
    (∃ e, row.leaseExpiresAt = some e) ∧ (row.state = .compiling ∨ row.state = .running) := by
  have hpair := h.leasePair
  rcases Option.isSome_iff_exists.mp hsome with ⟨token, htoken⟩
  cases hexpires : row.leaseExpiresAt with
  | none => simp [validLeasePair, htoken, hexpires, isNotNull, Truth.all, Truth.and, Truth.or,
      Truth.not, checks] at hpair
  | some e =>
      refine ⟨⟨e, rfl⟩, ?_⟩
      cases hstate : row.state <;>
        simp [validLeasePair, htoken, hexpires, hstate, isNotNull, isIn, Truth.all, Truth.and,
          Truth.or, Truth.not, checks] at hpair ⊢

/-- What the trigger has let through, clause by clause. -/
theorem protectUpdate_clauses {clock : Nat} {old new : Execution}
    (h : protectUpdate clock old new = none) :
    raises (Truth.all [isNotNull old.leaseToken, isNotNull new.leaseToken,
        distinct (new.leaseToken, new.attempt) (old.leaseToken, old.attempt),
        Truth.not (replacesExpiredLease clock old new)]) = false ∧
      raises (Truth.and (isIn (some old.state) [.finished, .cancelled, .internalError])
        (distinct new old)) = false ∧
      raises (Truth.and (ne (some new.state) (some old.state))
        (Truth.not (allowedTransition clock old new))) = false ∧
      raises (Truth.or (some (decide (new.attempt < old.attempt)))
        (Truth.and (eq (some new.attempt) (some old.attempt))
          (some (decide (new.lastSequence < old.lastSequence))))) = false := by
  unfold protectUpdate at h
  repeat' split at h
  all_goals first
    | (cases h; done)
    | skip
  rename_i _ _ hlease hterminal hstate hcounters _
  exact ⟨Bool.eq_false_iff.mpr hlease, Bool.eq_false_iff.mpr hterminal,
    Bool.eq_false_iff.mpr hstate, Bool.eq_false_iff.mpr hcounters⟩

variable {x y : Version}

/-- What an update of a leased row can do to its state. -/
theorem legalChange_of_accepted (hx : Checked x.row) (hleased : Leased x.row) (h : Accepted x y) :
    LegalChange x y := by
  have hstate := (protectUpdate_clauses (guardUpdate_eq_none.mp h.2).1).2.2.1
  unfold LegalChange
  by_cases hsame : y.row.state = x.row.state
  · exact Or.inl hsame
  refine Or.inr ?_
  by_cases hrunning : x.row.state = .running ∧ y.row.state = .compiling
  · -- the lease is there, so the comparison with the clock is known
    rcases hrunning with ⟨hold, hnew⟩
    have hsome := hleased (Or.inr hold)
    rcases (hx.lease hsome).1 with ⟨e, he⟩
    refine Or.inr ⟨hold, hnew, hsome, ⟨e, he, ?_⟩, ?_⟩ <;>
      simp [allowedTransition, hold, hnew, he, Truth.any, Truth.all, Truth.and, Truth.or, Truth.not,
        eq, ne, le, lift, isIn, distinct, raises] at hstate ⊢ <;> grind
  · left
    cases hold : x.row.state <;> cases hnew : y.row.state <;>
      simp [allowedTransition, hold, hnew, Truth.any, Truth.all, Truth.and, Truth.or, Truth.not,
        eq, ne, lift, isIn, raises, canTransition, transitions] at hstate hsame hrunning ⊢

/-- An active row that stays open stays active. -/
theorem LegalChange.active (h : LegalChange x y)
    (hactive : x.row.state = .compiling ∨ x.row.state = .running)
    (hopen : isTerminal y.row.state = false) :
    y.row.state = .compiling ∨ y.row.state = .running := by
  rcases h with hsame | hedge | hreclaimed
  · rwa [hsame]
  · rcases hactive with hx | hx <;> cases hy : y.row.state <;>
      simp [hx, hy, canTransition, transitions, isTerminal] at hedge hopen ⊢
  · exact Or.inl hreclaimed.2.1

/-- When an update can take a token away: the lease has expired, and the
    attempt is the next. -/
theorem expired_of_accepted (hx : Checked x.row) (hleased : Leased y.row) (h : Accepted x y)
    (hlegal : LegalChange x y) {token : Uuid} (htoken : x.row.leaseToken = some token)
    (hother : y.row.leaseToken ≠ some token) (hopen : isTerminal y.row.state = false) :
    (∃ e, x.row.leaseExpiresAt = some e ∧ e ≤ y.clock) ∧ x.row.attempt < y.row.attempt := by
  have hclause := (protectUpdate_clauses (guardUpdate_eq_none.mp h.2).1).1
  rcases hx.lease (by rw [htoken]; rfl) with ⟨⟨e, he⟩, hactive⟩
  rcases Option.isSome_iff_exists.mp (hleased (hlegal.active hactive hopen)) with ⟨token', htoken'⟩
  have hne : token' ≠ token := fun hsame => hother (hsame ▸ htoken')
  -- both tokens are there and differ, so the replacement must have been allowed
  have hreplaced : raises (Truth.not (replacesExpiredLease y.clock x.row y.row)) = false := by
    rw [raises_all] at hclause
    simpa [htoken, htoken', isNotNull, distinct, hne] using hclause
  have hknown : e ≤ y.clock ∧ y.row.attempt = x.row.attempt + 1 := by
    simp only [replacesExpiredLease, htoken, htoken', he, Truth.all, isIn, le, eq, ne, lift,
      Option.map_some, raises] at hreplaced
    have hin : x.row.state ∈ [ExecutionState.compiling, .running] := by
      rcases hactive with hstate | hstate <;> rw [hstate] <;> decide
    by_cases hle : e ≤ y.clock <;> by_cases hnew : y.row.state = .compiling <;>
      by_cases hattempt : y.row.attempt = x.row.attempt + 1 <;>
      simp [hin, hle, hnew, hattempt, hne, Truth.and, Truth.not] at hreplaced ⊢
  exact ⟨⟨e, he, hknown.1⟩, by omega⟩

/-- Attempts do not go back, and terminal rows stay terminal. -/
theorem monotone_of_accepted (h : Accepted x y) :
    x.row.attempt ≤ y.row.attempt ∧
      (isTerminal x.row.state = true → isTerminal y.row.state = true) := by
  rcases protectUpdate_clauses (guardUpdate_eq_none.mp h.2).1 with ⟨_, hterminal, _, hcounters⟩
  constructor
  · simp only [raises_or, raises_some, Bool.or_eq_false_iff, decide_eq_false_iff_not] at hcounters
    omega
  · intro hend
    have hin : x.row.state ∈ [ExecutionState.finished, .cancelled, .internalError] := by
      rcases (isTerminal_iff x.row.state).mp hend with hs | hs | hs <;> rw [hs] <;> decide
    simp only [raises_and, isIn, Option.map_some, hin, decide_true, raises_some, distinct,
      Bool.true_and, decide_eq_false_iff_not, not_not] at hterminal
    rw [hterminal]
    exact hend

/-! ### Histories -/

/-- Every version of a history meets the constraints of the table: the first
    when it was inserted, the others when they were written. -/
theorem checked_of_chain {a : Version} {rest : List Version}
    (h : (a :: rest).IsChain Accepted) (ha : Checked a.row) : ∀ x ∈ a :: rest, Checked x.row := by
  induction rest generalizing a with
  | nil =>
      intro x hx
      rwa [List.mem_singleton.mp hx]
  | cons b rest ih =>
      rcases List.isChain_cons_cons.mp h with ⟨hab, hrest⟩
      intro x hx
      rcases List.mem_cons.mp hx with rfl | hx
      · exact ha
      · exact ih hrest (guardUpdate_eq_none.mp hab.2).2 x hx

/-- Along a history attempts do not go back and the end is final. -/
theorem monotone_of_chain {history : List Version} (h : history.IsChain Accepted) :
    history.Pairwise fun x y => x.row.attempt ≤ y.row.attempt ∧
      (isTerminal x.row.state = true → isTerminal y.row.state = true) := by
  have : Trans (fun x y : Version => x.row.attempt ≤ y.row.attempt ∧
        (isTerminal x.row.state = true → isTerminal y.row.state = true))
      (fun x y : Version => x.row.attempt ≤ y.row.attempt ∧
        (isTerminal x.row.state = true → isTerminal y.row.state = true))
      (fun x y : Version => x.row.attempt ≤ y.row.attempt ∧
        (isTerminal x.row.state = true → isTerminal y.row.state = true)) :=
    ⟨fun hxy hyz => ⟨hxy.1.trans hyz.1, fun hx => hyz.2 (hxy.2 hx)⟩⟩
  exact (h.imp fun _ _ hxy => monotone_of_accepted hxy).pairwise

/-- A token that is gone from an open row was taken away after its lease had
    expired, and the attempt has moved on. -/
theorem expired_of_chain {a b : Version} {between : List Version} {token : Uuid}
    (h : (a :: (between ++ [b])).IsChain Accepted)
    (hchecked : ∀ x ∈ a :: (between ++ [b]), Checked x.row)
    (hleased : ∀ x ∈ a :: (between ++ [b]), Leased x.row)
    (htoken : a.row.leaseToken = some token) (hother : b.row.leaseToken ≠ some token)
    (hopen : isTerminal b.row.state = false) :
    a.row.attempt < b.row.attempt ∧ ∃ first x y rest,
      a :: (between ++ [b]) = first ++ x :: y :: rest ∧ x.row.leaseToken = some token ∧
        y.row.leaseToken ≠ some token ∧ ∃ e, x.row.leaseExpiresAt = some e ∧ e ≤ y.clock := by
  -- induction on the versions in between; the first one without the token is the change
  induction between generalizing a with
  | nil =>
      have hab := (List.isChain_cons_cons.mp h).1
      have ha := hchecked a List.mem_cons_self
      have hlegal := legalChange_of_accepted ha (hleased a List.mem_cons_self) hab
      have hb := hleased b (List.mem_cons_of_mem a List.mem_cons_self)
      rcases expired_of_accepted ha hb hab hlegal htoken hother hopen with ⟨hexpired, hattempt⟩
      exact ⟨hattempt, [], a, b, [], rfl, htoken, hother, hexpired⟩
  | cons c rest ih =>
      have hmono := List.pairwise_cons.mp (monotone_of_chain h)
      rcases List.isChain_cons_cons.mp h with ⟨hac, hrest⟩
      by_cases hkept : c.row.leaseToken = some token
      · rcases ih hrest (fun x hx => hchecked x (List.mem_cons_of_mem a hx))
          (fun x hx => hleased x (List.mem_cons_of_mem a hx)) hkept with
          ⟨hattempt, first, x, y, last, hsplit, hlost⟩
        refine ⟨lt_of_le_of_lt (hmono.1 c List.mem_cons_self).1 hattempt, a :: first, x, y, last, ?_,
          hlost⟩
        rw [List.cons_append, List.cons_append, hsplit]
      · have hb : b ∈ rest ++ [b] := List.mem_append_right rest List.mem_cons_self
        have hcb := (List.pairwise_cons.mp hmono.2).1 b hb
        have hcopen : isTerminal c.row.state = false := by
          cases hc : isTerminal c.row.state with
          | false => rfl
          | true => rw [hcb.2 hc] at hopen; cases hopen
        have ha := hchecked a List.mem_cons_self
        have hlegal := legalChange_of_accepted ha (hleased a List.mem_cons_self) hac
        have hc := hleased c (List.mem_cons_of_mem a List.mem_cons_self)
        rcases expired_of_accepted ha hc hac hlegal htoken hkept hcopen with ⟨hexpired, hattempt⟩
        exact ⟨lt_of_lt_of_le hattempt hcb.1, [], a, c, rest ++ [b], rfl, htoken, hkept, hexpired⟩

/-- Along every history of an inserted row in which active versions carry a
    lease, the guard alone enforces the lifecycle graph, and a token that is
    gone from an open row was taken away after its lease had expired, with a
    later attempt. -/
theorem guard_enforces_lifecycle {cat : Catalog} {history : List Version}
    (haccepted : history.IsChain Accepted)
    (hinserted : ∀ x ∈ history.head?, guardInsert cat x.row = none)
    (hleased : ∀ x ∈ history, Leased x.row) :
    history.IsChain LegalChange ∧
      ∀ before a between b after token, history = before ++ a :: (between ++ b :: after) →
        a.row.leaseToken = some token → b.row.leaseToken ≠ some token →
        isTerminal b.row.state = false →
        a.row.attempt < b.row.attempt ∧ ∃ first x y rest,
          a :: (between ++ [b]) = first ++ x :: y :: rest ∧ x.row.leaseToken = some token ∧
            y.row.leaseToken ≠ some token ∧ ∃ e, x.row.leaseExpiresAt = some e ∧ e ≤ y.clock := by
  have hchecked : ∀ x ∈ history, Checked x.row := by
    cases history with
    | nil => intro x hx; cases hx
    | cons a rest =>
        exact checked_of_chain haccepted (guardInsert_eq_none.mp (hinserted a rfl)).2
  constructor
  · exact List.IsChain.imp_of_mem_imp
      (fun x _ hx _ hxy => legalChange_of_accepted (hchecked x hx) (hleased x hx) hxy) haccepted
  · intro before a between b after token hsplit htoken hother hopen
    have hstretch : history = before ++ ((a :: (between ++ [b])) ++ after) := by
      rw [hsplit]
      simp only [List.cons_append, List.append_assoc, List.nil_append]
    have hmem : ∀ x ∈ a :: (between ++ [b]), x ∈ history := fun x hx => by
      rw [hstretch]
      exact List.mem_append_right before (List.mem_append_left after hx)
    rw [hstretch] at haccepted
    have hchain := (List.isChain_append.mp (List.isChain_append.mp haccepted).2.1).1
    exact expired_of_chain hchain (fun x hx => hchecked x (hmem x hx))
      (fun x hx => hleased x (hmem x hx)) htoken hother hopen

namespace Sample

/-- A version of the sample execution. -/
def written (clock : Nat) (state : ExecutionState) (attempt : Nat)
    (lease : Option (Uuid × Nat)) : Version where
  clock := clock
  row :=
    { id := execution, userId := owner, problemVersionId := versionId, competitionRoundId := none,
      language := .python, mode := .run, sourceCode := "print(3)", payloadHash := "",
      idempotencyKey := "key", createdAt := 0, queueExpiresAt := 60000, state := state,
      attempt := attempt, leaseToken := lease.map Prod.fst, leaseExpiresAt := lease.map Prod.snd }

def otherToken : Uuid := uuid 8

/-- Claimed, started, and claimed again after the lease has expired. -/
def reclaimed : List Version :=
  [written 0 .queued 0 none, written 10 .compiling 1 (some (token, 1000)),
    written 20 .running 1 (some (token, 1000)), written 1000 .compiling 2 (some (otherToken, 2000))]

/-- A lease is cleared and another one written while the first has not expired. -/
def rewritten : List Version :=
  [written 0 .queued 0 none, written 10 .compiling 1 (some (token, 1000)),
    written 20 .compiling 1 none, written 30 .compiling 1 (some (otherToken, 1000))]

/-- A row that never had a lease goes back from running to compiling. -/
def restarted : List Version :=
  [written 0 .queued 0 none, written 10 .compiling 1 none, written 20 .running 1 none,
    written 30 .compiling 2 (some (otherToken, 1000))]

end Sample

instance (x y : Version) : Decidable (Reclaimed x y) :=
  decidable_of_iff (x.row.state = .running ∧ y.row.state = .compiling ∧
      x.row.leaseToken.isSome = true ∧
      (x.row.leaseExpiresAt.any fun e => decide (e ≤ y.clock)) = true ∧
      y.row.attempt = x.row.attempt + 1 ∧ y.row.leaseToken ≠ x.row.leaseToken) (by
    simp only [Reclaimed, Option.any_eq_true, decide_eq_true_eq])

instance (x y : Version) : Decidable (LegalChange x y) :=
  inferInstanceAs (Decidable (_ ∨ _ ∨ _))

theorem guard_enforces_lifecycle_reclaimed :
    Sample.reclaimed.IsChain LegalChange ∧
      (Sample.written 20 .running 1 (some (Sample.token, 1000))).row.attempt
        < (Sample.written 1000 .compiling 2 (some (Sample.otherToken, 2000))).row.attempt := by
  have h := @guard_enforces_lifecycle Sample.deployment.catalog Sample.reclaimed
    (by decide +kernel) (by decide +kernel) (by decide +kernel)
  refine ⟨h.1, ?_⟩
  exact (h.2 [Sample.written 0 .queued 0 none, Sample.written 10 .compiling 1 (some (Sample.token, 1000))]
    _ [] _ [] Sample.token rfl rfl (by decide +kernel) rfl).1

/-- The guard lets both be bypassed: a token is replaced in two steps while its
    lease is valid and the attempt the same, and a row without a lease goes
    back from running to compiling. -/
theorem guard_bypassed :
    (Sample.rewritten.IsChain Accepted ∧
      (∀ x ∈ Sample.rewritten.head?, guardInsert Sample.deployment.catalog x.row = none) ∧
      ∃ before a between b, Sample.rewritten = before ++ a :: (between ++ [b]) ∧
        a.row.leaseToken = some Sample.token ∧ b.row.leaseToken = some Sample.otherToken ∧
        Sample.otherToken ≠ Sample.token ∧ isTerminal b.row.state = false ∧
        b.row.attempt = a.row.attempt ∧ a.row.leaseExpiresAt = some 1000 ∧ b.clock < 1000) ∧
    Sample.restarted.IsChain Accepted ∧
      (∀ x ∈ Sample.restarted.head?, guardInsert Sample.deployment.catalog x.row = none) ∧
      ¬ Sample.restarted.IsChain LegalChange := by
  refine ⟨⟨by decide +kernel, by decide +kernel, [Sample.written 0 .queued 0 none], _,
    [Sample.written 20 .compiling 1 none], _, rfl, rfl, rfl, by decide +kernel, rfl, rfl, rfl,
    by decide⟩, by decide +kernel, by decide +kernel, by decide +kernel⟩

end ArenaCore
