import ArenaCore.Store.Lifecycle

/-!
# Operations Do Not Look at Content

The source of an execution and the digest of its request are stored with it,
but no operation on a stored execution looks at them: exchanging them for
others exchanges them in the result and changes nothing else. The same goes
for the parts of the problem tables that are not public. Both are exchanged at
once here, the content of the row by `withContent` and the problem tables by a
second deployment that agrees with the first on what is public.

The database guard does look at the two columns, to see that they do not
change and that the source has an admissible length. The exchange respects
both.

## Main definitions

* `Content`: The two columns, and `Content.Stored` for the lengths allowed.
* `Execution.withContent`, `Job.withContent`: The exchange.
* `SamePublic`: Deployments that agree on what is public.

## Theorems

* `event_withContent`, `update_withContent`, `terminal_withContent`: The
  helpers every operation writes through.
* `claim_withContent`, ..., `expireQueuedRow_withContent`: The operations.
-/

namespace ArenaCore

open JobStore Sql Transaction

/-- What the owner of an execution wrote, and its digest. -/
structure Content where
  sourceCode : String
  payloadHash : String

/-- The source has a length the table admits. -/
def Content.Stored (c : Content) : Prop :=
  1 ≤ byteLength c.sourceCode ∧ byteLength c.sourceCode ≤ 65536

def Execution.content (row : Execution) : Content :=
  ⟨row.sourceCode, row.payloadHash⟩

def Execution.withContent (c : Content) (row : Execution) : Execution :=
  { row with sourceCode := c.sourceCode, payloadHash := c.payloadHash }

def Job.withContent (c : Content) (j : Job) : Job :=
  { j with row := j.row.withContent c }

/-- Two deployments that agree on what is public of the problem tables. -/
structure SamePublic (d d' : Deployment) : Prop where
  config : d'.config = d.config
  strip : d'.stripVTControlCharacters = d.stripVTControlCharacters
  sha256 : d'.sha256 = d.sha256
  hmacSha256 : d'.hmacSha256 = d.hmacSha256
  versions : ∀ id, (d'.catalog id).map (fun v => (v.problemId, v.slug, v.title))
    = (d.catalog id).map fun v => (v.problemId, v.slug, v.title)
  publicCases : ∀ id, d'.catalog.publicCases id = d.catalog.publicCases id

variable {d d' : Deployment} {t : Moment} {c : Content} {j : Job} {row new old : Execution}

/-! ### The guard -/

theorem executionChecks_withContent (hc : c.Stored) (hrow : row.content.Stored) :
    firstViolation (executionChecks (row.withContent c)) = firstViolation (executionChecks row) := by
  have hbytes : decide (1 ≤ byteLength (row.withContent c).sourceCode ∧
        byteLength (row.withContent c).sourceCode ≤ 65536)
      = decide (1 ≤ byteLength row.sourceCode ∧ byteLength row.sourceCode ≤ 65536) :=
    decide_eq_decide.mpr (iff_of_true hc hrow)
  unfold executionChecks
  rw [hbytes]
  rfl

/-- The content of two rows with the same content can be exchanged without
    changing what tells them apart. -/
theorem withContent_inj (hsame : new.content = old.content) :
    new.withContent c = old.withContent c ↔ new = old := by
  constructor
  · intro h
    rcases new with ⟨⟩
    rcases old with ⟨⟩
    simp only [Execution.content, Content.mk.injEq] at hsame
    simp only [Execution.withContent, Execution.mk.injEq] at h ⊢
    tauto
  · intro h
    rw [h]

theorem protectUpdate_withContent (clock : Nat) (hsame : new.request = old.request) :
    protectUpdate clock (old.withContent c) (new.withContent c) = protectUpdate clock old new := by
  have hrequest : (new.withContent c).request = (old.withContent c).request := by
    rcases new with ⟨⟩
    rcases old with ⟨⟩
    simp only [Execution.request, RequestColumns.mk.injEq] at hsame
    simp only [Execution.withContent, Execution.request, RequestColumns.mk.injEq]
    tauto
  have hcontent : new.content = old.content := by
    simp only [Execution.request, RequestColumns.mk.injEq] at hsame
    simp only [Execution.content, Content.mk.injEq]
    tauto
  have hdistinct : distinct (new.withContent c) (old.withContent c) = distinct new old := by
    simp only [distinct, ne_eq, withContent_inj hcontent]
  have hunchanged : distinct (new.withContent c).request (old.withContent c).request
      = distinct new.request old.request := by
    rw [hrequest, hsame]
    simp only [distinct, ne_eq, not_true_eq_false]
  unfold protectUpdate
  rw [hunchanged, hdistinct]
  rfl

/-! ### Writing -/

theorem update_withContent (new : Execution) (hc : c.Stored) (hj : j.row.content.Stored)
    (hsame : new.request = j.row.request) :
    (j.withContent c).update t (new.withContent c) = (j.update t new).map (Job.withContent c) := by
  have hnew : new.content.Stored := by
    have hsource : new.sourceCode = j.row.sourceCode := congrArg RequestColumns.sourceCode hsame
    simpa only [Content.Stored, Execution.content, hsource] using hj
  have hguard : guardUpdate t.trigger (j.withContent c).row (new.withContent c)
      = guardUpdate t.trigger j.row new := by
    have hrow : (j.withContent c).row = j.row.withContent c := rfl
    unfold guardUpdate
    rw [executionChecks_withContent hc hnew, hrow, protectUpdate_withContent t.trigger hsame]
  unfold Job.update
  rw [hguard]
  cases guardUpdate t.trigger j.row new <;> rfl

theorem event_withContent (fields : EventFields) :
    event t (row.withContent c) fields (j.withContent c)
      = (event t row fields j).map (Prod.map id (Job.withContent c)) := by
  have hpayload : nextPayload (row.withContent c) fields = nextPayload row fields := rfl
  have hevent : nextEvent t (row.withContent c) fields = nextEvent t row fields := rfl
  unfold event
  rw [hpayload, hevent]
  split
  · rfl
  split
  · rfl
  have hcreate : (j.withContent c).createEvent (nextEvent t row fields)
      = (j.createEvent (nextEvent t row fields)).map (Job.withContent c) := by
    have hevents : (j.withContent c).events = j.events := rfl
    unfold Job.createEvent
    rw [hevents]
    cases guardEvent j.events (nextEvent t row fields) <;> rfl
  rw [hcreate]
  cases j.createEvent (nextEvent t row fields) <;> rfl

/-- Writing an event leaves the row alone. -/
theorem event_row {fields : EventFields} {j' : Job} {seq : Nat}
    (h : event t row fields j = .ok (seq, j')) : j'.row = j.row := by
  rcases event_eq_ok.mp h with ⟨_, _, rfl⟩
  rfl

theorem createOutbox_withContent (o : OutboxEvent) :
    (j.withContent c).createOutbox o = (j.createOutbox o).map (Job.withContent c) := by
  have houtbox : (j.withContent c).outbox = j.outbox := rfl
  unfold Job.createOutbox
  rw [houtbox]
  cases guardOutbox j.outbox o <;> rfl

theorem notifyExecution_withContent (h : SamePublic d d') (verdict : Verdict) :
    notifyExecution d' t (row.withContent c) verdict (j.withContent c)
      = (notifyExecution d t row verdict j).map (Job.withContent c) := by
  have hversion := h.versions j.row.problemVersionId
  have hid : (j.withContent c).row.problemVersionId = j.row.problemVersionId := rfl
  have htoken : (row.withContent c).leaseToken = row.leaseToken := rfl
  have hmode : (row.withContent c).mode = row.mode := rfl
  unfold notifyExecution createExecutionResultNotification
  rw [htoken, hmode, hid]
  cases row.leaseToken with
  | none => rfl
  | some token =>
      simp only []
      split
      · rfl
      split
      · rfl
      -- the texts of the notification are public columns of the version
      cases hold : d.catalog j.row.problemVersionId with
      | none =>
          rw [hold, Option.map_none, Option.map_eq_none_iff] at hversion
          rw [hversion]
          rfl
      | some version =>
          rw [hold, Option.map_some, Option.map_eq_some_iff] at hversion
          rcases hversion with ⟨version', hversion', hpublic⟩
          simp only [Prod.mk.injEq] at hpublic
          rw [hversion']
          simp only [hpublic.2.1, hpublic.2.2]
          split <;> split <;> first | rfl | contradiction

/-! ### The operations -/

theorem terminal_withContent (h : SamePublic d d') (hc : c.Stored) (hj : j.row.content.Stored)
    (outcome : Outcome) (code : Option ExecutionFailureCode) :
    terminal d' t (j.row.withContent c) outcome code (j.withContent c)
      = (terminal d t j.row outcome code j).map (Job.withContent c) := by
  unfold terminal
  refine bind_corresponds (event_withContent _) fun ⟨seq, j₁⟩ hev => ?_
  refine bind_corresponds (notifyExecution_withContent h _) fun j₂ hnotify => ?_
  -- neither has touched the row
  rcases event_eq_ok.mp hev with ⟨_, _, rfl⟩
  rcases notifyExecution_eq d t j.row outcome.verdict
    (j.record (nextEvent t j.row (.finalVerdict outcome.state outcome.verdict code))) with
    ⟨notices, hsame⟩
  rw [hsame] at hnotify
  cases hnotify
  exact update_withContent (j := { j.record _ with notifications := notices })
    { j.row with
      state := outcome.state, verdict := some outcome.verdict, failureCode := code,
      finishedAt := some t.app, leaseToken := none, leaseExpiresAt := none, lastSequence := seq }
    hc hj rfl

/-- What a claim hands out, with other content. -/
def Claimed.withContent (c : Content) (claimed : Claimed) : Claimed :=
  { claimed with execution := claimed.execution.withContent c }

/-- Ending a job without an answer. -/
theorem ended_withContent {α : Type} {φ : α → α} {a : α} (h : SamePublic d d') (hc : c.Stored)
    (hj : j.row.content.Stored) (ha : φ a = a) (outcome : Outcome)
    (code : Option ExecutionFailureCode) :
    (do
      let j ← terminal d' t (j.row.withContent c) outcome code (j.withContent c)
      Except.ok (a, j))
    = (do
      let j ← terminal d t j.row outcome code j
      Except.ok (a, j)).map (Prod.map φ (Job.withContent c)) := by
  refine bind_corresponds (terminal_withContent h hc hj outcome code) fun j' _ => ?_
  simp only [Except.map, Prod.map, ha]

theorem claim_withContent (h : SamePublic d d') (hc : c.Stored) (hj : j.row.content.Stored)
    (id token : Uuid) :
    claim d' t id token (j.withContent c) = (claim d t id token j).map
      (Prod.map (Option.map (Claimed.withContent c)) (Job.withContent c)) := by
  unfold claim
  refine ite_corresponds (fun _ => rfl) fun _ => ?_
  refine ite_corresponds (fun _ => ended_withContent h hc hj rfl _ _) fun _ => ?_
  refine ite_corresponds (fun _ => rfl) fun _ => ?_
  refine ite_corresponds (fun _ => ended_withContent h hc hj rfl _ _) fun _ => ?_
  refine ite_corresponds (fun _ => ended_withContent h hc hj rfl _ _) fun _ => ?_
  -- a new attempt, numbered from the local row
  have hevent : event t ((restarted j.row).withContent c) (.executionStatus .compiling none)
      (Job.withContent c { j with events := [] })
      = (event t (restarted j.row) (.executionStatus .compiling none) { j with events := [] }).map
          (Prod.map (fun seq => seq) (Job.withContent c)) := event_withContent _
  refine bind_corresponds hevent fun ⟨seq, j₁⟩ hev => ?_
  have hj₁ : j₁.row.content.Stored := by rw [event_row hev]; exact hj
  exact bind_corresponds (update_withContent
    { j₁.row with
      state := .compiling, attempt := j.row.attempt + 1, lastSequence := seq,
      leaseToken := some token,
      leaseExpiresAt := some (min (t.now + leaseMs) (deadline j.row)) } hc hj₁ rfl) fun _ _ => rfl

theorem renew_withContent (hc : c.Stored) (hj : j.row.content.Stored) (lease : Lease) :
    renew t lease (j.withContent c)
      = (renew t lease j).map (Prod.map id (Job.withContent c)) := by
  unfold renew
  refine ite_corresponds (fun _ => rfl) fun _ => ?_
  refine ite_corresponds (fun _ => rfl) fun _ => ?_
  exact bind_corresponds (update_withContent
    { j.row with leaseExpiresAt := some (renewalEnd j.row t.now) } hc hj rfl) fun _ _ => rfl

theorem markRunning_withContent (hc : c.Stored) (hj : j.row.content.Stored) (lease : Lease) :
    markRunning t lease (j.withContent c)
      = (markRunning t lease j).map (Prod.map id (Job.withContent c)) := by
  unfold markRunning
  refine ite_corresponds (fun _ => rfl) fun _ => ?_
  refine bind_corresponds (event_withContent _) fun ⟨seq, j₁⟩ hev => ?_
  have hj₁ : j₁.row.content.Stored := by rw [event_row hev]; exact hj
  exact bind_corresponds (update_withContent
    { j₁.row with state := .running, lastSequence := seq } hc hj₁ rfl) fun _ _ => rfl

theorem SamePublic.isPublicCase (h : SamePublic d d') : isPublicCase d' = isPublicCase d := by
  funext versionId caseId
  simp only [JobStore.isPublicCase, h.publicCases]

theorem SamePublic.publicResultsAllowed (h : SamePublic d d') :
    publicResultsAllowed d' = publicResultsAllowed d := by
  funext row results
  simp only [JobStore.publicResultsAllowed, h.publicCases]

theorem SamePublic.safeConsole (h : SamePublic d d') : safeConsole d' = safeConsole d := by
  funext text
  simp only [ArenaCore.safeConsole, h.strip]

theorem console_withContent (h : SamePublic d d') (hc : c.Stored) (hj : j.row.content.Stored)
    (lease : Lease) (caseId : String) (stream : Stream) (text : String) :
    console d' t lease caseId stream text (j.withContent c)
      = (console d t lease caseId stream text j).map (Prod.map id (Job.withContent c)) := by
  unfold console
  rw [h.isPublicCase, h.safeConsole]
  refine ite_corresponds (fun _ => rfl) fun _ => ?_
  refine ite_corresponds (fun _ => rfl) fun _ => ?_
  refine bind_corresponds (event_withContent _) fun ⟨seq, j₁⟩ hev => ?_
  have hj₁ : j₁.row.content.Stored := by rw [event_row hev]; exact hj
  exact bind_corresponds (update_withContent { j₁.row with lastSequence := seq } hc hj₁ rfl)
    fun _ _ => rfl

theorem finish_withContent (h : SamePublic d d') (hc : c.Stored) (hj : j.row.content.Stored)
    (lease : Lease) (result : WorkerResult) :
    finish d' t lease result (j.withContent c)
      = (finish d t lease result j).map (Prod.map id (Job.withContent c)) := by
  have hsanitize : sanitizeResult d' = sanitizeResult d := by
    funext r
    simp only [sanitizeResult, h.safeConsole]
  unfold finish
  rw [h.publicResultsAllowed, hsanitize]
  refine ite_corresponds (fun _ => rfl) fun _ => ?_
  refine ite_corresponds (fun _ => ended_withContent h hc hj rfl _ _) fun _ => ?_
  refine ite_corresponds (fun _ => rfl) fun _ => ?_
  refine bind_corresponds (event_withContent _) fun ⟨seq, j₁⟩ hev => ?_
  refine bind_corresponds (notifyExecution_withContent h _) fun j₂ hnotify => ?_
  have hj₂ : j₂.row.content.Stored := by
    rcases notifyExecution_eq d t j.row result.verdict j₁ with ⟨notices, hsame⟩
    rw [hsame] at hnotify
    cases hnotify
    rw [event_row hev]
    exact hj
  exact bind_corresponds (update_withContent
    { j₂.row with
      state := .finished, verdict := some result.verdict, finishedAt := some t.app,
      lastSequence := seq, leaseToken := none, leaseExpiresAt := none,
      runtimeMs := result.runtimeMs.or j₂.row.runtimeMs,
      memoryKiB := result.memoryKiB.or j₂.row.memoryKiB,
      publicResults := (result.publicCaseResults.map fun rs => rs.map (sanitizeResult d)).or
        j₂.row.publicResults } hc hj₂ rfl) fun _ _ => rfl

theorem fail_withContent (h : SamePublic d d') (hc : c.Stored) (hj : j.row.content.Stored)
    (lease : Lease) (cleanupConfirmed : Bool) :
    fail d' t lease cleanupConfirmed (j.withContent c)
      = (fail d t lease cleanupConfirmed j).map (Prod.map id (Job.withContent c)) := by
  unfold fail
  refine ite_corresponds (fun _ => rfl) fun _ => ?_
  exact ended_withContent h hc hj rfl _ _

theorem upsertRecovery_withContent (generation : Nat) (onConflict : OutboxEvent → OutboxEvent) :
    upsertRecovery t generation onConflict (j.withContent c)
      = (upsertRecovery t generation onConflict j).map (Job.withContent c) := by
  unfold upsertRecovery
  exact ite_corresponds (fun _ => rfl) fun _ => createOutbox_withContent _

theorem recover_withContent (h : SamePublic d d') (hc : c.Stored) (hj : j.row.content.Stored)
    (lease : Lease) :
    recover d' t lease (j.withContent c)
      = (recover d t lease j).map (Prod.map id (Job.withContent c)) := by
  unfold recover
  refine ite_corresponds (fun _ => rfl) fun _ => ?_
  refine ite_corresponds (fun _ => ended_withContent h hc hj rfl _ _) fun _ => ?_
  refine ite_corresponds (fun _ => ended_withContent h hc hj rfl _ _) fun _ => ?_
  refine bind_corresponds (update_withContent { j.row with leaseExpiresAt := some t.now } hc hj rfl)
    fun j₁ _ => ?_
  exact bind_corresponds (upsertRecovery_withContent _ _) fun _ _ => rfl

theorem cancel_withContent (h : SamePublic d d') (hc : c.Stored) (hj : j.row.content.Stored)
    (userId : Uuid) (activeAllowed : Bool) :
    cancel d' t userId activeAllowed (j.withContent c)
      = (cancel d t userId activeAllowed j).map (Prod.map id (Job.withContent c)) := by
  unfold cancel
  refine ite_corresponds (fun _ => rfl) fun _ => ?_
  refine ite_corresponds (fun _ => ?_) fun _ => ?_
  · refine bind_corresponds (terminal_withContent h hc hj _ _) fun j₁ _ => ?_
    exact bind_corresponds (createOutbox_withContent _) fun _ _ => rfl
  refine ite_corresponds (fun _ => ?_) fun _ => rfl
  refine ite_corresponds (fun _ => rfl) fun _ => ?_
  refine ite_corresponds (fun _ => ?_) fun _ => rfl
  refine bind_corresponds (event_withContent _) fun ⟨seq, j₁⟩ hev => ?_
  have hj₁ : j₁.row.content.Stored := by rw [event_row hev]; exact hj
  exact bind_corresponds (update_withContent
    { j₁.row with cancellationRequestedAt := some t.now, lastSequence := seq } hc hj₁ rfl)
    fun _ _ => rfl

theorem maintainRow_withContent (h : SamePublic d d') (hc : c.Stored) (hj : j.row.content.Stored) :
    maintainRow d' t (j.withContent c) = (maintainRow d t j).map (Job.withContent c) := by
  unfold maintainRow
  exact ite_corresponds (fun _ => terminal_withContent h hc hj _ _)
    fun _ => upsertRecovery_withContent _ _

theorem expireQueuedRow_withContent (hc : c.Stored) (hj : j.row.content.Stored) :
    expireQueuedRow t (j.withContent c) = (expireQueuedRow t j).map (Job.withContent c) := by
  unfold expireQueuedRow
  refine bind_corresponds (event_withContent _) fun ⟨seq, j₁⟩ hev => ?_
  have hj₁ : j₁.row.content.Stored := by rw [event_row hev]; exact hj
  refine bind_corresponds (update_withContent
    { j₁.row with
      state := .internalError, verdict := some .internalError, failureCode := some .queueTimeout,
      finishedAt := some t.app, lastSequence := seq } hc hj₁ rfl) fun j₂ _ => ?_
  exact createOutbox_withContent _

end ArenaCore
