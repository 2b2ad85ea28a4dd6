import Mathlib.Data.List.Induction
import ArenaCore.Store.Fencing
import ArenaCore.Store.Intents

/-!
# How an Execution Is Closed

What is left behind when an execution becomes terminal: the failure code in its
row, the intent that closes it, and the notification of its owner. `Effects` says
that a row is ended; here the three are tied to the way in which it is.

There are five ways. A queued execution is withdrawn by its owner, expired by
maintenance, or found too late by a delivery, and an active one is judged or given
up. Maintenance writes the intent `EXECUTION_EXPIRED`. A delivery that comes too
late writes the same row without it.

Only an active execution is announced to its owner. The notification is written
before the row, from the row the caller has locked, and the database function
compares its attempt and token with a row that nobody has changed since.

## Main definitions

* `resultNotification`, `noticesOf`: The notification an outcome calls for.
* `Late`, `Withdrawn`: A delivery or a cancellation of a queued execution.
* `Closes`: What a call does to the execution, in these terms.
* `Delivered`, `Cancelled`, `Tells`: What a call of a run is to the execution.
* `Closed`: What a run leaves behind of an execution.

## Theorems

* `step_closes`: The inversion of a call.
* `closed_run`: Every execution of every run.
* `expiry_intents`: Queue timeouts and their intents.
* `result_notifications`: Notifications of results.
-/

namespace ArenaCore

open JobStore Transaction

variable {d : Deployment} {t : Moment} {j j' : Job} {verdict : Verdict} {id : Uuid} {clock : Nat}
  {row : Execution} {calls : List Call}

/-! ### Notifications -/

/-- The verdict as a notification words it. -/
def verdictWords (verdict : Verdict) : String :=
  String.ofList (verdict.text.toList.map fun c => if c = '_' then ' ' else c.toLower)

/-- The notification of a verdict. -/
def resultNotification (version : ProblemVersion) (row : Execution) (verdict : Verdict) :
    Notification where
  userId := row.userId
  title := "Submission judged"
  body := version.title ++ ": " ++ verdictWords verdict ++ "."
  href := "/problems/" ++ version.slug ++ "?tab=submissions"
  dedupeKey := "execution:" ++ row.id.text ++ ":result"

/-- Who is told what when a row ends in a verdict. -/
def noticesOf (d : Deployment) (t : Moment) (row : Execution) (verdict : Verdict) :
    List Notification :=
  if row.mode = .submit ∧ (row.state = .compiling ∨ row.state = .running) ∧
      verdict ≠ .cancelled ∧ t.productNotifications row.userId = true then
    ((d.catalog row.problemVersionId).map fun version =>
      resultNotification version row verdict).toList
  else []

theorem verdictWords_injective : Function.Injective verdictWords := by
  intro v w h
  cases v <;> cases w <;> first | rfl | (exact absurd h (by decide))

/-- The function writes what the outcome calls for. An open row has no notification
    yet, and carries a token exactly while it is active. -/
theorem notifyExecution_notices (hrow : RowInv clock j.row) (hopen : isTerminal j.row.state = false)
    (hnone : j.notifications = []) (verdict : Verdict) :
    notifyExecution d t j.row verdict j
      = .ok { j with notifications := noticesOf d t j.row verdict } := by
  have hsame : j = { j with notifications := [] } := by rw [← hnone]
  unfold notifyExecution noticesOf
  rcases RowInv.nonterminal_cases hopen with hqueued | hactive
  · have hquiet : ¬ (j.row.state = .compiling ∨ j.row.state = .running) :=
      fun h => active_ne_queued h hqueued
    rw [(hrow.waiting hqueued).2.1, if_neg fun h => hquiet h.2.1]
    exact congrArg Except.ok hsame
  · obtain ⟨_, ⟨token, htoken⟩, _⟩ := hrow.leased hactive
    rw [htoken]
    simp only []
    by_cases hskip : j.row.mode ≠ .submit ∨ verdict = .cancelled
    · rw [if_pos hskip, if_neg fun h => hskip.elim (fun hm => hm h.1) h.2.2.1]
      exact congrArg Except.ok hsame
    · rw [not_or, not_not] at hskip
      rw [if_neg (not_or.2 ⟨not_not.2 hskip.1, hskip.2⟩), createExecutionResultNotification,
        if_neg hskip.2]
      cases hversion : d.catalog j.row.problemVersionId with
      | none =>
          simp only [Option.map_none, Option.toList_none, ite_self]
          exact congrArg Except.ok hsame
      | some version =>
          by_cases hprefers : t.productNotifications j.row.userId = true
          · simp only [hskip.1, hactive, htoken, hprefers, hnone, hskip.2, and_self, if_true, ne_eq,
              not_false_eq_true, Option.map_some, Option.toList_some]
            rfl
          · simp only [hprefers, Bool.false_eq_true, false_and, and_false, if_false]
            exact congrArg Except.ok hsame

theorem noticesOf_queued (h : row.state = .queued) : noticesOf d t row verdict = [] := by
  rw [noticesOf, if_neg]
  rintro ⟨_, hactive, _⟩
  exact active_ne_queued hactive h

theorem terminal_notices {outcome : Outcome} {code : Option ExecutionFailureCode}
    (hrow : RowInv clock j.row) (hopen : isTerminal j.row.state = false)
    (hnone : j.notifications = []) (h : terminal d t j.row outcome code j = .ok j') :
    j'.row = endedRow t j.row outcome code ∧ j'.outbox = j.outbox ∧
      j'.notifications = noticesOf d t j.row outcome.verdict := by
  unfold terminal at h
  obtain ⟨_, h⟩ := event_bind h
  obtain ⟨notified, hnotify, h⟩ := bind_eq_ok.1 h
  have hnotices := notifyExecution_notices (d := d) (t := t) (j := j.record (nextEvent t j.row
    (.finalVerdict outcome.state outcome.verdict code))) hrow hopen hnone outcome.verdict
  rw [Job.record_row] at hnotices
  cases hnotices.symm.trans hnotify
  obtain ⟨_, rfl⟩ := Job.update_eq_ok.1 h
  exact ⟨rfl, rfl, rfl⟩

/-! ### One execution -/

/-- How many intents of a kind an execution has. -/
def intentCount (kind : OutboxKind) (j : Job) : Nat :=
  j.outbox.countP fun o => decide (o.kind = kind)

theorem intentCount_eq (kind : OutboxKind) (j : Job) :
    intentCount kind j = (intentKeys j).countP fun key => decide (key.1 = kind) := by
  rw [intentCount, intentKeys, List.countP_map]
  rfl

theorem intentCount_of_keys {kind : OutboxKind} (h : intentKeys j' = intentKeys j) :
    intentCount kind j' = intentCount kind j := by
  rw [intentCount_eq, intentCount_eq, h]

/-- An open row has no intent that closes it. -/
theorem OutboxInv.intentCount_open (h : OutboxInv j) (hopen : isTerminal j.row.state = false) :
    intentCount .executionCancelled j = 0 ∧ intentCount .executionExpired j = 0 := by
  have hclosing : ∀ g, (.executionCancelled, g) ∉ intentKeys j ∧
      (.executionExpired, g) ∉ intentKeys j := by
    refine fun g => not_or.1 fun hmem => ?_
    rw [h.closing g hmem] at hopen
    cases hopen
  constructor <;> rw [intentCount_eq, List.countP_eq_zero] <;> rintro ⟨kind, g⟩ hmem hkind <;>
    obtain rfl := of_decide_eq_true hkind
  · exact (hclosing g).1 hmem
  · exact (hclosing g).2 hmem

/-- A delivery that finds the execution in the queue after its time. -/
def Late (t : Moment) (op : Op) (id : Uuid) (row : Execution) : Prop :=
  (∃ token, op = .claim id token) ∧ row.state = .queued ∧ row.queueExpiresAt ≤ t.now

/-- A cancellation that finds the execution in the queue. -/
def Withdrawn (op : Op) (id : Uuid) (row : Execution) : Prop :=
  (∃ userId activeAllowed, op = .cancel userId id activeAllowed) ∧ row.state = .queued

/-- The execution has ended, and its request is the same. -/
structure Ended (j j' : Job) : Prop where
  open' : isTerminal j.row.state = false
  terminal : isTerminal j'.row.state = true
  request : j'.row.request = j.row.request

/-- The closing intents are the same. -/
structure SameIntents (j j' : Job) : Prop where
  cancelled : intentCount .executionCancelled j' = intentCount .executionCancelled j
  expired : intentCount .executionExpired j' = intentCount .executionExpired j

/-- Nothing that concerns the end of an execution has changed. -/
structure SameEnd (j j' : Job) : Prop extends SameIntents j j' where
  terminal : isTerminal j'.row.state = isTerminal j.row.state
  request : j'.row.request = j.row.request
  code : j'.row.failureCode = j.row.failureCode
  verdict : j'.row.verdict = j.row.verdict
  notices : j'.notifications = j.notifications

/-- What a committed call does to an execution, as far as its end goes. -/
inductive Closes (d : Deployment) (t : Moment) (op : Op) (id : Uuid) (j j' : Job) : Prop
  | kept (same : SameEnd j j') (timely : ¬ Late t op id j.row)
      (unasked : ¬ Withdrawn op id j.row)
  | late (late : Late t op id j.row) (ended : Ended j j')
      (code : j'.row.failureCode = some .queueTimeout) (intents : SameIntents j j')
      (notices : j'.notifications = [])
  | withdrawn (asked : Withdrawn op id j.row) (ended : Ended j j')
      (code : j'.row.failureCode = none)
      (cancelled : intentCount .executionCancelled j' = intentCount .executionCancelled j + 1)
      (expired : intentCount .executionExpired j' = intentCount .executionExpired j)
      (notices : j'.notifications = [])
  | expired (queued : j.row.state = .queued) (timely : ¬ Late t op id j.row)
      (unasked : ¬ Withdrawn op id j.row) (ended : Ended j j')
      (code : j'.row.failureCode = some .queueTimeout)
      (cancelled : intentCount .executionCancelled j' = intentCount .executionCancelled j)
      (expired : intentCount .executionExpired j' = intentCount .executionExpired j + 1)
      (notices : j'.notifications = [])
  | judged (active : j.row.state = .compiling ∨ j.row.state = .running) (ended : Ended j j')
      (code : j'.row.failureCode ≠ some .queueTimeout) (intents : SameIntents j j')
      (verdict : Verdict) (stored : j'.row.verdict = some verdict)
      (notices : j'.notifications = noticesOf d t j.row verdict)

/-- A call that is neither a delivery nor a cancellation of the execution. -/
structure Neutral (op : Op) (id : Uuid) : Prop where
  unclaimed : ∀ token, op ≠ .claim id token
  unasked : ∀ userId activeAllowed, op ≠ .cancel userId id activeAllowed

section Operations

variable {d : Deployment} {t : Moment} {op : Op} {id : Uuid} {j j' j'' : Job} {lease : Lease}
  {b : Bool} {token : Uuid} {outcome : Outcome} {code : Option ExecutionFailureCode}
  {row : Execution}

theorem SameIntents.of_keys (h : intentKeys j' = intentKeys j) : SameIntents j j' :=
  ⟨intentCount_of_keys h, intentCount_of_keys h⟩

theorem SameIntents.of_outbox (h : j'.outbox = j.outbox) : SameIntents j j' :=
  .of_keys (by rw [intentKeys, h]; rfl)

theorem SameIntents.trans (h : SameIntents j j') (h' : SameIntents j' j'') : SameIntents j j'' :=
  ⟨h'.cancelled.trans h.cancelled, h'.expired.trans h.expired⟩

theorem SameEnd.refl (j : Job) : SameEnd j j :=
  ⟨⟨rfl, rfl⟩, rfl, rfl, rfl, rfl, rfl⟩

theorem SameEnd.trans (h : SameEnd j j') (h' : SameEnd j' j'') : SameEnd j j'' :=
  ⟨h.toSameIntents.trans h'.toSameIntents, h'.terminal.trans h.terminal,
    h'.request.trans h.request, h'.code.trans h.code, h'.verdict.trans h.verdict,
    h'.notices.trans h.notices⟩

theorem SameEnd.of_keys (hrow : j'.row = j.row) (hnotices : j'.notifications = j.notifications)
    (hkeys : intentKeys j' = intentKeys j) : SameEnd j j' :=
  ⟨.of_keys hkeys, by rw [hrow], by rw [hrow], by rw [hrow], by rw [hrow], hnotices⟩

/-- An update of the row that leaves it open. -/
theorem SameEnd.of_row (hterminal : isTerminal j'.row.state = isTerminal j.row.state)
    (hrequest : j'.row.request = j.row.request) (hcode : j'.row.failureCode = j.row.failureCode)
    (hverdict : j'.row.verdict = j.row.verdict)
    (hnotices : j'.notifications = j.notifications) (houtbox : j'.outbox = j.outbox) :
    SameEnd j j' :=
  ⟨.of_outbox houtbox, hterminal, hrequest, hcode, hverdict, hnotices⟩

theorem JobStore.Grant.sameEnd (grant : Grant t token j j') : SameEnd j j' := by
  rw [grant.result]
  refine .of_row grant.claimable.nonterminal.symm rfl rfl rfl ?_ ?_
  · simp only [Job.record_notifications]
  · simp only [Job.record_outbox]

theorem ended_of_row (hopen : isTerminal j.row.state = false)
    (h : j'.row = endedRow t j.row outcome code) : Ended j j' := by
  refine ⟨hopen, ?_, by rw [h]; rfl⟩
  rw [h]
  cases outcome <;> rfl

theorem Ended.trans (h : Ended j j') (same : SameEnd j' j'') : Ended j j'' :=
  ⟨h.open', same.terminal.trans h.terminal, same.request.trans h.request⟩

theorem Neutral.not_late (h : Neutral op id) : ¬ Late t op id row :=
  fun ⟨⟨token, hop⟩, _⟩ => h.unclaimed token hop

theorem Neutral.not_withdrawn (h : Neutral op id) : ¬ Withdrawn op id row :=
  fun ⟨⟨userId, activeAllowed, hop⟩, _⟩ => h.unasked userId activeAllowed hop

theorem Neutral.kept (h : Neutral op id) (same : SameEnd j j') : Closes d t op id j j' :=
  .kept same h.not_late h.not_withdrawn

/-- A call that finds the execution out of the queue. -/
theorem Closes.kept_of_ne_queued (hne : j.row.state ≠ .queued) (same : SameEnd j j') :
    Closes d t op id j j' :=
  .kept same (fun h => hne h.2.1) fun h => hne h.2

/-- What keeps the end of an execution may follow in the same call. -/
theorem Closes.trans (h : Closes d t op id j j') (same : SameEnd j' j'') :
    Closes d t op id j j'' := by
  cases h with
  | kept before timely unasked => exact .kept (before.trans same) timely unasked
  | late late ended code intents notices =>
      exact .late late (ended.trans same) (same.code.trans code)
        (intents.trans same.toSameIntents) (same.notices.trans notices)
  | withdrawn asked ended code cancelled expired notices =>
      exact .withdrawn asked (ended.trans same) (same.code.trans code)
        (same.cancelled.trans cancelled) (same.expired.trans expired) (same.notices.trans notices)
  | expired queued timely unasked ended code cancelled expired notices =>
      exact .expired queued timely unasked (ended.trans same) (same.code.trans code)
        (same.cancelled.trans cancelled) (same.expired.trans expired) (same.notices.trans notices)
  | judged active ended code intents verdict stored notices =>
      exact .judged active (ended.trans same) (same.code ▸ code)
        (intents.trans same.toSameIntents) verdict (same.verdict.trans stored)
        (same.notices.trans notices)

variable (hrow : RowInv t.now j.row) (hnone : isTerminal j.row.state = false → j.notifications = [])

include hrow hnone

theorem terminal_judged (hactive : j.row.state = .compiling ∨ j.row.state = .running)
    (hcode : code ≠ some .queueTimeout) (h : terminal d t j.row outcome code j = .ok j') :
    Closes d t op id j j' := by
  have hopen := active_not_terminal hactive
  obtain ⟨hended, houtbox, hnotices⟩ := terminal_notices hrow hopen (hnone hopen) h
  refine .judged hactive (ended_of_row hopen hended) ?_ (.of_outbox houtbox) outcome.verdict ?_
    hnotices
  · rw [hended]
    exact hcode
  · rw [hended]
    rfl

theorem claim_closes {r : Option Claimed} (h : claim d t id token j = .ok (r, j')) :
    Closes d t (.claim id token) id j j' := by
  have hasked : ¬ Withdrawn (.claim id token) id j.row := by
    rintro ⟨⟨_, _, hop⟩, _⟩
    cases hop
  unfold claim at h
  simp only [] at h
  split at h
  · next hterm =>
      cases h
      refine .kept_of_ne_queued (fun hq => ?_) (.refl j)
      rw [hq] at hterm
      cases hterm
  next hterm =>
  have hopen : isTerminal j.row.state = false := by simpa only [Bool.not_eq_true] using hterm
  split at h
  · next hlate =>
      obtain ⟨_, hended, h⟩ := bind_eq_ok.1 h
      cases h
      obtain ⟨hrow', houtbox, hnotices⟩ := terminal_notices hrow hopen (hnone hopen) hended
      rw [noticesOf_queued hlate.1] at hnotices
      exact .late ⟨⟨token, rfl⟩, hlate⟩ (ended_of_row hopen hrow') (by rw [hrow']; rfl)
        (.of_outbox houtbox) hnotices
  next htimely =>
  split at h
  · next hleased =>
      cases h
      exact .kept_of_ne_queued hleased.1 (.refl j)
  next hfree =>
  split at h
  · next hrequested =>
      obtain ⟨_, hended, h⟩ := bind_eq_ok.1 h
      cases h
      exact terminal_judged hrow hnone (hrow.active_of_requested hopen hrequested) (by decide) hended
  next huncancelled =>
  split at h
  · next hlimits =>
      obtain ⟨_, hended, h⟩ := bind_eq_ok.1 h
      cases h
      have hcode : some (if maxAttempts ≤ j.row.attempt then ExecutionFailureCode.leaseExpired
          else .jobTimeout) ≠ some .queueTimeout := by
        split <;> decide
      refine terminal_judged hrow hnone ?_ hcode hended
      -- a queued row within its time is within all limits
      refine (RowInv.nonterminal_cases hopen).resolve_left fun hqueued => ?_
      have hattempt := (hrow.waiting hqueued).1
      have htime : t.now < j.row.queueExpiresAt := by
        by_contra hle
        exact htimely ⟨hqueued, Nat.le_of_not_lt hle⟩
      unfold deadline maxAttempts at hlimits
      omega
  · next hlimits =>
    obtain ⟨hrecordable, h⟩ := event_bind h
    replace h := Job.update_bind h
    cases h
    have hgrant : Grant t token j _ :=
      ⟨claimable_of_branches hopen htimely hfree huncancelled hlimits, hrecordable, rfl⟩
    exact .kept hgrant.sameEnd (fun hlate => htimely hlate.2) hasked

theorem finish_closes {result : WorkerResult} (hop : Neutral op id)
    (h : finish d t lease result j = .ok (b, j')) : Closes d t op id j j' := by
  unfold finish at h
  simp only [] at h
  split at h
  · cases h
    exact hop.kept (.refl j)
  next hvalid =>
  have hactive := valid_active (by simpa only [Bool.not_eq_false] using hvalid)
  have hopen := active_not_terminal hactive
  split at h
  · obtain ⟨_, hended, h⟩ := bind_eq_ok.1 h
    cases h
    exact terminal_judged hrow hnone hactive (by decide) hended
  split at h
  · cases h
  obtain ⟨_, h⟩ := event_bind h
  obtain ⟨_, hnotify, h⟩ := bind_eq_ok.1 h
  have hnotices := notifyExecution_notices (d := d) (t := t) (j := j.record (nextEvent t j.row
    (.finalVerdict .finished result.verdict none))) hrow hopen (hnone hopen) result.verdict
  rw [Job.record_row] at hnotices
  cases hnotices.symm.trans hnotify
  replace h := Job.update_bind h
  cases h
  refine .judged hactive ⟨hopen, rfl, rfl⟩ ?_ (.of_outbox rfl) result.verdict rfl rfl
  have hcode : j.row.failureCode = none := (hrow.undecided hopen).2.2.1
  exact fun htimeout => by cases hcode.symm.trans htimeout

theorem fail_closes {cleanupConfirmed : Bool} (hop : Neutral op id)
    (h : fail d t lease cleanupConfirmed j = .ok (b, j')) : Closes d t op id j j' := by
  unfold fail at h
  simp only [] at h
  split at h
  · cases h
    exact hop.kept (.refl j)
  next hvalid =>
  have hactive := valid_active (by simpa only [Bool.not_eq_false] using hvalid)
  obtain ⟨_, hended, h⟩ := bind_eq_ok.1 h
  cases h
  refine terminal_judged hrow hnone hactive ?_ hended
  split
  · split <;> decide
  · decide

omit hrow hnone in
theorem upsertRecovery_sameEnd {generation : Nat} {onConflict : OutboxEvent → OutboxEvent}
    (h : upsertRecovery t generation onConflict j = .ok j')
    (hkey : ∀ o, (onConflict o).key = o.key) : SameEnd j j' := by
  unfold upsertRecovery at h
  split at h
  · cases h
    refine .of_keys rfl rfl ?_
    rw [intentKeys, intentKeys, List.map_map]
    refine List.map_congr_left fun o _ => ?_
    simp only [Function.comp_apply]
    split
    · exact hkey o
    · rfl
  · obtain ⟨_, rfl⟩ := Job.createOutbox_eq_ok.1 h
    exact ⟨⟨rfl, rfl⟩, rfl, rfl, rfl, rfl, rfl⟩

theorem recover_closes (hop : Neutral op id) (h : recover d t lease j = .ok (b, j')) :
    Closes d t op id j j' := by
  unfold recover at h
  simp only [] at h
  split at h
  · cases h
    exact hop.kept (.refl j)
  next hvalid =>
  have hactive := valid_active (by simpa only [Bool.not_eq_false] using hvalid)
  split at h
  · obtain ⟨_, hended, h⟩ := bind_eq_ok.1 h
    cases h
    exact terminal_judged hrow hnone hactive (by decide) hended
  split at h
  · obtain ⟨_, hended, h⟩ := bind_eq_ok.1 h
    cases h
    exact terminal_judged hrow hnone hactive (by decide) hended
  replace h := Job.update_bind h
  obtain ⟨_, hupsert, h⟩ := bind_eq_ok.1 h
  cases h
  have hyielded : SameEnd j { j with row := { j.row with leaseExpiresAt := some t.now } } :=
    .of_row rfl rfl rfl rfl rfl rfl
  exact hop.kept (hyielded.trans (upsertRecovery_sameEnd hupsert fun _ => rfl))

theorem cancel_closes {userId : Uuid} {activeAllowed : Bool} {r : ExecutionReceipt}
    (h : cancel d t userId activeAllowed j = .ok (r, j')) :
    Closes d t (.cancel userId id activeAllowed) id j j' := by
  unfold cancel at h
  simp only [] at h
  split at h
  · cases h
  split at h
  · next hqueued =>
      have hopen : isTerminal j.row.state = false := by rw [hqueued]; rfl
      obtain ⟨_, hended, h⟩ := bind_eq_ok.1 h
      obtain ⟨hrow', houtbox, hnotices⟩ := terminal_notices hrow hopen (hnone hopen) hended
      rw [noticesOf_queued hqueued] at hnotices
      obtain ⟨_, hcreated, h⟩ := bind_eq_ok.1 h
      cases h
      obtain ⟨_, rfl⟩ := Job.createOutbox_eq_ok.1 hcreated
      have hended := ended_of_row hopen hrow'
      refine .withdrawn ⟨⟨userId, activeAllowed, rfl⟩, hqueued⟩
        ⟨hended.open', hended.terminal, hended.request⟩ ?_ ?_ ?_ hnotices
      · rw [hrow']
        rfl
      · rw [intentCount, houtbox]
        exact List.countP_cons_of_pos rfl
      · rw [intentCount, houtbox]
        exact List.countP_cons_of_neg (by simp)
  next hne =>
  split at h
  · split at h
    · cases h
    split at h
    · obtain ⟨_, h⟩ := event_bind h
      replace h := Job.update_bind h
      cases h
      exact .kept_of_ne_queued hne (.of_row rfl rfl rfl rfl rfl rfl)
    · cases h
      exact .kept_of_ne_queued hne (.refl j)
  · cases h
    exact .kept_of_ne_queued hne (.refl j)

theorem maintainRow_closes (hop : Neutral op id) (hselect : maintainSelects t.now j.row = true)
    (h : maintainRow d t j = .ok j') : Closes d t op id j j' := by
  have hactive := maintainSelects_active hselect
  unfold maintainRow at h
  simp only [] at h
  split at h
  · refine terminal_judged hrow hnone hactive ?_ h
    split
    · decide
    · split <;> decide
  · exact hop.kept (upsertRecovery_sameEnd h fun _ => rfl)

omit hrow in
theorem expireQueuedRow_closes (hop : Neutral op id) (hselect : expireSelects t.app j.row = true)
    (h : expireQueuedRow t j = .ok j') : Closes d t op id j j' := by
  simp only [expireSelects, Bool.and_eq_true, beq_iff_eq] at hselect
  unfold expireQueuedRow at h
  obtain ⟨_, h⟩ := event_bind h
  replace h := Job.update_bind h
  obtain ⟨_, rfl⟩ := Job.createOutbox_eq_ok.1 h
  have hopen : isTerminal j.row.state = false := by rw [hselect.1]; rfl
  refine .expired hselect.1 hop.not_late hop.not_withdrawn ⟨hopen, rfl, rfl⟩ rfl ?_ ?_
    (hnone hopen)
  · exact List.countP_cons_of_neg (by simp)
  · exact List.countP_cons_of_pos rfl

omit hrow hnone

theorem renew_closes {r : Renewal} (hop : Neutral op id) (h : renew t lease j = .ok (r, j')) :
    Closes d t op id j j' := by
  unfold renew at h
  simp only [] at h
  split at h
  · cases h
    exact hop.kept (.refl j)
  split at h
  · cases h
    exact hop.kept (.refl j)
  replace h := Job.update_bind h
  cases h
  exact hop.kept (.of_row rfl rfl rfl rfl rfl rfl)

theorem markRunning_closes (hop : Neutral op id) (h : markRunning t lease j = .ok (b, j')) :
    Closes d t op id j j' := by
  unfold markRunning at h
  simp only [] at h
  split at h
  · cases h
    exact hop.kept (.refl j)
  next hguard =>
  simp only [not_or, ne_eq, not_not] at hguard
  obtain ⟨_, h⟩ := event_bind h
  replace h := Job.update_bind h
  cases h
  refine hop.kept (.of_row ?_ rfl rfl rfl rfl rfl)
  rw [hguard.2.2]
  rfl

theorem console_closes {caseId text : String} {stream : Stream} (hop : Neutral op id)
    (h : console d t lease caseId stream text j = .ok (b, j')) : Closes d t op id j j' := by
  unfold console at h
  simp only [] at h
  split at h
  · cases h
    exact hop.kept (.refl j)
  split at h
  · cases h
  obtain ⟨_, h⟩ := event_bind h
  replace h := Job.update_bind h
  cases h
  exact hop.kept (.of_row rfl rfl rfl rfl rfl rfl)

end Operations

/-! ### One call -/

/-- What the inversion needs to know of the executions before the call. -/
structure Sound (clock : Nat) (j : Job) : Prop where
  row : RowInv clock j.row
  silent : isTerminal j.row.state = false → j.notifications = []

/-- What a committed call does to the execution under a key. -/
inductive Concludes (d : Deployment) (t : Moment) (op : Op) (id : Uuid) :
    Option Job → Option Job → Prop
  | absent : Concludes d t op id none none
  | created {j : Job} (new : Created d t id j) : Concludes d t op id none (some j)
  | closes {j j' : Job} (closes : Closes d t op id j j') : Concludes d t op id (some j) (some j')

section Calls

variable {d : Deployment} {t : Moment} {op : Op} {id key : Uuid} {jobs jobs' : Table Uuid Job}
  {s s' : Store}

theorem Concludes.same (h : Neutral op key) (before : Option Job) :
    Concludes d t op key before before := by
  cases before with
  | none => exact .absent
  | some j => exact .closes (h.kept (.refl j))

/-- An operation on one row: what it does to that row, and that it leaves the
    others alone. -/
theorem onRow_concludes {α : Type} {absent : Except Error α} {body : Job → Except Error (α × Job)}
    {a : α} (h : onRow id absent body jobs = .ok (a, jobs'))
    (hother : ∀ key, key ≠ id → Neutral op key)
    (hbody : ∀ j j', jobs.lookup id = some j → body j = .ok (a, j') → Closes d t op id j j') :
    Concludes d t op key (jobs.lookup key) (jobs'.lookup key) := by
  rcases onRow_eq_ok.1 h with ⟨hnone, _, rfl⟩ | ⟨j, j', hlookup, hj, rfl⟩
  · by_cases hkey : key = id
    · rw [hkey, hnone]
      exact .absent
    · exact .same (hother key hkey) _
  · by_cases hkey : key = id
    · rw [hkey, hlookup, Table.lookup_set_self hlookup]
      exact .closes (hbody j j' hlookup hj)
    · rw [Table.lookup_set_ne _ _ hkey]
      exact .same (hother key hkey) _

/-- A pass over selected rows. -/
theorem forEach_concludes {keys : List Uuid} {select : Execution → Bool}
    {body : Job → Except Error Job} (hop : Neutral op key)
    (hkeys : keys.Nodup ∧ ∀ key ∈ keys, ∃ j, jobs.lookup key = some j ∧ select j.row = true)
    (hbody : ∀ j j', jobs.lookup key = some j → select j.row = true → body j = .ok j' →
      Closes d t op key j j')
    (h : Table.forEach body keys jobs = .ok jobs') :
    Concludes d t op key (jobs.lookup key) (jobs'.lookup key) := by
  by_cases hmem : key ∈ keys
  · obtain ⟨j, hlookup, hselect⟩ := hkeys.2 key hmem
    rcases Table.lookup_forEach_of_mem body key keys jobs jobs' hkeys.1 hmem h with
      ⟨hnone, _⟩ | ⟨j₁, j', hj, hbodyj, hj'⟩
    · rw [hlookup] at hnone
      cases hnone
    · cases hlookup.symm.trans hj
      rw [hlookup, hj']
      exact .closes (hbody j j' hlookup hselect hbodyj)
  · rw [Table.lookup_forEach_of_notMem body key keys jobs jobs' hmem h]
    exact .same hop _

/-- A change that keeps the end of every execution, after such a pass. -/
theorem Concludes.mapValues {f : Uuid → Job → Job} {before : Option Job}
    (h : Concludes d t op key before (jobs.lookup key)) (hf : ∀ j, SameEnd j (f key j))
    (hcreated : before = none → jobs.lookup key = none) :
    Concludes d t op key before ((Table.mapValues f jobs).lookup key) := by
  rw [Table.lookup_mapValues]
  generalize jobs.lookup key = after at h hcreated
  cases h with
  | absent => exact .absent
  | created new => cases hcreated rfl
  | closes h => exact .closes (h.trans (hf _))

theorem create_concludes {call : CreateCall} {r : ExecutionReceipt}
    (h : Executions.create d t call s = .ok (r, s')) :
    Concludes d t (.create call) key (s.jobs.lookup key) (s'.jobs.lookup key) := by
  rcases create_jobs h key with hsame | ⟨hnone, j, hj, _, hcreated, _⟩
  · rw [hsame]
    exact .same ⟨by simp, by simp⟩ _
  · rw [hnone, hj]
    exact .created hcreated

theorem maintain_concludes {pass : Pass} (hop : Neutral op key)
    (hsound : ∀ j, jobs.lookup key = some j → Sound t.now j)
    (h : maintain d t pass jobs = .ok jobs') :
    Concludes d t op key (jobs.lookup key) (jobs'.lookup key) := by
  unfold maintain at h
  obtain ⟨jobs₁, hrows, h⟩ := bind_eq_ok.1 h
  cases h
  have hspec := maintainRows_spec t.now pass.locked jobs
  have hpass : Concludes d t op key (jobs.lookup key) (jobs₁.lookup key) :=
    forEach_concludes hop hspec (fun j j' hj hselect hbody =>
      maintainRow_closes (hsound j hj).row (hsound j hj).silent hop hselect hbody) hrows
  have habsent : jobs.lookup key = none → jobs₁.lookup key = none := by
    intro hnone
    have hnot : key ∉ maintainRows t.now pass.locked jobs := by
      intro hmem
      obtain ⟨j, hj, _⟩ := hspec.2 key hmem
      rw [hnone] at hj
      cases hj
    rw [Table.lookup_forEach_of_notMem _ key _ jobs jobs₁ hnot hrows, hnone]
  refine (hpass.mapValues (fun j => ?_) habsent).mapValues (fun j => ?_) fun hnone => ?_
  · refine .of_keys rfl rfl ?_
    rw [intentKeys, intentKeys, reofferIntents, List.map_map]
    refine List.map_congr_left fun o _ => ?_
    simp only [Function.comp_apply]
    split <;> rfl
  · exact .of_keys rfl rfl rfl
  · rw [Table.lookup_mapValues, habsent hnone]
    rfl

theorem body_concludes {a : Answer} (hsound : ∀ id j, s.jobs.lookup id = some j → Sound t.now j)
    (h : op.body d t s = .ok (a, s')) :
    Concludes d t op key (s.jobs.lookup key) (s'.jobs.lookup key) := by
  cases op with
  | create call =>
      obtain ⟨⟨r, s₁⟩, hr, ⟨⟩⟩ := map_eq_ok.1 h
      exact create_concludes hr
  | claim id token =>
      obtain ⟨⟨r, jobs⟩, hr, ⟨⟩⟩ := map_eq_ok.1 h
      refine onRow_concludes hr (fun key hkey => ⟨?_, by simp⟩) fun j j' hj hbody =>
        claim_closes (hsound id j hj).row (hsound id j hj).silent hbody
      rintro _ hop
      cases hop
      exact hkey rfl
  | renew lease =>
      obtain ⟨⟨r, jobs⟩, hr, ⟨⟩⟩ := map_eq_ok.1 h
      exact onRow_concludes hr (fun _ _ => ⟨by simp, by simp⟩) fun _ _ _ =>
        renew_closes ⟨by simp, by simp⟩
  | markRunning lease =>
      obtain ⟨⟨r, jobs⟩, hr, ⟨⟩⟩ := map_eq_ok.1 h
      exact onRow_concludes hr (fun _ _ => ⟨by simp, by simp⟩) fun _ _ _ =>
        markRunning_closes ⟨by simp, by simp⟩
  | console lease caseId stream text =>
      simp only [Op.body] at h
      split at h
      · cases h
      obtain ⟨⟨r, jobs⟩, hr, ⟨⟩⟩ := map_eq_ok.1 h
      exact onRow_concludes hr (fun _ _ => ⟨by simp, by simp⟩) fun _ _ _ =>
        console_closes ⟨by simp, by simp⟩
  | finish lease result =>
      simp only [Op.body] at h
      split at h
      · cases h
      obtain ⟨⟨r, jobs⟩, hr, ⟨⟩⟩ := map_eq_ok.1 h
      exact onRow_concludes hr (fun _ _ => ⟨by simp, by simp⟩) fun j _ hj =>
        finish_closes (hsound _ j hj).row (hsound _ j hj).silent ⟨by simp, by simp⟩
  | fail lease cleanupConfirmed =>
      obtain ⟨⟨r, jobs⟩, hr, ⟨⟩⟩ := map_eq_ok.1 h
      exact onRow_concludes hr (fun _ _ => ⟨by simp, by simp⟩) fun j _ hj =>
        fail_closes (hsound _ j hj).row (hsound _ j hj).silent ⟨by simp, by simp⟩
  | recover lease =>
      obtain ⟨⟨r, jobs⟩, hr, ⟨⟩⟩ := map_eq_ok.1 h
      exact onRow_concludes hr (fun _ _ => ⟨by simp, by simp⟩) fun j _ hj =>
        recover_closes (hsound _ j hj).row (hsound _ j hj).silent ⟨by simp, by simp⟩
  | cancel userId id activeAllowed =>
      obtain ⟨⟨r, jobs⟩, hr, ⟨⟩⟩ := map_eq_ok.1 h
      refine onRow_concludes hr (fun key hkey => ⟨by simp, ?_⟩) fun j j' hj hbody =>
        cancel_closes (hsound id j hj).row (hsound id j hj).silent hbody
      rintro _ _ hop
      cases hop
      exact hkey rfl
  | maintain pass =>
      obtain ⟨jobs, hr, ⟨⟩⟩ := map_eq_ok.1 h
      exact maintain_concludes ⟨by simp, by simp⟩ (hsound key) hr
  | expireQueuedJobs locked =>
      obtain ⟨⟨n, jobs⟩, hr, ⟨⟩⟩ := map_eq_ok.1 h
      unfold expireQueuedJobs at hr
      obtain ⟨_, hrows, hr⟩ := bind_eq_ok.1 hr
      cases hr
      exact forEach_concludes ⟨by simp, by simp⟩ (expireRows_spec t.app locked s.jobs)
        (fun j _ hj => expireQueuedRow_closes (hsound key j hj).silent ⟨by simp, by simp⟩) hrows

end Calls

/-- The inversion of a call: an exception leaves every execution as it was. -/
theorem step_closes (d : Deployment) (s : Store) (call : Call) (id : Uuid)
    (hsound : ∀ id j, s.jobs.lookup id = some j → Sound (call.moment s).now j) :
    (∃ e, (step d s call).2 = .error e ∧
        (step d s call).1.jobs.lookup id = s.jobs.lookup id) ∨
      ∃ a, (step d s call).2 = .ok a ∧ Concludes d (call.moment s) call.op id (s.jobs.lookup id)
        ((step d s call).1.jobs.lookup id) := by
  cases hbody : call.op.body d (call.moment s) { s with clock := s.clock + call.elapsed } with
  | error e =>
      rw [step_of_error hbody]
      exact .inl ⟨e, rfl, rfl⟩
  | ok r =>
      obtain ⟨a, s'⟩ := r
      rw [step_of_ok hbody]
      exact .inr ⟨a, rfl,
        body_concludes (s := { s with clock := s.clock + call.elapsed }) hsound hbody⟩

/-! ### Runs -/

/-- The call is a delivery that finds the execution in the queue after its time, and
    ends it. -/
def Delivered (d : Deployment) (id : Uuid) (s : Store) (call : Call) : Prop :=
  ∃ j a, s.jobs.lookup id = some j ∧ Late (call.moment s) call.op id j.row ∧
    (step d s call).2 = .ok a

/-- The call cancels the execution while it is queued. -/
def Cancelled (d : Deployment) (id : Uuid) (s : Store) (call : Call) : Prop :=
  ∃ j a, s.jobs.lookup id = some j ∧ Withdrawn call.op id j.row ∧ (step d s call).2 = .ok a

/-- A submission ends, from an active state and not by a cancellation, while its
    owner wants to be told. -/
def Announced (t : Moment) (j j' : Job) : Prop :=
  j.row.mode = .submit ∧ (j.row.state = .compiling ∨ j.row.state = .running) ∧
    isTerminal j'.row.state = true ∧ j'.row.verdict ≠ some .cancelled ∧
    t.productNotifications j.row.userId = true

/-- The call is the one in which that happens. -/
def Tells (d : Deployment) (id : Uuid) (s : Store) (call : Call) : Prop :=
  ∃ j j', s.jobs.lookup id = some j ∧ (step d s call).1.jobs.lookup id = some j' ∧
    Announced (call.moment s) j j'

/-- What is left behind of an execution, by what has happened to it. -/
structure Closed (d : Deployment) (late withdrawn announced : Prop) (j : Job) : Prop where
  untouched : isTerminal j.row.state = false → ¬ late ∧ ¬ withdrawn ∧ ¬ announced
  unrecorded : late → j.row.failureCode = some .queueTimeout ∧ intentCount .executionExpired j = 0
  recorded : ¬ late → intentCount .executionExpired j =
    if j.row.failureCode = some .queueTimeout then 1 else 0
  cancelled : withdrawn → intentCount .executionCancelled j = 1
  uncancelled : ¬ withdrawn → intentCount .executionCancelled j = 0
  told : announced → ∃ version verdict, d.catalog j.row.problemVersionId = some version ∧
    j.row.verdict = some verdict ∧ j.notifications = [resultNotification version j.row verdict]
  silent : ¬ announced → j.notifications = []

theorem resultNotification_congr {row' : Execution} (h : row'.request = row.request)
    (version : ProblemVersion) (verdict : Verdict) :
    resultNotification version row' verdict = resultNotification version row verdict := by
  have huser : row'.userId = row.userId := congrArg RequestColumns.userId h
  have hid : row'.id = row.id := congrArg RequestColumns.id h
  rw [resultNotification, huser, hid]
  rfl

/-- What the outcome calls for is a notification exactly if it is announced. -/
theorem noticesOf_eq (hrequest : RequestInv d id j.row.request) (ended : Ended j j')
    (hstored : j'.row.verdict = some verdict) :
    (Announced t j j' → ∃ version, d.catalog j'.row.problemVersionId = some version ∧
        noticesOf d t j.row verdict = [resultNotification version j'.row verdict]) ∧
      (¬ Announced t j j' → noticesOf d t j.row verdict = []) := by
  have hannounced : Announced t j j' ↔ j.row.mode = .submit ∧
      (j.row.state = .compiling ∨ j.row.state = .running) ∧ verdict ≠ .cancelled ∧
      t.productNotifications j.row.userId = true := by
    rw [Announced, hstored, ended.terminal]
    simp only [true_and, ne_eq, Option.some.injEq]
  have hversion : j'.row.problemVersionId = j.row.problemVersionId :=
    congrArg RequestColumns.problemVersionId ended.request
  obtain ⟨version, hpublished⟩ := Option.isSome_iff_exists.1 hrequest.published
  rw [hannounced, noticesOf, hversion]
  refine ⟨fun h => ⟨version, hpublished, ?_⟩, fun h => if_neg h⟩
  have hcatalog : d.catalog j.row.problemVersionId = some version := hpublished
  rw [if_pos h, hcatalog, resultNotification_congr ended.request]
  rfl

section Step

variable {d : Deployment} {t : Moment} {op : Op} {id : Uuid} {j j' : Job}
  {late withdrawn announced : Prop}

theorem Closed.same (h : Closed d late withdrawn announced j) (same : SameEnd j j') :
    Closed d late withdrawn announced j' := by
  have hversion : j'.row.problemVersionId = j.row.problemVersionId :=
    congrArg RequestColumns.problemVersionId same.request
  refine ⟨fun hopen => h.untouched (same.terminal ▸ hopen), fun hl => ?_, fun hl => ?_,
    fun hw => ?_, fun hw => ?_, fun ha => ?_, fun ha => ?_⟩
  · rw [same.code, same.expired]
    exact h.unrecorded hl
  · rw [same.code, same.expired]
    exact h.recorded hl
  · rw [same.cancelled]
    exact h.cancelled hw
  · rw [same.cancelled]
    exact h.uncancelled hw
  · obtain ⟨version, verdict, hpublished, hverdict, hnotices⟩ := h.told ha
    refine ⟨version, verdict, hversion ▸ hpublished, same.verdict.trans hverdict, ?_⟩
    rw [same.notices, hnotices, resultNotification_congr same.request]
  · rw [same.notices]
    exact h.silent ha

/-- A call adds to what has happened to an execution exactly what it leaves behind. -/
theorem Closes.closed (step : Closes d t op id j j') (hlife : Lifecycle d id t.now j)
    (houtbox : OutboxInv j) (h : Closed d late withdrawn announced j) :
    Closed d (late ∨ Late t op id j.row) (withdrawn ∨ Withdrawn op id j.row)
      (announced ∨ Announced t j j') j' := by
  have hopen : isTerminal j.row.state = false → (¬ late ∧ ¬ withdrawn ∧ ¬ announced) ∧
      intentCount .executionCancelled j = 0 ∧ intentCount .executionExpired j = 0 :=
    fun hopen => ⟨h.untouched hopen, houtbox.intentCount_open hopen⟩
  have hqueued : j.row.state = .queued → ¬ Announced t j j' :=
    fun hqueued hannounced => active_ne_queued hannounced.2.1 hqueued
  cases step with
  | kept same timely unasked =>
      have hnot : ¬ Announced t j j' := by
        rintro ⟨_, hactive, hterminal, _⟩
        rw [same.terminal, active_not_terminal hactive] at hterminal
        cases hterminal
      simp only [timely, unasked, hnot, or_false]
      exact h.same same
  | late isLate ended code intents notices =>
      obtain ⟨⟨_, hwithdrawn, hannounced⟩, hcancelled, hexpired⟩ := hopen ended.open'
      have hasked : ¬ Withdrawn op id j.row := by
        rintro ⟨⟨_, _, hop⟩, _⟩
        obtain ⟨⟨_, hop'⟩, _⟩ := isLate
        cases hop.symm.trans hop'
      have hnot := hqueued isLate.2.1
      simp only [hwithdrawn, hasked, hannounced, hnot, isLate, or_true, or_false]
      refine ⟨fun hstill => ?_, fun _ => ⟨code, intents.expired.trans hexpired⟩,
        fun hfalse => absurd trivial hfalse, False.elim, fun _ => intents.cancelled.trans hcancelled,
        False.elim, fun _ => notices⟩
      rw [ended.terminal] at hstill
      cases hstill
  | withdrawn asked ended code cancelled expired notices =>
      obtain ⟨⟨hlate, _, hannounced⟩, hcancelled, hexpired⟩ := hopen ended.open'
      have htimely : ¬ Late t op id j.row := by
        rintro ⟨⟨_, hop⟩, _⟩
        obtain ⟨⟨_, _, hop'⟩, _⟩ := asked
        cases hop.symm.trans hop'
      have hnot := hqueued asked.2
      simp only [hlate, htimely, hannounced, hnot, asked, or_true, or_false]
      refine ⟨fun hstill => ?_, False.elim, fun _ => ?_, fun _ => ?_,
        fun hfalse => absurd trivial hfalse, False.elim, fun _ => notices⟩
      · rw [ended.terminal] at hstill
        cases hstill
      · rw [expired, hexpired, code]
        rfl
      · rw [cancelled, hcancelled]
  | expired queued timely unasked ended code cancelled expired notices =>
      obtain ⟨⟨hlate, hwithdrawn, hannounced⟩, hcancelled, hexpired⟩ := hopen ended.open'
      have hnot := hqueued queued
      simp only [hlate, hwithdrawn, timely, unasked, hannounced, hnot, or_false]
      refine ⟨fun hstill => ?_, False.elim, fun _ => ?_, False.elim, fun _ => ?_, False.elim,
        fun _ => notices⟩
      · rw [ended.terminal] at hstill
        cases hstill
      · rw [expired, hexpired, if_pos code]
      · rw [cancelled, hcancelled]
  | judged active ended code intents verdict stored notices =>
      obtain ⟨⟨hlate, hwithdrawn, hannounced⟩, hcancelled, hexpired⟩ := hopen ended.open'
      have htimely : ¬ Late t op id j.row := fun h => active_ne_queued active h.2.1
      have hasked : ¬ Withdrawn op id j.row := fun h => active_ne_queued active h.2
      obtain ⟨htold, hsilent⟩ := noticesOf_eq (t := t) hlife.request ended stored
      simp only [hlate, hwithdrawn, htimely, hasked, hannounced, false_or, or_false]
      refine ⟨fun hstill => ?_, False.elim, fun _ => ?_, False.elim, fun _ => ?_, fun ha => ?_,
        fun ha => notices.trans (hsilent ha)⟩
      · rw [ended.terminal] at hstill
        cases hstill
      · rw [intents.expired, hexpired, if_neg code]
      · rw [intents.cancelled, hcancelled]
      · obtain ⟨version, hpublished, hnotices⟩ := htold ha
        exact ⟨version, verdict, hpublished, stored, notices.trans hnotices⟩

end Step

/-- What has happened to an execution in a run. -/
abbrev Closed.Run (d : Deployment) (id : Uuid) (calls : List Call) (j : Job) : Prop :=
  Closed d (Runs.Occurs (step d) (Delivered d id) {} calls)
    (Runs.Occurs (step d) (Cancelled d id) {} calls)
    (Runs.Occurs (step d) (Tells d id) {} calls) j

/-- Nothing has happened to an execution yet. -/
def Untouched (d : Deployment) (id : Uuid) (calls : List Call) : Prop :=
  ¬ Runs.Occurs (step d) (Delivered d id) {} calls ∧
    ¬ Runs.Occurs (step d) (Cancelled d id) {} calls ∧
    ¬ Runs.Occurs (step d) (Tells d id) {} calls

/-- A new execution has nothing behind it. -/
theorem Created.closed {late withdrawn announced : Prop} (new : Created d t id j)
    (h : ¬ late ∧ ¬ withdrawn ∧ ¬ announced) : Closed d late withdrawn announced j := by
  obtain ⟨call, versionId, round, _, _, ⟨_, _, rfl⟩⟩ := new
  exact ⟨fun _ => h, fun hl => absurd hl h.1, fun _ => rfl, fun hw => absurd hw h.2.1,
    fun _ => rfl, fun ha => absurd ha h.2.2, fun _ => rfl⟩

theorem store_run_concat (d : Deployment) (calls : List Call) (call : Call) :
    Store.run d (calls ++ [call]) = (step d (Store.run d calls) call).1 := by
  rw [Store.run, Runs.run_append]
  rfl

section Happens

variable {d : Deployment} {id : Uuid} {s : Store} {call : Call} {j j' : Job} {a : Answer}

/-- Nothing happens to an execution that does not exist. -/
theorem nothing_happens (d : Deployment) (call : Call) (h : s.jobs.lookup id = none) :
    ¬ Delivered d id s call ∧ ¬ Cancelled d id s call ∧ ¬ Tells d id s call := by
  refine ⟨?_, ?_, ?_⟩
  · rintro ⟨_, _, hj, _⟩
    cases h.symm.trans hj
  · rintro ⟨_, _, hj, _⟩
    cases h.symm.trans hj
  · rintro ⟨_, _, hj, _⟩
    cases h.symm.trans hj

theorem tells_iff (hj : s.jobs.lookup id = some j)
    (hj' : (step d s call).1.jobs.lookup id = some j') :
    Tells d id s call ↔ Announced (call.moment s) j j' := by
  refine ⟨?_, fun h => ⟨j, j', hj, hj', h⟩⟩
  rintro ⟨_, _, h, h', hannounced⟩
  cases hj.symm.trans h
  cases hj'.symm.trans h'
  exact hannounced

theorem delivered_iff (hj : s.jobs.lookup id = some j) (hok : (step d s call).2 = .ok a) :
    Delivered d id s call ↔ Late (call.moment s) call.op id j.row := by
  refine ⟨?_, fun h => ⟨j, a, hj, h, hok⟩⟩
  rintro ⟨_, _, h, hlate, _⟩
  cases hj.symm.trans h
  exact hlate

theorem cancelled_iff (hj : s.jobs.lookup id = some j) (hok : (step d s call).2 = .ok a) :
    Cancelled d id s call ↔ Withdrawn call.op id j.row := by
  refine ⟨?_, fun h => ⟨j, a, hj, h, hok⟩⟩
  rintro ⟨_, _, h, hasked, _⟩
  cases hj.symm.trans h
  exact hasked

/-- Nor to any execution in a call that fails. -/
theorem nothing_happens_of_error {e : Error} (herror : (step d s call).2 = .error e)
    (hsame : (step d s call).1.jobs.lookup id = s.jobs.lookup id) :
    ¬ Delivered d id s call ∧ ¬ Cancelled d id s call ∧ ¬ Tells d id s call := by
  refine ⟨?_, ?_, ?_⟩
  · rintro ⟨_, _, _, _, hok⟩
    cases herror.symm.trans hok
  · rintro ⟨_, _, _, _, hok⟩
    cases herror.symm.trans hok
  · rintro ⟨j, j', hj, hj', _, hactive, hterminal, _⟩
    cases (hsame.trans hj).symm.trans hj'
    rw [active_not_terminal hactive] at hterminal
    cases hterminal

end Happens

/-- The inversion applies to the next call. -/
theorem Closed.Run.sound (h : Closed.Run d id calls j) (call : Call)
    (hj : (Store.run d calls).jobs.lookup id = some j) :
    Sound (call.moment (Store.run d calls)).now j where
  row := (lifecycle_run d calls id j hj).row.later (Nat.le_add_right _ _)
  silent hopen := h.silent (h.untouched hopen).2.2

/-- What is left behind of every execution of every run, and that nothing happens to
    an execution before it exists. -/
theorem closed_run (d : Deployment) (calls : List Call) (id : Uuid) :
    (∀ j, (Store.run d calls).jobs.lookup id = some j → Closed.Run d id calls j) ∧
      ((Store.run d calls).jobs.lookup id = none → Untouched d id calls) := by
  induction calls using List.reverseRecOn generalizing id with
  | nil =>
      refine ⟨fun j hj => (by cases hj), fun _ => ?_⟩
      exact ⟨Runs.not_occurs_nil _, Runs.not_occurs_nil _, Runs.not_occurs_nil _⟩
  | append_singleton calls call ih =>
      have hcases := step_closes d (Store.run d calls) call id fun id j hj =>
        ((ih id).1 j hj).sound call hj
      obtain ⟨hexists, hnone⟩ := ih id
      simp only [Closed.Run, Untouched, Runs.occurs_concat, store_run_concat] at hexists hnone ⊢
      change _ ∧ _
      have hrun : Runs.run (step d) {} calls = Store.run d calls := rfl
      rw [hrun]
      rcases hcases with ⟨e, herror, hsame⟩ | ⟨a, hok, hconcludes⟩
      · obtain ⟨hdelivered, hcancelled, htells⟩ := nothing_happens_of_error herror hsame
        simp only [hdelivered, hcancelled, htells, or_false, hsame]
        exact ⟨hexists, hnone⟩
      · generalize hbefore : (Store.run d calls).jobs.lookup id = before at *
        generalize hafter : (step d (Store.run d calls) call).1.jobs.lookup id = after at *
        cases hconcludes with
        | absent =>
            obtain ⟨hdelivered, hcancelled, htells⟩ := nothing_happens d call hbefore
            simp only [hdelivered, hcancelled, htells, or_false]
            exact ⟨fun j hj => (by cases hj), fun _ => hnone rfl⟩
        | created new =>
            obtain ⟨hdelivered, hcancelled, htells⟩ := nothing_happens d call hbefore
            simp only [hdelivered, hcancelled, htells, or_false]
            refine ⟨fun j hj => ?_, fun hnone => (by cases hnone)⟩
            cases hj
            exact new.closed (hnone rfl)
        | @closes j j' hcloses =>
            refine ⟨fun i hi => ?_, fun hnone => (by cases hnone)⟩
            cases hi
            rw [delivered_iff hbefore hok, cancelled_iff hbefore hok, tells_iff hbefore hafter]
            have hlife := lifecycle_run d calls id j hbefore
            exact hcloses.closed ⟨hlife.request, hlife.row.later (Nat.le_add_right _ _)⟩
              (outbox_run d calls id j hbefore) (hexists j rfl)

/-! ### Queue timeouts -/

/-- A queue timeout goes with one intent of expiry in every run, for exactly the
    executions that no delivery has found in the queue after their time. An intent of
    cancellation is there, once, exactly if the execution was cancelled while it was
    queued. -/
theorem expiry_intents (d : Deployment) (calls : List Call) (id : Uuid) (j : Job)
    (hj : (Store.run d calls).jobs.lookup id = some j) :
    ((j.row.failureCode = some .queueTimeout ↔ intentCount .executionExpired j = 1) ↔
      ¬ Runs.Occurs (step d) (Delivered d id) {} calls) ∧
    (0 < intentCount .executionCancelled j ↔ Runs.Occurs (step d) (Cancelled d id) {} calls) ∧
    intentCount .executionCancelled j ≤ 1 := by
  have h := (closed_run d calls id).1 j hj
  refine ⟨⟨fun hiff hlate => ?_, fun hlate => ?_⟩, ?_⟩
  · obtain ⟨hcode, hcount⟩ := h.unrecorded hlate
    rw [hiff.1 hcode] at hcount
    cases hcount
  · rw [h.recorded hlate]
    split <;> simp_all
  · by_cases hwithdrawn : Runs.Occurs (step d) (Cancelled d id) {} calls
    · simp only [h.cancelled hwithdrawn, hwithdrawn, Nat.one_pos, le_refl, and_self]
    · simp only [h.uncancelled hwithdrawn, hwithdrawn, Nat.lt_irrefl, Nat.zero_le, and_self]

namespace Sample

/-- A delivery eighty seconds after the time in the queue is over. -/
def overdue : Call where
  elapsed := 200000
  app := 201000
  op := .claim execution token

/-- Maintenance at the same time. -/
def sweep : Call where
  elapsed := 200000
  app := 201000
  op := .expireQueuedJobs []

end Sample

/-- Maintenance leaves a queue timeout with its intent, so there was no delivery. -/
theorem expiry_intents_swept :
    ∃ j, (Store.run Sample.deployment [Sample.created .submit, Sample.sweep]).jobs.lookup
        Sample.execution = some j ∧ j.row.failureCode = some .queueTimeout ∧
      ¬ Runs.Occurs (step Sample.deployment) (Delivered Sample.deployment Sample.execution) {}
        [Sample.created .submit, Sample.sweep] := by
  have hends : ((Store.run Sample.deployment [Sample.created .submit, Sample.sweep]).jobs.lookup
      Sample.execution).map (fun j => (j.row.failureCode, intentCount .executionExpired j))
      = some (some .queueTimeout, 1) := by
    decide +kernel
  obtain ⟨j, hj, hpair⟩ := Option.map_eq_some_iff.1 hends
  obtain ⟨hcode, hcount⟩ := Prod.mk.inj hpair
  refine ⟨j, hj, hcode, (expiry_intents _ _ _ j hj).1.1 ?_⟩
  exact iff_of_true hcode hcount

/-- The same execution, noticed by a delivery first: a queue timeout without its
    intent. -/
theorem overdue_delivery_unrecorded :
    ((Store.run Sample.deployment [Sample.created .submit, Sample.overdue]).jobs.lookup
        Sample.execution).map (fun j => (j.row.failureCode, intentCount .executionExpired j))
      = some (some .queueTimeout, 0) ∧
    ((Store.run Sample.deployment [Sample.created .submit, Sample.overdue, Sample.sweep]).jobs.lookup
        Sample.execution).map (fun j => (j.row.failureCode, intentCount .executionExpired j))
      = some (some .queueTimeout, 0) ∧
    ((Store.run Sample.deployment [Sample.created .submit, Sample.sweep, Sample.overdue]).jobs.lookup
        Sample.execution).map (fun j => (j.row.failureCode, intentCount .executionExpired j))
      = some (some .queueTimeout, 1) := by
  decide +kernel

/-! ### Notifications of results -/

/-- A call that adds a notification ends the execution, and has committed. -/
theorem notified_by {call : Call} (hj : (Store.run d calls).jobs.lookup id = some j)
    (hj' : (step d (Store.run d calls) call).1.jobs.lookup id = some j')
    (hne : j'.notifications ≠ j.notifications) :
    isTerminal j.row.state = false ∧ isTerminal j'.row.state = true ∧
      ∃ a, (step d (Store.run d calls) call).2 = .ok a := by
  have hclosed := fun id j hj => (closed_run d calls id).1 j hj
  have hsilent : isTerminal j.row.state = false → j.notifications = [] :=
    ((hclosed id j hj).sound call hj).silent
  rcases step_closes d (Store.run d calls) call id fun id j hj => (hclosed id j hj).sound call hj
    with ⟨_, _, hsame⟩ | ⟨a, hok, hconcludes⟩
  · rw [hj, hj'] at hsame
    cases hsame
    exact absurd rfl hne
  · rw [hj, hj'] at hconcludes
    cases hconcludes with
    | closes hcloses =>
        cases hcloses with
        | kept same => exact absurd same.notices hne
        | late _ ended _ _ notices | withdrawn _ ended _ _ _ notices
        | expired _ _ _ ended _ _ _ notices =>
            exact absurd (notices.trans (hsilent ended.open').symm) hne
        | judged _ ended => exact ⟨ended.open', ended.terminal, a, hok⟩

/-- Two verdicts are never worded the same. -/
theorem resultNotification_body_injective (version : ProblemVersion) (row : Execution)
    {other : Verdict} (h : (resultNotification version row other).body
      = (resultNotification version row verdict).body) : other = verdict := by
  refine verdictWords_injective ?_
  have hlists := congrArg String.toList h
  simp only [resultNotification, String.toList_append, List.append_cancel_right_eq,
    List.append_cancel_left_eq] at hlists
  exact String.toList_inj.1 hlists

/-- Notifications of results. In every run an execution has one notification, which
    names the verdict in its row and no other, if it is a submission that ended from an
    active state and not by a cancellation while its owner wanted to be told, and none
    otherwise. The notification is written by the call that ends the execution, which
    commits, and which has authority if it is a worker's. -/
theorem result_notifications (d : Deployment) (calls : List Call) (id : Uuid) (j : Job)
    (hj : (Store.run d calls).jobs.lookup id = some j) :
    (Runs.Occurs (step d) (Tells d id) {} calls →
      ∃ version verdict, d.catalog j.row.problemVersionId = some version ∧
        j.row.verdict = some verdict ∧
        j.notifications = [resultNotification version j.row verdict] ∧
        ∀ other, (resultNotification version j.row other).body
          = (resultNotification version j.row verdict).body → other = verdict) ∧
    (¬ Runs.Occurs (step d) (Tells d id) {} calls → j.notifications = []) ∧
    ∀ before call after, calls = before ++ call :: after → ∀ j₀ j₁,
      (Store.run d before).jobs.lookup id = some j₀ →
      (Store.run d (before ++ [call])).jobs.lookup id = some j₁ →
      j₁.notifications ≠ j₀.notifications →
      isTerminal j₀.row.state = false ∧ isTerminal j₁.row.state = true ∧
        (∃ a, (step d (Store.run d before) call).2 = .ok a) ∧
        ∀ lease, call.op.lease? = some lease →
          ∃ i, (Store.run d before).jobs.lookup lease.executionId = some i ∧
            valid i.row (call.moment (Store.run d before)).now lease = true := by
  have h := (closed_run d calls id).1 j hj
  refine ⟨fun htells => ?_, h.silent, ?_⟩
  · obtain ⟨version, verdict, hpublished, hverdict, hnotices⟩ := h.told htells
    exact ⟨version, verdict, hpublished, hverdict, hnotices,
      fun other => resultNotification_body_injective version j.row⟩
  · rintro before call after _ j₀ j₁ hj₀ hj₁ hne
    rw [store_run_concat] at hj₁
    obtain ⟨hopen, hterminal, hok⟩ := notified_by hj₀ hj₁ hne
    refine ⟨hopen, hterminal, hok, fun lease hlease => ?_⟩
    -- without authority the call would have left every row as it was
    by_contra hnone
    have hstale := (stale_refused (d := d) hlease fun i hi => by
      rw [← Bool.not_eq_true]
      exact fun hvalid => hnone ⟨i, hi, hvalid⟩).2
    rw [hstale] at hj₁
    cases hj₀.symm.trans hj₁
    exact hne rfl

/-- The sample submission is judged and its owner told. -/
theorem result_notifications_accepted :
    ∃ j, (Store.run Sample.deployment [Sample.created .submit, Sample.claimed,
        Sample.acted (.finish Sample.lease { verdict := .accepted })]).jobs.lookup
        Sample.execution = some j ∧ j.notifications.length = 1 ∧
      Runs.Occurs (step Sample.deployment) (Tells Sample.deployment Sample.execution) {}
        [Sample.created .submit, Sample.claimed,
          Sample.acted (.finish Sample.lease { verdict := .accepted })] := by
  have htold : ((Store.run Sample.deployment [Sample.created .submit, Sample.claimed,
      Sample.acted (.finish Sample.lease { verdict := .accepted })]).jobs.lookup
      Sample.execution).map (·.notifications.length) = some 1 := by
    decide +kernel
  obtain ⟨j, hj, hlength⟩ := Option.map_eq_some_iff.1 htold
  refine ⟨j, hj, hlength, ?_⟩
  by_contra hnot
  rw [(result_notifications _ _ _ j hj).2.1 hnot] at hlength
  cases hlength

end ArenaCore
