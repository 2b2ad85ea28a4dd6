import Mathlib.Data.Set.Subsingleton
import ArenaCore.Lib.Monitor
import ArenaCore.Runner.Supervisor

/-!
# Nothing Is Left Behind

A request creates containers one after the other, and each is gone before the
next is created. A command may fail with or without its effect, so what the
supervisor knows about a container is what a listing shows: after `rm`, an
empty `ps` is the only evidence of its absence.

A monitor follows the commands with what they tell: the containers that may
exist, whether the policy of the last one was found right, and whether some
removal could not be verified. The program is shown to keep to the monitor's
rules piece by piece, and the containers that exist in any environment are
among those that may.

A request that ends in `SandboxCleanupError` leaves the supervisor unready, and
nothing but a successful preflight changes that.

## Main definitions

* `Watch`, `watch`: The monitor.
* `DockerEffect`, `Evolves`: What commands do to the containers of a request.
* `SupervisorEvent`, `SandboxSupervisor.step`: The supervisor between requests.

## Theorems

* `watched_sandbox`, `watched_execute`: The program keeps to the rules.
* `nothing_left_behind`: The guarantee.
-/

namespace ArenaCore

open Dialogue Runner

variable {lib : Library} {s : SandboxSupervisor}

/-! ### The monitor -/

/-- What the commands so far tell about the containers of a request. -/
structure Watch where
  /-- The containers that may exist. -/
  pending : List Uuid := []
  /-- The one created last, with its memory. -/
  current : Option (Uuid × Rat) := none
  /-- Whether its inspection, if there was one, showed the right policy. -/
  matched : Option Bool := none
  /-- Whether a removal could not be verified. -/
  unverified : Bool := false

/-- The listing shows nothing. -/
def isAbsent (lib : Library) (r : Reaction) : Bool :=
  match r.outcome with
  | .ok x => trim (lib.decode x.stdout) == ""
  | .error _ => false

/-- The inspection shows the policy of a container of this size. -/
def hasPolicy (lib : Library) (memoryMiB : Rat) (r : Reaction) : Bool :=
  match r.outcome with
  | .ok x => (containerPolicy lib memoryMiB x.stdout).isOk
  | .error _ => false

/-- A removal or a listing that does not show that the container is gone. -/
def isUnverified (lib : Library) : RunnerExchange → Bool
  | ⟨.command (.remove _) _, r⟩ => !r.outcome.isOk
  | ⟨.command (.list _) _, r⟩ => !isAbsent lib r
  | _ => false

def watch (lib : Library) (w : Watch) : RunnerExchange → Watch
  | ⟨.command (.create name _ memoryMiB _) _, _⟩ =>
      { w with pending := name :: w.pending, current := some (name, memoryMiB), matched := none }
  | ⟨.command (.inspect name) _, r⟩ =>
      { w with matched := some (w.current.any fun c =>
          decide (c.1 = name) && hasPolicy lib c.2 r) }
  | ⟨.command (.remove _) _, r⟩ => { w with unverified := w.unverified || !r.outcome.isOk }
  | ⟨.command (.list name) _, r⟩ =>
      if isAbsent lib r then { w with pending := w.pending.filter fun n => decide (n ≠ name) }
      else { w with unverified := true }
  | _ => w

/-- The container a question makes use of. -/
def Query.uses : Query → Option Uuid
  | .snapshot n => some n
  | .command (.create n _ _ _) _ | .command (.inspect n) _ | .command (.start n) _
  | .command (.unpack n) _ | .command (.makeClasses n) _ | .command (.javac n) _
  | .command (.packClasses n) _ | .command (.program n _) _ | .command (.inspectState n) _ =>
      some n
  | _ => none

/-- The container an archive or a command of the guest is sent to. -/
def Query.sends : Query → Option Uuid
  | .command (.unpack n) _ | .command (.makeClasses n) _ | .command (.javac n) _
  | .command (.packClasses n) _ | .command (.program n _) _ => some n
  | _ => none

def Query.creates : Query → Bool
  | .command (.create ..) _ => true
  | _ => false

/-- The container whose policy a question is about. -/
def Query.inspects : Query → Option Uuid
  | .command (.inspect n) _ => some n
  | _ => none

/-- Nothing is asked after a removal that could not be verified. A container is
    created when no other may exist, used while it may, inspected once, and sent
    nothing before its policy was found right. -/
structure Watch.Allows (w : Watch) (q : Query) : Prop where
  verified : w.unverified = false
  single : q.creates = true → w.pending = []
  used : ∀ name, q.uses = some name → q.creates = false → name ∈ w.pending
  inspected : ∀ name, q.inspects = some name →
    (∃ memoryMiB, w.current = some (name, memoryMiB)) ∧ w.matched = none
  sent : ∀ name, q.sends = some name →
    (∃ memoryMiB, w.current = some (name, memoryMiB)) ∧ w.matched = some true

/-! ### The program -/

/-- No container may exist. -/
structure Watch.Idle (w : Watch) : Prop where
  verified : w.unverified = false
  pending : w.pending = []

/-- No other container may exist. -/
structure Watch.Holds (name : Uuid) (w : Watch) : Prop where
  verified : w.unverified = false
  pending : ∀ n ∈ w.pending, n = name

/-- The container may exist, and its policy was found right. -/
structure Watch.InUse (name : Uuid) (w : Watch) : Prop where
  verified : w.unverified = false
  pending : w.pending = [name]
  current : ∃ memoryMiB, w.current = some (name, memoryMiB)
  matched : w.matched = some true

/-- A container that is set up is in use; one that could not be is held. -/
structure Prepared (name : Uuid) (r : Except RunnerError Unit) (w : Watch) : Prop where
  inUse : r = .ok () → w.InUse name
  holds : w.Holds name

variable {w : Watch}

/-- An exception before the container is set up. -/
theorem Prepared.of_error {name : Uuid} {e : RunnerError} (hholds : w.Holds name) :
    Prepared name (.error e) w :=
  ⟨fun h => (by cases h), hholds⟩

/-- A request ends with nothing left, or with the error that says so. -/
def Watch.Ends {α : Type} (r : Except RunnerError α) (w : Watch) : Prop :=
  w.Idle ∨ (r = .error .cleanup ∧ w.unverified = true)

/-- A program of the supervisor under the monitor. -/
abbrev Keeps {α : Type} (lib : Library) (post : Except RunnerError α → Watch → Prop)
    (p : Runner α) (w : Watch) : Prop :=
  Watched (watch lib) Watch.Allows post p w

section Program

variable {lib : Library} {name : Uuid} {w : Watch} {q : Query} {α : Type}
  {post : Except RunnerError α → Watch → Prop} {c : DockerCommand} {o : CommandOptions}
  {memoryMiB : Rat}

theorem Watch.InUse.holds (h : w.InUse name) : w.Holds name :=
  ⟨h.verified, fun n hn => by rw [h.pending] at hn; exact List.mem_singleton.1 hn⟩

theorem Watch.Idle.holds (h : w.Idle) (name : Uuid) : w.Holds name :=
  ⟨h.verified, fun n hn => by rw [h.pending] at hn; cases hn⟩

/-- A question that makes no use of a container is allowed. -/
theorem Watch.allows_of_unused (h : w.unverified = false) (huses : q.uses = none) : w.Allows q := by
  cases q with
  | snapshot n => cases huses
  | now | aborted | name =>
      exact ⟨h, fun hc => (by cases hc), fun n hn => (by cases hn), fun n hn => (by cases hn),
        fun n hn => (by cases hn)⟩
  | command c o =>
      cases c with
      | remove | list =>
          exact ⟨h, fun hc => (by cases hc), fun n hn => (by cases hn), fun n hn => (by cases hn),
            fun n hn => (by cases hn)⟩
      | _ => cases huses

theorem keeps_ask {next : QueryAnswer q → Runner α} (hverified : w.unverified = false)
    (huses : q.uses = none) (h : ∀ a, Keeps lib post (next a) (watch lib w ⟨q, a⟩)) :
    Keeps lib post (.ask q next) w :=
  ⟨Watch.allows_of_unused hverified huses, h⟩

theorem keeps_throwIfAborted (h : w.unverified = false) :
    Keeps lib (fun _ w' => w' = w) throwIfAborted w := by
  refine keeps_ask h rfl fun stop => ?_
  cases stop with
  | false => rfl
  | true => rfl

/-- A use of a container that is in use. -/
theorem Watch.InUse.allows (h : w.InUse name) (hcreates : q.creates = false)
    (hinspects : q.inspects = none) (huses : ∀ n, q.uses = some n → n = name)
    (hsends : ∀ n, q.sends = some n → n = name) : w.Allows q where
  verified := h.verified
  single hc := by
    rw [hcreates] at hc
    cases hc
  used n hn _ := by
    rw [huses n hn, h.pending]
    exact List.mem_singleton_self name
  inspected n hn := by
    rw [hinspects] at hn
    cases hn
  sent n hn := by
    rw [hsends n hn]
    exact ⟨h.current, h.matched⟩

/-- A command that is allowed, by the way it is settled. -/
theorem keeps_command {f : CommandResult → Runner α} (h : w.Allows (.command c o))
    (herror : ∀ (r : Reaction) code, r.outcome = .error code →
      post (.error (.docker code)) (watch lib w ⟨.command c o, r⟩))
    (hok : ∀ (r : Reaction) x, r.outcome = .ok x →
      Keeps lib post (f x) (watch lib w ⟨.command c o, r⟩)) :
    Keeps lib post (command c o >>= f) w := by
  refine ⟨h, fun r => ?_⟩
  change Keeps lib post (.bind (.done (Except.mapError .docker r.outcome)) f) _
  cases hr : r.outcome with
  | error code => exact herror r code hr
  | ok x => exact hok r x hr

/-- A command on a container in use leaves it in use. -/
theorem keeps_inUse (h : w.InUse name) (hcreates : (Query.command c o).creates = false)
    (hinspects : (Query.command c o).inspects = none) (huses : (Query.command c o).uses = some name)
    (hsends : ∀ n, (Query.command c o).sends = some n → n = name)
    (hwatch : ∀ r, watch lib w ⟨.command c o, r⟩ = w) :
    Keeps lib (fun _ w' => w' = w) (command c o) w := by
  refine ⟨h.allows hcreates hinspects (fun n hn => ?_) hsends, hwatch⟩
  rw [huses] at hn
  cases hn
  rfl

/-- A container that was created, before it was inspected. -/
structure Watch.Created (name : Uuid) (memoryMiB : Rat) (w : Watch) : Prop where
  verified : w.unverified = false
  pending : w.pending = [name]
  current : w.current = some (name, memoryMiB)
  matched : w.matched = none

theorem Watch.Created.holds (h : w.Created name memoryMiB) : w.Holds name :=
  ⟨h.verified, fun n hn => by rw [h.pending] at hn; exact List.mem_singleton.1 hn⟩

/-- A container is created when no other may exist. Whatever comes of the command,
    it may exist from then on. -/
theorem keeps_create (h : w.Idle) (language : Language) (memoryMiB : Rat) (deadline : Int)
    (o : CommandOptions) :
    Keeps lib (fun _ w' => w'.Created name memoryMiB)
      (command (.create name language memoryMiB deadline) o) w := by
  have hallows : w.Allows (.command (.create name language memoryMiB deadline) o) :=
    ⟨h.verified, fun _ => h.pending, fun n _ hc => (by cases hc), fun n hn => (by cases hn),
      fun n hn => (by cases hn)⟩
  exact ⟨hallows, fun _ => ⟨h.verified, congrArg (name :: ·) h.pending, rfl, rfl⟩⟩

/-- An inspection that ends with a value has found the policy right. -/
theorem keeps_verifyContainer (h : w.Created name memoryMiB) :
    Keeps lib (Prepared name) (verifyContainer lib name memoryMiB) w := by
  have hallows : w.Allows (.command (.inspect name) {}) := by
    refine ⟨h.verified, fun hc => (by cases hc), fun n hn _ => ?_, fun n hn => ?_,
      fun n hn => (by cases hn)⟩
    · cases hn
      rw [h.pending]
      exact List.mem_singleton_self name
    · cases hn
      exact ⟨⟨memoryMiB, h.current⟩, h.matched⟩
  refine keeps_command hallows (fun r code _ => ?_) fun r x hr => ?_
  · exact .of_error ⟨h.verified, h.holds.pending⟩
  · refine ⟨fun hok => ?_, ⟨h.verified, h.holds.pending⟩⟩
    refine ⟨h.verified, h.pending, ⟨memoryMiB, h.current⟩, ?_⟩
    change some (w.current.any fun c => decide (c.1 = name) && hasPolicy lib c.2 r) = some true
    simp only [h.current, Option.any_some, decide_true, Bool.true_and, hasPolicy, hr, hok]
    rfl

/-- Setting a container up leaves it in use, or held. -/
theorem keeps_setUp (h : w.Idle) (language : Language) (memoryMiB : Rat) (archive : Bytes)
    (deadline : Int) :
    Keeps lib (Prepared name) (setUp lib language memoryMiB archive deadline name) w := by
  refine (keeps_throwIfAborted h.verified).bind (fun e s hs => hs ▸ .of_error (h.holds name)) ?_
  rintro _ idle rfl
  cases hargs : containerArgs name language memoryMiB deadline with
  | error e => exact .of_error (h.holds name)
  | ok create =>
      cases (containerArgs_eq_ok.1 hargs).2
      change Keeps lib _ (command (.create name language memoryMiB deadline)
        { signal := true } >>= _) idle
      refine (keeps_create h language memoryMiB deadline _).bind
        (fun _ _ hcreated => .of_error hcreated.holds) fun _ s hcreated => ?_
      refine (keeps_throwIfAborted hcreated.verified).bind
        (fun _ _ hs => hs ▸ .of_error hcreated.holds) ?_
      rintro _ _ rfl
      refine (keeps_verifyContainer hcreated).bind (fun _ _ h => h) fun _ used hprepared => ?_
      have hused : used.InUse name := hprepared.inUse rfl
      refine (keeps_inUse hused rfl rfl rfl (fun n hn => by cases hn) fun _ => rfl).bind
        (fun _ _ hs => hs ▸ .of_error hused.holds) ?_
      rintro _ _ rfl
      refine (keeps_inUse hused rfl rfl rfl (fun n hn => by cases hn; rfl) fun _ => rfl).bind
        (fun _ _ hs => hs ▸ .of_error hused.holds) ?_
      rintro _ _ rfl
      exact ⟨fun _ => hused, hused.holds⟩

/-! ### Work in a container -/

/-- What is asked while a container is in use. -/
def Query.isWork (n : Uuid) : Query → Bool
  | .now => true
  | .snapshot n' => decide (n = n')
  | .command (.unpack n') _ | .command (.makeClasses n') _ | .command (.javac n') _
  | .command (.packClasses n') _ | .command (.program n' _) _
  | .command (.inspectState n') _ => decide (n = n')
  | _ => false

theorem Query.isWork_of_isCaseWork (h : q.isCaseWork name = true) : q.isWork name = true := by
  cases q with
  | command c o => cases c <;> first | exact h | cases h
  | now | aborted | name | snapshot => exact h

theorem Watch.InUse.allows_work (h : w.InUse name) (hwork : q.isWork name = true) : w.Allows q := by
  cases q with
  | now => exact h.allows rfl rfl (fun n hn => by cases hn) fun n hn => by cases hn
  | aborted | name => cases hwork
  | snapshot n =>
      obtain rfl := of_decide_eq_true hwork
      exact h.allows rfl rfl (fun n hn => by cases hn; rfl) fun n hn => by cases hn
  | command c o =>
      cases c <;> first
        | cases hwork
        | obtain rfl := of_decide_eq_true hwork
          refine h.allows rfl rfl (fun n hn => ?_) fun n hn => ?_ <;> cases hn <;> rfl

theorem watch_of_isWork (h : q.isWork name = true) (a : QueryAnswer q) :
    watch lib w ⟨q, a⟩ = w := by
  cases q with
  | command c o => cases c <;> first | rfl | cases h
  | now | aborted | name | snapshot => rfl

theorem keeps_work {p : Runner α} (hp : p.Asks fun q => q.isWork name = true) (h : w.InUse name) :
    Keeps lib (fun _ w' => w'.InUse name) p w :=
  .of_asks hp h (fun _ _ hs hq => hs.allows_work hq)
    fun _ _ a hs hq => (watch_of_isWork hq a).symm ▸ hs

theorem isWork_compile (deadline : Int) (name : Uuid) :
    (compile lib deadline name).Asks fun q => q.isWork name = true := by
  have hcommand : ∀ c o, (Query.command c o).isWork name = true →
      (command c o).Asks fun q => q.isWork name = true := fun _ _ h => ⟨h, fun _ => trivial⟩
  refine Asks.bind (hcommand _ _ (decide_eq_true rfl)) fun _ => ?_
  refine Asks.bind ⟨rfl, fun _ => trivial⟩ fun present => ?_
  refine Asks.bind (hcommand _ _ (decide_eq_true rfl)) fun result => ?_
  split
  · refine Asks.bind (hcommand _ _ (decide_eq_true rfl)) fun packed => ?_
    cases normalizeJavaArtifacts lib packed.stdout with
    | error e => trivial
    | ok archive => trivial
  · trivial

/-! ### Whole requests -/

/-- A removal is verified, or the error says that it was not. -/
theorem keeps_tearDown (h : w.Holds name) :
    Keeps lib (fun r w' => (r = .ok () ∧ w'.Idle) ∨ (r = .error .cleanup ∧ w'.unverified = true))
      (tearDown lib name) w := by
  have hdestroy : Keeps lib
      (fun r w' => (r = .ok () ∧ w'.Idle) ∨ (r ≠ .ok () ∧ w'.unverified = true))
      (destroy lib name) w := by
    refine keeps_command (w.allows_of_unused h.verified rfl) (fun r code hr => ?_) fun r x hr => ?_
    · refine .inr ⟨fun h => (by cases h), ?_⟩
      change (w.unverified || !r.outcome.isOk) = true
      rw [hr]
      exact Bool.or_true _
    -- The command is no evidence; the listing is.
    have hremoved : (w.unverified || !r.outcome.isOk) = false := by
      rw [h.verified, hr]
      rfl
    refine keeps_command (Watch.allows_of_unused hremoved rfl) (fun r' code hr' => ?_) fun r' x' hr' => ?_
    · refine .inr ⟨fun h => (by cases h), ?_⟩
      have habsent : isAbsent lib r' = false := by rw [isAbsent, hr']
      simp only [watch, habsent, Bool.false_eq_true, if_false]
    · by_cases hshown : trim (lib.decode x'.stdout) = ""
      · have habsent : isAbsent lib r' = true := by
          rw [isAbsent, hr']
          exact beq_iff_eq.2 hshown
        simp only [hshown, ne_eq, not_true_eq_false, if_false]
        refine .inl ⟨rfl, ?_⟩
        simp only [watch, habsent, if_true]
        refine ⟨hremoved, List.filter_eq_nil_iff.2 fun n hn => ?_⟩
        rw [h.pending n hn, decide_eq_true_iff, not_not]
      · have habsent : isAbsent lib r' = false := by
          rw [isAbsent, hr']
          exact beq_eq_false_iff_ne.2 hshown
        simp only [ne_eq, hshown, not_false_eq_true, if_true]
        refine .inr ⟨fun h => (by cases h), ?_⟩
        simp only [watch, habsent, Bool.false_eq_true, if_false]
  refine hdestroy.tryCatch ?_ ?_
  · rintro ⟨⟩ s (⟨_, hs⟩ | ⟨hne, _⟩)
    · exact .inl ⟨rfl, hs⟩
    · exact absurd rfl hne
  · rintro e s (⟨he, _⟩ | ⟨_, hs⟩)
    · cases he
    · exact .inr ⟨rfl, hs⟩

/-- A sandbox around some work ends with nothing left, or with the error that
    says so. -/
theorem watched_sandbox (h : w.Idle) (language : Language) (memoryMiB : Rat) (archive : Bytes)
    (deadline : Int) {body : Uuid → Runner α}
    (hbody : ∀ name, (body name).Asks fun q => q.isWork name = true) :
    Keeps lib Watch.Ends (sandbox lib language memoryMiB archive deadline body) w := by
  refine keeps_ask h.verified rfl fun name => ?_
  have hwork : Keeps lib (fun _ w' => w'.Holds name)
      (setUp lib language memoryMiB archive deadline name >>= fun _ => body name) w :=
    (keeps_setUp h language memoryMiB archive deadline).bind (fun _ _ hs => hs.holds)
      fun _ s hs => (keeps_work (hbody name) (hs.inUse rfl)).mono fun _ _ hs => hs.holds
  refine hwork.tryFinally fun r s hs => (keeps_tearDown hs).mono ?_
  rintro c s' (⟨rfl, hidle⟩ | ⟨rfl, hunverified⟩)
  · exact ⟨fun _ => .inl hidle, fun e he => by cases he⟩
  · refine ⟨fun h => (by cases h), fun e he => ?_⟩
    cases he
    exact .inr ⟨rfl, hunverified⟩

/-- An end by an exception is one of whatever comes around it. -/
theorem Watch.Ends.error {β : Type} {e : RunnerError} (h : w.Ends (.error e : Except RunnerError α)) :
    w.Ends (.error e : Except RunnerError β) := by
  rcases h with h | ⟨he, h⟩
  · exact .inl h
  · cases he
    exact .inr ⟨rfl, h⟩

theorem Watch.Ends.idle {a : α} (h : w.Ends (.ok a : Except RunnerError α)) : w.Idle := by
  rcases h with h | ⟨he, _⟩
  · exact h
  · cases he

theorem keeps_throwIfAborted_idle (h : w.Idle) : Keeps lib Watch.Ends throwIfAborted w :=
  (keeps_throwIfAborted h.verified).mono fun _ _ hs => .inl (hs ▸ h)

theorem watched_runCases (request : SandboxRequest) (deadline : Int) (archive : Bytes)
    (tests : List SandboxCase) :
    ∀ (p : Progress) (w : Watch), w.Idle →
      Keeps lib Watch.Ends (runCases lib request deadline archive tests p) w := by
  induction tests with
  | nil => exact fun _ _ h => .inl h
  | cons test rest ih =>
      intro p w h
      refine (keeps_throwIfAborted_idle h).bind (fun _ _ hs => hs.error) fun _ s hs => ?_
      split
      · exact .inl hs.idle
      · refine (watched_sandbox hs.idle _ _ archive deadline fun name => ?_).bind
          (fun _ _ hs => hs.error) fun p s hs => ?_
        · exact (caseWork_runCase request deadline test p name).mono
            fun _ => Query.isWork_of_isCaseWork
        · split
          · exact .inl hs.idle
          · exact ih p s hs.idle

theorem watched_perform (request : SandboxRequest) (h : w.Idle) :
    Keeps lib Watch.Ends (perform lib request) w := by
  refine keeps_ask h.verified rfl fun start => ?_
  have hpacked : ∀ packed : Except RunnerError Bytes,
      Keeps lib (fun _ w' => w'.Idle) (.done packed) w := fun _ => h
  refine (hpacked _).bind (fun _ _ hs => .inl hs) fun archive s hs => ?_
  have hcases : ∀ archive p s (f : Progress → ExecutionObservation × Int), s.Idle →
      Keeps lib Watch.Ends (runCases lib request (start + Caps.totalMs) archive request.cases p >>=
        fun p => pure (f p)) s := by
    intro archive p s f hs
    exact (watched_runCases request _ archive _ p s hs).bind (fun _ _ hs => hs.error)
      fun _ _ hs => .inl hs.idle
  split
  · refine (watched_sandbox hs _ _ archive _ (isWork_compile _)).bind (fun _ _ hs => hs.error)
      fun compiled s hs => ?_
    split
    · exact .inl hs.idle
    · exact hcases _ _ _ _ hs.idle
  · exact hcases _ _ _ _ hs

/-- A request keeps to the rules, whatever the commands answer. -/
theorem watched_execute (supervisor : SandboxSupervisor) (request : AcceptedRequest) :
    Keeps lib Watch.Ends (supervisor.execute lib request) {} := by
  unfold SandboxSupervisor.execute
  have hidle : Watch.Idle {} := ⟨rfl, rfl⟩
  split
  · exact .inl hidle
  · split
    · exact .inl hidle
    · split
      · exact .inl hidle
      · exact (watched_perform _ hidle).bind (fun _ _ hs => hs.error) fun _ _ hs => .inl hs.idle

end Program

/-! ### What the rules say -/

section Rules

variable {lib : Library} {w : Watch} {trace : List RunnerExchange} {n : Uuid} {x : RunnerExchange}

/-- What becomes of the containers that may exist: a creation adds one, a listing
    that shows nothing removes one. -/
theorem watch_pending (lib : Library) (w : Watch) (x : RunnerExchange) :
    (∃ n, x.1.creates = true ∧ x.1.uses = some n ∧
      (watch lib w x).pending = n :: w.pending) ∨
    (∃ n o r, x = ⟨.command (.list n) o, r⟩ ∧ isAbsent lib r = true ∧
      (watch lib w x).pending = w.pending.filter fun m => decide (m ≠ n)) ∨
    (x.1.creates = false ∧ (watch lib w x).pending = w.pending) := by
  obtain ⟨q, a⟩ := x
  cases q with
  | now | aborted | name | snapshot => exact .inr (.inr ⟨rfl, rfl⟩)
  | command c o =>
      cases c with
      | create n language memoryMiB deadline => exact .inl ⟨n, rfl, rfl, rfl⟩
      | list n =>
          cases habsent : isAbsent lib a with
          | true =>
              refine .inr (.inl ⟨n, o, a, rfl, habsent, ?_⟩)
              simp only [watch, habsent, if_true]
          | false =>
              refine .inr (.inr ⟨rfl, ?_⟩)
              simp only [watch, habsent, Bool.false_eq_true, if_false]
      | _ => exact .inr (.inr ⟨rfl, rfl⟩)

theorem creates_pending (hcreates : x.1.creates = true) (huses : x.1.uses = some n) :
    n ∈ (watch lib w x).pending := by
  rcases watch_pending lib w x with ⟨m, _, hm, heq⟩ | ⟨m, o, r, rfl, _⟩ | ⟨hfalse, _⟩
  · rw [hm] at huses
    cases huses
    rw [heq]
    exact List.mem_cons_self
  · cases hcreates
  · rw [hfalse] at hcreates
    cases hcreates

theorem watch_unverified (x : RunnerExchange) :
    (watch lib w x).unverified = (w.unverified || isUnverified lib x) := by
  obtain ⟨q, a⟩ := x
  cases q with
  | now | aborted | name | snapshot => exact (Bool.or_false _).symm
  | command c o =>
      cases c with
      | remove n => rfl
      | list n =>
          cases habsent : isAbsent lib a <;>
            simp only [watch, isUnverified, habsent, if_true, Bool.false_eq_true, if_false,
              Bool.not_true, Bool.not_false, Bool.or_true, Bool.or_false]
      | _ => exact (Bool.or_false _).symm

/-- After a removal that could not be verified nothing is asked. -/
theorem unverified_last (h : Follows (watch lib) Watch.Allows w trace) (hx : x ∈ trace)
    (hunverified : isUnverified lib x = true) : (trace.foldl (watch lib) w).unverified = true := by
  induction trace generalizing w with
  | nil => cases hx
  | cons y rest ih =>
      rcases List.mem_cons.1 hx with rfl | hx
      · have hw : (watch lib w x).unverified = true := by
          rw [watch_unverified, hunverified, Bool.or_true]
        cases rest with
        | nil => exact hw
        | cons z rest => exact absurd h.2.1.verified (by rw [hw]; exact Bool.noConfusion)
      · exact ih h.2 hx

/-- At most one container may exist at a time. -/
theorem pending_single (h : Follows (watch lib) Watch.Allows {} trace) :
    ∀ n ∈ (trace.foldl (watch lib) {}).pending, ∀ m ∈ (trace.foldl (watch lib) {}).pending,
      n = m := by
  refine h.invariant (I := fun _ s => ∀ n ∈ s.pending, ∀ m ∈ s.pending, n = m)
    (fun past s x hs hallows => ?_) fun n hn => by cases hn
  rcases watch_pending lib s x with ⟨k, hcreates, _, heq⟩ | ⟨k, o, r, _, _, heq⟩ | ⟨_, heq⟩
  · intro n hn m hm
    rw [heq, hallows.single hcreates] at hn hm
    exact (List.mem_singleton.1 hn).trans (List.mem_singleton.1 hm).symm
  · rw [heq]
    exact fun n hn m hm => hs n (List.mem_of_mem_filter hn) m (List.mem_of_mem_filter hm)
  · rwa [heq]

/-- A container that no longer may exist was observed absent after its last use. -/
theorem absent_after_use (h : Follows (watch lib) Watch.Allows w trace)
    (hused : n ∈ w.pending ∨ ∃ x ∈ trace, x.1.uses = some n)
    (hgone : n ∉ (trace.foldl (watch lib) w).pending) :
    ∃ before o r after, trace = before ++ ⟨.command (.list n) o, r⟩ :: after ∧
      isAbsent lib r = true ∧ ∀ x ∈ after, x.1.uses ≠ some n := by
  induction trace generalizing w with
  | nil =>
      rcases hused with hn | ⟨x, hx, _⟩
      · exact absurd hn hgone
      · cases hx
  | cons x rest ih =>
      by_cases hlater : n ∈ (watch lib w x).pending ∨ ∃ y ∈ rest, y.1.uses = some n
      · obtain ⟨before, o, r, after, rfl, hr, hafter⟩ := ih h.2 hlater hgone
        exact ⟨x :: before, o, r, after, rfl, hr, hafter⟩
      · rw [not_or] at hlater
        have hafter : ∀ y ∈ rest, y.1.uses ≠ some n :=
          fun y hy hn => hlater.2 ⟨y, hy, hn⟩
        have hpending : n ∈ w.pending := by
          rcases hused with hn | ⟨y, hy, hn⟩
          · exact hn
          · rcases List.mem_cons.1 hy with rfl | hy
            · refine h.1.used n hn (Bool.eq_false_iff.2 fun hcreates => hlater.1 ?_)
              exact creates_pending hcreates hn
            · exact absurd hn (hafter y hy)
        -- It is not pending any more, so this is the listing that showed nothing.
        rcases watch_pending lib w x with ⟨m, _, _, heq⟩ | ⟨m, o, r, rfl, hr, heq⟩ | ⟨_, heq⟩
        · exact absurd (heq ▸ List.mem_cons_of_mem m hpending) hlater.1
        · rw [heq, List.mem_filter, decide_eq_true_iff, not_and_not_right] at hlater
          obtain rfl := hlater.1 hpending
          exact ⟨[], o, r, rest, rfl, hr, hafter⟩
        · exact absurd (heq ▸ hpending) hlater.1

/-- The container created last, and what its inspections since then showed. -/
def Tracks (lib : Library) (past : List RunnerExchange) (w : Watch) : Prop :=
  ∀ n memoryMiB, w.current = some (n, memoryMiB) →
    ∃ first language deadline o r later,
      past = first ++ ⟨.command (.create n language memoryMiB deadline) o, r⟩ :: later ∧
      (∀ o r, (⟨.command (.inspect n) o, r⟩ : RunnerExchange) ∈ later →
        w.matched = some (hasPolicy lib memoryMiB r)) ∧
      (w.matched ≠ none → ∃ o r, (⟨.command (.inspect n) o, r⟩ : RunnerExchange) ∈ later)

/-- What becomes of the container created last. -/
theorem watch_current (lib : Library) (w : Watch) (x : RunnerExchange) :
    (∃ n language memoryMiB deadline o r,
      x = ⟨.command (.create n language memoryMiB deadline) o, r⟩ ∧
      (watch lib w x).current = some (n, memoryMiB) ∧ (watch lib w x).matched = none) ∨
    (∃ n o r, x = ⟨.command (.inspect n) o, r⟩ ∧ (watch lib w x).current = w.current ∧
      (watch lib w x).matched =
        some (w.current.any fun c => decide (c.1 = n) && hasPolicy lib c.2 r)) ∨
    (x.1.inspects = none ∧ (watch lib w x).current = w.current ∧
      (watch lib w x).matched = w.matched) := by
  obtain ⟨q, a⟩ := x
  cases q with
  | now | aborted | name | snapshot => exact .inr (.inr ⟨rfl, rfl, rfl⟩)
  | command c o =>
      cases c with
      | create n language memoryMiB deadline =>
          exact .inl ⟨n, language, memoryMiB, deadline, o, a, rfl, rfl, rfl⟩
      | inspect n => exact .inr (.inl ⟨n, o, a, rfl, rfl, rfl⟩)
      | list n =>
          refine .inr (.inr ⟨rfl, ?_, ?_⟩) <;> simp only [watch] <;> split <;> rfl
      | _ => exact .inr (.inr ⟨rfl, rfl, rfl⟩)

theorem tracks_watch {past : List RunnerExchange} (h : Tracks lib past w) (hx : w.Allows x.1) :
    Tracks lib (past ++ [x]) (watch lib w x) := by
  intro n memoryMiB hcurrent
  rcases watch_current lib w x with
    ⟨m, language, memory, deadline, o, r, rfl, hc, hm⟩ | ⟨m, o, r, rfl, hc, hm⟩ | ⟨hi, hc, hm⟩
  · rw [hc] at hcurrent
    cases hcurrent
    exact ⟨past, language, deadline, o, r, [], rfl, fun _ _ hr => (by cases hr),
      fun hne => absurd hm hne⟩
  · -- The first inspection since the creation.
    obtain ⟨⟨memory, hthis⟩, hnone⟩ := hx.inspected m rfl
    rw [hc, hthis] at hcurrent
    cases hcurrent
    obtain ⟨first, language, deadline, o', r', later, rfl, hall, _⟩ := h n memoryMiB hthis
    refine ⟨first, language, deadline, o', r', later ++ [⟨.command (.inspect n) o, r⟩],
      by simp, fun o'' r'' hr => ?_, fun _ => ⟨o, r, by simp⟩⟩
    rcases List.mem_append.1 hr with hr | hr
    · have hsome := hall o'' r'' hr
      rw [hnone] at hsome
      cases hsome
    · cases List.mem_singleton.1 hr
      rw [hm, hthis]
      simp
  · rw [hc] at hcurrent
    obtain ⟨first, language, deadline, o, r, later, rfl, hall, hsome⟩ := h n memoryMiB hcurrent
    rw [hm]
    refine ⟨first, language, deadline, o, r, later ++ [x], by simp, fun o' r' hr => ?_,
      fun hne => ?_⟩
    · rcases List.mem_append.1 hr with hr | hr
      · exact hall o' r' hr
      · rw [← List.mem_singleton.1 hr] at hi
        cases hi
    · obtain ⟨o', r', hr⟩ := hsome hne
      exact ⟨o', r', List.mem_append_left _ hr⟩

/-- A container is sent something after its only inspection has shown the right
    policy. -/
theorem sent_after_match (h : Follows (watch lib) Watch.Allows {} trace)
    {before after : List RunnerExchange} (htrace : trace = before ++ x :: after)
    (hsends : x.1.sends = some n) :
    ∃ first language memoryMiB deadline o r later,
      before = first ++ ⟨.command (.create n language memoryMiB deadline) o, r⟩ :: later ∧
      (∀ o r, (⟨.command (.inspect n) o, r⟩ : RunnerExchange) ∈ later →
        hasPolicy lib memoryMiB r = true) ∧
      ∃ o r, (⟨.command (.inspect n) o, r⟩ : RunnerExchange) ∈ later := by
  rw [htrace, follows_append] at h
  have htracks : Tracks lib before (before.foldl (watch lib) {}) :=
    h.1.invariant (fun _ _ _ hs hallows => tracks_watch hs hallows) fun n m hn => by cases hn
  obtain ⟨⟨memoryMiB, hcurrent⟩, hmatched⟩ := h.2.1.sent n hsends
  obtain ⟨first, language, deadline, o, r, later, rfl, hall, hsome⟩ := htracks n memoryMiB hcurrent
  refine ⟨first, language, memoryMiB, deadline, o, r, later, rfl, fun o' r' hr => ?_, ?_⟩
  · have heq := hall o' r' hr
    rw [hmatched] at heq
    exact (Option.some.inj heq).symm
  · exact hsome (by rw [hmatched]; exact Option.some_ne_none true)

end Rules

/-! ### The containers that exist -/

/-- What an exchange can do to the containers of a request. Only a creation makes
    one, and nothing is said about which commands have their effect: a command
    that fails may have had it, and one that succeeds may not. A listing that
    shows nothing is true. -/
structure DockerEffect (lib : Library) (x : RunnerExchange) (before after : Set Uuid) : Prop where
  made : ∀ n ∈ after, n ∈ before ∨ x.1.creates = true ∧ x.1.uses = some n
  listed : ∀ n o r, x = ⟨.command (.list n) o, r⟩ → isAbsent lib r = true → n ∉ after

/-- The containers of a request before and after some exchanges. -/
inductive Evolves (lib : Library) : Set Uuid → List RunnerExchange → Set Uuid → Prop where
  | nil (present : Set Uuid) : Evolves lib present [] present
  | cons {x : RunnerExchange} {rest : List RunnerExchange} {before between after : Set Uuid}
      (effect : DockerEffect lib x before between) (evolves : Evolves lib between rest after) :
      Evolves lib before (x :: rest) after

/-- What exists is among what may exist. -/
theorem present_subset {before after : Set Uuid} {trace : List RunnerExchange}
    (h : Evolves lib before trace after) (hw : ∀ n ∈ before, n ∈ w.pending) :
    ∀ n ∈ after, n ∈ (trace.foldl (watch lib) w).pending := by
  induction h generalizing w with
  | nil => exact hw
  | @cons x rest before between after heffect _ ih =>
      refine ih fun n hn => ?_
      rcases watch_pending lib w x with ⟨m, _, hm, heq⟩ | ⟨m, o, r, rfl, hr, heq⟩ | ⟨hfalse, heq⟩
      · rcases heffect.made n hn with hn | ⟨_, hu⟩
        · exact heq ▸ List.mem_cons_of_mem m (hw n hn)
        · cases hm.symm.trans hu
          exact heq ▸ List.mem_cons_self
      · rw [heq, List.mem_filter, decide_eq_true_iff]
        rcases heffect.made n hn with hb | ⟨hc, _⟩
        · exact ⟨hw n hb, fun h => heffect.listed m o r rfl hr (h ▸ hn)⟩
        · cases hc
      · rcases heffect.made n hn with hn | ⟨hc, _⟩
        · exact heq ▸ hw n hn
        · rw [hfalse] at hc
          cases hc

/-! ### The supervisor between requests -/

/-- What happens to a supervisor. The exchanges are those of all its requests. -/
inductive SupervisorEvent where
  | execute (request : AcceptedRequest)
  | exchange (x : RunnerExchange)
  | settle (request : AcceptedRequest)
  | preflight
  | preflightPassed
  | reapFailed
  | stopAccepting

/-- `execute` takes the request on. -/
def SandboxSupervisor.admits (s : SandboxSupervisor) (request : AcceptedRequest) : Bool :=
  s.ready && !s.shuttingDown && decide (s.active.length < 2) && !s.active.contains request.key

def SandboxSupervisor.step (lib : Library) (s : SandboxSupervisor) :
    SupervisorEvent → SandboxSupervisor
  | .execute request =>
      if s.admits request then { s with active := s.active ++ [request.key] } else s
  -- The handler around `destroy`.
  | .exchange x => if isUnverified lib x then { s with ready := false } else s
  | .settle request => { s with active := s.active.erase request.key }
  | .preflight => { s with ready := false }
  | .preflightPassed => { s with ready := true }
  | .reapFailed => { s with ready := false }
  | .stopAccepting => { s with shuttingDown := true }

/-- Nothing but a preflight that succeeds makes a supervisor ready. -/
theorem SandboxSupervisor.step_ready {e : SupervisorEvent} (h : s.ready = false)
    (he : e ≠ .preflightPassed) : (s.step lib e).ready = false := by
  cases e with
  | execute request =>
      simp only [step]
      split <;> exact h
  | exchange x =>
      simp only [step]
      split
      · rfl
      · exact h
  | preflightPassed => exact absurd rfl he
  | settle | stopAccepting => exact h
  | preflight | reapFailed => rfl

theorem SandboxSupervisor.run_ready {events : List SupervisorEvent}
    (h : SupervisorEvent.preflightPassed ∉ events) :
    ∀ {s : SandboxSupervisor}, s.ready = false →
      (events.foldl (SandboxSupervisor.step lib) s).ready = false := by
  induction events with
  | nil => exact fun h => h
  | cons e events ih =>
      rw [List.mem_cons, not_or] at h
      exact fun hs => ih h.2 (step_ready hs fun he => h.1 he.symm)

theorem SandboxSupervisor.execute_of_not_ready (h : s.ready = false) (request : AcceptedRequest) :
    s.execute lib request = .raise (.thrown "RUNNER_NOT_READY") :=
  if_pos (.inl h)

/-! ### The guarantee -/

/-- Whatever the commands of a request do, at most one of its containers exists
    at a time. Unless it ends with `SandboxCleanupError`, each container it
    created was observed absent after its last use, and none exists at the end.
    After a removal that could not be verified it ends so, and the supervisor
    refuses requests until a preflight succeeds. Nothing is sent to a container
    but after an inspection that showed the right policy, and every inspection
    of it did. -/
theorem nothing_left_behind {lib : Library} {supervisor : SandboxSupervisor}
    {request : AcceptedRequest} {trace : List RunnerExchange}
    {result : Except RunnerError ExecutionObservation}
    (h : Plays (supervisor.execute lib request) trace result) :
    (result ≠ .error .cleanup →
      (∀ n, (∃ x ∈ trace, x.1.creates = true ∧ x.1.uses = some n) →
        ∃ before o r after, trace = before ++ ⟨.command (.list n) o, r⟩ :: after ∧
          isAbsent lib r = true ∧ ∀ x ∈ after, x.1.uses ≠ some n) ∧
      ∀ present, Evolves lib ∅ trace present → present = ∅) ∧
    (∀ before after present, trace = before ++ after → Evolves lib ∅ before present →
      present.Subsingleton) ∧
    (∀ x ∈ trace, isUnverified lib x = true → result = .error .cleanup ∧
      ∀ (s : SandboxSupervisor) (events : List SupervisorEvent) (later : AcceptedRequest),
        SupervisorEvent.preflightPassed ∉ events →
        (events.foldl (SandboxSupervisor.step lib) (s.step lib (.exchange x))).execute lib later =
          .raise (.thrown "RUNNER_NOT_READY")) ∧
    ∀ before x after n, trace = before ++ x :: after → x.1.sends = some n →
      ∃ first language memoryMiB deadline o r later,
        before = first ++ ⟨.command (.create n language memoryMiB deadline) o, r⟩ :: later ∧
        (∀ o r, (⟨.command (.inspect n) o, r⟩ : RunnerExchange) ∈ later →
          hasPolicy lib memoryMiB r = true) ∧
        ∃ o r, (⟨.command (.inspect n) o, r⟩ : RunnerExchange) ∈ later := by
  obtain ⟨hfollows, hends⟩ := (watched_execute supervisor request).plays h
  have hidle : result ≠ .error .cleanup → (trace.foldl (watch lib) {}).pending = [] := by
    intro hne
    rcases hends with hidle | ⟨he, _⟩
    · exact hidle.pending
    · exact absurd he hne
  refine ⟨fun hne => ⟨fun n hn => ?_, fun present hpresent => ?_⟩, ?_, fun x hx hu => ⟨?_, ?_⟩,
    fun _ _ _ _ htrace hsends => sent_after_match hfollows htrace hsends⟩
  · obtain ⟨x, hx, _, huses⟩ := hn
    refine absent_after_use hfollows (.inr ⟨x, hx, huses⟩) ?_
    rw [hidle hne]
    exact List.not_mem_nil
  · refine Set.eq_empty_iff_forall_notMem.2 fun n hn => ?_
    have hmem := present_subset hpresent (w := {}) (fun _ hm => absurd hm (Set.notMem_empty _)) n hn
    rw [hidle hne] at hmem
    cases hmem
  · intro before after present htrace hpresent n hn m hm
    have hsub := present_subset hpresent (w := {}) fun _ hm => absurd hm (Set.notMem_empty _)
    rw [htrace, follows_append] at hfollows
    exact pending_single hfollows.1 n (hsub n hn) m (hsub m hm)
  · rcases hends with hidle | ⟨he, _⟩
    · have htrue := unverified_last hfollows hx hu
      rw [hidle.verified] at htrue
      cases htrue
    · exact he
  · intro s events later hnone
    refine SandboxSupervisor.execute_of_not_ready (SandboxSupervisor.run_ready hnone ?_) later
    simp only [SandboxSupervisor.step, hu, if_true]

/-- A request whose commands all succeed: its container was listed as gone after
    its last use. -/
theorem nothing_left_behind_sample :
    (Sample.executed .python Sample.docker (.ok Sample.measured)).2 ≠
      .error .cleanup ∧
    ∃ before o r after,
      (Sample.executed .python Sample.docker (.ok Sample.measured)).1 =
        before ++ ⟨.command (.list Sample.container) o, r⟩ :: after ∧
      isAbsent Sample.library r = true ∧ ∀ x ∈ after, x.1.uses ≠ some Sample.container := by
  have hok : (Sample.executed .python Sample.docker (.ok Sample.measured)).2 ≠
      .error .cleanup := by decide +kernel
  exact ⟨hok, ((nothing_left_behind (Sample.plays_executed _ _ _)).1 hok).1 _ (by decide +kernel)⟩

end ArenaCore
