import ArenaCore.Contracts

/-!
# The Docker Transport

`apps/runner/src/transport.ts`: a command is a child process that is watched
until it closes. Its output is collected up to a limit, a timer and an abort
signal may stop it, and the first reason to stop it decides how the promise is
settled. A command that was stopped is settled only once the process is gone.

`DockerCli.command` follows the events of the child. What its callers may rely
on is `Settles`: a result means that all output was collected and fits the
limit, a timeout means that the command ran that long, and an exceeded limit
means that more was written.

## Main definitions

* `DockerCode`, `CommandResult`, `CommandOptions`: The interface.
* `Reaction`: How a command ended, and what it did until then.
* `ChildEvent`, `Child`: A child process and what was collected from it.
* `DockerCli.command`: The settled promise.
* `Settles`: What a settled command tells about the process.

## Theorems

* `Child.Collected.settles`: What a child leaves when it closes.
* `command_settles`: The transport keeps its contract.
-/

namespace ArenaCore

abbrev Bytes := List UInt8

inductive DockerCode where
  | dockerUnavailable
  | commandFailed
  | commandTimeout
  | outputLimit
  | aborted
deriving DecidableEq, Repr

structure CommandResult where
  stdout : Bytes
  stderr : Bytes
  exitCode : Int
deriving DecidableEq

/-- The bytes a command printed. -/
def CommandResult.size (r : CommandResult) : Nat :=
  r.stdout.length + r.stderr.length

structure CommandOptions where
  input : Bytes := []
  /-- Whether the caller passes its abort signal. -/
  signal : Bool := false
  timeoutMs : Int := 5000
  maxBytes : Int := 65536
  allowFailure : Bool := false
deriving DecidableEq

/-- A settled command. The outcome is what the caller sees; the rest is what
    the process did: whether it was started, for how many milliseconds it ran,
    and how many bytes it wrote. -/
structure Reaction where
  outcome : Except DockerCode CommandResult
  started : Bool := true
  elapsed : Nat := 0
  produced : Nat := 0

inductive ChildEvent where
  | stdout (chunk : Bytes)
  | stderr (chunk : Bytes)
  | timer
  | abort
  | error
  | close (code : Option Int)

/-- What is known about a child while it runs. -/
structure Child where
  out : Bytes := []
  err : Bytes := []
  bytes : Nat := 0
  reason : Option DockerCode := none

namespace Child

variable (o : CommandOptions)

/-- The first reason counts. -/
def stop (code : DockerCode) (c : Child) : Child :=
  { c with reason := c.reason.or (some code) }

/-- Output past the limit is dropped and stops the child. -/
def collect (keep : Child → Child) (chunk : Bytes) (c : Child) : Child :=
  if o.maxBytes < (c.bytes + chunk.length : Nat) then
    stop .outputLimit { c with bytes := c.bytes + chunk.length }
  else keep { c with bytes := c.bytes + chunk.length }

def step (c : Child) : ChildEvent → Child
  | .stdout chunk => c.collect o (fun c => { c with out := c.out ++ chunk }) chunk
  | .stderr chunk => c.collect o (fun c => { c with err := c.err ++ chunk }) chunk
  | .timer => c.stop .commandTimeout
  | .abort => if o.signal then c.stop .aborted else c
  | .error => c.stop .dockerUnavailable
  | .close _ => c

/-- How the promise is settled when the child closes. -/
def outcome (c : Child) (code : Option Int) : Except DockerCode CommandResult :=
  match c.reason with
  | some reason => .error reason
  | none =>
      if code.getD (-1) ≠ 0 ∧ o.allowFailure = false then .error .commandFailed
      else .ok { stdout := c.out, stderr := c.err, exitCode := code.getD (-1) }

end Child

namespace DockerCli

/-- Follow the events of a child, with their times since it was started, until
    it closes. -/
def watch (o : CommandOptions) : Child → List (Nat × ChildEvent) → Option Reaction
  | _, [] => none
  | c, (time, .close code) :: _ =>
      some { outcome := c.outcome o code, elapsed := time, produced := c.bytes }
  | c, (_, event) :: rest => watch o (c.step o event) rest

/-- A command that is already aborted is not started. -/
def command (o : CommandOptions) (aborted : Bool) (events : List (Nat × ChildEvent)) :
    Option Reaction :=
  if o.signal && aborted then some { outcome := .error .aborted, started := false }
  else watch o {} events

end DockerCli

/-- What a settled command tells about the process. -/
structure Settles (o : CommandOptions) (r : Reaction) : Prop where
  started : r.outcome ≠ .error .aborted → r.started = true
  collected : ∀ result, r.outcome = .ok result → result.size = r.produced
  bounded : ∀ result, r.outcome = .ok result → 0 ≤ o.maxBytes → (result.size : Int) ≤ o.maxBytes
  failure : ∀ result, r.outcome = .ok result → o.allowFailure = false → result.exitCode = 0
  limit : r.outcome = .error .outputLimit → o.maxBytes < r.produced
  timeout : r.outcome = .error .commandTimeout → o.timeoutMs ≤ r.elapsed
  aborted : r.outcome = .error .aborted → o.signal = true

/-! ### The contract -/

/-- What the data collected up to a time say about the child: all its output
    as long as nothing stopped it, and why it was stopped otherwise. -/
structure Child.Collected (o : CommandOptions) (time : Nat) (c : Child) : Prop where
  all : c.reason = none → c.out.length + c.err.length = c.bytes
  bounded : c.reason = none → 0 ≤ o.maxBytes → (c.bytes : Int) ≤ o.maxBytes
  limit : c.reason = some .outputLimit → o.maxBytes < c.bytes
  timeout : c.reason = some .commandTimeout → o.timeoutMs ≤ time
  aborted : c.reason = some .aborted → o.signal = true

namespace Child

variable {o : CommandOptions} {time : Nat} {c : Child}

/-- Output is counted in any case, and kept while it is within the limit. Only the first
    reason to stop counts, so a later one need not hold. -/
theorem Collected.step (h : c.Collected o time) {event : ChildEvent}
    (htimer : event = .timer → o.timeoutMs ≤ time) : (c.step o event).Collected o time := by
  obtain ⟨hall, hbounded, hlimit, htimeout, haborted⟩ := h
  obtain ⟨out, err, bytes, running | reason⟩ := c
  all_goals
    cases event with
    | stdout chunk | stderr chunk =>
        simp only [Child.step, Child.collect, Child.stop]
        split <;> constructor <;> grind
    | timer | abort | error | close =>
        simp only [Child.step, Child.stop]
        constructor <;> grind

/-- A child that closes leaves the caller with what was collected. -/
theorem Collected.settles (h : c.Collected o time) (code : Option Int) :
    Settles o { outcome := c.outcome o code, elapsed := time, produced := c.bytes } := by
  obtain ⟨hall, hbounded, hlimit, htimeout, haborted⟩ := h
  constructor <;> grind [Child.outcome, CommandResult.size]

end Child

variable {o : CommandOptions} {events : List (Nat × ChildEvent)}

theorem watch_settles :
    ∀ {c : Child} {time : Nat}, c.Collected o time → (time :: events.map Prod.fst).Pairwise (· ≤ ·) →
      (∀ t, (t, ChildEvent.timer) ∈ events → o.timeoutMs ≤ t) → ∀ {r : Reaction},
      DockerCli.watch o c events = some r → Settles o r := by
  induction events with
  | nil =>
      intro c time _ _ _ r h
      cases h
  | cons e rest ih =>
      intro c time hc hsorted htimer r h
      obtain ⟨t, event⟩ := e
      rw [List.map_cons, List.pairwise_cons] at hsorted
      have hnow : c.Collected o t := { hc with
        timeout := fun hr => (hc.timeout hr).trans
          (Int.ofNat_le.2 (hsorted.1 t List.mem_cons_self)) }
      have hstep : (c.step o event).Collected o t :=
        hnow.step fun heq => htimer t (heq ▸ List.mem_cons_self)
      have hrest : ∀ t', (t', ChildEvent.timer) ∈ rest → o.timeoutMs ≤ t' := fun t' ht' =>
        htimer t' (List.mem_cons_of_mem _ ht')
      cases event with
      | close code =>
          cases h
          exact hnow.settles code
      | stdout | stderr | timer | abort | error => exact ih hstep hsorted.2 hrest h

/-- A command settles as its contract says, if the clock does not run
    backwards and the timer does not fire early. -/
theorem command_settles {aborted : Bool} (hsorted : (events.map Prod.fst).Pairwise (· ≤ ·))
    (htimer : ∀ t, (t, ChildEvent.timer) ∈ events → o.timeoutMs ≤ t) {r : Reaction}
    (h : DockerCli.command o aborted events = some r) : Settles o r := by
  unfold DockerCli.command at h
  split at h
  · next hsignal =>
      cases h
      rw [Bool.and_eq_true] at hsignal
      constructor <;> simp [hsignal.1]
  · have hstart : Child.Collected o 0 {} := ⟨fun _ => rfl, fun _ hmax => hmax, nofun, nofun, nofun⟩
    exact watch_settles hstart (List.pairwise_cons.2 ⟨fun _ _ => Nat.zero_le _, hsorted⟩) htimer h

namespace Sample

/-- What a child prints on its two streams. -/
def chatty : List (Nat × ChildEvent) :=
  [(2, .stdout [51]), (4, .stderr [33, 10]), (6, .stdout [10])]

def lenient : CommandOptions where
  timeoutMs := 10
  allowFailure := true

end Sample

/-- A failure that is allowed, and the same child when it does not come to an end. -/
theorem command_settles_sample :
    (∃ r, DockerCli.command Sample.lenient false (Sample.chatty ++ [(9, .close (some 1))])
        = some r ∧ r.outcome = .ok ⟨[51, 10], [33, 10], 1⟩ ∧ Settles Sample.lenient r) ∧
    ∃ r, DockerCli.command Sample.lenient false
        (Sample.chatty ++ [(10, .timer), (12, .close none)]) = some r ∧
      r.outcome = .error .commandTimeout ∧ Settles Sample.lenient r := by
  have hfailed : DockerCli.command Sample.lenient false
      (Sample.chatty ++ [(9, .close (some 1))]) = some _ := rfl
  have hstopped : DockerCli.command Sample.lenient false
      (Sample.chatty ++ [(10, .timer), (12, .close none)]) = some _ := rfl
  refine ⟨⟨_, hfailed, rfl, command_settles ?_ ?_ hfailed⟩,
    _, hstopped, rfl, command_settles ?_ ?_ hstopped⟩
  all_goals simp [Sample.chatty, Sample.lenient]

end ArenaCore
