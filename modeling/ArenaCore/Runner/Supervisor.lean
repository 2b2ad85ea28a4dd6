import ArenaCore.Judge
import ArenaCore.Lib.Decoding
import ArenaCore.Lib.Dialogue
import ArenaCore.Runner.Artifacts

/-!
# The Sandbox Supervisor

`apps/runner/src/supervisor.ts`: a request is carried out in containers, one
for the compiler and one for each case. A container is created, inspected,
started and filled, used, and destroyed in any case. Its absence is checked
independently, and a container that may have survived is an error that no
other result can hide.

Every command has a time and an output limit, and the learner's own commands
share an output budget. What exceeds a limit is a verdict on the learner's
program, any other failure is an exception.

The program is a dialogue: each docker command, metric snapshot, reading of the
clock or of the abort signal, and each random name is a question.

## Main definitions

* `DockerCommand`, `Query`, `Runner`: The questions of the supervisor.
* `containerPolicy`, `containerState`: What an inspection must show.
* `sandbox`: A container around some work.
* `runCase`, `runCases`, `compile`: The work.
* `perform`, `SandboxSupervisor.execute`: A whole request.

## Theorems

* `plays_sandbox`, `plays_sandbox_ok`: What a sandbox does around its work.
-/

namespace ArenaCore

/-- The docker commands, by what they are for. -/
inductive DockerCommand where
  | create (name : Uuid) (language : Language) (memoryMiB : Rat) (deadline : Int)
  | inspect (name : Uuid)
  | start (name : Uuid)
  | unpack (name : Uuid)
  | makeClasses (name : Uuid)
  | javac (name : Uuid)
  | packClasses (name : Uuid)
  | program (name : Uuid) (language : Language)
  | inspectState (name : Uuid)
  | remove (name : Uuid)
  | list (name : Uuid)
deriving DecidableEq

def DockerCommand.isProgram : DockerCommand → Bool
  | .program _ _ => true
  | _ => false

def DockerCommand.isJavac : DockerCommand → Bool
  | .javac _ => true
  | _ => false

structure CgroupSnapshot where
  path : String
  cpuUsec : Nat
  memoryPeakBytes : Nat
  oomKills : Nat
deriving DecidableEq

inductive Query where
  | now
  | aborted
  | name
  | command (command : DockerCommand) (options : CommandOptions)
  | snapshot (name : Uuid)
deriving DecidableEq

@[reducible] def QueryAnswer : Query → Type
  | .now => Nat
  | .aborted => Bool
  | .name => Uuid
  | .command _ _ => Reaction
  | .snapshot _ => Except RunnerError CgroupSnapshot

abbrev Runner := Dialogue Query QueryAnswer RunnerError

/-- A question of the supervisor with its answer. -/
abbrev RunnerExchange := Exchange Query QueryAnswer

namespace Runner

def now : Runner Nat :=
  .ask .now fun (time : Nat) => .done (.ok time)

def aborted : Runner Bool :=
  .ask .aborted fun (stop : Bool) => .done (.ok stop)

def name : Runner Uuid :=
  .ask .name fun (name : Uuid) => .done (.ok name)

def command (c : DockerCommand) (o : CommandOptions) : Runner CommandResult :=
  .ask (.command c o) fun (reaction : Reaction) => .done (reaction.outcome.mapError .docker)

def snapshot (name : Uuid) : Runner CgroupSnapshot :=
  .ask (.snapshot name) fun (answer : Except RunnerError CgroupSnapshot) => .done answer

end Runner

open Runner

/-! ### Inspections -/

/-- `JSON.parse` of a command's output. -/
def parseOutput (lib : Library) (stdout : Bytes) : Except RunnerError Json :=
  match lib.parseJson (lib.decode stdout) with
  | none => .error .syntaxError
  | some json => .ok json

def isStrings (json : Json) : Bool :=
  json.items?.any fun items => items.all fun item => item.str?.isSome

def isUlimit (json : Json) : Bool :=
  ((json.member? "Name").bind Json.str?).isSome && ((json.member? "Hard").bind Json.num?).isSome &&
    ((json.member? "Soft").bind Json.num?).isSome

/-- The shape and the fixed values an inspected container must have. -/
def containerSchema (memoryMiB : Rat) (json : Json) : Bool :=
  let host := fun name => (json.member? "HostConfig").bind (Json.member? name)
  (((json.member? "Config").bind (Json.member? "User")).bind Json.str? == some "10001:10001") &&
    ((json.member? "Mounts").bind Json.items?).any List.isEmpty &&
    ((host "Runtime").bind Json.str? == some "runsc") &&
    ((host "NetworkMode").bind Json.str? == some "none") &&
    ((host "ReadonlyRootfs").bind Json.bool? == some true) &&
    ((host "Privileged").bind Json.bool? == some false) &&
    ((host "Memory").bind Json.num?).any (fun n => decide ((n : Rat) = memoryMiB * 1024 * 1024)) &&
    ((host "MemorySwap").bind Json.num?).any
      (fun n => decide ((n : Rat) = memoryMiB * 1024 * 1024)) &&
    ((host "NanoCpus").bind Json.num? == some 1000000000) &&
    ((host "PidsLimit").bind Json.num? == some (Caps.pids : Int)) &&
    (host "CapDrop").any isStrings && (host "SecurityOpt").any isStrings &&
    (host "Binds").any Json.isNull &&
    ((host "Ulimits").bind Json.items?).any fun limits => limits.all isUlimit

/-- The texts of a member of `HostConfig`. -/
def hostTexts (json : Json) (name : String) : List String :=
  ((((json.member? "HostConfig").bind (Json.member? name)).bind Json.items?).getD []).filterMap
    Json.str?

/-- What is checked after the shape. -/
def policyMatches (json : Json) : Bool :=
  let limits :=
    (((json.member? "HostConfig").bind (Json.member? "Ulimits")).bind Json.items?).getD []
  let nproc := limits.find? fun limit => (limit.member? "Name").bind Json.str? == some "nproc"
  (hostTexts json "CapDrop").contains "ALL" &&
    (hostTexts json "SecurityOpt").any
      (fun option => "no-new-privileges".toList.isPrefixOf option.toList) &&
    ((nproc.bind (Json.member? "Hard")).bind Json.num? == some (Caps.pids : Int)) &&
    ((nproc.bind (Json.member? "Soft")).bind Json.num? == some (Caps.pids : Int))

def containerPolicy (lib : Library) (memoryMiB : Rat) (stdout : Bytes) : Except RunnerError Unit := do
  let json ← parseOutput lib stdout
  if containerSchema memoryMiB json = false then .error .schema
  else if policyMatches json = false then .error (.thrown "SANDBOX_POLICY_MISMATCH")
  else .ok ()

inductive ContainerState where
  | running
  | stopped
  | oom
deriving DecidableEq, Repr

def containerStateOf (lib : Library) (stdout : Bytes) : Except RunnerError ContainerState := do
  let json ← parseOutput lib stdout
  match (json.member? "OOMKilled").bind Json.bool?, (json.member? "Running").bind Json.bool?,
      (json.member? "Pid").bind Json.num? with
  | some oomKilled, some isRunning, some pid =>
      if pid < 0 then .error (.thrown "INVALID_CONTAINER_STATE")
      else if oomKilled && !isRunning && pid == 0 then .ok .oom
      else if !oomKilled && !isRunning && pid == 0 then .ok .stopped
      else if !oomKilled && isRunning && decide (2 ≤ pid) then .ok .running
      else .error (.thrown "INVALID_CONTAINER_STATE")
  | _, _, _ => .error (.thrown "INVALID_CONTAINER_STATE")

/-! ### Metrics -/

structure Measured where
  cpuMs : Nat
  memoryKiB : Nat
  oomKilled : Bool

def metricDelta (before after : CgroupSnapshot) : Except RunnerError Measured :=
  if after.path ≠ before.path then .error (.thrown "CGROUP_IDENTITY_CHANGED")
  else if after.cpuUsec < before.cpuUsec ∨ after.memoryPeakBytes < before.memoryPeakBytes ∨
      after.oomKills < before.oomKills then .error (.thrown "CGROUP_COUNTER_REGRESSION")
  else .ok
    { cpuMs := (after.cpuUsec - before.cpuUsec + 999) / 1000
      memoryKiB := (after.memoryPeakBytes + 1023) / 1024
      oomKilled := decide (before.oomKills < after.oomKills) }

/-! ### Containers -/

section Containers

variable (lib : Library)

/-- `containerArgs`. The names and images are of the right shape already. -/
def containerArgs (name : Uuid) (language : Language) (memoryMiB : Rat) (deadline : Int) :
    Except RunnerError DockerCommand :=
  if memoryMiB.den ≠ 1 ∨ memoryMiB < 32 ∨ (Caps.maxMemoryMiB : Rat) < memoryMiB then
    .error (.thrown "INVALID_MEMORY_LIMIT")
  else .ok (.create name language memoryMiB deadline)

/-- Remove a container, and check independently that it is gone. -/
def destroy (name : Uuid) : Runner Unit := do
  let _ ← command (.remove name) { allowFailure := true }
  let result ← command (.list name) {}
  if trim (lib.decode result.stdout) ≠ "" then .raise .cleanup else pure ()

def verifyContainer (name : Uuid) (memoryMiB : Rat) : Runner Unit := do
  let result ← command (.inspect name) {}
  .done (containerPolicy lib memoryMiB result.stdout)

def containerState (name : Uuid) : Runner ContainerState := do
  let result ← command (.inspectState name) {}
  .done (containerStateOf lib result.stdout)

/-- The commands throw once the signal is aborted. -/
def throwIfAborted : Runner Unit := do
  let stop ← aborted
  if stop then .raise (.docker .aborted) else pure ()

/-- Create, inspect, start and fill a container. -/
def setUp (language : Language) (memoryMiB : Rat) (archive : Bytes) (deadline : Int)
    (name : Uuid) : Runner Unit := do
  throwIfAborted
  let create ← .done (containerArgs name language memoryMiB deadline)
  let _ ← command create { signal := true }
  throwIfAborted
  verifyContainer lib name memoryMiB
  let _ ← command (.start name) { signal := true }
  let _ ← command (.unpack name) { input := archive, signal := true }
  pure ()

/-- Destroy a container; any failure to do so is the same error. -/
def tearDown (name : Uuid) : Runner Unit :=
  .tryCatch (destroy lib name) fun _ => .raise .cleanup

/-- Some work in a container that is destroyed afterwards in any case. -/
def sandbox {α : Type} (language : Language) (memoryMiB : Rat) (archive : Bytes) (deadline : Int)
    (body : Uuid → Runner α) : Runner α := do
  let name ← name
  .tryFinally (setUp lib language memoryMiB archive deadline name >>= fun _ => body name)
    (tearDown lib name)

end Containers

/-! ### Cases -/

structure CaseObservation where
  caseId : String
  stdout : String := ""
  stderr : String := ""
  exitCode : Option Int := none
  failure : Option ObservedFailure := none
  wallMs : Int := 0
  cpuMs : Option Nat := none
  memoryKiB : Option Nat := none
deriving DecidableEq

/-- The cases observed so far and the bytes the learner may still print. -/
structure Progress where
  cases : List CaseObservation := []
  budget : Int := Caps.outputBytes

def Progress.push (p : Progress) (c : CaseObservation) : Progress :=
  { p with cases := p.cases ++ [c] }

section Cases

variable (lib : Library) (request : SandboxRequest) (deadline : Int)

/-- The input files of a case, if it has any. -/
def unpackFiles (test : SandboxCase) (name : Uuid) : Runner Unit :=
  if test.files = [] then pure ()
  else do
    let files ← .done (packFiles lib (test.files.map fun file => (file.1, encode file.2)))
    let _ ← command (.unpack name) { input := files, signal := true }
    pure ()

/-- The learner's program, after a first snapshot. -/
def runProgram (test : SandboxCase) (budget : Int) (name : Uuid) :
    Runner (CgroupSnapshot × CommandResult) := do
  let before ← snapshot name
  let present ← now
  let result ← command (.program name request.language)
    { input := encode test.input, signal := true,
      timeoutMs := max 1 (min request.timeMs (deadline - present)),
      maxBytes := budget, allowFailure := true }
  pure (before, result)

/-- A second snapshot. -/
def measure (before : CgroupSnapshot) (name : Uuid) : Runner Measured := do
  let after ← snapshot name
  .done (metricDelta before after)

/-- The observation of a program that ended. Without metrics it counts only if
    the container is gone. -/
def observe (test : SandboxCase) (started : Nat) (before : CgroupSnapshot)
    (result : CommandResult) (name : Uuid) : Runner CaseObservation := do
  let measured ← (measure before name).attempt
  match measured with
  | .error e => do
      let state ← containerState lib name
      if state = .running then .raise e
      else do
        let ended ← now
        pure
          { caseId := test.id, stdout := lib.decode result.stdout,
            stderr := lib.decode result.stderr, exitCode := some result.exitCode,
            wallMs := ended - started,
            failure := if state = .oom then some .memoryLimitExceeded else none }
  | .ok m => do
      let ended ← now
      pure
        { caseId := test.id, stdout := lib.decode result.stdout,
          stderr := lib.decode result.stderr, exitCode := some result.exitCode,
          wallMs := ended - started, cpuMs := some m.cpuMs, memoryKiB := some m.memoryKiB,
          failure := if m.oomKilled then some .memoryLimitExceeded else none }

/-- The handler around a case: exceeded limits are observations. -/
def caught (test : SandboxCase) (started : Nat) (p : Progress) (e : RunnerError) :
    Runner Progress :=
  match e with
  | .docker .commandTimeout => do
      let ended ← now
      pure (p.push
        { caseId := test.id, failure := some .timeLimitExceeded, wallMs := ended - started })
  | .docker .outputLimit => do
      let ended ← now
      pure { p.push { caseId := test.id, failure := some .outputLimitExceeded,
                      wallMs := ended - started } with budget := 0 }
  | e => .raise e

/-- One case in its container. -/
def runCase (test : SandboxCase) (p : Progress) (name : Uuid) : Runner Progress := do
  unpackFiles lib test name
  let started ← now
  let ran ← (runProgram request deadline test p.budget name).attempt
  match ran with
  | .error e => caught test started p e
  | .ok (before, result) => do
      let p := { p with budget := p.budget - result.size }
      let observed ← (observe lib test started before result name).attempt
      match observed with
      | .error e => caught test started p e
      | .ok c => pure (p.push c)

/-- The cases in order, up to the first that fails. -/
def runCases (archive : Bytes) : List SandboxCase → Progress → Runner Progress
  | [], p => pure p
  | test :: rest, p => do
      throwIfAborted
      if p.budget ≤ 0 then
        pure (p.push { caseId := test.id, failure := some .outputLimitExceeded })
      else do
        let p ← sandbox lib request.language request.memoryMiB archive deadline
          (runCase lib request deadline test p)
        if (p.cases.getLast?.bind CaseObservation.failure).isSome then pure p
        else runCases archive rest p

end Cases

/-! ### Requests -/

structure ExecutionObservation where
  compilation : Option Compilation := none
  cases : List CaseObservation := []
deriving DecidableEq

/-- What the compiler left. -/
structure Compiled where
  compilation : Compilation
  budget : Int
  archive : Bytes

section Requests

variable (lib : Library)

/-- The compiler in its container. -/
def compile (deadline : Int) (name : Uuid) : Runner Compiled := do
  let _ ← command (.makeClasses name) { signal := true }
  let present ← now
  let result ← command (.javac name)
    { signal := true, timeoutMs := min Caps.compileMs (deadline - present),
      maxBytes := Caps.outputBytes, allowFailure := true }
  let compilation : Compilation :=
    { ok := result.exitCode == 0, stdout := lib.decode result.stdout,
      stderr := lib.decode result.stderr }
  if result.exitCode = 0 then do
    let packed ← command (.packClasses name) { signal := true, maxBytes := Caps.artifactBytes }
    let archive ← .done (normalizeJavaArtifacts lib packed.stdout)
    pure ⟨compilation, Caps.outputBytes - result.size, archive⟩
  else pure ⟨compilation, Caps.outputBytes - result.size, []⟩

def Language.filename : Language → String
  | java => "Solution.java"
  | python => "solution.py"
  | javascript => "solution.js"

/-- A request that has been admitted, with the budget it leaves. -/
def perform (request : SandboxRequest) : Runner (ExecutionObservation × Int) := do
  let start ← now
  let deadline : Int := start + Caps.totalMs
  let archive ← .done (packFiles lib [(request.language.filename, encode request.sourceCode)])
  if request.language = .java then do
    let compiled ← sandbox lib .java Caps.compileMemoryMiB archive deadline (compile lib deadline)
    if compiled.compilation.ok = false then
      pure ({ compilation := some compiled.compilation }, compiled.budget)
    else do
      let p ← runCases lib request deadline compiled.archive request.cases
        { budget := compiled.budget }
      pure ({ compilation := some compiled.compilation, cases := p.cases }, p.budget)
  else do
    let p ← runCases lib request deadline archive request.cases {}
    pure ({ cases := p.cases }, p.budget)

/-- What the supervisor remembers between requests. -/
structure SandboxSupervisor where
  ready : Bool
  shuttingDown : Bool := false
  active : List String := []

/-- The key of an attempt. -/
def SandboxRequest.key (request : SandboxRequest) : String :=
  request.executionId ++ ":" ++ toString request.attempt

/-- `execute`: a request of the right shape is admitted or refused. -/
def SandboxSupervisor.execute (supervisor : SandboxSupervisor) (request : AcceptedRequest) :
    Runner ExecutionObservation :=
  if supervisor.ready = false ∨ supervisor.shuttingDown = true then
    .raise (.thrown "RUNNER_NOT_READY")
  else if 2 ≤ supervisor.active.length then .raise (.thrown "RUNNER_CAPACITY")
  else if supervisor.active.contains request.key then .raise (.thrown "DUPLICATE_ATTEMPT")
  else do
    let finished ← perform lib request.toSandboxRequest
    pure finished.1

end Requests

/-! ### Single questions -/

section Plays

open Dialogue

variable {lib : Library} {trace : List RunnerExchange} {α : Type} {c : DockerCommand}
  {o : CommandOptions} {name : Uuid} {language : Language} {memoryMiB : Rat} {deadline : Int}
  {archive : Bytes} {body : Uuid → Runner α} {result : Except RunnerError α} {P : Query → Prop}
  {q : Query}

theorem plays_now {result : Except RunnerError Nat} :
    Plays now trace result ↔ ∃ time : Nat, trace = [⟨.now, time⟩] ∧ result = .ok time := by
  rw [now, plays_ask]
  simp only [plays_done]
  constructor
  · rintro ⟨time, rest, rfl, rfl, rfl⟩
    exact ⟨time, rfl, rfl⟩
  · rintro ⟨time, rfl, rfl⟩
    exact ⟨time, [], rfl, rfl, rfl⟩

/-- A reading of the clock always succeeds. -/
theorem plays_now_bind {f : Nat → Runner α} :
    Plays (now >>= f) trace result ↔
      ∃ (time : Nat) (rest : List RunnerExchange), trace = ⟨.now, time⟩ :: rest ∧
        Plays (f time) rest result :=
  plays_ask

theorem plays_aborted {result : Except RunnerError Bool} :
    Plays aborted trace result ↔ ∃ stop : Bool, trace = [⟨.aborted, stop⟩] ∧ result = .ok stop := by
  rw [aborted, plays_ask]
  simp only [plays_done]
  constructor
  · rintro ⟨stop, rest, rfl, rfl, rfl⟩
    exact ⟨stop, rfl, rfl⟩
  · rintro ⟨stop, rfl, rfl⟩
    exact ⟨stop, [], rfl, rfl, rfl⟩

theorem plays_command {result : Except RunnerError CommandResult} :
    Plays (command c o) trace result ↔
      ∃ r : Reaction, trace = [⟨.command c o, r⟩] ∧ result = r.outcome.mapError .docker := by
  rw [command, plays_ask]
  simp only [plays_done]
  constructor
  · rintro ⟨r, rest, rfl, rfl, rfl⟩
    exact ⟨r, rfl, rfl⟩
  · rintro ⟨r, rfl, rfl⟩
    exact ⟨r, [], rfl, rfl, rfl⟩

theorem plays_snapshot {result : Except RunnerError CgroupSnapshot} :
    Plays (snapshot name) trace result ↔ trace = [⟨.snapshot name, result⟩] := by
  rw [snapshot, plays_ask]
  simp only [plays_done]
  constructor
  · rintro ⟨answer, rest, rfl, rfl, rfl⟩
    rfl
  · rintro rfl
    exact ⟨result, [], rfl, rfl, rfl⟩

/-- A command that was carried out. -/
theorem plays_command_ok {result : CommandResult} :
    Plays (command c o) trace (.ok result) ↔
      ∃ r : Reaction, trace = [⟨.command c o, r⟩] ∧ r.outcome = .ok result := by
  rw [plays_command]
  refine exists_congr fun r => and_congr_right fun _ => ?_
  cases r.outcome with
  | error code => simp [Except.mapError]
  | ok x => simp [Except.mapError, eq_comm]

theorem plays_throwIfAborted {result : Except RunnerError Unit} :
    Plays throwIfAborted trace result ↔ ∃ stop : Bool, trace = [⟨.aborted, stop⟩] ∧
      result = if stop then .error (.docker .aborted) else .ok () := by
  rw [throwIfAborted, plays_bind]
  simp only [plays_aborted]
  constructor
  · rintro (⟨e, ⟨stop, _, h⟩, _⟩ | ⟨_, _, stop, rfl, ⟨_, rfl, h⟩, hrest⟩)
    · cases h
    · cases h
      cases stop
      · obtain ⟨rfl, rfl⟩ := plays_pure.1 hrest
        exact ⟨false, rfl, rfl⟩
      · obtain ⟨rfl, rfl⟩ := plays_raise.1 hrest
        exact ⟨true, rfl, rfl⟩
  · rintro ⟨stop, rfl, rfl⟩
    refine .inr ⟨_, [], stop, (List.append_nil _).symm, ⟨stop, rfl, rfl⟩, ?_⟩
    cases stop
    · exact .done _
    · exact .done _

/-! ### Containers -/

/-- The questions a sandbox asks around the work in it. -/
def Query.isUpkeep : Query → Bool
  | .name | .aborted => true
  | .command (.create ..) _ | .command (.inspect _) _ | .command (.start _) _
  | .command (.unpack _) _ | .command (.remove _) _ | .command (.list _) _ => true
  | _ => false

/-- Questions of upkeep only. -/
abbrev Upkeep {α : Type} (p : Runner α) : Prop :=
  p.Asks fun q => q.isUpkeep = true

theorem asks_command (h : P (.command c o)) : (command c o).Asks P :=
  ⟨h, fun _ => trivial⟩

theorem upkeep_command (h : (Query.command c o).isUpkeep = true) : Upkeep (command c o) :=
  asks_command h

theorem upkeep_destroy (name : Uuid) : Upkeep (destroy lib name) := by
  refine Asks.bind (upkeep_command rfl) fun _ => Asks.bind (upkeep_command rfl) fun result => ?_
  split <;> trivial

theorem upkeep_throwIfAborted : Upkeep throwIfAborted := by
  refine Asks.bind ⟨rfl, fun _ => trivial⟩ fun stop => ?_
  split <;> trivial

theorem upkeep_verifyContainer (name : Uuid) (memoryMiB : Rat) :
    Upkeep (verifyContainer lib name memoryMiB) :=
  Asks.bind (upkeep_command rfl) fun _ => trivial

theorem upkeep_tearDown (name : Uuid) : Upkeep (tearDown lib name) :=
  (upkeep_destroy name).tryCatch fun _ => trivial

theorem containerArgs_eq_ok {create : DockerCommand} :
    containerArgs name language memoryMiB deadline = .ok create ↔
      (memoryMiB.den = 1 ∧ 32 ≤ memoryMiB ∧ memoryMiB ≤ Caps.maxMemoryMiB) ∧
        create = .create name language memoryMiB deadline := by
  unfold containerArgs
  split
  · next h =>
      constructor
      · intro hc
        cases hc
      · rintro ⟨⟨hden, hlow, hhigh⟩, _⟩
        rcases h with h | h | h
        · exact absurd hden h
        · exact absurd hlow (not_le.2 h)
        · exact absurd hhigh (not_le.2 h)
  · next h =>
      rw [not_or, not_or, not_ne_iff, not_lt, not_lt] at h
      simp only [Except.ok.injEq, h, and_self, true_and, eq_comm]

theorem upkeep_setUp (language : Language) (memoryMiB : Rat) (archive : Bytes) (deadline : Int)
    (name : Uuid) : Upkeep (setUp lib language memoryMiB archive deadline name) := by
  refine Asks.bind upkeep_throwIfAborted fun _ => ?_
  cases hargs : containerArgs name language memoryMiB deadline with
  | error e => trivial
  | ok create =>
      cases (containerArgs_eq_ok.1 hargs).2
      show Upkeep (command (.create name language memoryMiB deadline) { signal := true } >>= _)
      refine Asks.bind (upkeep_command rfl) fun _ => Asks.bind upkeep_throwIfAborted fun _ => ?_
      refine Asks.bind (upkeep_verifyContainer _ _) fun _ => ?_
      exact Asks.bind (upkeep_command rfl) fun _ => Asks.bind (upkeep_command rfl) fun _ => trivial

theorem asks_unpackFiles (h : ∀ o, P (.command (.unpack name) o)) (test : SandboxCase) :
    (unpackFiles lib test name).Asks P := by
  unfold unpackFiles
  split
  · trivial
  · cases packFiles lib (test.files.map fun file => (file.1, encode file.2)) with
    | error e => trivial
    | ok files =>
        change (command (.unpack name) { input := files, signal := true } >>= _).Asks P
        exact Asks.bind (asks_command (h _)) fun _ => trivial

theorem upkeep_unpackFiles (test : SandboxCase) (name : Uuid) :
    Upkeep (unpackFiles lib test name) :=
  asks_unpackFiles (fun _ => rfl) test

/-- A sandbox names its container, sets it up, works in it and destroys it. -/
theorem plays_sandbox
    (h : Plays (sandbox lib language memoryMiB archive deadline body) trace result) :
    ∃ (name : Uuid) (inner outer : List RunnerExchange) (r : Except RunnerError α),
      trace = ⟨.name, name⟩ :: (inner ++ outer) ∧
      Plays (setUp lib language memoryMiB archive deadline name >>= fun _ => body name) inner r ∧
      ((Plays (tearDown lib name) outer (.ok ()) ∧ result = r) ∨
        ∃ e, Plays (tearDown lib name) outer (.error e) ∧ result = .error e) := by
  rw [sandbox, plays_bind] at h
  rcases h with ⟨e, hname, _⟩ | ⟨_, rest, name, rfl, hname, h⟩
  · obtain ⟨_, _, _, hdone⟩ := plays_ask.1 hname
    cases (plays_done.1 hdone).2
  · obtain ⟨_, _, rfl, hdone⟩ := plays_ask.1 hname
    obtain ⟨rfl, hvalue⟩ := plays_done.1 hdone
    cases hvalue
    obtain ⟨inner, outer, r, rfl, hinner, houter⟩ := plays_tryFinally.1 h
    exact ⟨name, inner, outer, r, rfl, hinner, houter⟩

/-- A sandbox that ends with a value did the work, with nothing but upkeep
    around it. -/
theorem plays_sandbox_ok {a : α}
    (h : Plays (sandbox lib language memoryMiB archive deadline body) trace (.ok a)) :
    ∃ (name : Uuid) (before work after : List RunnerExchange),
      trace = before ++ work ++ after ∧ (∀ x ∈ before, x.1.isUpkeep = true) ∧
      (∀ x ∈ after, x.1.isUpkeep = true) ∧ Plays (body name) work (.ok a) := by
  obtain ⟨name, inner, outer, r, rfl, hinner, ⟨houter, rfl⟩ | ⟨e, _, hr⟩⟩ := plays_sandbox h
  · obtain ⟨setup, work, _, rfl, hsetup, hwork⟩ := plays_bind_ok.1 hinner
    refine ⟨name, ⟨.name, name⟩ :: setup, work, outer, by simp, fun x hx => ?_, ?_, hwork⟩
    · rcases List.mem_cons.1 hx with rfl | hx
      · rfl
      · exact (upkeep_setUp _ _ _ _ _).plays hsetup x hx
    · exact (upkeep_tearDown name).plays houter
  · cases hr

/-! ### Kinds of questions -/

/-- What is asked during a case in a container. -/
def Query.isCaseWork (name : Uuid) : Query → Bool
  | .now => true
  | .snapshot name' => decide (name = name')
  | .command (.unpack name') _ | .command (.program name' _) _
  | .command (.inspectState name') _ => decide (name = name')
  | _ => false

/-- A case asks about its own container only. -/
abbrev CaseWork {α : Type} (name : Uuid) (p : Runner α) : Prop :=
  p.Asks fun q => q.isCaseWork name = true

theorem caseWork_command (h : (Query.command c o).isCaseWork name = true) :
    CaseWork name (command c o) :=
  asks_command h

theorem caseWork_now (name : Uuid) : CaseWork name now :=
  ⟨rfl, fun _ => trivial⟩

theorem caseWork_snapshot (name : Uuid) : CaseWork name (snapshot name) :=
  ⟨decide_eq_true rfl, fun _ => trivial⟩

theorem caseWork_caught (test : SandboxCase) (started : Nat) (p : Progress) (e : RunnerError)
    (name : Uuid) : CaseWork name (caught test started p e) := by
  unfold caught
  split
  · exact Asks.bind (caseWork_now name) fun _ => trivial
  · exact Asks.bind (caseWork_now name) fun _ => trivial
  · trivial

theorem caseWork_observe (test : SandboxCase) (started : Nat) (before : CgroupSnapshot)
    (result : CommandResult) (name : Uuid) :
    CaseWork name (observe lib test started before result name) := by
  have hmeasure : CaseWork name (measure before name) :=
    Asks.bind (caseWork_snapshot name) fun _ => trivial
  refine Asks.bind hmeasure.attempt fun measured => ?_
  cases measured with
  | ok m => exact Asks.bind (caseWork_now name) fun _ => trivial
  | error e =>
      have hstate : CaseWork name (containerState lib name) :=
        Asks.bind (caseWork_command (decide_eq_true rfl)) fun _ => trivial
      refine Asks.bind hstate fun state => ?_
      split
      · trivial
      · exact Asks.bind (caseWork_now name) fun _ => trivial

theorem caseWork_runCase (request : SandboxRequest) (deadline : Int) (test : SandboxCase)
    (p : Progress) (name : Uuid) : CaseWork name (runCase lib request deadline test p name) := by
  have hprogram : CaseWork name (runProgram request deadline test p.budget name) :=
    Asks.bind (caseWork_snapshot name) fun _ => Asks.bind (caseWork_now name) fun _ =>
      Asks.bind (caseWork_command (decide_eq_true rfl)) fun _ => trivial
  refine Asks.bind (asks_unpackFiles (fun _ => decide_eq_true rfl) test) fun _ => ?_
  refine Asks.bind (caseWork_now name) fun started => Asks.bind hprogram.attempt fun ran => ?_
  cases ran with
  | error e => exact caseWork_caught _ _ _ e name
  | ok r =>
      refine Asks.bind (caseWork_observe _ _ _ _ _).attempt fun observed => ?_
      cases observed with
      | error e => exact caseWork_caught _ _ _ e name
      | ok c => trivial

/-- The compiler and the transfer of its class files. -/
def Query.isCompiling : Query → Bool
  | .command (.javac _) _ | .command (.packClasses _) _ => true
  | _ => false

theorem Query.not_isCompiling (h : q.isUpkeep = true) : q.isCompiling = false := by
  cases q with
  | command c o => cases c <;> first | rfl | cases h
  | now | aborted | name | snapshot => rfl

theorem Query.not_isCompiling_of_isCaseWork (h : q.isCaseWork name = true) :
    q.isCompiling = false := by
  cases q with
  | command c o => cases c <;> first | rfl | cases h
  | now | aborted | name | snapshot => rfl

/-- Nothing asked that has to do with compiling. -/
abbrev Runs {α : Type} (p : Runner α) : Prop :=
  p.Asks fun q => q.isCompiling = false

theorem runs_command (h : (Query.command c o).isCompiling = false) : Runs (command c o) :=
  asks_command h

theorem runs_now : Runs now :=
  ⟨rfl, fun _ => trivial⟩

theorem runs_of_upkeep {p : Runner α} (h : Upkeep p) : Runs p :=
  h.mono fun _ => Query.not_isCompiling

theorem runs_sandbox (hbody : ∀ name, Runs (body name)) :
    Runs (sandbox lib language memoryMiB archive deadline body) := by
  refine Asks.bind ⟨rfl, fun _ => trivial⟩ fun name => ?_
  refine Asks.tryFinally ?_ (runs_of_upkeep (upkeep_tearDown name))
  exact Asks.bind (runs_of_upkeep (upkeep_setUp _ _ _ _ _)) fun _ => hbody name

/-- Once the program is compiled, nothing is compiled. -/
theorem runs_runCases (request : SandboxRequest) (deadline : Int) (archive : Bytes)
    (tests : List SandboxCase) :
    ∀ p, Runs (runCases lib request deadline archive tests p) := by
  induction tests with
  | nil => exact fun _ => trivial
  | cons test rest ih =>
      intro p
      refine Asks.bind (runs_of_upkeep upkeep_throwIfAborted) fun _ => ?_
      split
      · trivial
      · refine Asks.bind (runs_sandbox fun name => ?_) fun p => ?_
        · exact (caseWork_runCase _ _ _ _ name).mono fun _ => Query.not_isCompiling_of_isCaseWork
        · split
          · trivial
          · exact ih p

/-! ### The transport -/

/-- Every command was settled as the transport's contract says. -/
def Honest (trace : List RunnerExchange) : Prop :=
  ∀ c o (r : Reaction), (⟨.command c o, r⟩ : RunnerExchange) ∈ trace → Settles o r

end Plays

namespace Sample

theorem container_canonical :
    uuidShape isHexLower "00000000-0000-4000-8000-000000000009".toList = true := by
  decide

def container : Uuid :=
  ⟨"00000000-0000-4000-8000-000000000009", container_canonical⟩

/-- What an inspection shows of a container of 512 mebibytes. -/
def inspected : Json :=
  .obj
    [("Config", .obj [("User", .str "10001:10001")]), ("Mounts", .arr []),
     ("HostConfig", .obj
      [("Runtime", .str "runsc"), ("NetworkMode", .str "none"), ("ReadonlyRootfs", .bool true),
       ("Privileged", .bool false), ("Memory", .num (512 * 1024 * 1024)),
       ("MemorySwap", .num (512 * 1024 * 1024)), ("NanoCpus", .num 1000000000),
       ("PidsLimit", .num 64), ("CapDrop", .arr [.str "ALL"]),
       ("SecurityOpt", .arr [.str "no-new-privileges"]), ("Binds", .null),
       ("Ulimits", .arr [.obj [("Name", .str "nproc"), ("Hard", .num 64), ("Soft", .num 64)]])])]

/-- The compiler's output, with one class. -/
def archive : Bytes := [202, 254, 186, 190]

/-- Archives that only have a size, and plain text. -/
def library : Library where
  pack files :=
    List.replicate ((files.map fun f => 512 + (f.2.length + 511) / 512 * 512).sum + 1024) 0
  extract bytes :=
    if bytes = archive then some [⟨"./Solution.class", .file, some 0, []⟩] else none
  decode bytes := String.ofList (bytes.map fun b =>
    if b.toNat < 128 then Char.ofNat b.toNat else replacement)
  parseJson text := if text = "inspected" then some inspected else none

/-- A program with two cases, in a container of 512 mebibytes. -/
def rawRequest (language : Language) : SandboxRequest where
  executionId := "00000000-0000-4000-8000-000000000006"
  attempt := 1
  language := language
  sourceCode := "class Solution \x7b\x7d"
  cases :=
    [⟨"00000000-0000-4000-8000-000000000003", "1 2", []⟩,
     ⟨"00000000-0000-4000-8000-000000000004", "2 2", []⟩]
  timeMs := 1000
  memoryMiB := 512

theorem rawRequest_accepted (language : Language) :
    sandboxRequestSchema (rawRequest language) = true := by
  cases language <;> decide +kernel

def sandboxed (language : Language) : AcceptedRequest :=
  ⟨rawRequest language, rawRequest_accepted language⟩

/-- A supervisor without other requests. -/
def idle : SandboxSupervisor where
  ready := true

/-- Commands settle as given, metrics too, and no time passes. -/
def answer (react : DockerCommand → CommandOptions → Reaction)
    (metrics : Except RunnerError CgroupSnapshot) : (q : Query) → QueryAnswer q
  | .now => (0 : Nat)
  | .aborted => false
  | .name => container
  | .command c o => react c o
  | .snapshot _ => metrics

/-- A request from beginning to end. -/
def executed (language : Language) (react : DockerCommand → CommandOptions → Reaction)
    (metrics : Except RunnerError CgroupSnapshot) :
    List RunnerExchange × Except RunnerError ExecutionObservation :=
  Dialogue.exec (fun _ => answer react metrics) []
    (idle.execute library (sandboxed language))

theorem plays_executed (language : Language) (react : DockerCommand → CommandOptions → Reaction)
    (metrics : Except RunnerError CgroupSnapshot) :
    Dialogue.Plays (idle.execute library (sandboxed language)) (executed language react metrics).1
      (executed language react metrics).2 :=
  Dialogue.plays_exec _ _ _

/-- Commands that settle by the contract do so in the whole request. -/
theorem honest_executed {language : Language} {react : DockerCommand → CommandOptions → Reaction}
    {metrics : Except RunnerError CgroupSnapshot} (h : ∀ c o, Settles o (react c o)) :
    Honest (executed language react metrics).1 := by
  intro c o r hr
  obtain ⟨past, hx⟩ := Dialogue.exec_answers _ _ _ _ hr
  obtain rfl : r = react c o := eq_of_heq (Sigma.mk.inj hx).2
  exact h c o

/-- A command that prints something and succeeds, if that is allowed. -/
def printing (stdout : Bytes) (o : CommandOptions) : Reaction where
  outcome := if o.maxBytes < stdout.length then .error .outputLimit else .ok ⟨stdout, [], 0⟩
  produced := stdout.length

theorem printing_settles (stdout : Bytes) (o : CommandOptions) : Settles o (printing stdout o) := by
  constructor <;> grind [printing, CommandResult.size]

/-- Docker, and a program that prints nothing. -/
def docker : DockerCommand → CommandOptions → Reaction
  | .inspect _ => printing (encode "inspected")
  | .packClasses _ => printing archive
  | _ => printing []

theorem docker_settles (c : DockerCommand) (o : CommandOptions) : Settles o (docker c o) := by
  cases c <;> exact printing_settles _ o

/-- A command that does not end by itself. -/
def endless (o : CommandOptions) : Reaction where
  outcome := .error .commandTimeout
  elapsed := o.timeoutMs.toNat

theorem endless_settles (o : CommandOptions) : Settles o (endless o) := by
  constructor <;> simp [endless]

/-- The commands of one kind do what is given. -/
def reacting (kind : DockerCommand → Bool) (odd : CommandOptions → Reaction) (c : DockerCommand)
    (o : CommandOptions) : Reaction :=
  if kind c then odd o else docker c o

theorem reacting_settles {kind : DockerCommand → Bool} {odd : CommandOptions → Reaction}
    (h : ∀ o, Settles o (odd o)) (c : DockerCommand) (o : CommandOptions) :
    Settles o (reacting kind odd c o) := by
  unfold reacting
  split
  · exact h o
  · exact docker_settles c o

def measured : CgroupSnapshot :=
  ⟨"/sandbox", 0, 0, 0⟩

end Sample

end ArenaCore
