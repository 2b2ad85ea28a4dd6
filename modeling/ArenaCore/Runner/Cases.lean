import ArenaCore.Runner.Supervisor

/-!
# What the Cases Leave

An inversion of the loop over the cases. `CaseRun` lists the ways a case can be
observed: the program ended, it exceeded a limit, or one of the supervisor's
own commands did, before the program was started or after it had ended. The
last two look like the second from outside, since one handler serves them all.

`CaseRuns` follows the loop: a case without failure is followed by the next
one, a failure is the last case, and an empty budget is a failure without a
container.

## Main definitions

* `programRuns`, `blames`: The learner's commands in a trace, and those of the
  supervisor that a learner can be blamed for.
* `CaseRun`: One case.
* `CaseRuns`: The loop.

## Theorems

* `plays_runCase`: A case that ends with a value is a `CaseRun`.
* `plays_runCases`: A loop that does is `CaseRuns`.
* `plays_compile`: What a compiler that ends with a value has done.
* `plays_perform`: A whole request.
-/

namespace ArenaCore

open Dialogue Runner

variable {trace before work after : List RunnerExchange} {kind : DockerCommand → Bool}
  {run : CommandOptions × Reaction} {lib : Library}

/-! ### Reading a trace -/

/-- The limit an exception says was exceeded. -/
def limitOf : RunnerError → Option ObservedFailure
  | .docker .commandTimeout => some .timeLimitExceeded
  | .docker .outputLimit => some .outputLimitExceeded
  | _ => none

/-- A command of some kind, as it was settled. -/
def runOf (kind : DockerCommand → Bool) : RunnerExchange → Option (CommandOptions × Reaction)
  | ⟨.command c o, r⟩ => if kind c then some (o, r) else none
  | _ => none

/-- The commands of some kind, in order. -/
def runsOf (kind : DockerCommand → Bool) (trace : List RunnerExchange) :
    List (CommandOptions × Reaction) :=
  trace.filterMap (runOf kind)

/-- The runs of the learner's program. -/
def programRuns : List RunnerExchange → List (CommandOptions × Reaction) :=
  runsOf DockerCommand.isProgram

/-- The runs of the compiler. -/
def javacRuns : List RunnerExchange → List (CommandOptions × Reaction) :=
  runsOf DockerCommand.isJavac

/-- The verdict that a command of the supervisor leads to when it exceeds a
    limit of its own. -/
def blames : RunnerExchange → Option ObservedFailure
  | ⟨.snapshot _, .error e⟩ => limitOf e
  | ⟨.command (.inspectState _) _, r⟩ =>
      match r.outcome with
      | .error code => limitOf (.docker code)
      | .ok _ => none
  | _ => none

theorem programRuns_append (first rest : List RunnerExchange) :
    programRuns (first ++ rest) = programRuns first ++ programRuns rest :=
  List.filterMap_append

theorem javacRuns_append (first rest : List RunnerExchange) :
    javacRuns (first ++ rest) = javacRuns first ++ javacRuns rest :=
  List.filterMap_append

/-- Upkeep runs nothing of the learner. -/
theorem runsOf_of_upkeep (hkind : ∀ c o, kind c = true → (Query.command c o).isUpkeep = false)
    (h : ∀ x ∈ trace, x.1.isUpkeep = true) : runsOf kind trace = [] := by
  rw [runsOf, List.filterMap_eq_nil_iff]
  intro x hx
  obtain ⟨q, a⟩ := x
  cases q with
  | command c o =>
      refine if_neg fun hc => ?_
      exact Bool.false_ne_true ((hkind c o hc).symm.trans (h _ hx))
  | now | aborted | name | snapshot => rfl

theorem mem_of_runsOf (h : run ∈ runsOf kind trace) :
    ∃ c, kind c = true ∧ (⟨.command c run.1, run.2⟩ : RunnerExchange) ∈ trace := by
  obtain ⟨⟨q, a⟩, hx, hrun⟩ := List.mem_filterMap.1 h
  cases q with
  | command c o =>
      simp only [runOf] at hrun
      split at hrun
      · next hkind =>
          cases hrun
          exact ⟨c, hkind, hx⟩
      · cases hrun
  | now | aborted | name | snapshot => cases hrun

theorem programRuns_of_upkeep (h : ∀ x ∈ trace, x.1.isUpkeep = true) : programRuns trace = [] := by
  refine runsOf_of_upkeep (fun c o hc => ?_) h
  cases c <;> first | rfl | cases hc

theorem javacRuns_of_upkeep (h : ∀ x ∈ trace, x.1.isUpkeep = true) : javacRuns trace = [] := by
  refine runsOf_of_upkeep (fun c o hc => ?_) h
  cases c <;> first | rfl | cases hc

theorem sublist_between : work.Sublist (before ++ work ++ after) :=
  (List.sublist_append_right before work).trans (List.sublist_append_left _ after)

theorem programRuns_between (h : ∀ x ∈ before ++ after, x.1.isUpkeep = true) :
    programRuns (before ++ work ++ after) = programRuns work := by
  have hbefore := programRuns_of_upkeep fun x hx => h x (List.mem_append_left _ hx)
  have hafter := programRuns_of_upkeep fun x hx => h x (List.mem_append_right _ hx)
  rw [programRuns_append, programRuns_append, hbefore, hafter, List.nil_append, List.append_nil]

theorem programRuns_next (rest : List RunnerExchange)
    (h : ∀ x ∈ before ++ after, x.1.isUpkeep = true) (hwork : programRuns work = [run]) :
    programRuns (before ++ work ++ after ++ rest) = run :: programRuns rest := by
  rw [programRuns_append, programRuns_between h, hwork]
  rfl

/-! ### A case -/

/-- The options the program is run with. -/
def programOptions (request : SandboxRequest) (deadline : Int) (test : SandboxCase) (budget : Int)
    (present : Nat) : CommandOptions where
  input := encode test.input
  signal := true
  timeoutMs := max 1 (min request.timeMs (deadline - present))
  maxBytes := budget
  allowFailure := true

/-- The observation of an exceeded limit. -/
def limitHit (test : SandboxCase) (started ended : Nat) (failure : ObservedFailure) :
    CaseObservation where
  caseId := test.id
  failure := some failure
  wallMs := ended - started

/-- What an exceeded limit leaves of the budget. -/
def budgetAfter (failure : ObservedFailure) (budget : Int) : Int :=
  if failure = .outputLimitExceeded then 0 else budget

/-- The observation of a program that ended. -/
structure Shows (lib : Library) (test : SandboxCase) (result : CommandResult)
    (trace : List RunnerExchange) (c : CaseObservation) : Prop where
  caseId : c.caseId = test.id
  stdout : c.stdout = lib.decode result.stdout
  stderr : c.stderr = lib.decode result.stderr
  exitCode : c.exitCode = some result.exitCode
  failure : c.failure = none ∨ c.failure = some .memoryLimitExceeded
  metrics : (c.cpuMs = none ∧ c.memoryKiB = none) ∨ ∃ name before after m,
    (⟨.snapshot name, .ok before⟩ : RunnerExchange) ∈ trace ∧
    (⟨.snapshot name, .ok after⟩ : RunnerExchange) ∈ trace ∧
    metricDelta before after = .ok m ∧ c.cpuMs = some m.cpuMs ∧ c.memoryKiB = some m.memoryKiB

theorem Shows.mono {test : SandboxCase} {result : CommandResult} {trace' : List RunnerExchange}
    {c : CaseObservation} (h : Shows lib test result trace c) (hsub : ∀ x ∈ trace, x ∈ trace') :
    Shows lib test result trace' c := by
  refine { h with metrics := h.metrics.imp_right ?_ }
  rintro ⟨name, before, after, m, hbefore, hafter, hm⟩
  exact ⟨name, before, after, m, hsub _ hbefore, hsub _ hafter, hm⟩

/-- The wall time lies between two readings of the clock. -/
def Timed (trace : List RunnerExchange) (c : CaseObservation) : Prop :=
  ∃ started ended : Nat, c.wallMs = ended - started ∧
    List.Sublist [⟨.now, started⟩, ⟨.now, ended⟩] trace

/-- How a case was observed, and the budget it leaves. -/
inductive CaseRun (lib : Library) (request : SandboxRequest) (deadline : Int) (test : SandboxCase)
    (budget : Int) (trace : List RunnerExchange) : CaseObservation → Int → Prop where
  /-- The program ended. -/
  | ended (present : Nat) (r : Reaction) (result : CommandResult) (c : CaseObservation)
      (run : programRuns trace = [(programOptions request deadline test budget present, r)])
      (outcome : r.outcome = .ok result) (shows : Shows lib test result trace c) :
      CaseRun lib request deadline test budget trace c (budget - result.size)
  /-- The program exceeded a limit. -/
  | exceeded (present : Nat) (r : Reaction) (code : DockerCode) (failure : ObservedFailure)
      (started ended : Nat)
      (run : programRuns trace = [(programOptions request deadline test budget present, r)])
      (outcome : r.outcome = .error code) (limit : limitOf (.docker code) = some failure) :
      CaseRun lib request deadline test budget trace (limitHit test started ended failure)
        (budgetAfter failure budget)
  /-- A metric snapshot exceeded a limit, and the program was not started. -/
  | unstarted (x : RunnerExchange) (failure : ObservedFailure) (started ended : Nat)
      (run : programRuns trace = []) (mem : x ∈ trace) (blame : blames x = some failure) :
      CaseRun lib request deadline test budget trace (limitHit test started ended failure)
        (budgetAfter failure budget)
  /-- The program ended, and then a command of the supervisor exceeded a limit. -/
  | unmeasured (present : Nat) (r : Reaction) (result : CommandResult) (x : RunnerExchange)
      (failure : ObservedFailure) (started ended : Nat)
      (run : programRuns trace = [(programOptions request deadline test budget present, r)])
      (outcome : r.outcome = .ok result) (mem : x ∈ trace) (blame : blames x = some failure) :
      CaseRun lib request deadline test budget trace (limitHit test started ended failure)
        (budgetAfter failure (budget - result.size))

section Case

variable {lib : Library} {request : SandboxRequest} {deadline : Int} {test : SandboxCase}
  {name : Uuid} {trace : List RunnerExchange} {before : CgroupSnapshot} {e : RunnerError}
  {started : Nat} {p p' : Progress}

theorem plays_runProgram {budget : Int}
    {result : Except RunnerError (CgroupSnapshot × CommandResult)}
    (h : Plays (runProgram request deadline test budget name) trace result) :
    (∃ e, trace = [⟨.snapshot name, .error e⟩] ∧ result = .error e) ∨
    ∃ before present r, trace = [⟨.snapshot name, .ok before⟩, ⟨.now, present⟩,
        ⟨.command (.program name request.language)
          (programOptions request deadline test budget present), r⟩] ∧
      ((∃ code, r.outcome = .error code ∧ result = .error (.docker code)) ∨
        ∃ x, r.outcome = .ok x ∧ result = .ok (before, x)) := by
  rcases plays_bind.1 h with ⟨e, hbefore, rfl⟩ | ⟨_, rest, before, rfl, hbefore, hfrom⟩
  · exact .inl ⟨e, plays_snapshot.1 hbefore, rfl⟩
  · rw [plays_snapshot.1 hbefore]
    obtain ⟨present, rest, rfl, hcommand⟩ := plays_now_bind.1 hfrom
    rcases plays_bind.1 hcommand with ⟨e, hran, rfl⟩ | ⟨_, _, x, rfl, hran, hend⟩
    · obtain ⟨r, rfl, he⟩ := plays_command.1 hran
      refine .inr ⟨before, present, r, rfl, .inl ?_⟩
      cases hr : r.outcome with
      | error code => rw [hr] at he; cases he; exact ⟨code, rfl, rfl⟩
      | ok x => rw [hr] at he; cases he
    · obtain ⟨r, rfl, hr⟩ := plays_command_ok.1 hran
      obtain ⟨rfl, rfl⟩ := plays_pure.1 hend
      exact .inr ⟨before, present, r, rfl, .inr ⟨x, hr, rfl⟩⟩

/-- A second snapshot gives metrics, or an exception with the snapshot's own
    limits. -/
theorem plays_measure {result : Except RunnerError Measured}
    (h : Plays (measure before name) trace result) :
    (∃ after m, trace = [⟨.snapshot name, .ok after⟩] ∧ metricDelta before after = .ok m ∧
      result = .ok m) ∨
    ∃ answer e, trace = [⟨.snapshot name, answer⟩] ∧ result = .error e ∧
      ∀ failure, limitOf e = some failure → blames ⟨.snapshot name, answer⟩ = some failure := by
  rcases plays_bind.1 h with ⟨e, hafter, rfl⟩ | ⟨_, _, after, rfl, hafter, hdelta⟩
  · exact .inr ⟨_, e, plays_snapshot.1 hafter, rfl, fun _ hlimit => hlimit⟩
  · obtain ⟨rfl, rfl⟩ := plays_done.1 hdelta
    rw [plays_snapshot.1 hafter, List.append_nil]
    cases hm : metricDelta before after with
    | ok m => exact .inl ⟨after, m, rfl, hm, rfl⟩
    | error e =>
        refine .inr ⟨_, e, rfl, rfl, fun failure hlimit => ?_⟩
        unfold metricDelta at hm
        split at hm
        · cases hm; cases hlimit
        · split at hm
          · cases hm; cases hlimit
          · cases hm

theorem limitOf_containerStateOf {stdout : Bytes} (h : containerStateOf lib stdout = .error e) :
    limitOf e = none := by
  unfold containerStateOf at h
  cases hjson : parseOutput lib stdout with
  | error e' =>
      rw [hjson] at h
      cases h
      unfold parseOutput at hjson
      split at hjson <;> cases hjson
      rfl
  | ok json =>
      simp only [hjson, Except.bind, Bind.bind] at h
      repeat' split at h
      all_goals cases h <;> rfl

/-- The state query, and the limits of its own it can exceed. -/
theorem plays_containerState {result : Except RunnerError ContainerState}
    (h : Plays (containerState lib name) trace result) :
    ∃ r, trace = [⟨.command (.inspectState name) {}, r⟩] ∧ ∀ e failure, result = .error e →
      limitOf e = some failure → blames ⟨.command (.inspectState name) {}, r⟩ = some failure := by
  rcases plays_bind.1 h with ⟨e, hstate, rfl⟩ | ⟨_, _, x, rfl, hstate, hend⟩
  · obtain ⟨r, rfl, he⟩ := plays_command.1 hstate
    refine ⟨r, rfl, fun e' failure he' hlimit => ?_⟩
    cases he'
    cases hr : r.outcome with
    | ok x => rw [hr] at he; cases he
    | error code =>
        rw [hr] at he
        cases he
        simp only [blames, hr]
        exact hlimit
  · obtain ⟨r, rfl, _⟩ := plays_command_ok.1 hstate
    obtain ⟨rfl, rfl⟩ := plays_done.1 hend
    refine ⟨r, rfl, fun e failure he hlimit => ?_⟩
    rw [limitOf_containerStateOf he] at hlimit
    cases hlimit

/-- The observation of a program that ended, and the limits it can exceed. -/
theorem plays_observe {r : CommandResult} {result : Except RunnerError CaseObservation}
    (h : Plays (observe lib test started before r name) trace result) :
    programRuns trace = [] ∧
    (∀ c, result = .ok c → Shows lib test r (⟨.snapshot name, .ok before⟩ :: trace) c ∧
      ∃ ended : Nat, c.wallMs = ended - started ∧ (⟨.now, ended⟩ : RunnerExchange) ∈ trace) ∧
    ∀ e failure, result = .error e → limitOf e = some failure →
      ∃ x ∈ trace, blames x = some failure := by
  obtain ⟨first, rest, measured, rfl, hmeasure, hfrom⟩ := plays_attempt_bind.1 h
  rcases plays_measure hmeasure with ⟨after, m, rfl, hm, rfl⟩ | ⟨answer, e, rfl, rfl, hblames⟩
  · obtain ⟨ended, _, rfl, hend⟩ := plays_now_bind.1 hfrom
    obtain ⟨rfl, rfl⟩ := plays_pure.1 hend
    refine ⟨rfl, fun c hc => ?_, fun _ _ he => by cases he⟩
    cases hc
    refine ⟨⟨rfl, rfl, rfl, rfl, ?_, .inr ⟨name, before, after, m, by simp, by simp, hm, rfl,
      rfl⟩⟩, ended, rfl, by simp⟩
    cases m.oomKilled with
    | true => exact .inr rfl
    | false => exact .inl rfl
  · rcases plays_bind.1 hfrom with ⟨e', hstate, rfl⟩ | ⟨_, rest, state, rfl, hstate, hend⟩
    · obtain ⟨q, rfl, hq⟩ := plays_containerState hstate
      refine ⟨rfl, fun _ hc => (by cases hc), fun e'' failure he hlimit => ?_⟩
      cases he
      exact ⟨_, by simp, hq e' failure rfl hlimit⟩
    · obtain ⟨q, rfl, _⟩ := plays_containerState hstate
      split at hend
      · -- The container runs, so the exception of the snapshot counts.
        obtain ⟨rfl, rfl⟩ := plays_raise.1 hend
        refine ⟨rfl, fun _ hc => (by cases hc), fun e'' failure he hlimit => ?_⟩
        cases he
        exact ⟨_, by simp, hblames failure hlimit⟩
      · obtain ⟨ended, _, rfl, hend'⟩ := plays_now_bind.1 hend
        obtain ⟨rfl, rfl⟩ := plays_pure.1 hend'
        refine ⟨rfl, fun c hc => ?_, fun _ _ he => by cases he⟩
        cases hc
        refine ⟨⟨rfl, rfl, rfl, rfl, ?_, .inl ⟨rfl, rfl⟩⟩, ended, rfl, by simp⟩
        split
        · exact .inr rfl
        · exact .inl rfl

/-- The handler observes exceeded limits only. -/
theorem plays_caught (h : Plays (caught test started p e) trace (.ok p')) :
    ∃ failure ended, limitOf e = some failure ∧ trace = [⟨.now, ended⟩] ∧
      p' = ⟨p.cases ++ [limitHit test started ended failure], budgetAfter failure p.budget⟩ := by
  unfold caught at h
  split at h
  · obtain ⟨ended, _, rfl, hend⟩ := plays_now_bind.1 h
    obtain ⟨rfl, hp⟩ := plays_pure.1 hend
    cases hp
    exact ⟨.timeLimitExceeded, ended, rfl, rfl, rfl⟩
  · obtain ⟨ended, _, rfl, hend⟩ := plays_now_bind.1 h
    obtain ⟨rfl, hp⟩ := plays_pure.1 hend
    cases hp
    exact ⟨.outputLimitExceeded, ended, rfl, rfl, rfl⟩
  · cases (plays_raise.1 h).2

/-- A case that ends with a value was observed in one of four ways. -/
theorem plays_runCase (h : Plays (runCase lib request deadline test p name) trace (.ok p')) :
    ∃ c, p'.cases = p.cases ++ [c] ∧ Timed trace c ∧
      CaseRun lib request deadline test p.budget trace c p'.budget := by
  obtain ⟨files, rest, _, rfl, hfiles, hfrom⟩ := plays_bind_ok.1 h
  have hnone := programRuns_of_upkeep ((upkeep_unpackFiles test name).plays hfiles)
  obtain ⟨started, rest, rfl, hran⟩ := plays_now_bind.1 hfrom
  have hruns : ∀ later, programRuns (files ++ ⟨.now, started⟩ :: later) = programRuns later := by
    intro later
    rw [programRuns_append, hnone]
    rfl
  have hclock : ∀ (ended : Nat) (later : List RunnerExchange), ⟨.now, ended⟩ ∈ later →
      List.Sublist [⟨.now, started⟩, ⟨.now, ended⟩] (files ++ ⟨.now, started⟩ :: later) :=
    fun _ _ hmem => (List.Sublist.cons_cons _ (List.singleton_sublist.2 hmem)).trans
      (List.sublist_append_right _ _)
  obtain ⟨program, rest, ran, rfl, hprogram, hfrom⟩ := plays_attempt_bind.1 hran
  rcases plays_runProgram hprogram with ⟨e, rfl, rfl⟩ |
    ⟨before, present, r, rfl, ⟨code, hr, rfl⟩ | ⟨x, hr, rfl⟩⟩
  · -- The first snapshot failed.
    obtain ⟨failure, ended, hlimit, rfl, rfl⟩ := plays_caught hfrom
    exact ⟨_, rfl, ⟨started, ended, rfl, hclock _ _ (by simp)⟩,
      .unstarted ⟨.snapshot name, .error e⟩ failure started ended (hruns _) (by simp) hlimit⟩
  · -- The program was stopped.
    obtain ⟨failure, ended, hlimit, rfl, rfl⟩ := plays_caught hfrom
    exact ⟨_, rfl, ⟨started, ended, rfl, hclock _ _ (by simp)⟩,
      .exceeded present r code failure started ended (hruns _) hr hlimit⟩
  · obtain ⟨observing, rest, observed, rfl, hobserve, hend⟩ := plays_attempt_bind.1 hfrom
    obtain ⟨hquiet, hshows, hblames⟩ := plays_observe hobserve
    cases observed with
    | error e =>
        obtain ⟨failure, ended, hlimit, rfl, rfl⟩ := plays_caught hend
        obtain ⟨y, hy, hblame⟩ := hblames e failure rfl hlimit
        refine ⟨_, rfl, ⟨started, ended, rfl, hclock _ _ (by simp)⟩,
          .unmeasured present r x y failure started ended ?_ hr (by simp [hy]) hblame⟩
        rw [hruns, programRuns_append, programRuns_append, hquiet]
        rfl
    | ok c =>
        obtain ⟨hshow, ended, hwall, hended⟩ := hshows c rfl
        obtain ⟨rfl, hp⟩ := plays_pure.1 hend
        cases hp
        refine ⟨c, rfl, ⟨started, ended, hwall, hclock _ _ (by simp [hended])⟩,
          .ended present r x c ?_ hr (hshow.mono fun y hy => ?_)⟩
        · rw [hruns, programRuns_append, programRuns_append, hquiet]
          rfl
        · rcases List.mem_cons.1 hy with rfl | hy
          · simp
          · simp [hy]

end Case

/-! ### The loop -/

/-- The cases of a request, observed in order with a budget. -/
inductive CaseRuns (lib : Library) (request : SandboxRequest) (deadline : Int) :
    List SandboxCase → Int → List RunnerExchange → List CaseObservation → Int → Prop where
  | nil (budget : Int) : CaseRuns lib request deadline [] budget [] [] budget
  /-- Nothing may be printed any more. -/
  | spent (test : SandboxCase) (tests : List SandboxCase) (budget : Int)
      (trace : List RunnerExchange) (upkeep : ∀ x ∈ trace, x.1.isUpkeep = true)
      (empty : budget ≤ 0) :
      CaseRuns lib request deadline (test :: tests) budget trace
        [{ caseId := test.id, failure := some .outputLimitExceeded }] budget
  /-- A failure ends the loop. -/
  | last (test : SandboxCase) (tests : List SandboxCase) (budget left : Int)
      (before work after : List RunnerExchange) (c : CaseObservation)
      (upkeep : ∀ x ∈ before ++ after, x.1.isUpkeep = true) (within : 0 < budget)
      (timed : Timed work c) (run : CaseRun lib request deadline test budget work c left)
      (failed : c.failure ≠ none) :
      CaseRuns lib request deadline (test :: tests) budget (before ++ work ++ after) [c] left
  | next (test : SandboxCase) (tests : List SandboxCase) (budget left final : Int)
      (before work after rest : List RunnerExchange) (c : CaseObservation)
      (cases : List CaseObservation)
      (upkeep : ∀ x ∈ before ++ after, x.1.isUpkeep = true) (within : 0 < budget)
      (timed : Timed work c) (run : CaseRun lib request deadline test budget work c left)
      (passed : c.failure = none) (more : CaseRuns lib request deadline tests left rest cases final) :
      CaseRuns lib request deadline (test :: tests) budget (before ++ work ++ after ++ rest)
        (c :: cases) final

/-- A loop that ends with a value went through its cases in order. -/
theorem plays_runCases {request : SandboxRequest} {deadline : Int} {archive : Bytes}
    {tests : List SandboxCase} :
    ∀ {p p' : Progress} {trace : List RunnerExchange},
      Plays (runCases lib request deadline archive tests p) trace (.ok p') →
      ∃ cases, p'.cases = p.cases ++ cases ∧
        CaseRuns lib request deadline tests p.budget trace cases p'.budget := by
  induction tests with
  | nil =>
      intro p p' trace h
      obtain ⟨rfl, hp⟩ := plays_pure.1 h
      cases hp
      exact ⟨[], (List.append_nil _).symm, .nil _⟩
  | cons test tests ih =>
      intro p p' trace h
      obtain ⟨first, rest, _, rfl, hfirst, hfrom⟩ := plays_bind_ok.1 h
      have hupkeep := upkeep_throwIfAborted.plays hfirst
      split at hfrom
      · next hempty =>
          obtain ⟨rfl, hp⟩ := plays_pure.1 hfrom
          cases hp
          rw [List.append_nil]
          exact ⟨_, rfl, .spent test tests p.budget first hupkeep hempty⟩
      · next hbudget =>
          obtain ⟨container, rest, q, rfl, hcontainer, hend⟩ := plays_bind_ok.1 hfrom
          obtain ⟨name, before, work, after, rfl, hbefore, hafter, hwork⟩ :=
            plays_sandbox_ok hcontainer
          obtain ⟨c, hcases, htimed, hrun⟩ := plays_runCase hwork
          have haround : ∀ x ∈ first ++ before ++ after, x.1.isUpkeep = true := by
            intro x hx
            rcases List.mem_append.1 hx with hx | hx
            · exact (List.mem_append.1 hx).elim (hupkeep x) (hbefore x)
            · exact hafter x hx
          rw [hcases, List.getLast?_append_of_ne_nil _ (List.cons_ne_nil _ _)] at hend
          split at hend
          · next hfailed =>
              obtain ⟨rfl, hp⟩ := plays_pure.1 hend
              cases hp
              refine ⟨[c], hcases, ?_⟩
              rw [List.append_nil, ← List.append_assoc, ← List.append_assoc]
              exact .last test tests p.budget _ (first ++ before) work after c haround
                (not_le.1 hbudget) htimed hrun (Option.isSome_iff_ne_none.1 hfailed)
          · next hpassed =>
              obtain ⟨cases, hmore, hruns⟩ := ih hend
              refine ⟨c :: cases, by rw [hmore, hcases, List.append_assoc]; rfl, ?_⟩
              rw [← List.append_assoc, ← List.append_assoc, ← List.append_assoc]
              exact .next test tests p.budget _ _ (first ++ before) work after rest c cases haround
                (not_le.1 hbudget) htimed hrun (by simpa using hpassed) hruns

section Runs

variable {lib : Library} {request : SandboxRequest} {deadline budget left : Int}
  {tests : List SandboxCase} {test : SandboxCase} {trace : List RunnerExchange}
  {cases : List CaseObservation} {c : CaseObservation}

theorem CaseRun.caseId (h : CaseRun lib request deadline test budget trace c left) :
    c.caseId = test.id := by
  cases h with
  | ended _ _ _ _ _ _ hshows => exact hshows.caseId
  | exceeded | unstarted | unmeasured => rfl

/-- A case without failure is one whose program ended. -/
theorem CaseRun.of_passed (h : CaseRun lib request deadline test budget trace c left)
    (hpassed : c.failure = none) :
    ∃ present r result, programRuns trace
        = [(programOptions request deadline test budget present, r)] ∧
      r.outcome = .ok result ∧ Shows lib test result trace c ∧ left = budget - result.size := by
  cases h with
  | ended present r result _ hrun houtcome hshows =>
      exact ⟨present, r, result, hrun, houtcome, hshows, rfl⟩
  | exceeded | unstarted | unmeasured => cases hpassed

/-- Behind every observed case is its run, and its program is the one at the
    same place in the trace. -/
theorem CaseRuns.case_of (h : CaseRuns lib request deadline tests budget trace cases left) :
    ∀ {i : Nat} {c : CaseObservation}, cases[i]? = some c →
      ∃ test, tests[i]? = some test ∧
        ((c = { caseId := test.id, failure := some .outputLimitExceeded } ∧
            (programRuns trace)[i]? = none) ∨
          ∃ budget left work, work.Sublist trace ∧
            (programRuns trace)[i]? = (programRuns work).head? ∧ Timed work c ∧
            CaseRun lib request deadline test budget work c left) := by
  induction h with
  | nil => intro i c hc; cases hc
  | spent test tests budget trace hupkeep =>
      intro i c hc
      cases i with
      | zero =>
          cases hc
          exact ⟨test, rfl, .inl ⟨rfl, by rw [programRuns_of_upkeep hupkeep]; rfl⟩⟩
      | succ i => cases hc
  | last test tests budget left before work after c' hupkeep _ htimed hrun =>
      intro i c hc
      cases i with
      | zero =>
          cases hc
          refine ⟨test, rfl, .inr ⟨budget, left, work, sublist_between, ?_, htimed, hrun⟩⟩
          rw [programRuns_between hupkeep, List.head?_eq_getElem?]
      | succ i => cases hc
  | next test tests budget left final before work after rest c' cases hupkeep _ htimed hrun hpassed
      _ ih =>
      intro i c hc
      obtain ⟨present, r, result, hruns, _⟩ := hrun.of_passed hpassed
      have hall := programRuns_next rest hupkeep hruns
      cases i with
      | zero =>
          cases hc
          refine ⟨test, rfl, .inr ⟨budget, left, work,
            sublist_between.trans (List.sublist_append_left _ rest), ?_, htimed, hrun⟩⟩
          rw [hall, hruns]
          rfl
      | succ i =>
          obtain ⟨test', htest, hcase⟩ := ih hc
          refine ⟨test', htest, ?_⟩
          rw [hall, List.getElem?_cons_succ]
          refine hcase.imp_right ?_
          rintro ⟨budget', left', work', hsub, hmore⟩
          exact ⟨budget', left', work', hsub.trans (List.sublist_append_right _ rest), hmore⟩

end Runs

/-! ### Requests -/

/-- The compiler's part of an observation. -/
def compilationOf (lib : Library) (result : CommandResult) : Compilation where
  ok := result.exitCode == 0
  stdout := lib.decode result.stdout
  stderr := lib.decode result.stderr

/-- How a request was observed, and the budget that is left at its end. -/
inductive Performed (lib : Library) (request : SandboxRequest) :
    List RunnerExchange → ExecutionObservation → Int → Prop where
  /-- Nothing is compiled. -/
  | interpreted (deadline left : Int) (first rest : List RunnerExchange)
      (cases : List CaseObservation) (language : request.language ≠ .java)
      (quiet : programRuns first = [])
      (runs : CaseRuns lib request deadline request.cases Caps.outputBytes rest cases left) :
      Performed lib request (first ++ rest) { cases := cases } left
  /-- The compiler refused the program. -/
  | refused (trace : List RunnerExchange) (o : CommandOptions) (r : Reaction)
      (result : CommandResult) (language : request.language = .java)
      (quiet : programRuns trace = []) (javac : javacRuns trace = [(o, r)])
      (limit : o.maxBytes = Caps.outputBytes) (outcome : r.outcome = .ok result)
      (failed : result.exitCode ≠ 0) :
      Performed lib request trace { compilation := some (compilationOf lib result) }
        (Caps.outputBytes - result.size)
  /-- The compiler's output was run. -/
  | compiled (deadline left : Int) (first rest : List RunnerExchange) (o : CommandOptions)
      (r : Reaction) (result : CommandResult) (cases : List CaseObservation)
      (language : request.language = .java)
      (quiet : programRuns first = []) (javac : javacRuns first = [(o, r)])
      (limit : o.maxBytes = Caps.outputBytes) (outcome : r.outcome = .ok result)
      (passed : result.exitCode = 0)
      (runs : CaseRuns lib request deadline request.cases (Caps.outputBytes - result.size) rest
        cases left) :
      Performed lib request (first ++ rest)
        { compilation := some (compilationOf lib result), cases := cases } left

section Requests

variable {lib : Library} {trace : List RunnerExchange} {observation : ExecutionObservation}

/-- A compiler that ends with a value was run once. -/
theorem plays_compile {deadline : Int} {name : Uuid} {compiled : Compiled}
    (h : Plays (compile lib deadline name) trace (.ok compiled)) :
    ∃ (o : CommandOptions) (r : Reaction) (result : CommandResult),
      programRuns trace = [] ∧ javacRuns trace = [(o, r)] ∧ o.maxBytes = Caps.outputBytes ∧
      r.outcome = .ok result ∧ compiled.compilation = compilationOf lib result ∧
      compiled.budget = Caps.outputBytes - result.size := by
  obtain ⟨_, rest, _, rfl, hmake, hfrom⟩ := plays_bind_ok.1 h
  obtain ⟨_, rfl, _⟩ := plays_command_ok.1 hmake
  obtain ⟨present, rest, rfl, hjavac⟩ := plays_now_bind.1 hfrom
  obtain ⟨_, rest, result, rfl, hresult, hend⟩ := plays_bind_ok.1 hjavac
  obtain ⟨r, rfl, hr⟩ := plays_command_ok.1 hresult
  dsimp only at hend
  split at hend
  · obtain ⟨_, rest, packed, rfl, hpack, hpacked⟩ := plays_bind_ok.1 hend
    obtain ⟨_, rfl, _⟩ := plays_command_ok.1 hpack
    obtain ⟨_, _, archive, rfl, harchive, hdone⟩ := plays_bind_ok.1 hpacked
    obtain ⟨rfl, _⟩ := plays_done.1 harchive
    obtain ⟨rfl, hc⟩ := plays_pure.1 hdone
    cases hc
    exact ⟨_, r, result, rfl, rfl, rfl, hr, rfl, rfl⟩
  · obtain ⟨rfl, hc⟩ := plays_pure.1 hend
    cases hc
    exact ⟨_, r, result, rfl, rfl, rfl, hr, rfl, rfl⟩

theorem plays_perform {request : SandboxRequest} {left : Int}
    (h : Plays (perform lib request) trace (.ok (observation, left))) :
    Performed lib request trace observation left := by
  obtain ⟨start, rest, rfl, hfrom⟩ := plays_now_bind.1 h
  obtain ⟨_, rest, archive, rfl, hpack, hgo⟩ := plays_bind_ok.1 hfrom
  obtain ⟨rfl, _⟩ := plays_done.1 hpack
  rw [List.nil_append]
  split at hgo
  · next hjava =>
      obtain ⟨container, rest, compiled, rfl, hcontainer, hran⟩ := plays_bind_ok.1 hgo
      obtain ⟨name, before, work, after, rfl, hbefore, hafter, hwork⟩ :=
        plays_sandbox_ok hcontainer
      obtain ⟨o, r, result, hquiet, hjavac, hlimit, hr, hcompilation, hbudget⟩ :=
        plays_compile hwork
      have hfirst : programRuns (⟨.now, start⟩ :: (before ++ work ++ after)) = [] := by
        change programRuns (before ++ work ++ after) = []
        rw [programRuns_append, programRuns_append, programRuns_of_upkeep hbefore, hquiet,
          programRuns_of_upkeep hafter]
        rfl
      have hruns : javacRuns (⟨.now, start⟩ :: (before ++ work ++ after)) = [(o, r)] := by
        change javacRuns (before ++ work ++ after) = [(o, r)]
        rw [javacRuns_append, javacRuns_append, javacRuns_of_upkeep hbefore, hjavac,
          javacRuns_of_upkeep hafter]
        rfl
      split at hran
      · next hfailed =>
          obtain ⟨rfl, hp⟩ := plays_pure.1 hran
          cases hp
          rw [List.append_nil, hcompilation, hbudget]
          refine .refused _ o r result hjava hfirst hruns hlimit hr ?_
          simpa [hcompilation, compilationOf] using hfailed
      · next hpassed =>
          obtain ⟨_, _, p, rfl, hcases, hend⟩ := plays_bind_ok.1 hran
          obtain ⟨rfl, hp⟩ := plays_pure.1 hend
          cases hp
          obtain ⟨cases, hcs, hall⟩ := plays_runCases hcases
          rw [hbudget] at hall
          rw [List.append_nil, hcompilation, hcs]
          refine .compiled (start + Caps.totalMs) _ _ _ o r result cases hjava hfirst hruns hlimit
            hr ?_ hall
          simpa [hcompilation, compilationOf] using hpassed
  · next hlanguage =>
      obtain ⟨_, _, p, rfl, hcases, hend⟩ := plays_bind_ok.1 hgo
      obtain ⟨rfl, hp⟩ := plays_pure.1 hend
      cases hp
      obtain ⟨cases, hcs, hall⟩ := plays_runCases hcases
      rw [List.append_nil, hcs]
      exact .interpreted (start + Caps.totalMs) _ [⟨.now, start⟩] _ cases hlanguage rfl hall

/-- A request that is answered was performed. -/
theorem plays_execute {supervisor : SandboxSupervisor} {request : AcceptedRequest}
    (h : Plays (supervisor.execute lib request) trace (.ok observation)) :
    ∃ left, Plays (perform lib request.toSandboxRequest) trace (.ok (observation, left)) := by
  unfold SandboxSupervisor.execute at h
  split at h
  · cases (plays_raise.1 h).2
  · split at h
    · cases (plays_raise.1 h).2
    · split at h
      · cases (plays_raise.1 h).2
      · obtain ⟨_, _, finished, rfl, hperform, hend⟩ := plays_bind_ok.1 h
        obtain ⟨rfl, ho⟩ := plays_pure.1 hend
        cases ho
        rw [List.append_nil]
        exact ⟨finished.2, hperform⟩

end Requests

end ArenaCore
