import ArenaCore.Runner.Cases

/-!
# Verdicts and Their Causes

When a case is reported to have exceeded a limit, whose doing was it? The
handler around a case sees exceptions of docker only, and the metric snapshots
and the state query around the program throw the same ones. The time a program
gets is also cut short by the deadline of the whole request.

So a verdict says what it seems to say in every run in which none of the
supervisor's own commands inside the handler exceeds a limit and every program
is given its whole time (`Fair`), and not in others (`snapshot_timeout_blamed`).
Exit codes are those of the program in any case.

## Main definitions

* `learnerBytes`: What the compiler and the program printed.
* `Fair`: No one else can be blamed.

## Theorems

* `CaseRuns.output_deserved`: An exceeded output limit was exceeded.
* `verdicts_deserved`: The verdicts of fair runs, and the exit codes of all.
* `snapshot_timeout_blamed`: A verdict on a program that was never started.
-/

namespace ArenaCore

open Dialogue Runner

/-- The bytes some commands wrote. -/
def producedBytes (runs : List (CommandOptions × Reaction)) : Nat :=
  (runs.map fun run => run.2.produced).sum

/-- The bytes the compiler and the program wrote. -/
def learnerBytes (trace : List RunnerExchange) : Nat :=
  producedBytes (javacRuns trace) + producedBytes (programRuns trace)

/-- A program that is stopped had its whole time, and no command of the supervisor exceeds
    a limit where the handler would take it for the program. -/
structure Fair (request : SandboxRequest) (trace : List RunnerExchange) : Prop where
  unhurried : ∀ run ∈ programRuns trace, run.2.outcome = .error .commandTimeout →
    request.timeMs ≤ run.1.timeoutMs
  blameless : ∀ x ∈ trace, blames x = none

section Runs

variable {lib : Library} {request : SandboxRequest} {deadline budget left : Int}
  {tests : List SandboxCase} {test : SandboxCase} {trace : List RunnerExchange}
  {cases : List CaseObservation} {c : CaseObservation} {code : DockerCode}

theorem Honest.runsOf {kind : DockerCommand → Bool} (h : Honest trace)
    {run : CommandOptions × Reaction} (hrun : run ∈ runsOf kind trace) : Settles run.1 run.2 := by
  obtain ⟨c, _, hmem⟩ := mem_of_runsOf hrun
  exact h c run.1 run.2 hmem

theorem limitOf_timeLimit (h : limitOf (.docker code) = some .timeLimitExceeded) :
    code = .commandTimeout := by
  cases code <;> first | rfl | cases h

theorem limitOf_outputLimit (h : limitOf (.docker code) = some .outputLimitExceeded) :
    code = .outputLimit := by
  cases code <;> first | rfl | cases h

/-- An output limit that was exceeded in one of the cases was exceeded by the
    programs, together with what was printed before them. -/
theorem CaseRuns.output_deserved
    (h : CaseRuns lib request deadline tests budget trace cases left) :
    Honest trace → (∀ x ∈ trace, blames x = none) → ∀ past : Nat,
      (Caps.outputBytes : Int) ≤ past + budget → ∀ c ∈ cases,
      c.failure = some .outputLimitExceeded →
      Caps.outputBytes ≤ past + producedBytes (programRuns trace) := by
  induction h with
  | nil => intro _ _ past _ c hc; cases hc
  | spent test tests budget trace _ hempty =>
      intro _ _ past hpast c _ _
      omega
  | last test tests budget left before work after c' hupkeep _ _ hrun =>
      intro hhonest hblameless past hpast c hc hfailure
      cases List.mem_singleton.1 hc
      rw [programRuns_between hupkeep]
      cases hrun with
      | ended _ _ _ _ _ _ hshows =>
          rcases hshows.failure with hnone | hmemory
          · cases hnone.symm.trans hfailure
          · cases hmemory.symm.trans hfailure
      | exceeded present r code failure started ended hruns hr hlimit =>
          cases hfailure
          cases limitOf_outputLimit hlimit
          have hmem : (programOptions request deadline test budget present, r) ∈ programRuns
              (before ++ work ++ after) := by
            rw [programRuns_between hupkeep, hruns]
            exact List.mem_singleton_self _
          have hover : budget < r.produced := (hhonest.runsOf hmem).limit hr
          simp only [hruns, producedBytes, List.map_cons, List.map_nil, List.sum_cons,
            List.sum_nil]
          omega
      | unstarted x failure _ _ _ hmem hblame
      | unmeasured _ _ _ x failure _ _ _ _ hmem hblame =>
          rw [hblameless x (sublist_between.subset hmem)] at hblame
          cases hblame
  | next test tests budget left final before work after rest c' cases hupkeep _ _ hrun hpassed _ ih =>
      intro hhonest hblameless past hpast c hc hfailure
      obtain ⟨present, r, result, hruns, hr, _, rfl⟩ := hrun.of_passed hpassed
      have hall := programRuns_next rest hupkeep hruns
      -- What the program printed is what is missing from the budget.
      have hmem : (programOptions request deadline test budget present, r) ∈ programRuns
          (before ++ work ++ after ++ rest) := by
        rw [hall]
        exact List.mem_cons_self
      have hsize : result.size = r.produced := (hhonest.runsOf hmem).collected result hr
      rcases List.mem_cons.1 hc with rfl | hc
      · cases hpassed.symm.trans hfailure
      · have hrest := ih (fun c o r hr => hhonest c o r (List.mem_append_right _ hr))
          (fun x hx => hblameless x (List.mem_append_right _ hx)) (past + r.produced)
          (by push_cast; omega) c hc hfailure
        rw [hall]
        simp only [producedBytes, List.map_cons, List.sum_cons] at hrest ⊢
        omega

/-- An exit code is that of the program, and an exceeded time limit is the
    program's own unless someone else exceeded one. -/
theorem CaseRun.deserved (h : CaseRun lib request deadline test budget trace c left) :
    (∀ run, (programRuns trace).head? = some run → run.1.input = encode test.input) ∧
    (∀ code, c.exitCode = some code → ∃ run result, (programRuns trace).head? = some run ∧
      run.2.outcome = .ok result ∧ result.exitCode = code) ∧
    ((∀ x ∈ trace, blames x = none) → c.failure = some .timeLimitExceeded →
      ∃ run, (programRuns trace).head? = some run ∧ run.2.outcome = .error .commandTimeout) := by
  cases h with
  | ended present r result _ hrun houtcome hshows =>
      rw [hrun]
      refine ⟨fun run hr => ?_, fun code hcode => ?_, fun _ hfailure => ?_⟩
      · cases hr
        rfl
      · rw [hshows.exitCode] at hcode
        cases hcode
        exact ⟨_, result, rfl, houtcome, rfl⟩
      · rcases hshows.failure with hnone | hmemory
        · cases hnone.symm.trans hfailure
        · cases hmemory.symm.trans hfailure
  | exceeded present r code failure started ended hrun houtcome hlimit =>
      rw [hrun]
      refine ⟨fun run hr => ?_, fun code hcode => (by cases hcode), fun _ hfailure => ?_⟩
      · cases hr
        rfl
      · cases hfailure
        cases limitOf_timeLimit hlimit
        exact ⟨_, rfl, houtcome⟩
  | unstarted x failure started ended hrun hmem hblame =>
      rw [hrun]
      refine ⟨fun run hr => (by cases hr), fun code hcode => (by cases hcode), fun hnone _ => ?_⟩
      rw [hnone x hmem] at hblame
      cases hblame
  | unmeasured present r result x failure started ended hrun houtcome hmem hblame =>
      rw [hrun]
      refine ⟨fun run hr => ?_, fun code hcode => (by cases hcode), fun hnone _ => ?_⟩
      · cases hr
        rfl
      · rw [hnone x hmem] at hblame
        cases hblame

end Runs

/-- The cases of a performed request, with what was printed before them. -/
theorem Performed.cases_of {lib : Library} {request : SandboxRequest}
    {trace : List RunnerExchange} {observation : ExecutionObservation} {left : Int}
    (h : Performed lib request trace observation left) (hhonest : Honest trace) :
    ∃ (deadline : Int) (first rest : List RunnerExchange) (tests : List SandboxCase) (past : Nat),
      trace = first ++ rest ∧ programRuns trace = programRuns rest ∧ tests <+: request.cases ∧
      past ≤ producedBytes (javacRuns trace) ∧
      CaseRuns lib request deadline tests (Caps.outputBytes - past) rest observation.cases left := by
  -- The compiler printed what is missing from the budget.
  have hsize : ∀ o r result, (o, r) ∈ javacRuns trace → r.outcome = .ok result →
      result.size = r.produced := fun o r result hmem hr =>
    (hhonest.runsOf hmem).collected result hr
  cases h with
  | interpreted deadline left first rest cases _ hquiet hruns =>
      refine ⟨deadline, first, rest, request.cases, 0, rfl, ?_, List.prefix_rfl, Nat.zero_le _, ?_⟩
      · rw [programRuns_append, hquiet, List.nil_append]
      · simpa using hruns
  | refused trace o r result _ hquiet hjavac _ hr =>
      refine ⟨0, trace, [], [], result.size, (List.append_nil _).symm, hquiet, List.nil_prefix, ?_,
        .nil _⟩
      rw [hsize o r result (by rw [hjavac]; exact List.mem_cons_self) hr, hjavac]
      exact Nat.le_refl _
  | compiled deadline left first rest o r result cases _ hquiet hjavac _ hr _ hruns =>
      refine ⟨deadline, first, rest, request.cases, result.size, rfl, ?_, List.prefix_rfl, ?_, hruns⟩
      · rw [programRuns_append, hquiet, List.nil_append]
      · have hall : javacRuns (first ++ rest) = (o, r) :: javacRuns rest := by
          rw [javacRuns_append, hjavac]
          rfl
        rw [hsize o r result (by rw [hall]; exact List.mem_cons_self) hr, hall]
        exact Nat.le_add_right _ _

/-- In every run a case is reported under its own name, with the exit code of
    its own program. In a fair run, a program that is reported to have taken too
    long was started and had all of its time, and where the output is reported
    to have been too long, the compiler and the programs used up their budget. -/
theorem verdicts_deserved (lib : Library) (supervisor : SandboxSupervisor)
    (request : AcceptedRequest) (trace : List RunnerExchange) (observation : ExecutionObservation)
    (hplays : Plays (supervisor.execute lib request) trace (.ok observation))
    (hhonest : Honest trace) (i : Nat) (c : CaseObservation)
    (hc : observation.cases[i]? = some c) :
    (∃ test, request.cases[i]? = some test ∧ c.caseId = test.id ∧
      ∀ run, (programRuns trace)[i]? = some run → run.1.input = encode test.input) ∧
    (∀ code, c.exitCode = some code → ∃ run result, (programRuns trace)[i]? = some run ∧
      run.2.outcome = .ok result ∧ result.exitCode = code) ∧
    (Fair request.toSandboxRequest trace →
      (c.failure = some .timeLimitExceeded → ∃ run, (programRuns trace)[i]? = some run ∧
        run.2.started = true ∧ run.2.outcome = .error .commandTimeout ∧
        request.timeMs ≤ run.2.elapsed) ∧
      (c.failure = some .outputLimitExceeded → Caps.outputBytes ≤ learnerBytes trace)) := by
  obtain ⟨left, hperform⟩ := plays_execute hplays
  obtain ⟨deadline, first, rest, tests, past, rfl, hsame, hprefix, hpast, hruns⟩ :=
    (plays_perform hperform).cases_of hhonest
  have hrest : Honest rest := fun c o r hr => hhonest c o r (List.mem_append_right _ hr)
  obtain ⟨test, htest, hcase⟩ := hruns.case_of hc
  have htest : request.cases[i]? = some test := by
    obtain ⟨more, hmore⟩ := hprefix
    rw [← hmore, List.getElem?_append_left (List.getElem?_eq_some_iff.1 htest).1, htest]
  rw [hsame]
  refine ⟨⟨test, htest, ?_⟩, ?_, fun hfair => ⟨?_, ?_⟩⟩
  · rcases hcase with ⟨rfl, hnone⟩ | ⟨_, _, work, _, hhead, _, hrun⟩
    · exact ⟨rfl, fun run hr => by cases hnone.symm.trans hr⟩
    · exact ⟨hrun.caseId, fun run hr => hrun.deserved.1 run (hhead ▸ hr)⟩
  · intro code hcode
    rcases hcase with ⟨rfl, _⟩ | ⟨_, _, work, _, hhead, _, hrun⟩
    · cases hcode
    · rw [hhead]
      exact hrun.deserved.2.1 code hcode
  · intro hfailure
    rcases hcase with ⟨rfl, _⟩ | ⟨_, _, work, hmem, hhead, _, hrun⟩
    · cases hfailure
    · obtain ⟨run, hfound, houtcome⟩ := hrun.deserved.2.2
        (fun x hx => hfair.blameless x (List.mem_append_right _ (hmem.subset hx))) hfailure
      have hat : (programRuns rest)[i]? = some run := hhead.trans hfound
      have hrun' : run ∈ programRuns rest := List.mem_of_getElem? hat
      have hsettles := hrest.runsOf hrun'
      refine ⟨run, hat, hsettles.started (by rw [houtcome]; exact fun h => by cases h), houtcome, ?_⟩
      exact (hfair.unhurried run (hsame ▸ hrun') houtcome).trans (hsettles.timeout houtcome)
  · intro hfailure
    have hbytes := hruns.output_deserved hrest
      (fun x hx => hfair.blameless x (List.mem_append_right _ hx)) past (by omega) c
      (List.mem_of_getElem? hc) hfailure
    rw [learnerBytes, hsame]
    omega

namespace Sample

/-- The observation of a program that took a second. -/
def timedOut : CaseObservation where
  caseId := "00000000-0000-4000-8000-000000000003"
  failure := some .timeLimitExceeded

end Sample

theorem verdicts_deserved_timeout :
    ∃ trace run, Plays (Sample.idle.execute Sample.library (Sample.sandboxed .python)) trace
        (.ok { cases := [Sample.timedOut] }) ∧
      Honest trace ∧ Fair (Sample.sandboxed .python).toSandboxRequest trace ∧
      (programRuns trace)[0]? = some run ∧ run.2.started = true ∧
      run.2.outcome = .error .commandTimeout ∧ 1000 ≤ run.2.elapsed := by
  have hplays := Sample.plays_executed .python
    (Sample.reacting DockerCommand.isProgram Sample.endless) (.ok Sample.measured)
  rw [show (Sample.executed .python (Sample.reacting DockerCommand.isProgram Sample.endless)
    (.ok Sample.measured)).2 = .ok { cases := [Sample.timedOut] } by decide +kernel] at hplays
  have hhonest : Honest (Sample.executed .python (Sample.reacting DockerCommand.isProgram Sample.endless)
      (.ok Sample.measured)).1 :=
    Sample.honest_executed (Sample.reacting_settles Sample.endless_settles)
  have hfair : Fair (Sample.sandboxed .python).toSandboxRequest (Sample.executed .python
      (Sample.reacting DockerCommand.isProgram Sample.endless) (.ok Sample.measured)).1 :=
    ⟨by decide +kernel, by decide +kernel⟩
  obtain ⟨run, hfound, hstarted, houtcome, helapsed⟩ := ((verdicts_deserved Sample.library
    Sample.idle (Sample.sandboxed .python) _ _ hplays hhonest 0 Sample.timedOut rfl).2.2 hfair).1 rfl
  exact ⟨_, run, hplays, hhonest, hfair, hfound, hstarted, houtcome, Int.ofNat_le.1 helapsed⟩

/-- A metric snapshot that takes too long is reported as a program that did,
    although that was never started. -/
theorem snapshot_timeout_blamed :
    ∃ trace, Plays (Sample.idle.execute Sample.library (Sample.sandboxed .python)) trace
        (.ok { cases := [Sample.timedOut] }) ∧ Honest trace ∧ programRuns trace = [] := by
  have hplays := Sample.plays_executed .python Sample.docker (.error (.docker .commandTimeout))
  rw [show (Sample.executed .python Sample.docker
    (.error (.docker .commandTimeout))).2 = .ok { cases := [Sample.timedOut] } by
      decide +kernel] at hplays
  exact ⟨_, hplays, Sample.honest_executed Sample.docker_settles,
    List.isEmpty_iff.1 (by decide +kernel)⟩

end ArenaCore
