import ArenaCore.Judge.Verdicts
import ArenaCore.Runner.Backend
import ArenaCore.Runner.Cases

/-!
# Observations and the Judge

What the supervisor reports is checked again by the judge, in another process
and another package: a schema, a size, a compilation exactly for Java, and cases
that are a front of the selected ones. Here the producer's loop is shown to meet
all of it, and the report to fit into the response the client reads.

The programs of a request share 256 KiB of output. Decoding can make a byte
three and quoting can make it six, which is what the limits of a mebibyte for
the judge and two for the client leave room for.

## Main definitions

* `ExecutionObservation.toJson`, `ExecutionObservation.toJudge`: The report as
  it is sent, and as it is parsed.
* `Orderly`: Results, metrics and times are in range.

## Theorems

* `CaseRuns.cost_le`: The budget bounds any cost of the output.
* `CaseRuns.fronts`: The cases are a front of the selected ones.
* `observation_accepted`: The judge accepts what the supervisor reports.
-/

namespace ArenaCore

open Dialogue Runner

variable {trace : List RunnerExchange}

/-! ### Reports -/

def CaseObservation.toJson (c : CaseObservation) : Json :=
  .obj ([("caseId", .str c.caseId), ("stdout", .str c.stdout), ("stderr", .str c.stderr)] ++
    match c.exitCode with
    | none =>
        Json.optional "failure" (fun f => .str (ObservedFailure.verdict f).text) c.failure ++
          [("wallMs", .num c.wallMs)]
    | some code =>
        [("exitCode", .num code), ("wallMs", .num c.wallMs)] ++
          Json.optional "cpuMs" (fun n : Nat => .num n) c.cpuMs ++
          Json.optional "memoryKiB" (fun n : Nat => .num n) c.memoryKiB ++
          Json.optional "failure" (fun f => .str (ObservedFailure.verdict f).text) c.failure)

def Compilation.toJson (c : Compilation) : Json :=
  .obj [("ok", .bool c.ok), ("stdout", .str c.stdout), ("stderr", .str c.stderr)]

/-- The response to a request. -/
def ExecutionObservation.toJson (o : ExecutionObservation) : Json :=
  .obj (("cases", .arr (o.cases.map CaseObservation.toJson)) ::
    Json.optional "compilation" Compilation.toJson o.compilation)

/-- A case as the client reads it. -/
def CaseObservation.toObserved (c : CaseObservation) : ObservedCase where
  caseId := c.caseId
  stdout := c.stdout
  stderr := c.stderr
  exitCode := c.exitCode
  failure := c.failure
  wallMs := some c.wallMs
  cpuMs := c.cpuMs.map Int.ofNat
  memoryKiB := c.memoryKiB.map Int.ofNat

/-- The response as the client reads it. -/
def ExecutionObservation.toJudge (o : ExecutionObservation) : JudgeObservation where
  compilation := o.compilation
  cases := o.cases.map CaseObservation.toObserved

/-- The bytes of a response the client reads. -/
def maxResponseBytes : Nat := 2 * 1024 * 1024

/-! ### Environments -/

/-- The clock does not go back. -/
def isSooner : RunnerExchange → RunnerExchange → Bool
  | ⟨.now, time⟩, ⟨.now, time'⟩ => decide (time ≤ time')
  | _, _ => true

/-- A command that ends has the exit code of a process and no more output than
    it was allowed, and metrics are safe integers. -/
def isOrderly : RunnerExchange → Bool
  | ⟨.command _ o, r⟩ =>
      match r.outcome with
      | .ok result =>
          decide (0 ≤ result.exitCode) && decide (result.exitCode ≤ 255) &&
            decide ((result.size : Int) ≤ o.maxBytes)
      | .error _ => true
  | ⟨.snapshot _, .ok s⟩ =>
      isSafeInteger s.cpuUsec && isSafeInteger s.memoryPeakBytes && isSafeInteger s.oomKills
  | _ => true

/-- Nothing is out of range, and time does not go back. -/
structure Orderly (trace : List RunnerExchange) : Prop where
  exchanges : ∀ x ∈ trace, isOrderly x = true
  clock : trace.Pairwise fun x y => isSooner x y = true

theorem Orderly.sublist {trace' : List RunnerExchange} (h : Orderly trace)
    (hsub : trace'.Sublist trace) : Orderly trace' where
  exchanges x hx := h.exchanges x (hsub.subset hx)
  clock := h.clock.sublist hsub

theorem Orderly.runsOf {kind : DockerCommand → Bool} (h : Orderly trace) {o : CommandOptions}
    {r : Reaction} {result : CommandResult} (hrun : (o, r) ∈ runsOf kind trace)
    (hr : r.outcome = .ok result) :
    (0 ≤ result.exitCode ∧ result.exitCode ≤ 255) ∧ (result.size : Int) ≤ o.maxBytes := by
  obtain ⟨c, _, hmem⟩ := mem_of_runsOf hrun
  have hin := h.exchanges _ hmem
  simpa only [isOrderly, hr, Bool.and_eq_true, decide_eq_true_eq] using hin

theorem Orderly.metrics (h : Orderly trace) {name : Uuid} {s : CgroupSnapshot}
    (hs : (⟨.snapshot name, .ok s⟩ : RunnerExchange) ∈ trace) :
    s.cpuUsec ≤ 9007199254740991 ∧ s.memoryPeakBytes ≤ 9007199254740991 := by
  have hin := h.exchanges _ hs
  simp only [isOrderly, isSafeInteger, Bool.and_eq_true, decide_eq_true_eq] at hin
  omega

section Cases

variable {lib : Library} {request : SandboxRequest} {deadline budget left : Int}
  {tests : List SandboxCase} {test : SandboxCase} {trace : List RunnerExchange}
  {cases : List CaseObservation} {c : CaseObservation}

/-! ### The budget -/

/-- What some text costs as output. -/
def CaseObservation.cost (cost : String → Nat) (c : CaseObservation) : Nat :=
  cost c.stdout + cost c.stderr

/-- A case leaves a budget, and its output costs what it took from it. -/
theorem CaseRun.cost_le (h : CaseRun lib request deadline test budget trace c left)
    (horderly : Orderly trace) {cost : String → Nat} {factor extra : Nat}
    (hcost : ∀ bytes, cost (lib.decode bytes) ≤ factor * bytes.length + extra)
    (hempty : cost "" ≤ extra) (hbudget : 0 ≤ budget) :
    0 ≤ left ∧ left ≤ budget ∧
      (c.cost cost : Int) ≤ factor * (budget - left) + 2 * extra := by
  have hsize : ∀ present r result, programRuns trace
      = [(programOptions request deadline test budget present, r)] → r.outcome = .ok result →
      (result.size : Int) ≤ budget := by
    intro present r result hrun hr
    have hmem : (programOptions request deadline test budget present, r) ∈ programRuns trace := by
      rw [hrun]
      exact List.mem_cons_self
    exact (horderly.runsOf hmem hr).2
  have hlimit : ∀ started ended failure,
      ((limitHit test started ended failure).cost cost : Int) ≤ 2 * extra := by
    intro started ended failure
    change ((cost "" + cost "" : Nat) : Int) ≤ _
    omega
  have hafter : ∀ failure rest, 0 ≤ rest →
      0 ≤ budgetAfter failure rest ∧ budgetAfter failure rest ≤ rest := by
    intro failure rest hrest
    unfold budgetAfter
    split
    · exact ⟨Int.le_refl 0, hrest⟩
    · exact ⟨hrest, Int.le_refl _⟩
  have hextra : ∀ rest : Int, rest ≤ budget →
      (2 * extra : Int) ≤ factor * (budget - rest) + 2 * extra := by
    intro rest hrest
    have := Int.mul_nonneg (Int.natCast_nonneg factor) (Int.sub_nonneg_of_le hrest)
    omega
  cases h with
  | ended present r result _ hrun hr hshows =>
      have hle := hsize present r result hrun hr
      have hout := hcost result.stdout
      have herr := hcost result.stderr
      refine ⟨by omega, by omega, ?_⟩
      rw [CaseObservation.cost, hshows.stdout, hshows.stderr, Int.sub_sub_self,
        CommandResult.size]
      push_cast
      rw [Int.mul_add]
      omega
  | exceeded _ _ _ failure started ended | unstarted _ failure started ended =>
      obtain ⟨hpos, hle⟩ := hafter failure budget hbudget
      exact ⟨hpos, hle, (hlimit started ended failure).trans (hextra _ hle)⟩
  | unmeasured present r result x failure started ended hrun hr =>
      have hle := hsize present r result hrun hr
      obtain ⟨hpos, hle'⟩ := hafter failure (budget - result.size) (by omega)
      exact ⟨hpos, by omega, (hlimit started ended failure).trans (hextra _ (by omega))⟩

/-- The budget is never overdrawn, and bounds what the output of all cases
    costs together. -/
theorem CaseRuns.cost_le (h : CaseRuns lib request deadline tests budget trace cases left)
    {cost : String → Nat} {factor extra : Nat}
    (hcost : ∀ bytes, cost (lib.decode bytes) ≤ factor * bytes.length + extra)
    (hempty : cost "" ≤ extra) :
    Orderly trace → 0 ≤ budget → 0 ≤ left ∧ left ≤ budget ∧
      ((cases.map (CaseObservation.cost cost)).sum : Int)
        ≤ factor * (budget - left) + 2 * extra * cases.length := by
  induction h with
  | nil budget =>
      intro _ hbudget
      simp [hbudget]
  | spent test tests budget trace _ _ =>
      intro _ hbudget
      refine ⟨hbudget, Int.le_refl _, ?_⟩
      simp only [List.map_cons, List.map_nil, List.sum_cons, List.sum_nil, CaseObservation.cost,
        List.length_cons, List.length_nil, Int.sub_self, Int.mul_zero]
      omega
  | last test tests budget left before work after c _ _ _ hrun =>
      intro horderly hbudget
      obtain ⟨hpos, hle, hc⟩ := hrun.cost_le (horderly.sublist sublist_between) hcost hempty hbudget
      refine ⟨hpos, hle, ?_⟩
      simp only [List.map_cons, List.map_nil, List.sum_cons, List.sum_nil, List.length_cons,
        List.length_nil]
      omega
  | next test tests budget left final before work after rest c cases _ _ _ hrun _ _ ih =>
      intro horderly hbudget
      have hwork : work.Sublist (before ++ work ++ after ++ rest) :=
        sublist_between.trans (List.sublist_append_left _ rest)
      obtain ⟨hpos, hle, hc⟩ := hrun.cost_le (horderly.sublist hwork) hcost hempty hbudget
      obtain ⟨hfinal, hless, hcases⟩ :=
        ih (horderly.sublist (List.sublist_append_right _ rest)) hpos
      refine ⟨hfinal, Int.le_trans hless hle, ?_⟩
      have hsplit : (factor : Int) * (budget - final)
          = factor * (budget - left) + factor * (left - final) := by
        rw [← Int.mul_add]
        congr 1
        omega
      have hone : (2 * extra * (cases.length + 1) : Int) = 2 * extra * cases.length + 2 * extra := by
        rw [Int.mul_add, Int.mul_one]
      simp only [List.map_cons, List.sum_cons, List.length_cons, Int.natCast_add, Int.natCast_one]
      rw [hsplit, hone]
      omega

/-! ### The schema -/

theorem Timed.wallMs_nonneg (h : Timed trace c) (horderly : Orderly trace) : 0 ≤ c.wallMs := by
  obtain ⟨started, ended, hwall, hsub⟩ := h
  have hclock : started ≤ ended := of_decide_eq_true
    ((List.pairwise_cons.1 (horderly.clock.sublist hsub)).1 _ List.mem_cons_self)
  omega

/-- The metrics of a case are a pair of safe integers, or missing. -/
theorem Shows.metrics_safe {result : CommandResult} (h : Shows lib test result trace c)
    (horderly : Orderly trace) :
    nonnegative c.toObserved.cpuMs = true ∧ nonnegative c.toObserved.memoryKiB = true ∧
      c.toObserved.cpuMs.isNone = c.toObserved.memoryKiB.isNone := by
  rcases h.metrics with ⟨hcpu, hmemory⟩ | ⟨name, before, after, m, _, hafter, hm, hcpu, hmemory⟩
  · simp [CaseObservation.toObserved, hcpu, hmemory, nonnegative]
  · have hsafe := horderly.metrics hafter
    unfold metricDelta at hm
    split at hm
    · cases hm
    · split at hm
      · cases hm
      · cases hm
        simp only [CaseObservation.toObserved, hcpu, hmemory, nonnegative, isSafeInteger,
          Option.map_some, Option.all_some, Bool.and_eq_true, decide_eq_true_eq, Option.isNone_some,
          Int.ofNat_eq_natCast, and_true]
        omega

/-- The schema accepts every case. -/
theorem CaseRun.schema (h : CaseRun lib request deadline test budget trace c left)
    (htimed : Timed trace c) (horderly : Orderly trace) (hid : isUuid test.id = true) :
    observedCaseSchema c.toObserved = true := by
  have hwall : (0 : Rat) ≤ (c.wallMs : Rat) := by exact_mod_cast htimed.wallMs_nonneg horderly
  cases h with
  | ended present r result _ hrun hr hshows =>
      obtain ⟨hcpu, hmemory, hpair⟩ := hshows.metrics_safe horderly
      have hmem : (programOptions request deadline test budget present, r) ∈ programRuns trace := by
        rw [hrun]
        exact List.mem_cons_self
      have hcode := (horderly.runsOf hmem hr).1
      rw [observedCaseSchema, hcpu, hmemory, hpair]
      simp [CaseObservation.toObserved, hshows.caseId, hid, hshows.exitCode, hcode, hwall]
  | exceeded | unstarted | unmeasured =>
      simp [observedCaseSchema, CaseObservation.toObserved, limitHit, hid, nonnegative] at hwall ⊢
      exact hwall

/-- Every case is of the right shape and passes the schema. -/
theorem CaseRuns.schema (h : CaseRuns lib request deadline tests budget trace cases left)
    (horderly : Orderly trace) (hids : ∀ test ∈ tests, isUuid test.id = true) :
    ∀ c ∈ cases, observedCaseSchema c.toObserved = true := by
  intro c hc
  obtain ⟨i, hi⟩ := List.mem_iff_getElem?.1 hc
  obtain ⟨test, htest, hcase⟩ := h.case_of hi
  have hid := hids test (List.mem_of_getElem? htest)
  rcases hcase with ⟨rfl, _⟩ | ⟨budget, left, work, hsub, _, htimed, hrun⟩
  · simp [observedCaseSchema, CaseObservation.toObserved, hid, nonnegative]
  · exact hrun.schema htimed (horderly.sublist hsub) hid

/-! ### The front -/

/-- The cases are the first of the tests, in order. Only the last may have
    failed, and it has if there are fewer than there are tests. -/
structure FrontOf (cases : List CaseObservation) (tests : List SandboxCase) : Prop where
  nonempty : tests ≠ [] → cases ≠ []
  ids : cases.map CaseObservation.caseId <+: tests.map SandboxCase.id
  ended : ∀ c ∈ cases, c.failure = none → c.exitCode.isSome = true
  lastOnly : ∀ c ∈ cases.dropLast, c.failure = none
  partialFails : cases.length ≠ tests.length →
    ∃ c, cases.getLast? = some c ∧ c.failure.isSome = true

theorem FrontOf.last (hid : c.caseId = test.id) (hfailed : c.failure ≠ none) :
    FrontOf [c] (test :: tests) where
  nonempty _ := List.cons_ne_nil _ _
  ids := by simp [hid]
  ended c' hc' hnone := by
    cases List.mem_singleton.1 hc'
    exact absurd hnone hfailed
  lastOnly c' hc' := by cases hc'
  partialFails _ := ⟨c, rfl, Option.isSome_iff_ne_none.2 hfailed⟩

theorem FrontOf.next (h : FrontOf cases tests) (hid : c.caseId = test.id)
    (hpassed : c.failure = none) (hcode : c.exitCode.isSome = true) :
    FrontOf (c :: cases) (test :: tests) where
  nonempty _ := List.cons_ne_nil _ _
  ids := by
    rw [List.map_cons, List.map_cons, hid]
    exact (List.prefix_cons_inj _).2 h.ids
  ended c' hc' hnone := by
    rcases List.mem_cons.1 hc' with rfl | hc'
    · exact hcode
    · exact h.ended c' hc' hnone
  lastOnly c' hc' := by
    cases cases with
    | nil => cases hc'
    | cons next more =>
        rcases List.mem_cons.1 hc' with rfl | hc'
        · exact hpassed
        · exact h.lastOnly c' hc'
  partialFails hlength := by
    obtain ⟨c', hc', hfailed⟩ := h.partialFails fun heq => hlength (by simp [heq])
    refine ⟨c', ?_, hfailed⟩
    rw [List.getLast?_cons, hc']
    rfl

theorem CaseRuns.front (h : CaseRuns lib request deadline tests budget trace cases left) :
    FrontOf cases tests := by
  induction h with
  | nil =>
      exact ⟨fun h => absurd rfl h, List.prefix_rfl, fun c hc => (by cases hc),
        fun c hc => (by cases hc), fun h => absurd rfl h⟩
  | spent test tests budget trace => exact .last rfl (Option.some_ne_none _)
  | last test tests budget left before work after c _ _ _ hrun hfailed =>
      exact .last hrun.caseId hfailed
  | next test tests budget left final before work after rest c cases _ _ _ hrun hpassed _ ih =>
      obtain ⟨_, _, result, _, _, hshows, _⟩ := hrun.of_passed hpassed
      exact ih.next hshows.caseId hpassed (by rw [hshows.exitCode]; rfl)

end Cases

/-! ### The size of a report -/

theorem length_of_isUuid {s : String} (h : isUuid s = true) : s.toList.length = 36 := by
  simp only [isUuid, uuidShape, Bool.or_eq_true, Bool.and_eq_true, beq_iff_eq] at h
  rcases h with (h | rfl) | rfl
  · exact h.1.1.1
  · decide
  · decide

/-- What a text costs once it is quoted. -/
def quotedLength (s : String) : Nat :=
  byteLength (Json.quote s)

theorem CaseObservation.byteLength_toJson_le (c : CaseObservation) (hid : isUuid c.caseId = true) :
    byteLength c.toJson.stringify ≤ c.cost quotedLength + 1500 := by
  have huuid := Json.byteLength_quote_le c.caseId
  rw [length_of_isUuid hid] at huuid
  have hnames : byteLength (Json.quote "caseId") = 8 ∧ byteLength (Json.quote "stdout") = 8 ∧
      byteLength (Json.quote "stderr") = 8 ∧ byteLength (Json.quote "exitCode") = 10 ∧
      byteLength (Json.quote "wallMs") = 8 ∧ byteLength (Json.quote "cpuMs") = 7 ∧
      byteLength (Json.quote "memoryKiB") = 11 ∧ byteLength (Json.quote "failure") = 9 := by
    decide
  have hwall := Json.byteLength_number_le c.wallMs
  have hfailure := Json.sum_optional_le "failure"
    (fun f => Json.str (ObservedFailure.verdict f).text) c.failure
    (show ∀ f : ObservedFailure, byteLength (Json.quote f.verdict.text) ≤ 30 by
      intro f; cases f <;> decide)
  have hmetric : ∀ n : Nat, byteLength (Json.num n).stringify ≤ 100 :=
    fun n => Json.byteLength_number_le n
  have hcpu := Json.sum_optional_le "cpuMs" (fun n : Nat => Json.num n) c.cpuMs hmetric
  have hmemory := Json.sum_optional_le "memoryKiB" (fun n : Nat => Json.num n) c.memoryKiB hmetric
  refine (Json.byteLength_stringify_obj_le _).trans ?_
  cases hcode : c.exitCode with
  | none =>
      simp only [List.map_append, List.sum_append, List.map_cons, List.map_nil, List.sum_cons,
        List.sum_nil, Json.memberLength, Json.stringify, CaseObservation.cost, quotedLength] at *
      omega
  | some code =>
      have hexit := Json.byteLength_number_le code
      simp only [List.map_append, List.sum_append, List.map_cons, List.map_nil, List.sum_cons,
        List.sum_nil, Json.memberLength, Json.stringify, CaseObservation.cost, quotedLength] at *
      omega

theorem Compilation.byteLength_toJson_le (c : Compilation) :
    byteLength c.toJson.stringify ≤ quotedLength c.stdout + quotedLength c.stderr + 50 := by
  have hnames : byteLength (Json.quote "ok") = 4 ∧ byteLength (Json.quote "stdout") = 8 ∧
      byteLength (Json.quote "stderr") = 8 := by
    decide
  have hok : Json.memberLength ("ok", .bool c.ok) ≤ 11 := by
    cases c.ok <;> decide
  have hout : Json.memberLength ("stdout", .str c.stdout) = quotedLength c.stdout + 10 := by
    simp only [Json.memberLength, Json.stringify, quotedLength]
    omega
  have herr : Json.memberLength ("stderr", .str c.stderr) = quotedLength c.stderr + 10 := by
    simp only [Json.memberLength, Json.stringify, quotedLength]
    omega
  refine (Json.byteLength_stringify_obj_le _).trans ?_
  rw [List.map_cons, List.map_cons, List.map_cons, List.map_nil, List.sum_cons, List.sum_cons,
    List.sum_cons, List.sum_nil, hout, herr]
  omega

/-- What the compiler printed costs. -/
def ExecutionObservation.compileCost (cost : String → Nat) (o : ExecutionObservation) : Nat :=
  (o.compilation.map fun c => cost c.stdout + cost c.stderr).getD 0

/-- A report is little more than the output in it. -/
theorem ExecutionObservation.byteLength_toJson_le (o : ExecutionObservation)
    (hids : ∀ c ∈ o.cases, isUuid c.caseId = true) :
    byteLength o.toJson.stringify ≤ (o.cases.map (CaseObservation.cost quotedLength)).sum +
      1501 * o.cases.length + o.compileCost quotedLength + 100 := by
  have hnames : byteLength (Json.quote "cases") = 7 ∧
      byteLength (Json.quote "compilation") = 13 := by
    decide
  have hbrackets : byteLength "[" = 1 ∧ byteLength "]" = 1 := by decide
  have hitems : ∀ cases : List CaseObservation, (∀ c ∈ cases, isUuid c.caseId = true) →
      ((cases.map CaseObservation.toJson).map fun item => byteLength (Json.stringify item) + 1).sum
        ≤ (cases.map (CaseObservation.cost quotedLength)).sum + 1501 * cases.length := by
    intro cases hcases
    induction cases with
    | nil => exact Nat.le_refl 0
    | cons c rest ih =>
        have hc := c.byteLength_toJson_le (hcases c List.mem_cons_self)
        have hrest := ih fun c' hc' => hcases c' (List.mem_cons_of_mem _ hc')
        simp only [List.map_cons, List.sum_cons, List.length_cons] at hrest ⊢
        omega
  have hall := hitems o.cases hids
  have hcases := Json.byteLength_stringifyItems_le (o.cases.map CaseObservation.toJson)
  have hcompilation : ((Json.optional "compilation" Compilation.toJson o.compilation).map
      Json.memberLength).sum ≤ o.compileCost quotedLength + 65 := by
    unfold ExecutionObservation.compileCost
    cases o.compilation with
    | none => exact Nat.zero_le _
    | some c =>
        have hc := c.byteLength_toJson_le
        simp only [Json.optional, List.map_cons, List.map_nil, List.sum_cons, List.sum_nil,
          Json.memberLength, Option.map_some, Option.getD_some]
        omega
  refine (Json.byteLength_stringify_obj_le _).trans ?_
  rw [List.map_cons, List.sum_cons]
  simp only [Json.memberLength, Json.stringify, byteLength_append] at hcompilation ⊢
  omega

/-! ### Requests -/

section Requests

variable {lib : Library} {request : SandboxRequest} {trace : List RunnerExchange}
  {o : ExecutionObservation} {left : Int}

theorem CaseRun.maxBytes {deadline budget : Int} {test : SandboxCase} {c : CaseObservation}
    (h : CaseRun lib request deadline test budget trace c left) :
    ∀ run ∈ programRuns trace, run.1.maxBytes = budget := by
  intro run hrun
  cases h with
  | ended _ _ _ _ hruns | exceeded _ _ _ _ _ _ hruns | unmeasured _ _ _ _ _ _ _ hruns =>
      rw [hruns] at hrun
      cases List.mem_singleton.1 hrun
      rfl
  | unstarted _ _ _ _ hruns =>
      rw [hruns] at hrun
      cases hrun

/-- No program is started without a budget. -/
theorem CaseRuns.maxBytes_pos {deadline budget : Int} {tests : List SandboxCase}
    {cases : List CaseObservation}
    (h : CaseRuns lib request deadline tests budget trace cases left) :
    ∀ run ∈ programRuns trace, 0 < run.1.maxBytes := by
  induction h with
  | nil => exact fun run hrun => by cases hrun
  | spent test tests budget trace hupkeep =>
      intro run hrun
      rw [programRuns_of_upkeep hupkeep] at hrun
      cases hrun
  | last test tests budget left before work after c hupkeep hwithin _ hrun =>
      intro run hmem
      rw [programRuns_between hupkeep] at hmem
      rw [hrun.maxBytes run hmem]
      exact hwithin
  | next test tests budget left final before work after rest c cases hupkeep hwithin _ hrun _ _ ih =>
      intro run hmem
      rw [programRuns_append, programRuns_between hupkeep] at hmem
      rcases List.mem_append.1 hmem with hmem | hmem
      · rw [hrun.maxBytes run hmem]
        exact hwithin
      · exact ih run hmem

section

variable (h : Performed lib request trace o left)

include h

theorem Performed.maxBytes_pos : ∀ run ∈ programRuns trace, 0 < run.1.maxBytes := by
  cases h with
  | interpreted _ _ first rest _ _ hquiet hruns
  | compiled _ _ first rest _ _ _ _ _ hquiet _ _ _ _ hruns =>
      rw [programRuns_append, hquiet, List.nil_append]
      exact hruns.maxBytes_pos
  | refused _ _ _ _ _ hquiet =>
      rw [hquiet]
      exact fun run hrun => by cases hrun

/-- The output of a request costs what its budget allows. -/
theorem Performed.cost_le (horderly : Orderly trace) {cost : String → Nat} {factor extra : Nat}
    (hcost : ∀ bytes, cost (lib.decode bytes) ≤ factor * bytes.length + extra)
    (hempty : cost "" ≤ extra) :
    0 ≤ left ∧ (o.cases.map (CaseObservation.cost cost)).sum + o.compileCost cost
      ≤ factor * Caps.outputBytes + 2 * extra * (o.cases.length + 1) := by
  -- What was not spent on the cases is not less than what the compiler took.
  have hspent : ∀ (past spent : Nat) (rest : Int), 0 ≤ rest →
      (spent : Int) ≤ factor * (Caps.outputBytes - past - rest) + 2 * extra * o.cases.length →
      o.compileCost cost ≤ factor * past + 2 * extra →
      spent + o.compileCost cost ≤ factor * Caps.outputBytes + 2 * extra * (o.cases.length + 1) := by
    intro past spent rest hrest hcases hcompile
    have hsplit : (factor : Int) * Caps.outputBytes
        = factor * (Caps.outputBytes - past - rest) + (factor * past + factor * rest) := by
      rw [← Int.mul_add, ← Int.mul_add]
      congr 1
      omega
    have hnonneg := Int.mul_nonneg (Int.natCast_nonneg factor) hrest
    have hone : 2 * extra * (o.cases.length + 1) = 2 * extra * o.cases.length + 2 * extra :=
      Nat.mul_succ _ _
    zify at hcompile hone ⊢
    omega
  have hcompiler : ∀ (first : List RunnerExchange) (options : CommandOptions) (r : Reaction)
      (result : CommandResult), first.Sublist trace → javacRuns first = [(options, r)] →
      options.maxBytes = Caps.outputBytes → r.outcome = .ok result →
      (result.size : Int) ≤ Caps.outputBytes := by
    intro first options r result hsub hjavac hlimit hr
    have hmem : (options, r) ∈ javacRuns first := by
      rw [hjavac]
      exact List.mem_cons_self
    rw [← hlimit]
    exact ((horderly.sublist hsub).runsOf hmem hr).2
  have houtput : ∀ result : CommandResult, cost (lib.decode result.stdout)
      + cost (lib.decode result.stderr) ≤ factor * result.size + 2 * extra := by
    intro result
    have hout := hcost result.stdout
    have herr := hcost result.stderr
    rw [CommandResult.size, Nat.mul_add]
    omega
  cases h with
  | interpreted deadline _ first rest cases _ _ hruns =>
      obtain ⟨hleft, _, hsum⟩ := hruns.cost_le hcost hempty
        (horderly.sublist (List.sublist_append_right first rest)) (by decide)
      refine ⟨hleft, hspent 0 _ left hleft ?_ (Nat.zero_le _)⟩
      simpa using hsum
  | refused _ options r result _ _ hjavac hlimit hr =>
      have hle := hcompiler trace options r result (List.Sublist.refl _) hjavac hlimit hr
      refine ⟨by omega, hspent result.size 0 _ (Int.sub_nonneg_of_le hle) ?_ (houtput result)⟩
      simp
  | compiled deadline _ first rest options r result cases _ _ hjavac hlimit hr _ hruns =>
      have hle := hcompiler first options r result (List.sublist_append_left first rest) hjavac
        hlimit hr
      obtain ⟨hleft, _, hsum⟩ := hruns.cost_le hcost hempty
        (horderly.sublist (List.sublist_append_right first rest)) (Int.sub_nonneg_of_le hle)
      exact ⟨hleft, hspent result.size _ left hleft hsum (houtput result)⟩

/-- The cases of a request, unless its program was not compiled. -/
theorem Performed.front : (o.compilation.isSome = true ↔ request.language = .java) ∧
      (((∃ c, o.compilation = some c ∧ c.ok = false) ∧ o.cases = []) ∨
        ((¬ ∃ c, o.compilation = some c ∧ c.ok = false) ∧ FrontOf o.cases request.cases)) := by
  cases h with
  | interpreted _ _ _ _ _ hlanguage _ hruns =>
      refine ⟨iff_of_false (by simp) hlanguage, .inr ⟨?_, hruns.front⟩⟩
      rintro ⟨c, hc, _⟩
      cases hc
  | refused _ _ _ result hlanguage _ _ _ _ hfailed =>
      refine ⟨iff_of_true rfl hlanguage, .inl ⟨⟨_, rfl, ?_⟩, rfl⟩⟩
      simpa [compilationOf] using hfailed
  | compiled _ _ _ _ _ _ result _ hlanguage _ _ _ _ hpassed hruns =>
      refine ⟨iff_of_true rfl hlanguage, .inr ⟨?_, hruns.front⟩⟩
      rintro ⟨c, hc, hfailed⟩
      cases hc
      simp [compilationOf, hpassed] at hfailed

theorem Performed.schema (horderly : Orderly trace)
    (hids : ∀ test ∈ request.cases, isUuid test.id = true) :
    ∀ c ∈ o.cases, observedCaseSchema c.toObserved = true := by
  cases h with
  | interpreted _ _ first rest _ _ _ hruns | compiled _ _ first rest _ _ _ _ _ _ _ _ _ _ hruns =>
      exact hruns.schema (horderly.sublist (List.sublist_append_right first rest)) hids
  | refused => exact fun c hc => by cases hc

theorem Performed.length_le : o.cases.length ≤ request.cases.length := by
  rcases h.front.2 with ⟨_, hempty⟩ | ⟨_, hfront⟩
  · rw [hempty]
    exact Nat.zero_le _
  · simpa using hfront.ids.length_le

end

end Requests

/-! ### The judge -/

/-- `Buffer.toString` decodes as UTF-8. -/
def Library.DecodesUtf8 (lib : Library) : Prop :=
  ∀ bytes, Decodes bytes (lib.decode bytes).toList

theorem Library.DecodesUtf8.byteLength_le {lib : Library} (h : lib.DecodesUtf8) (bytes : Bytes) :
    byteLength (lib.decode bytes) ≤ 3 * bytes.length + 0 := by
  have hle := (h bytes).byteLength_le
  rwa [String.ofList_toList] at hle

theorem Library.DecodesUtf8.quotedLength_le {lib : Library} (h : lib.DecodesUtf8) (bytes : Bytes) :
    quotedLength (lib.decode bytes) ≤ 6 * bytes.length + 2 := by
  have hle := (h bytes).byteLength_quote_le
  rwa [String.ofList_toList] at hle

theorem outputBytes_toJudge (o : ExecutionObservation) :
    outputBytes o.toJudge
      = (o.cases.map (CaseObservation.cost byteLength)).sum + o.compileCost byteLength := by
  simp only [outputBytes, ExecutionObservation.toJudge, List.map_map,
    ExecutionObservation.compileCost]
  congr 1
  cases o.compilation <;> rfl

/-- A front of the tests is a front of the cases they were made of. -/
theorem FrontOf.fronts {cases : List CaseObservation} {selected : List JudgeCase}
    (h : FrontOf cases (selected.map fun c => ⟨c.id, c.input, c.files⟩)) (hne : selected ≠ []) :
    Fronts (cases.map CaseObservation.toObserved) selected where
  nonempty := by simpa using h.nonempty (by simpa using hne)
  ids := by
    have hids := h.ids
    rw [List.map_map] at hids
    rw [List.map_map]
    exact hids
  ended := by
    rw [List.forall_mem_map]
    exact h.ended
  lastOnly := by
    rw [← List.map_dropLast, List.forall_mem_map]
    exact h.lastOnly
  partialFails hlength := by
    obtain ⟨c, hc, hfailed⟩ := h.partialFails (by simpa using hlength)
    exact ⟨c.toObserved, by rw [List.getLast?_map, hc]; rfl, hfailed⟩

/-- Whatever the supervisor reports on a request of the backend, the judge's
    schema accepts it, the client can read it, the budget was not overdrawn, and
    the judge finds no fault with it. -/
theorem observation_accepted (lib : Library) (hdecode : lib.DecodesUtf8)
    (supervisor : SandboxSupervisor) (e : ExecutionContext) (plan : JudgePlan)
    (selected : List JudgeCase) (hselect : selectCases plan e.mode = .ok selected)
    (request : AcceptedRequest)
    (hrequest : request.toSandboxRequest = sandboxRequest e plan selected)
    (trace : List RunnerExchange) (o : ExecutionObservation)
    (hplays : Plays (supervisor.execute lib request) trace (.ok o)) (horderly : Orderly trace) :
    observationSchema o.toJudge = true ∧ byteLength o.toJson.stringify ≤ maxResponseBytes ∧
      ((∀ run ∈ programRuns trace, 0 ≤ run.1.maxBytes) ∧
        ∀ left, Plays (perform lib request.toSandboxRequest) trace (.ok (o, left)) → 0 ≤ left) ∧
      ∀ strip, ∃ result, judge strip plan e.mode e.language (some o.toJudge) = .ok result := by
  obtain ⟨left, hperform⟩ := plays_execute hplays
  have hperformed := plays_perform hperform
  have hids : ∀ test ∈ request.cases, isUuid test.id = true := by
    intro test htest
    have haccepted := request.tests test htest
    simp only [sandboxCaseSchema, Bool.and_eq_true] at haccepted
    exact haccepted.1.1.1.1
  have hcases := hperformed.schema horderly hids
  have hcount : o.cases.length ≤ 100 := hperformed.length_le.trans request.count
  have hschema : observationSchema o.toJudge = true := by
    simp only [observationSchema, ExecutionObservation.toJudge, Bool.and_eq_true, List.all_eq_true,
      List.forall_mem_map, decide_eq_true_eq, List.length_map]
    exact ⟨hcases, hcount⟩
  have hplain := (hperformed.cost_le horderly hdecode.byteLength_le (Nat.le_refl 0)).2
  have hquoted := (hperformed.cost_le horderly hdecode.quotedLength_le
    (show quotedLength "" ≤ 2 by decide)).2
  have hcap : Caps.outputBytes = 262144 := by decide
  refine ⟨hschema, ?_, ⟨fun run hrun => (hperformed.maxBytes_pos run hrun).le, ?_⟩, fun strip => ?_⟩
  · have hsize := o.byteLength_toJson_le fun c hc => by
      have h := hcases c hc
      simp only [observedCaseSchema, Bool.and_eq_true] at h
      exact h.1.1.1.1.1
    unfold maxResponseBytes
    omega
  · intro left' hleft'
    exact ((plays_perform hleft').cost_le horderly hdecode.byteLength_le (Nat.le_refl 0)).1
  · have hbounded : outputBytes o.toJudge ≤ 1024 * 1024 := by
      rw [outputBytes_toJudge]
      omega
    have hlanguage : request.language = e.language := by rw [hrequest]; rfl
    obtain ⟨hevidence, hend⟩ := hperformed.front
    rw [hlanguage] at hevidence
    have hadmitted : Admitted e.language o.toJudge := ⟨hschema, hbounded, rfl, hevidence⟩
    have hdeserves : ∃ verdict, Deserves selected e.language o.toJudge verdict := by
      rcases hend with ⟨hfailed, hempty⟩ | ⟨hcompiled, hfront⟩
      · refine ⟨_, hadmitted, .inl ⟨hfailed, ?_, rfl⟩⟩
        simp only [ExecutionObservation.toJudge, hempty, List.map_nil]
      · rw [hrequest] at hfront
        exact ⟨_, hadmitted, .inr ⟨hcompiled, hfront.fronts (selectCases_spec hselect).1, rfl⟩⟩
    obtain ⟨verdict, hdeserves⟩ := hdeserves
    have hjudged : ∃ result, judgeSelected strip selected e.mode e.language (some o.toJudge)
        = .ok result ∧ result.verdict = verdict := judgeSelected_eq_ok_iff.2 hdeserves
    obtain ⟨result, hresult, _⟩ := hjudged
    exact ⟨result, by rw [judge, hselect]; exact hresult⟩

namespace Sample

theorem library_decodesUtf8 : library.DecodesUtf8 := by
  have hascii : ∀ b : Fin 128, String.utf8EncodeChar (Char.ofNat b) = [UInt8.ofNat b] := by decide
  intro bytes
  change Decodes bytes (String.ofList _).toList
  rw [String.toList_ofList]
  induction bytes with
  | nil => exact .nil
  | cons b rest ih =>
      rw [List.map_cons]
      by_cases hb : b.toNat < 128
      · rw [if_pos hb]
        have hvalid := Decodes.valid (Char.ofNat b.toNat) rest _ ih
        rw [hascii ⟨b.toNat, hb⟩, UInt8.ofNat_toNat] at hvalid
        exact hvalid
      · rw [if_neg hb]
        exact .invalid [b] rest _ (List.cons_ne_nil _ _) ih

/-- The plan with the memory of the request. -/
def roomyPlan : JudgePlan :=
  { plan with memoryKiB := 524288 }

def context : ExecutionContext where
  id := execution
  attempt := 1
  problemVersionId := versionId
  language := .python
  mode := .submit
  sourceCode := "class Solution \x7b\x7d"

/-- The program answers the first case, and comes to no end with the second. -/
def answering (o : CommandOptions) : Reaction :=
  if o.input = encode "1 2" then printing (encode "3\n") o else endless o

/-- The report on it. -/
def report : ExecutionObservation where
  cases :=
    [{ caseId := publicCase.text, stdout := "3\n", exitCode := some 0, cpuMs := some 0,
       memoryKiB := some 0 },
     { caseId := hiddenCase.text, failure := some .timeLimitExceeded }]

end Sample

theorem observation_accepted_sample :
    ∃ trace, Plays (Sample.idle.execute Sample.library (Sample.sandboxed .python)) trace
        (.ok Sample.report) ∧
      Orderly trace ∧ observationSchema Sample.report.toJudge = true ∧
      ∃ result, judge id Sample.roomyPlan .submit .python (some Sample.report.toJudge)
        = .ok result := by
  have hplays := Sample.plays_executed .python
    (Sample.reacting DockerCommand.isProgram Sample.answering) (.ok Sample.measured)
  rw [show (Sample.executed .python (Sample.reacting DockerCommand.isProgram Sample.answering)
    (.ok Sample.measured)).2 = .ok Sample.report by decide +kernel] at hplays
  have horderly : Orderly (Sample.executed .python
      (Sample.reacting DockerCommand.isProgram Sample.answering) (.ok Sample.measured)).1 :=
    ⟨by decide +kernel, by decide +kernel⟩
  have haccepted := observation_accepted Sample.library Sample.library_decodesUtf8 Sample.idle
    Sample.context Sample.roomyPlan Sample.plan.cases.reverse (by decide +kernel)
    (Sample.sandboxed .python) (by decide +kernel) _ Sample.report hplays horderly
  exact ⟨_, hplays, horderly, haccepted.1, haccepted.2.2.2 id⟩

end ArenaCore
