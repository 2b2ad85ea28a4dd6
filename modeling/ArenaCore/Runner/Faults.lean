import Mathlib.Algebra.Order.BigOperators.Group.List
import ArenaCore.Runner.Supervisor

/-!
# Faults a Learner Can Cause

What the supervisor does when everything but the learner's program works: no
abort, every command of its own succeeds, every container has the policy it was
created with, and metrics can be read. The compiler and the program may exit
with any code, print too much or take too long.

Then the only exceptions come from the compiler's container: a compiler that is
stopped for its time or its output, and class files that `normalizeJavaArtifacts`
refuses. Both are in a learner's power (`compiler_timeout_throws`). In the cases
themselves every way to exceed a limit is caught.

## Main definitions

* `Calm`: Nothing fails but the learner's commands.
* `TarSizes`: The size of an archive, as the format has it.
* `Compiles`: The compiler was not stopped and left acceptable class files.

## Theorems

* `calm_runCases`: The cases do not throw.
* `execute_returns_iff`: A request throws exactly if the compiler was stopped or
  its class files are refused.
* `compiler_timeout_throws`: A learner can have that.
-/

namespace ArenaCore

open Dialogue Runner

variable {supervisor : SandboxSupervisor} {request : AcceptedRequest}

/-! ### What works -/

/-- How a command ends that does what it is for. The learner's commands may
    end in any way that is not a fault of docker. -/
def succeeds (lib : Library) : DockerCommand → Reaction → Bool
  | .javac _, r | .program _ _, r =>
      match r.outcome with
      | .ok x => decide (0 ≤ x.exitCode) && decide (x.exitCode ≤ 255)
      | .error code => code == .commandTimeout || code == .outputLimit
  | .list _, r =>
      match r.outcome with
      | .ok x => trim (lib.decode x.stdout) == ""
      | .error _ => false
  | _, r => r.outcome.isOk

/-- An exchange in which nothing fails but a learner's command. -/
def isCalm (lib : Library) : RunnerExchange → Bool
  | ⟨.aborted, stop⟩ => !stop
  | ⟨.command c _, r⟩ => succeeds lib c r
  | ⟨.snapshot _, answer⟩ => answer.isOk
  | _ => true

/-- An inspected container has the policy it was created with. -/
def isAsCreated (lib : Library) : RunnerExchange → RunnerExchange → Bool
  | ⟨.command (.create name _ memoryMiB _) _, _⟩, ⟨.command (.inspect name') _, r⟩ =>
      match r.outcome with
      | .ok x => !decide (name = name') || (containerPolicy lib memoryMiB x.stdout).isOk
      | .error _ => true
  | _, _ => true

/-- Later metrics of a container follow from earlier ones. -/
def isLater : RunnerExchange → RunnerExchange → Bool
  | ⟨.snapshot name, .ok before⟩, ⟨.snapshot name', .ok after⟩ =>
      !decide (name = name') || (metricDelta before after).isOk
  | _, _ => true

/-- Nothing fails but the learner's commands. -/
structure Calm (lib : Library) (trace : List RunnerExchange) : Prop where
  calm : ∀ x ∈ trace, isCalm lib x = true
  asCreated : ∀ x ∈ trace, ∀ y ∈ trace, isAsCreated lib x y = true
  later : trace.Pairwise fun x y => isLater x y = true

/-- Archives are made of blocks: one for the name of a file, those of its
    content, and two at the end. Names of up to a hundred plain characters need
    no more. -/
def TarSizes (lib : Library) : Prop :=
  ∀ files : List (String × Bytes),
    (∀ f ∈ files, f.1.toList.length ≤ 100 ∧ ∀ c ∈ f.1.toList, c.toNat < 128) →
    (lib.pack files).length
      = (files.map fun f => 512 + (f.2.length + 511) / 512 * 512).sum + 1024

/-- The compiler was not stopped, and its class files are acceptable. -/
def Compiles (lib : Library) (trace : List RunnerExchange) : Prop :=
  (∀ name o (r : Reaction), (⟨.command (.javac name) o, r⟩ : RunnerExchange) ∈ trace →
    ∃ x, r.outcome = .ok x) ∧
  ∀ name o (r : Reaction) x, (⟨.command (.packClasses name) o, r⟩ : RunnerExchange) ∈ trace →
    r.outcome = .ok x → ∃ archive, normalizeJavaArtifacts lib x.stdout = .ok archive

section Calm

variable {lib : Library} {trace : List RunnerExchange} {α : Type} {r : Reaction}
  {o : CommandOptions} {archive : Bytes} {deadline : Int} {name : Uuid} {test : SandboxCase}
  {request : SandboxRequest} {c : DockerCommand} {language : Language} {memoryMiB : Rat}
  {started : Nat} {p : Progress} {result : Except RunnerError Compiled}

theorem Calm.splits : Splits (Calm lib) := by
  intro first rest h
  obtain ⟨hfirst, hrest, _⟩ := List.pairwise_append.1 h.later
  exact ⟨⟨fun x hx => h.calm x (List.mem_append_left _ hx),
      fun x hx y hy => h.asCreated x (List.mem_append_left _ hx) y (List.mem_append_left _ hy),
      hfirst⟩,
    ⟨fun x hx => h.calm x (List.mem_append_right _ hx),
      fun x hx y hy => h.asCreated x (List.mem_append_right _ hx) y (List.mem_append_right _ hy),
      hrest⟩⟩

def DockerCommand.isLearner : DockerCommand → Bool
  | .javac _ | .program _ _ => true
  | _ => false

theorem isOk_iff {ε : Type} {x : Except ε α} : x.isOk = true ↔ ∃ a, x = .ok a := by
  cases x with
  | error | ok => simp [Except.isOk, Except.toBool]

theorem ok_of_succeeds (h : succeeds lib c r = true) (hc : c.isLearner = false) :
    ∃ x, r.outcome = .ok x := by
  cases c with
  | javac | program => cases hc
  | list =>
      cases hr : r.outcome with
      | error code => simp [succeeds, hr] at h
      | ok x => exact ⟨x, rfl⟩
  | create | inspect | start | unpack | makeClasses | packClasses | inspectState | remove =>
      exact isOk_iff.1 h

theorem calm_command (hc : c.isLearner = false) : Sure (Calm lib) (command c o) := by
  intro trace result h hplays
  obtain ⟨r, rfl, rfl⟩ := plays_command.1 hplays
  obtain ⟨x, hx⟩ := ok_of_succeeds (h.calm _ List.mem_cons_self) hc
  exact ⟨x, by rw [hx]; rfl⟩

theorem calm_now : Sure (Calm lib) now := by
  intro trace result _ hplays
  obtain ⟨time, _, rfl⟩ := plays_now.1 hplays
  exact ⟨time, rfl⟩

theorem calm_throwIfAborted : Sure (Calm lib) throwIfAborted := by
  intro trace result h hplays
  obtain ⟨stop, rfl, rfl⟩ := plays_throwIfAborted.1 hplays
  have hstop := h.calm _ List.mem_cons_self
  cases stop with
  | false => exact ⟨(), rfl⟩
  | true => cases hstop

theorem calm_snapshot (name : Uuid) : Sure (Calm lib) (snapshot name) := by
  intro trace result h hplays
  rw [plays_snapshot.1 hplays] at h
  exact isOk_iff.1 (h.calm _ List.mem_cons_self)

/-! ### Containers -/

theorem calm_tearDown (name : Uuid) : Sure (Calm lib) (tearDown lib name) := by
  have hdestroy : Sure (Calm lib) (destroy lib name) := by
    intro trace result h hplays
    obtain ⟨_, rest, _, _, _, hrest, _, hplays'⟩ := (calm_command rfl).split Calm.splits h hplays
    obtain ⟨first, _, x, rfl, hlist, _, hfirst, hend⟩ :=
      (calm_command rfl).split Calm.splits hrest hplays'
    -- The listing that succeeds is empty.
    obtain ⟨r, rfl, hr⟩ := plays_command_ok.1 hfirst
    have hempty := hlist.calm _ List.mem_cons_self
    simp only [isCalm, succeeds, hr, beq_iff_eq] at hempty
    rw [if_neg (not_not.2 hempty)] at hend
    exact ⟨(), (plays_pure.1 hend).2⟩
  intro trace result h hplays
  rcases plays_tryCatch.1 hplays with ⟨a, _, rfl⟩ | ⟨first, rest, e, rfl, hfirst, _⟩
  · exact ⟨a, rfl⟩
  · obtain ⟨a, ha⟩ := hdestroy first _ (Calm.splits first rest h).1 hfirst
    cases ha

/-- The limits `containerArgs` checks. -/
def memoryAllowed (memoryMiB : Rat) : Prop :=
  memoryMiB.den = 1 ∧ 32 ≤ memoryMiB ∧ memoryMiB ≤ Caps.maxMemoryMiB

theorem calm_setUp (hmemory : memoryAllowed memoryMiB) :
    Sure (Calm lib) (setUp lib language memoryMiB archive deadline name) := by
  have hargs : containerArgs name language memoryMiB deadline
      = .ok (.create name language memoryMiB deadline) := containerArgs_eq_ok.2 ⟨hmemory, rfl⟩
  intro trace result h hplays
  rw [setUp, hargs] at hplays
  obtain ⟨_, rest₁, _, _, _, hcalm, _, hfrom₁⟩ := calm_throwIfAborted.split Calm.splits h hplays
  -- The checks passed, so the container is created.
  change Plays (command (.create name language memoryMiB deadline) { signal := true } >>= _)
    rest₁ result at hfrom₁
  obtain ⟨_, rest₂, _, rfl, _, hrest₂, hcreate, hfrom₂⟩ :=
    (calm_command rfl).split Calm.splits hcalm hfrom₁
  obtain ⟨r, rfl, _⟩ := plays_command_ok.1 hcreate
  obtain ⟨_, rest₃, _, rfl, _, hrest₃, _, hfrom₃⟩ :=
    calm_throwIfAborted.split Calm.splits hrest₂ hfrom₂
  -- It is inspected, with the policy it was created with.
  rcases plays_bind.1 hfrom₃ with ⟨e, hverify, _⟩ | ⟨_, rest₄, _, rfl, _, hfrom₄⟩
  · exfalso
    obtain ⟨_, _, x, rfl, _, _, hinspect, hpolicy⟩ :=
      (calm_command rfl).split Calm.splits hrest₃ hverify
    obtain ⟨r', rfl, hr'⟩ := plays_command_ok.1 hinspect
    obtain ⟨rfl, hfails⟩ := plays_done.1 hpolicy
    have hcreated := hcalm.asCreated _ List.mem_cons_self
      ⟨.command (.inspect name) {}, r'⟩ (by simp)
    simp only [isAsCreated, hr', ← hfails] at hcreated
    simp [Except.isOk, Except.toBool] at hcreated
  · have hrest₄ := (Calm.splits _ _ hrest₃).2
    refine Sure.bind Calm.splits (calm_command rfl) (fun _ => ?_) rest₄ result hrest₄ hfrom₄
    exact Sure.bind Calm.splits (calm_command rfl) fun _ => Sure.pure _ ()

/-- Around some work, a container comes and goes without a fault. -/
theorem calm_sandbox {body : Uuid → Runner α} {result : Except RunnerError α}
    (hmemory : memoryAllowed memoryMiB) (h : Calm lib trace)
    (hplays : Plays (sandbox lib language memoryMiB archive deadline body) trace result) :
    ∃ (name : Uuid) (before work after : List RunnerExchange),
      trace = before ++ work ++ after ∧ (∀ x ∈ before, x.1.isUpkeep = true) ∧
      (∀ x ∈ after, x.1.isUpkeep = true) ∧ Calm lib work ∧ Plays (body name) work result := by
  obtain ⟨name, inner, outer, r, rfl, hinner, hend⟩ := plays_sandbox hplays
  have hall := Calm.splits [⟨.name, name⟩] (inner ++ outer) h
  obtain ⟨hcalm, houter⟩ := Calm.splits inner outer hall.2
  rcases hend with ⟨hdown, rfl⟩ | ⟨e, hdown, _⟩
  · obtain ⟨setup, work, _, rfl, _, hwork, hsetup, hbody⟩ :=
      (calm_setUp hmemory).split Calm.splits hcalm hinner
    refine ⟨name, ⟨.name, name⟩ :: setup, work, outer, by simp, fun x hx => ?_, ?_, hwork, hbody⟩
    · rcases List.mem_cons.1 hx with rfl | hx
      · rfl
      · exact (upkeep_setUp _ _ _ _ _).plays hsetup x hx
    · exact (upkeep_tearDown name).plays hdown
  · obtain ⟨_, hdown⟩ := calm_tearDown name outer _ houter hdown
    cases hdown

/-! ### Archives -/

theorem length_encode (s : String) : (encode s).length = byteLength s := by
  rw [encode, Array.length_toList]
  rfl

/-- What fits comfortably can be packed. -/
theorem packFiles_ok (htar : TarSizes lib) {files : List (String × Bytes)}
    (hnames : ∀ f ∈ files, f.1.toList.length ≤ 100 ∧ ∀ c ∈ f.1.toList, c.toNat < 128)
    (hcount : files.length ≤ 1024)
    (hsize : (files.map fun f => f.2.length).sum ≤ 4 * 1024 * 1024) :
    packFiles lib files = .ok (lib.pack files) := by
  have hblocks : (files.map fun f => 512 + (f.2.length + 511) / 512 * 512).sum
      ≤ (files.map fun f => f.2.length).sum + 1023 * files.length := by
    clear hnames hcount hsize
    induction files with
    | nil => exact Nat.le_refl 0
    | cons f rest ih =>
        simp only [List.map_cons, List.sum_cons, List.length_cons]
        omega
  have hlength := htar files hnames
  rw [packFiles, if_neg]
  simp only [Caps.artifactBytes]
  omega

/-! ### Cases -/

theorem isPlainFileName_ascii {name : List Char} (h : isPlainFileName name = true) :
    ∀ c ∈ name, c.toNat < 128 := by
  have hchar : ∀ c, (isAlphanumeric c || c == '.' || c == '_' || c == '-') = true →
      c.toNat < 128 := by
    intro c hc
    simp only [isAlphanumeric, Bool.or_eq_true, Bool.and_eq_true, decide_eq_true_eq, beq_iff_eq,
      Char.le_def, UInt32.le_iff_toNat_le] at hc
    rcases hc with ((((⟨_, hz⟩ | ⟨_, hz⟩) | ⟨_, hz⟩) | rfl) | rfl) | rfl
    · exact Nat.lt_of_le_of_lt hz (by decide)
    · exact Nat.lt_of_le_of_lt hz (by decide)
    · exact Nat.lt_of_le_of_lt hz (by decide)
    · decide
    · decide
    · decide
  cases name with
  | nil => intro c hc; cases hc
  | cons first rest =>
      simp only [isPlainFileName, Bool.and_eq_true, List.all_eq_true] at h
      intro c hc
      rcases List.mem_cons.1 hc with rfl | hc
      · exact hchar c (by simp [h.1])
      · exact hchar c (h.2 c hc)

/-- The files of an accepted case can be packed. -/
theorem packFiles_case (htar : TarSizes lib) (h : sandboxCaseSchema test = true) :
    ∃ archive,
      packFiles lib (test.files.map fun file => (file.1, encode file.2)) = .ok archive := by
  simp only [sandboxCaseSchema, Bool.and_eq_true, decide_eq_true_eq, List.all_eq_true,
    sandboxFileSchema] at h
  obtain ⟨⟨⟨_, hcount⟩, hfiles⟩, _⟩ := h
  refine ⟨_, packFiles_ok htar ?_ ?_ ?_⟩
  · intro f hf
    obtain ⟨file, hfile, rfl⟩ := List.mem_map.1 hf
    have hname := (hfiles file hfile).1
    simp only [inputFileNameSchema, isInputFileName, hasLength, Bool.and_eq_true,
      decide_eq_true_eq] at hname
    exact ⟨hname.1.1.1.2, isPlainFileName_ascii hname.1.1.2⟩
  · rw [List.length_map]
    exact hcount.trans (by decide)
  · rw [List.map_map]
    have hsum : (test.files.map ((fun f : String × Bytes => f.2.length) ∘
        fun file => (file.1, encode file.2))).sum ≤ test.files.length • Caps.inputBytes := by
      have hle := List.sum_le_card_nsmul (test.files.map ((fun f : String × Bytes => f.2.length) ∘
        fun file => (file.1, encode file.2))) Caps.inputBytes fun n hn => by
          obtain ⟨file, hfile, rfl⟩ := List.mem_map.1 hn
          simp only [Function.comp_apply, length_encode]
          exact (hfiles file hfile).2
      rwa [List.length_map] at hle
    refine hsum.trans ?_
    rw [Nat.nsmul_eq_mul]
    calc test.files.length * Caps.inputBytes ≤ Caps.inputFiles * Caps.inputBytes :=
          Nat.mul_le_mul_right _ hcount
      _ ≤ 4 * 1024 * 1024 := by decide

theorem calm_unpackFiles (htar : TarSizes lib) (h : sandboxCaseSchema test = true) :
    Sure (Calm lib) (unpackFiles lib test name) := by
  obtain ⟨archive, harchive⟩ := packFiles_case htar h
  unfold unpackFiles
  split
  · exact Sure.pure _ ()
  · rw [harchive]
    change Sure (Calm lib) (command (.unpack name) { input := archive, signal := true } >>= _)
    exact Sure.bind Calm.splits (calm_command rfl) fun _ => Sure.pure _ ()

/-- The learner's program ends, takes too long or prints too much. -/
theorem calm_runProgram {budget : Int}
    {result : Except RunnerError (CgroupSnapshot × CommandResult)} (h : Calm lib trace)
    (hplays : Plays (runProgram request deadline test budget name) trace result) :
    (∃ before r, result = .ok (before, r) ∧
      (⟨.snapshot name, .ok before⟩ : RunnerExchange) ∈ trace) ∨
    result = .error (.docker .commandTimeout) ∨ result = .error (.docker .outputLimit) := by
  obtain ⟨_, rest, before, rfl, _, hrest, hbefore, hfrom⟩ :=
    (calm_snapshot name).split Calm.splits h hplays
  obtain ⟨_, rest, present, rfl, _, hrest, _, hfrom⟩ := calm_now.split Calm.splits hrest hfrom
  rcases plays_bind.1 hfrom with ⟨e, hprogram, rfl⟩ | ⟨_, _, r, rfl, _, hend⟩
  · obtain ⟨reaction, rfl, he⟩ := plays_command.1 hprogram
    have hends := hrest.calm _ List.mem_cons_self
    cases hr : reaction.outcome with
    | ok x => rw [hr] at he; cases he
    | error code =>
        rw [hr] at he
        cases he
        simp only [isCalm, succeeds, hr, Bool.or_eq_true, beq_iff_eq] at hends
        rcases hends with rfl | rfl
        · exact .inr (.inl rfl)
        · exact .inr (.inr rfl)
  · rw [plays_snapshot.1 hbefore]
    exact .inl ⟨before, r, (plays_pure.1 hend).2, by simp⟩

/-- A program that ended is observed, with the metrics of its container. -/
theorem calm_observe {before : CgroupSnapshot} {r : CommandResult} {past : List RunnerExchange}
    {result : Except RunnerError CaseObservation} (h : Calm lib (past ++ trace))
    (hbefore : (⟨.snapshot name, .ok before⟩ : RunnerExchange) ∈ past)
    (hplays : Plays (observe lib test started before r name) trace result) :
    ∃ c, result = .ok c := by
  obtain ⟨first, rest, measured, rfl, hmeasure, hrest⟩ := plays_attempt_bind.1 hplays
  have htrace := (Calm.splits _ _ h).2
  have hcalm := Calm.splits _ _ htrace
  obtain ⟨_, rest', after, rfl, _, _, hafter, hdelta⟩ :=
    (calm_snapshot name).split Calm.splits hcalm.1 hmeasure
  obtain ⟨rfl, rfl⟩ := plays_done.1 hdelta
  -- The second snapshot comes after the first, so there is a difference.
  have hlater := (List.pairwise_append.1 h.later).2.2 _ hbefore ⟨.snapshot name, .ok after⟩
    (by rw [plays_snapshot.1 hafter]; simp)
  simp only [isLater, decide_true, Bool.not_true, Bool.false_or] at hlater
  obtain ⟨m, hm⟩ := isOk_iff.1 hlater
  rw [hm] at hrest
  obtain ⟨_, _, _, _, _, _, _, hend⟩ := calm_now.split Calm.splits hcalm.2 hrest
  exact ⟨_, (plays_pure.1 hend).2⟩

theorem calm_caught {e : RunnerError} (he : e = .docker .commandTimeout ∨ e = .docker .outputLimit) :
    Sure (Calm lib) (caught test started p e) := by
  rcases he with rfl | rfl
  · exact Sure.bind Calm.splits calm_now fun _ => Sure.pure _ _
  · exact Sure.bind Calm.splits calm_now fun _ => Sure.pure _ _

theorem calm_runCase (htar : TarSizes lib) (htest : sandboxCaseSchema test = true) :
    Sure (Calm lib) (runCase lib request deadline test p name) := by
  intro trace result h hplays
  obtain ⟨_, rest, _, rfl, _, hrest, _, hfrom⟩ :=
    (calm_unpackFiles htar htest).split Calm.splits h hplays
  obtain ⟨_, rest, started, rfl, _, hrest, _, hfrom⟩ := calm_now.split Calm.splits hrest hfrom
  obtain ⟨program, rest, ran, rfl, hprogram, hfrom⟩ := plays_attempt_bind.1 hfrom
  have hcalm := Calm.splits _ _ hrest
  rcases calm_runProgram hcalm.1 hprogram with ⟨before, r, rfl, hbefore⟩ | rfl | rfl
  · obtain ⟨observing, rest, observed, rfl, hobserve, hfrom⟩ := plays_attempt_bind.1 hfrom
    have hobserving : Calm lib (program ++ observing) := by
      rw [← List.append_assoc] at hrest
      exact (Calm.splits _ _ hrest).1
    obtain ⟨c, rfl⟩ := calm_observe hobserving hbefore hobserve
    exact ⟨_, (plays_pure.1 hfrom).2⟩
  · exact calm_caught (.inl rfl) rest result hcalm.2 hfrom
  · exact calm_caught (.inr rfl) rest result hcalm.2 hfrom

/-- The cases of a request do not throw. -/
theorem calm_runCases (htar : TarSizes lib) (hmemory : memoryAllowed request.memoryMiB)
    {tests : List SandboxCase} (htests : ∀ test ∈ tests, sandboxCaseSchema test = true) :
    ∀ p, Sure (Calm lib) (runCases lib request deadline archive tests p) := by
  induction tests with
  | nil => exact fun p => Sure.pure _ p
  | cons test rest ih =>
      intro p
      refine Sure.bind Calm.splits calm_throwIfAborted fun _ => ?_
      split
      · exact Sure.pure _ _
      · refine Sure.bind Calm.splits ?_ fun p => ?_
        · intro trace result h hplays
          obtain ⟨name, _, work, _, _, _, _, hwork, hcase⟩ := calm_sandbox hmemory h hplays
          exact calm_runCase htar (htests test List.mem_cons_self) work result hwork hcase
        · split
          · exact Sure.pure _ p
          · exact ih (fun test' h => htests test' (List.mem_cons_of_mem _ h)) p

/-! ### The compiler -/

theorem compiles_append {first rest : List RunnerExchange} :
    Compiles lib (first ++ rest) ↔ Compiles lib first ∧ Compiles lib rest := by
  constructor
  · intro h
    exact ⟨⟨fun name o r hr => h.1 name o r (List.mem_append_left _ hr),
        fun name o r x hr => h.2 name o r x (List.mem_append_left _ hr)⟩,
      ⟨fun name o r hr => h.1 name o r (List.mem_append_right _ hr),
        fun name o r x hr => h.2 name o r x (List.mem_append_right _ hr)⟩⟩
  · rintro ⟨hfirst, hrest⟩
    refine ⟨fun name o r hr => ?_, fun name o r x hr => ?_⟩
    · exact (List.mem_append.1 hr).elim (hfirst.1 name o r) (hrest.1 name o r)
    · exact (List.mem_append.1 hr).elim (hfirst.2 name o r x) (hrest.2 name o r x)

/-- Where nothing is compiled, nothing is refused. -/
theorem compiles_of_runs (h : ∀ x ∈ trace, x.1.isCompiling = false) : Compiles lib trace :=
  ⟨fun _ _ _ hr => (Bool.false_ne_true (h _ hr).symm).elim,
    fun _ _ _ _ hr => (Bool.false_ne_true (h _ hr).symm).elim⟩

theorem compiles_javac : Compiles lib [⟨.command (.javac name) o, r⟩] ↔ ∃ x, r.outcome = .ok x := by
  constructor
  · exact fun h => h.1 name o r List.mem_cons_self
  · refine fun h => ⟨fun name' o' r' hr => ?_, fun name' o' r' x hr => ?_⟩
    · cases List.mem_singleton.1 hr
      exact h
    · cases List.mem_singleton.1 hr

theorem compiles_packClasses {x : CommandResult} (hx : r.outcome = .ok x) :
    Compiles lib [⟨.command (.packClasses name) o, r⟩] ↔
      ∃ archive, normalizeJavaArtifacts lib x.stdout = .ok archive := by
  constructor
  · exact fun h => h.2 name o r x List.mem_cons_self hx
  · refine fun h => ⟨fun name' o' r' hr => ?_, fun name' o' r' x' hr hx' => ?_⟩
    · cases List.mem_singleton.1 hr
    · cases List.mem_singleton.1 hr
      cases hx.symm.trans hx'
      exact h

/-- The compiler's work throws exactly if it was stopped or its class files are
    refused. -/
theorem calm_compile (h : Calm lib trace) (hplays : Plays (compile lib deadline name) trace result) :
    (∃ compiled, result = .ok compiled) ↔ Compiles lib trace := by
  obtain ⟨first, rest, _, rfl, _, hrest, hmake, hfrom⟩ :=
    (calm_command rfl).split Calm.splits h hplays
  have hnone : Compiles lib first := compiles_of_runs ((runs_command rfl).plays hmake)
  rw [compiles_append, and_iff_right hnone]
  obtain ⟨first, rest, _, rfl, _, hrest, hnow, hfrom⟩ := calm_now.split Calm.splits hrest hfrom
  rw [compiles_append, and_iff_right (compiles_of_runs (runs_now.plays hnow))]
  rcases plays_bind.1 hfrom with ⟨e, hjavac, rfl⟩ | ⟨_, rest, x, rfl, hjavac, hended⟩
  · -- The compiler was stopped.
    obtain ⟨r, rfl, he⟩ := plays_command.1 hjavac
    rw [compiles_javac]
    refine iff_of_false (fun ⟨_, hc⟩ => by cases hc) fun ⟨x, hx⟩ => ?_
    rw [hx] at he
    cases he
  · obtain ⟨r, rfl, hr⟩ := plays_command_ok.1 hjavac
    rw [compiles_append, and_iff_right (compiles_javac.2 ⟨x, hr⟩)]
    dsimp only at hended
    split at hended
    · -- It left class files.
      obtain ⟨_, rest, packed, rfl, _, _, hpack, hpacked⟩ :=
        (calm_command rfl).split Calm.splits (Calm.splits _ _ hrest).2 hended
      obtain ⟨r, rfl, hr⟩ := plays_command_ok.1 hpack
      rw [compiles_append, compiles_packClasses hr]
      cases hnormal : normalizeJavaArtifacts lib packed.stdout with
      | error e =>
          rw [hnormal] at hpacked
          obtain ⟨_, rfl⟩ := plays_done.1 (show Plays (.done (.error e)) rest result from hpacked)
          exact iff_of_false (fun ⟨_, hc⟩ => by cases hc) fun ⟨⟨_, hc⟩, _⟩ => by cases hc
      | ok archive =>
          rw [hnormal] at hpacked
          obtain ⟨rfl, rfl⟩ := plays_done.1 (show Plays (.done (.ok _)) rest result from hpacked)
          exact iff_of_true ⟨_, rfl⟩ ⟨⟨archive, rfl⟩, compiles_of_runs fun _ hx => by cases hx⟩
    · obtain ⟨rfl, rfl⟩ := plays_pure.1 hended
      exact iff_of_true ⟨_, rfl⟩ (compiles_of_runs fun _ hx => by cases hx)

/-! ### Requests -/

theorem AcceptedRequest.memory (request : AcceptedRequest) :
    memoryAllowed request.memoryMiB := by
  have h := request.accepted
  simp only [sandboxRequestSchema, Bool.and_eq_true, decide_eq_true_eq] at h
  exact ⟨h.1.1.1.1.2, h.1.1.1.2, h.1.1.2⟩

theorem packFiles_source (htar : TarSizes lib) (request : AcceptedRequest) :
    ∃ archive, packFiles lib [(request.language.filename, encode request.sourceCode)]
      = .ok archive := by
  have hname : ∀ language : Language, language.filename.toList.length ≤ 100 ∧
      (language.filename.toList.all fun c => decide (c.toNat < 128)) = true := by
    intro language
    cases language <;> decide
  refine ⟨_, packFiles_ok htar (fun f hf => ?_) (Nat.le_add_left 1 1023) ?_⟩
  · cases List.mem_singleton.1 hf
    obtain ⟨hlength, hplain⟩ := hname request.language
    exact ⟨hlength, fun c hc => of_decide_eq_true (List.all_eq_true.1 hplain c hc)⟩
  · simp only [List.map_cons, List.map_nil, List.sum_cons, List.sum_nil, length_encode]
    exact request.source.trans (by decide)

/-- The same, with the container around the compiler. -/
theorem calm_compiler (h : Calm lib trace)
    (hplays : Plays (sandbox lib .java Caps.compileMemoryMiB archive deadline
      (compile lib deadline)) trace result) :
    (∃ compiled, result = .ok compiled) ↔ Compiles lib trace := by
  have hmemory : memoryAllowed Caps.compileMemoryMiB := by
    unfold memoryAllowed
    decide
  obtain ⟨name, before, work, after, rfl, hbefore, hafter, hwork, hbody⟩ :=
    calm_sandbox hmemory h hplays
  rw [calm_compile hwork hbody, compiles_append, compiles_append]
  constructor
  · intro hcompiles
    exact ⟨⟨compiles_of_runs fun x hx => Query.not_isCompiling (hbefore x hx), hcompiles⟩,
      compiles_of_runs fun x hx => Query.not_isCompiling (hafter x hx)⟩
  · exact fun hcompiles => hcompiles.1.2

/-- Cases that do not throw are followed by the observation. -/
theorem calm_ran {β : Type} {p : Runner α} {f : α → β} {result : Except RunnerError β}
    (hsure : Sure (Calm lib) p) (hruns : Runs p) (h : Calm lib trace)
    (hplays : Plays (p >>= fun a => pure (f a)) trace result) :
    (∃ b, result = .ok b) ↔ Compiles lib trace := by
  obtain ⟨first, rest, a, rfl, _, _, hfirst, hend⟩ := hsure.split Calm.splits h hplays
  obtain ⟨rfl, rfl⟩ := plays_pure.1 hend
  rw [List.append_nil]
  exact iff_of_true ⟨_, rfl⟩ (compiles_of_runs (hruns.plays hfirst))

theorem perform_returns_iff (htar : TarSizes lib) (request : AcceptedRequest)
    {result : Except RunnerError (ExecutionObservation × Int)} (h : Calm lib trace)
    (hplays : Plays (perform lib request.toSandboxRequest) trace result) :
    (∃ finished, result = .ok finished) ↔ Compiles lib trace := by
  obtain ⟨first, rest, start, rfl, _, hrest, hnow, hfrom⟩ := calm_now.split Calm.splits h hplays
  rw [compiles_append, and_iff_right (compiles_of_runs (runs_now.plays hnow))]
  obtain ⟨archive, harchive⟩ := packFiles_source htar request
  dsimp only at hfrom
  rw [harchive] at hfrom
  change Plays (if request.language = .java then _ else _) rest result at hfrom
  have hcases : ∀ archive p, Sure (Calm lib) (runCases lib request.toSandboxRequest
      (start + Caps.totalMs) archive request.cases p) :=
    fun _ p => calm_runCases htar request.memory request.tests p
  split at hfrom
  · -- The compiler's container comes first.
    rcases plays_bind.1 hfrom with ⟨e, hsandbox, rfl⟩ | ⟨first, rest, compiled, rfl, hsandbox, hran⟩
    · rw [← calm_compiler hrest hsandbox]
      exact iff_of_false (fun ⟨_, hc⟩ => by cases hc) fun ⟨_, hc⟩ => by cases hc
    · have hcalm := Calm.splits _ _ hrest
      rw [compiles_append, ← calm_compiler hcalm.1 hsandbox, and_iff_right ⟨compiled, rfl⟩]
      split at hran
      · obtain ⟨rfl, rfl⟩ := plays_pure.1 hran
        exact iff_of_true ⟨_, rfl⟩ (compiles_of_runs fun _ hx => by cases hx)
      · exact calm_ran (hcases _ _) (runs_runCases _ _ _ _ _) hcalm.2 hran
  · exact calm_ran (hcases _ _) (runs_runCases _ _ _ _ _) hrest hfrom

end Calm

/-- The supervisor takes a request on. -/
def SandboxSupervisor.Admits (supervisor : SandboxSupervisor) (request : AcceptedRequest) : Prop :=
  (supervisor.ready = true ∧ supervisor.shuttingDown = false) ∧ supervisor.active.length < 2 ∧
    request.key ∉ supervisor.active

theorem execute_of_admits (lib : Library) (h : supervisor.Admits request) :
    supervisor.execute lib request
      = perform lib request.toSandboxRequest >>= fun finished => pure finished.1 := by
  obtain ⟨⟨hready, hshutting⟩, hactive, hkey⟩ := h
  rw [SandboxSupervisor.execute, if_neg (by simp [hready, hshutting]),
    if_neg (Nat.not_le.2 hactive), if_neg (by simpa using hkey)]

theorem execute_of_not_admits (lib : Library) (h : ¬supervisor.Admits request) :
    ∃ message, supervisor.execute lib request = .raise (.thrown message) := by
  unfold SandboxSupervisor.execute
  split
  · exact ⟨_, rfl⟩
  · next hready =>
      split
      · exact ⟨_, rfl⟩
      · next hactive =>
          split
          · exact ⟨_, rfl⟩
          · next hkey =>
              refine absurd ⟨?_, Nat.not_le.1 hactive, by simpa using hkey⟩ h
              simpa using hready

/-- When nothing fails but the learner's commands, a request that is taken on
    throws exactly if the compiler was stopped or its class files are refused. -/
theorem execute_returns_iff (lib : Library) (htar : TarSizes lib) (supervisor : SandboxSupervisor)
    (request : AcceptedRequest) (trace : List RunnerExchange)
    (result : Except RunnerError ExecutionObservation)
    (hplays : Plays (supervisor.execute lib request) trace result) (hcalm : Calm lib trace) :
    (∃ observation, result = .ok observation) ↔
      supervisor.Admits request ∧ Compiles lib trace := by
  by_cases hadmits : supervisor.Admits request
  · rw [execute_of_admits lib hadmits] at hplays
    rw [and_iff_right hadmits]
    rcases plays_bind.1 hplays with ⟨e, hperform, rfl⟩ | ⟨first, rest, a, rfl, hperform, hend⟩
    · rw [← perform_returns_iff htar request hcalm hperform]
      exact iff_of_false (fun ⟨_, hc⟩ => by cases hc) fun ⟨_, hc⟩ => by cases hc
    · obtain ⟨rfl, rfl⟩ := plays_pure.1 hend
      rw [List.append_nil] at hcalm ⊢
      rw [← perform_returns_iff htar request hcalm hperform]
      exact iff_of_true ⟨_, rfl⟩ ⟨a, rfl⟩
  · obtain ⟨message, hexecute⟩ := execute_of_not_admits lib hadmits
    rw [hexecute] at hplays
    obtain ⟨_, rfl⟩ := plays_raise.1 hplays
    exact iff_of_false (fun ⟨_, hc⟩ => by cases hc) fun h => hadmits h.1

namespace Sample

theorem library_tarSizes : TarSizes library :=
  fun _ _ => List.length_replicate

theorem idle_admits (language : Language) : idle.Admits (sandboxed language) :=
  ⟨⟨rfl, rfl⟩, by decide, List.not_mem_nil⟩

end Sample

theorem execute_returns_iff_compiled :
    ∃ trace result, Plays (Sample.idle.execute Sample.library (Sample.sandboxed .java)) trace result ∧
      Calm Sample.library trace ∧
      ((∃ observation, result = .ok observation) ↔
        Sample.idle.Admits (Sample.sandboxed .java) ∧ Compiles Sample.library trace) := by
  have hplays := Sample.plays_executed .java Sample.docker (.ok Sample.measured)
  have hcalm : Calm Sample.library (Sample.executed .java Sample.docker
      (.ok Sample.measured)).1 :=
    ⟨by decide +kernel, by decide +kernel, by decide +kernel⟩
  exact ⟨_, _, hplays, hcalm, execute_returns_iff Sample.library Sample.library_tarSizes
    Sample.idle (Sample.sandboxed .java) _ _ hplays hcalm⟩

/-- A program that keeps the compiler busy makes a request throw, although
    nothing else fails. -/
theorem compiler_timeout_throws :
    ∃ trace, Plays (Sample.idle.execute Sample.library (Sample.sandboxed .java)) trace
        (.error (.docker .commandTimeout)) ∧
      Sample.idle.Admits (Sample.sandboxed .java) ∧ Calm Sample.library trace ∧ Honest trace := by
  have hplays := Sample.plays_executed .java (Sample.reacting DockerCommand.isJavac Sample.endless)
    (.ok Sample.measured)
  rw [show (Sample.executed .java (Sample.reacting DockerCommand.isJavac Sample.endless)
    (.ok Sample.measured)).2 = .error (.docker .commandTimeout) by decide +kernel] at hplays
  have hcalm : Calm Sample.library (Sample.executed .java
      (Sample.reacting DockerCommand.isJavac Sample.endless) (.ok Sample.measured)).1 :=
    ⟨by decide +kernel, by decide +kernel, by decide +kernel⟩
  exact ⟨_, hplays, Sample.idle_admits .java, hcalm,
    Sample.honest_executed (Sample.reacting_settles Sample.endless_settles)⟩

end ArenaCore
