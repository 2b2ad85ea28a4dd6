import ArenaCore.Lib.Runs
import ArenaCore.Runner.Policy
import ArenaCore.Store.Rows

/-!
# The Problem Tables

`ProblemVersion`, `TestCase` and `TestCaseFile` with everything PostgreSQL
checks when a row of one of them is written: the trigger functions that
protect published versions, the one that validates a version when it is
published, the `CHECK` constraints, the keys, and the foreign keys with their
cascades. Rows written by a cascade pass the triggers of their own table.

A statement names one row and either changes the tables or is refused, with
the tables as they were. Reasons for refusal are listed in the order in which
they are met. References from and to other tables are left out: they can only
refuse more statements.

## Main definitions

* `VersionRow`, `TestRow`, `FileRow`: The rows, with the columns that no
  constraint reads kept together.
* `ProblemTables`: The three tables.
* `protectPublishedVersion`, `validateStdin`, `validateFiles`,
  `protectPublishedTests`, `protectPublishedTestFiles`: The trigger functions.
* `TableStatement`: A single-row statement.
* `TableStatement.refusals`, `TableStatement.write`: What refuses it, and what
  it does otherwise.
* `ProblemTables.run`: A list of statements.
-/

namespace ArenaCore

inductive InputMode where
  | stdin
  | files
deriving DecidableEq, Repr

inductive Difficulty where
  | easy
  | medium
  | hard
deriving DecidableEq, Repr

/-- The program a solution starts from, by language. -/
structure Templates where
  java : String
  python : String
  javascript : String
deriving DecidableEq, Repr

/-- The columns of a version that no constraint reads. -/
structure VersionContent where
  title : String
  difficulty : Difficulty
  tags : List String
  statementMarkdown : String
  constraints : List String
  templates : Templates
deriving DecidableEq, Repr

structure VersionRow where
  id : Uuid
  problemId : Uuid
  number : Int
  content : VersionContent
  timeMs : Int
  memoryKiB : Int
  comparator : String := "EXACT_NEWLINE"
  inputMode : InputMode := .stdin
  published : Bool := false
deriving DecidableEq

structure TestRow where
  id : Uuid
  problemVersionId : Uuid
  ordinal : Int
  visibility : Visibility
  input : String
  expectedOutput : String
deriving DecidableEq

structure FileRow where
  testCaseId : Uuid
  name : String
  content : String
deriving DecidableEq

structure ProblemTables where
  versions : List VersionRow := []
  tests : List TestRow := []
  files : List FileRow := []
deriving DecidableEq

namespace ProblemTables

variable (s : ProblemTables)

/-- `EXISTS (SELECT 1 FROM "ProblemVersion" WHERE id = ... AND published)`. -/
def isPublished (versionId : Uuid) : Bool :=
  s.versions.any fun v => decide (v.id = versionId) && v.published

/-- `SELECT "problemVersionId" FROM "TestCase" WHERE id = ...`. -/
def versionOf (testCaseId : Uuid) : Option Uuid :=
  (s.tests.find? fun t => decide (t.id = testCaseId)).map TestRow.problemVersionId

end ProblemTables

/-! ### Triggers

Each function returns whether it raises. -/

/-- On `UPDATE` and `DELETE`. -/
def protectPublishedVersion (old : VersionRow) : Bool :=
  old.published

/-- The row becomes published. -/
def publishes (old new : VersionRow) : Bool :=
  new.published && !old.published

/-- The first test of `validate_problem_input_contract`, on `UPDATE OF
    published`. Cases are looked up under the new identifier. -/
def validateStdin (s : ProblemTables) (old new : VersionRow) : Bool :=
  publishes old new && decide (new.inputMode = .stdin) &&
    s.files.any fun f => s.tests.any fun t =>
      decide (t.id = f.testCaseId) && decide (t.problemVersionId = new.id)

/-- The second test of `validate_problem_input_contract`. -/
def validateFiles (s : ProblemTables) (old new : VersionRow) : Bool :=
  publishes old new && decide (new.inputMode = .files) &&
    s.tests.any fun t => decide (t.problemVersionId = new.id) &&
      (decide (t.input ≠ "") || !s.files.any fun f => decide (f.testCaseId = t.id))

/-- On every write to `TestCase`, with the rows the operation has. -/
def protectPublishedTests (s : ProblemTables) (old new : Option TestRow) : Bool :=
  (old.any fun t => s.isPublished t.problemVersionId) ||
    new.any fun t => s.isPublished t.problemVersionId

/-- On every write to `TestCaseFile`. An update looks at the new row only. -/
def protectPublishedTestFiles (s : ProblemTables) (old new : Option FileRow) : Bool :=
  ((new.or old).bind fun f => s.versionOf f.testCaseId).any s.isPublished

/-! ### Constraints -/

/-- `CHECK` constraint `positive_problem_limits`. -/
def positiveProblemLimits (v : VersionRow) : Bool :=
  decide (0 < v.timeMs) && decide (0 < v.memoryKiB) && decide (0 < v.number)

/-- `CHECK` constraint `nonnegative_test_ordinal`. -/
def nonnegativeTestOrdinal (t : TestRow) : Bool :=
  decide (0 ≤ t.ordinal)

/-- `CHECK` constraint `safe_test_file_name`. -/
def safeTestFileName (f : FileRow) : Bool :=
  isPlainFileName f.name.toList && decide (f.name.toList.length ≤ 100) &&
    !reservedFileNames.contains f.name && !endsWithClass f.name

/-- `CHECK` constraint `bounded_test_file_content`. -/
def boundedTestFileContent (f : FileRow) : Bool :=
  decide (byteLength f.content ≤ 262144)

/-! ### Statements -/

/-- A single-row statement. An update of a version says what it assigns to
    `published`, if anything: one of the triggers depends on that, and the row
    keeps its old value otherwise. -/
inductive TableStatement where
  | insertVersion (new : VersionRow)
  | updateVersion (id : Uuid) (published : Option Bool) (new : VersionRow)
  | deleteVersion (id : Uuid)
  | insertTest (new : TestRow)
  | updateTest (id : Uuid) (new : TestRow)
  | deleteTest (id : Uuid)
  | insertFile (new : FileRow)
  | updateFile (testCaseId : Uuid) (name : String) (new : FileRow)
  | deleteFile (testCaseId : Uuid) (name : String)
deriving DecidableEq

/-- The row an update of a version makes of the old one. -/
def VersionRow.assign (old : VersionRow) (published : Option Bool) (new : VersionRow) :
    VersionRow :=
  { new with published := published.getD old.published }

/-- The file a key names. -/
def FileRow.isAt (testCaseId : Uuid) (name : String) (f : FileRow) : Bool :=
  decide (f.testCaseId = testCaseId) && decide (f.name = name)

namespace ProblemTables

variable (s : ProblemTables)

/-- The tables after an update of a version, before its cascade. -/
def putVersion (id : Uuid) (published : Option Bool) (new : VersionRow) : ProblemTables :=
  { s with versions := s.versions.map fun v =>
      if v.id = id then v.assign published new else v }

/-- Cases follow the identifier of their version. -/
def moveTests (id : Uuid) (new : VersionRow) : ProblemTables :=
  { s with tests := s.tests.map fun t =>
      if t.problemVersionId = id then { t with problemVersionId := new.id } else t }

def putTest (id : Uuid) (new : TestRow) : ProblemTables :=
  { s with tests := s.tests.map fun t => if t.id = id then new else t }

/-- Files follow the identifier of their case. -/
def moveFiles (id : Uuid) (new : TestRow) : ProblemTables :=
  { s with files := s.files.map fun f =>
      if f.testCaseId = id then { f with testCaseId := new.id } else f }

end ProblemTables

/-- An insertion, or a statement whose row exists. -/
def TableStatement.isEffective (s : ProblemTables) : TableStatement → Bool
  | insertVersion _ | insertTest _ | insertFile _ => true
  | updateVersion id _ _ | deleteVersion id => s.versions.any fun v => decide (v.id = id)
  | updateTest id _ | deleteTest id => s.tests.any fun t => decide (t.id = id)
  | updateFile testCaseId name _ | deleteFile testCaseId name =>
      s.files.any (FileRow.isAt testCaseId name)

/-- What refuses a statement, with its reason. -/
def TableStatement.refusals (s : ProblemTables) : TableStatement → List (Bool × String)
  | insertVersion new =>
      [(!positiveProblemLimits new, "positive_problem_limits"),
        (s.versions.any fun v => decide (v.id = new.id), "ProblemVersion_pkey"),
        (s.versions.any fun v => decide (v.problemId = new.problemId ∧ v.number = new.number),
          "ProblemVersion_problemId_number_key")]
  | updateVersion id published new =>
      [(s.versions.any fun v => decide (v.id = id) && protectPublishedVersion v,
          "published problem versions are immutable"),
        (published.isSome && s.versions.any fun v => decide (v.id = id) &&
          validateStdin s v (v.assign published new),
          "stdin problem versions cannot contain test files"),
        (published.isSome && s.versions.any fun v => decide (v.id = id) &&
          validateFiles s v (v.assign published new),
          "file problem versions require at least one file and empty stdin for every case"),
        (!positiveProblemLimits new, "positive_problem_limits"),
        (s.versions.any fun v => decide (v.id ≠ id ∧ v.id = new.id), "ProblemVersion_pkey"),
        (s.versions.any fun v => decide (v.id ≠ id ∧ v.problemId = new.problemId ∧
          v.number = new.number), "ProblemVersion_problemId_number_key"),
        (decide (new.id ≠ id) && s.tests.any fun t => decide (t.problemVersionId = id) &&
          protectPublishedTests (s.putVersion id published new) (some t)
            (some { t with problemVersionId := new.id }), "published test suites are immutable")]
  | deleteVersion id =>
      [(s.versions.any fun v => decide (v.id = id) && protectPublishedVersion v,
          "published problem versions are immutable"),
        (s.tests.any fun t => decide (t.problemVersionId = id), "TestCase_problemVersionId_fkey")]
  | insertTest new =>
      [(protectPublishedTests s none (some new), "published test suites are immutable"),
        (!nonnegativeTestOrdinal new, "nonnegative_test_ordinal"),
        (s.tests.any fun t => decide (t.id = new.id), "TestCase_pkey"),
        (s.tests.any fun t => decide (t.problemVersionId = new.problemVersionId ∧
          t.ordinal = new.ordinal), "TestCase_problemVersionId_ordinal_key"),
        (!s.versions.any fun v => decide (v.id = new.problemVersionId),
          "TestCase_problemVersionId_fkey")]
  | updateTest id new =>
      [(s.tests.any fun t => decide (t.id = id) && protectPublishedTests s (some t) (some new),
          "published test suites are immutable"),
        (!nonnegativeTestOrdinal new, "nonnegative_test_ordinal"),
        (s.tests.any fun t => decide (t.id ≠ id ∧ t.id = new.id), "TestCase_pkey"),
        (s.tests.any fun t => decide (t.id ≠ id ∧ t.problemVersionId = new.problemVersionId ∧
          t.ordinal = new.ordinal), "TestCase_problemVersionId_ordinal_key"),
        (!s.versions.any fun v => decide (v.id = new.problemVersionId),
          "TestCase_problemVersionId_fkey"),
        (decide (new.id ≠ id) && s.files.any fun f => decide (f.testCaseId = id) &&
          protectPublishedTestFiles (s.putTest id new) (some f)
            (some { f with testCaseId := new.id }), "published test files are immutable")]
  | deleteTest id =>
      [(s.tests.any fun t => decide (t.id = id) && protectPublishedTests s (some t) none,
          "published test suites are immutable")]
  | insertFile new =>
      [(protectPublishedTestFiles s none (some new), "published test files are immutable"),
        (!boundedTestFileContent new, "bounded_test_file_content"),
        (!safeTestFileName new, "safe_test_file_name"),
        (s.files.any (FileRow.isAt new.testCaseId new.name), "TestCaseFile_pkey"),
        (!s.tests.any fun t => decide (t.id = new.testCaseId), "TestCaseFile_testCaseId_fkey")]
  | updateFile testCaseId name new =>
      [(s.files.any fun f => f.isAt testCaseId name &&
          protectPublishedTestFiles s (some f) (some new), "published test files are immutable"),
        (!boundedTestFileContent new, "bounded_test_file_content"),
        (!safeTestFileName new, "safe_test_file_name"),
        (s.files.any fun f => !f.isAt testCaseId name && f.isAt new.testCaseId new.name,
          "TestCaseFile_pkey"),
        (!s.tests.any fun t => decide (t.id = new.testCaseId), "TestCaseFile_testCaseId_fkey")]
  | deleteFile testCaseId name =>
      [(s.files.any fun f => f.isAt testCaseId name && protectPublishedTestFiles s (some f) none,
          "published test files are immutable")]

/-- What an accepted statement does. -/
def TableStatement.write (s : ProblemTables) : TableStatement → ProblemTables
  | insertVersion new => { s with versions := s.versions ++ [new] }
  | updateVersion id published new => (s.putVersion id published new).moveTests id new
  | deleteVersion id => { s with versions := s.versions.filter fun v => decide (v.id ≠ id) }
  | insertTest new => { s with tests := s.tests ++ [new] }
  | updateTest id new => (s.putTest id new).moveFiles id new
  | deleteTest id =>
      { s with
        tests := s.tests.filter fun t => decide (t.id ≠ id),
        files := s.files.filter fun f => decide (f.testCaseId ≠ id) }
  | insertFile new => { s with files := s.files ++ [new] }
  | updateFile testCaseId name new =>
      { s with files := s.files.map fun f => if f.isAt testCaseId name then new else f }
  | deleteFile testCaseId name =>
      { s with files := s.files.filter fun f => !f.isAt testCaseId name }

namespace ProblemTables

/-- A statement is refused for its first reason, or written. One that finds
    no row does nothing. -/
def step (s : ProblemTables) (statement : TableStatement) : ProblemTables × Option String :=
  if statement.isEffective s then
    match (statement.refusals s).find? Prod.fst with
    | some (_, reason) => (s, some reason)
    | none => (statement.write s, none)
  else (s, none)

/-- The tables after a list of statements, from empty ones. -/
def run (statements : List TableStatement) : ProblemTables :=
  Runs.run step {} statements

end ProblemTables

end ArenaCore
