import ArenaCore.Problems.Tables

/-!
# Writing Problems

`createProblemInput` and what `AdminService.createProblem` and `editProblem`
do with a problem it has accepted. Both store a new version as a draft, add
its cases and their files, and publish it last, all in one transaction of
table statements; they differ in where the problem comes from.

Lengths are counted in code points, as the schema library counts them.

## Main definitions

* `RawProblem`, `ProblemInput`: A problem before and after parsing.
* `createProblemInput`: Trimming, defaults and checks.
* `AcceptedProblem`: A problem that has passed them.
* `storeVersion`: The statements of one version.
* `ProblemTables.transact`: Statements that all succeed or have no effect.
* `Catalogue`, `createProblem`, `editProblem`: The two operations.
-/

namespace ArenaCore

/-! ### Texts -/

/-- The pattern `^[a-z0-9]+(?:-[a-z0-9]+)*$`. -/
def isSlug (s : String) : Bool :=
  (s.toList.splitOn '-').all fun part => !part.isEmpty && part.all isSlugChar

/-- The pattern `^[a-z0-9][a-z0-9-]{0,29}$`. -/
def isTag (s : String) : Bool :=
  s.toList.head?.any isSlugChar && s.toList.all (fun c => isSlugChar c || c == '-') &&
    decide (s.toList.length ≤ 30)

/-! ### Input -/

structure ProblemTest where
  visibility : Visibility
  input : String
  files : List (String × String)
  expectedOutput : String
deriving DecidableEq

/-- A problem as the schema returns it. -/
structure ProblemInput where
  slug : String
  content : VersionContent
  timeMs : Int
  memoryKiB : Int
  inputMode : InputMode
  tests : List ProblemTest
  publish : Bool
deriving DecidableEq

/-- A test as it is sent. -/
structure RawTest where
  visibility : Visibility
  input : String
  files : Option (List (String × String)) := none
  expectedOutput : String

/-- A problem as it is sent. -/
structure RawProblem where
  slug : String
  title : String
  difficulty : Difficulty
  tags : List String
  statementMarkdown : String
  constraints : List String
  timeMs : Int
  memoryKiB : Int
  inputMode : Option InputMode := none
  templates : Templates
  tests : List RawTest
  publish : Bool

/-- Texts are trimmed, some in lower case, and absent members have defaults. -/
def RawProblem.normalize (toLowerCase : String → String) (raw : RawProblem) : ProblemInput where
  slug := toLowerCase (trim raw.slug)
  content :=
    { title := trim raw.title
      difficulty := raw.difficulty
      tags := raw.tags.map fun tag => toLowerCase (trim tag)
      statementMarkdown := trim raw.statementMarkdown
      constraints := raw.constraints.map trim
      templates := raw.templates }
  timeMs := raw.timeMs
  memoryKiB := raw.memoryKiB
  inputMode := raw.inputMode.getD .stdin
  tests := raw.tests.map fun t =>
    { visibility := t.visibility
      input := t.input
      files := (t.files.getD []).map fun f => (trim f.1, f.2)
      expectedOutput := t.expectedOutput }
  publish := raw.publish

def testFileName (name : String) : Bool :=
  isInputFileName name

def testFile (file : String × String) : Bool :=
  testFileName file.1 && hasLength 0 64000 file.2

/-- A test by itself, without the issues of the mode. -/
def testSchema (t : ProblemTest) : Bool :=
  hasLength 0 64000 t.input && decide (t.files.length ≤ 16) && t.files.all testFile &&
    hasLength 0 64000 t.expectedOutput

/-- The members of a problem, one by one. -/
def problemSchema (p : ProblemInput) : Bool :=
  isSlug p.slug && hasLength 0 100 p.slug && hasLength 3 160 p.content.title &&
    p.content.tags.all isTag && decide (p.content.tags.length ≤ 12) &&
    hasLength 20 50000 p.content.statementMarkdown &&
    p.content.constraints.all (hasLength 1 500) && decide (p.content.constraints.length ≤ 30) &&
    decide (100 ≤ p.timeMs) && decide (p.timeMs ≤ 30000) &&
    decide (16384 ≤ p.memoryKiB) && decide (p.memoryKiB ≤ 1048576) &&
    hasLength 0 64000 p.content.templates.java && hasLength 0 64000 p.content.templates.python &&
    hasLength 0 64000 p.content.templates.javascript &&
    p.tests.all testSchema && decide (2 ≤ p.tests.length) && decide (p.tests.length ≤ 100)

/-- A path into the input, and what is wrong there. -/
structure Issue where
  path : List String
  message : String
deriving DecidableEq, Repr

/-- The issues of one test: its file names, and whether it fits the mode. -/
def testIssues (mode : InputMode) (entry : ProblemTest × Nat) : List Issue :=
  let place := ["tests", toString entry.2]
  (if (entry.1.files.map Prod.fst).Nodup then []
    else [⟨place ++ ["files"], "Input filenames must be unique"⟩]) ++
  (if mode = .stdin ∧ entry.1.files ≠ [] then
      [⟨place ++ ["files"], "STDIN problems cannot define input files"⟩]
    else []) ++
  (if mode = .files ∧ (entry.1.files = [] ∨ entry.1.input ≠ "") then
      [⟨place, "File problems require files and an empty stdin value"⟩]
    else [])

def problemIssues (p : ProblemInput) : List Issue :=
  (if p.tests.any fun t => decide (t.visibility = .publicCase) then []
    else [⟨["tests"], "At least one public example is required"⟩]) ++
  (if p.tests.any fun t => decide (t.visibility = .hiddenCase) then []
    else [⟨["tests"], "At least one hidden test is required"⟩]) ++
  p.tests.zipIdx.flatMap (testIssues p.inputMode)

def ProblemInput.isAccepted (p : ProblemInput) : Bool :=
  problemSchema p && (problemIssues p).isEmpty

/-- A problem the schema has accepted. -/
structure AcceptedProblem extends ProblemInput where
  accepted : toProblemInput.isAccepted = true

def createProblemInput (toLowerCase : String → String) (raw : RawProblem) :
    Option AcceptedProblem :=
  if h : (raw.normalize toLowerCase).isAccepted = true then some ⟨_, h⟩ else none

/-! ### Storing a version -/

/-- The identifiers the client library generates for a version and for the
    case at each position. -/
structure NewVersion where
  id : Uuid
  problemId : Uuid
  number : Int
  testIds : Nat → Uuid

/-- The draft. Repeated tags are dropped. -/
def versionRow (v : NewVersion) (p : ProblemInput) : VersionRow :=
  { id := v.id, problemId := v.problemId, number := v.number,
    content := { p.content with tags := p.content.tags.eraseDups },
    timeMs := p.timeMs, memoryKiB := p.memoryKiB, inputMode := p.inputMode }

/-- A test at a position, counted from zero. -/
def testRow (v : NewVersion) (entry : ProblemTest × Nat) : TestRow :=
  { id := v.testIds entry.2, problemVersionId := v.id, ordinal := entry.2 + 1,
    visibility := entry.1.visibility, input := entry.1.input,
    expectedOutput := entry.1.expectedOutput }

def fileRows (v : NewVersion) (entry : ProblemTest × Nat) : List FileRow :=
  entry.1.files.map fun f => { testCaseId := v.testIds entry.2, name := f.1, content := f.2 }

def storeTest (v : NewVersion) (entry : ProblemTest × Nat) : List TableStatement :=
  .insertTest (testRow v entry) :: (fileRows v entry).map .insertFile

/-- A draft, its cases with their files, and its publication. -/
def storeVersion (v : NewVersion) (p : ProblemInput) : List TableStatement :=
  .insertVersion (versionRow v p) :: p.tests.zipIdx.flatMap (storeTest v) ++
    if p.publish then [.updateVersion v.id (some true) (versionRow v p)] else []

/-- All statements, or the reason for which the first of them is refused. -/
def ProblemTables.transact (s : ProblemTables) : List TableStatement → Except String ProblemTables
  | [] => .ok s
  | statement :: rest =>
      match s.step statement with
      | (_, some reason) => .error reason
      | (s', none) => s'.transact rest

/-! ### Problems -/

structure ProblemRow where
  id : Uuid
  slug : String
  currentVersionId : Option Uuid := none
deriving DecidableEq

/-- The problems with their versions. -/
structure Catalogue where
  problems : List ProblemRow := []
  tables : ProblemTables := {}

/-- What both operations return. -/
structure StoredProblem where
  id : Uuid
  slug : String
  versionId : Uuid
  published : Bool
deriving DecidableEq

/-- Trigger function `validate_current_version`. -/
def validateCurrentVersion (s : ProblemTables) (problemId versionId : Uuid) : Bool :=
  s.versions.any fun v => decide (v.id = versionId) && decide (v.problemId = problemId) &&
    v.published

/-- The constraints whose violation has code `P2002`. -/
def uniqueConstraints : List String :=
  ["ProblemVersion_pkey", "ProblemVersion_problemId_number_key", "TestCase_pkey",
    "TestCase_problemVersionId_ordinal_key", "TestCaseFile_pkey"]

/-- Store a version of a problem and make it the current one if it is
    published. -/
def Catalogue.addVersion (c : Catalogue) (v : NewVersion) (p : ProblemInput) :
    Except Error Catalogue :=
  match c.tables.transact (storeVersion v p) with
  | .error reason => .error (.guard reason)
  | .ok tables =>
      if p.publish then
        if validateCurrentVersion tables v.problemId v.id then
          .ok ⟨c.problems.map fun row =>
            if row.id = v.problemId then { row with currentVersionId := some v.id } else row,
            tables⟩
        else .error (.guard "current version must be published and belong to this problem")
      else .ok ⟨c.problems, tables⟩

/-- A new problem with its first version. -/
def createProblem (c : Catalogue) (problemId versionId : Uuid) (testIds : Nat → Uuid)
    (input : AcceptedProblem) : Except Error (StoredProblem × Catalogue) :=
  let slugTaken := Error.api 409 "SLUG_TAKEN" "That problem slug is already in use."
  if c.problems.any fun row => decide (row.slug = input.slug) || decide (row.id = problemId) then
    .error slugTaken
  else
    let v : NewVersion := ⟨versionId, problemId, 1, testIds⟩
    let problems := c.problems ++ [{ id := problemId, slug := input.slug }]
    match Catalogue.addVersion ⟨problems, c.tables⟩ v input.toProblemInput with
    | .error (.guard reason) =>
        .error (if uniqueConstraints.contains reason then slugTaken else .guard reason)
    | .error e => .error e
    | .ok c' => .ok (⟨problemId, input.slug, versionId, input.publish⟩, c')

/-- The number of a problem's latest version, or zero. -/
def ProblemTables.latestNumber (s : ProblemTables) (problemId : Uuid) : Int :=
  ((s.versions.filter fun v => decide (v.problemId = problemId)).map VersionRow.number).foldl max 0

/-- One more version of a problem, under its slug. -/
def editProblem (c : Catalogue) (problemId versionId : Uuid) (testIds : Nat → Uuid)
    (input : AcceptedProblem) : Except Error (StoredProblem × Catalogue) :=
  match c.problems.find? fun row => decide (row.id = problemId) with
  | none => .error (.api 404 "NOT_FOUND" "Problem not found.")
  | some problem =>
      if problem.slug ≠ input.slug then
        .error (.api 409 "SLUG_IMMUTABLE" "A problem slug cannot change after creation.")
      else do
        let v : NewVersion := ⟨versionId, problemId, c.tables.latestNumber problemId + 1, testIds⟩
        let c' ← c.addVersion v input.toProblemInput
        .ok (⟨problemId, problem.slug, versionId, input.publish⟩, c')

end ArenaCore
