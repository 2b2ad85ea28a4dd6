import ArenaCore.Lib.Rows
import ArenaCore.Lib.Sql
import ArenaCore.Lib.Transaction
import ArenaCore.Store.Rows
import ArenaCore.Api.Users

/-!
# The Tables of Competitions

Competitions, their rounds, the problems of the rounds and the registrations, with the
keys and constraints of the schema, and what organisers, administrators and participants
do with them. Rounds and registrations go with their competition, the problems of a
round with the round, and a round that an execution refers to cannot be deleted.

A call takes effect as a whole or not at all. A creation is one transaction on the
tables, after the problems have been read: nobody sees a competition before it is
committed, and where another transaction is about to take the slug, the insertion
waits for it. An update has no such protection, so it goes statement by statement,
with what other calls commit in between. Texts keep their limits elsewhere, but the
database takes none with a NUL. Users are not deleted, so the references to them are
left out, and so are notifications and audit events, which no call reads.

## Main definitions

* `CompetitionTables`: The tables.
* `insertCompetition`, `insertRound`, `insertProblem`, `deleteRounds`,
  `deleteCompetition`: The statements with what refuses them.
* `Others`: What other calls commit meanwhile.
* `Competitions.create`, `Competitions.update`, `Competitions.register`: The service of
  organisers and participants.
* `AdminCompetitions.createCompetition`, `AdminCompetitions.setCompetitionPublication`,
  `AdminCompetitions.deleteCompetition`: The part of `AdminService` that changes competitions.
* `Executions.submit`: The part of a submission that concerns its competition.

## Theorems

* `insertCompetition_eq_ok` and so on: When a statement is accepted, and what it leaves.
-/

namespace ArenaCore

inductive CompetitionKind where
  | contest
  | tournament
deriving DecidableEq

structure CompetitionRow where
  id : Uuid
  ownerId : Option Uuid := none
  slug : String
  kind : CompetitionKind
  title : String
  description : String
  rulesMarkdown : String
  prizeLabel : Option String
  startsAt : Int
  endsAt : Int
  published : Bool := false
deriving DecidableEq

/-- No text of the row holds a NUL. -/
def CompetitionRow.storable (row : CompetitionRow) : Bool :=
  [row.title, row.description, row.rulesMarkdown].all Sql.storable &&
    row.prizeLabel.all Sql.storable

structure RoundRow where
  id : Uuid
  competitionId : Uuid
  title : String
  ordinal : Nat
  startsAt : Int
  endsAt : Int
deriving DecidableEq

structure RoundProblemRow where
  roundId : Uuid
  problemId : Uuid
  ordinal : Nat
  points : Int
deriving DecidableEq

def RoundProblemRow.key (row : RoundProblemRow) : Uuid × Uuid :=
  (row.roundId, row.problemId)

structure RegistrationRow where
  competitionId : Uuid
  userId : Uuid
  joinedAt : Int
deriving DecidableEq

def RegistrationRow.key (row : RegistrationRow) : Uuid × Uuid :=
  (row.competitionId, row.userId)

structure CaseEntry where
  ordinal : Int
  visibility : Visibility
  input : String
  expectedOutput : String
deriving DecidableEq

/-- A version with its cases by their ordinals. -/
structure VersionEntry where
  id : Uuid
  published : Bool
  comparator : String
  timeMs : Int
  memoryKiB : Int
  testCases : List CaseEntry
deriving DecidableEq

structure ProblemEntry where
  id : Uuid
  slug : String
  currentVersionId : Option Uuid
  versions : List VersionEntry
deriving DecidableEq

/-- `currentVersion: {published: true}`. -/
def ProblemEntry.isPublished (problem : ProblemEntry) : Bool :=
  problem.versions.any fun version =>
    decide (problem.currentVersionId = some version.id) && version.published

structure CompetitionTables where
  competitions : Rows CompetitionRow.id := {}
  rounds : Rows RoundRow.id := {}
  problems : Rows RoundProblemRow.key := {}
  registrations : Rows RegistrationRow.key := {}
  /-- The rounds that executions refer to, once for each execution. -/
  executions : List Uuid := []
  catalogue : Rows ProblemEntry.id := {}

/-- A write is refused for its first violation. -/
def refuse (violations : List (Bool × String)) : Except Error Unit :=
  match violations.find? Prod.fst with
  | some (_, constraint) => .error (.guard constraint)
  | none => .ok ()

theorem refuse_eq_ok {violations : List (Bool × String)} :
    refuse violations = .ok () ↔ ∀ v ∈ violations, v.1 = false := by
  unfold refuse
  split
  · next constraint h =>
      refine iff_of_false (fun h => by cases h) fun hall => ?_
      have hfalse := hall _ (List.mem_of_find?_eq_some h)
      rw [List.find?_some h] at hfalse
      cases hfalse
  · next h =>
      refine iff_of_true rfl fun v hv => ?_
      exact Bool.eq_false_iff.2 (List.find?_eq_none.1 h v hv)

/-- A write that is refused for its violations. -/
theorem refuse_bind_eq_ok {σ : Type} {violations : List (Bool × String)} {s s' : σ} :
    (do refuse violations; pure s) = Except.ok s' ↔ (∀ v ∈ violations, v.1 = false) ∧ s' = s := by
  rw [Transaction.bind_eq_ok, ← refuse_eq_ok]
  constructor
  · rintro ⟨_, hrefuse, hs⟩
    cases hs
    exact ⟨hrefuse, rfl⟩
  · rintro ⟨hrefuse, rfl⟩
    exact ⟨(), hrefuse, rfl⟩

namespace CompetitionTables

variable (t : CompetitionTables)

/-! ### Statements -/

def findSlug (slug : String) : Option CompetitionRow :=
  t.competitions.rows.find? fun row => decide (row.slug = slug)

/-- The round at a place of a competition. -/
def findRound (competitionId : Uuid) (ordinal : Nat) : Option RoundRow :=
  t.rounds.rows.find? fun row => decide (row.competitionId = competitionId ∧ row.ordinal = ordinal)

def roundsOf (competitionId : Uuid) : List RoundRow :=
  t.rounds.rows.filter fun row => decide (row.competitionId = competitionId)

/-- An execution refers to a round of the competition. -/
def submitted (competitionId : Uuid) : Bool :=
  (t.roundsOf competitionId).any fun round => decide (round.id ∈ t.executions)

def registered (competitionId : Uuid) : Bool :=
  t.registrations.rows.any fun row => decide (row.competitionId = competitionId)

/-- The class of an error for a character that a text cannot hold. -/
def notInRepertoire : String := "22021"

def insertCompetition (row : CompetitionRow) : Except Error CompetitionTables := do
  refuse
    [(!row.storable, notInRepertoire),
      (decide (row.endsAt ≤ row.startsAt), "Competition_time_check"),
      ((t.competitions.find row.id).isSome, "Competition_pkey"),
      ((t.findSlug row.slug).isSome, "Competition_slug_key")]
  pure { t with competitions := t.competitions.insert row }

/-- The row takes the place of the one with its identifier. No update changes a slug. -/
def updateCompetition (row : CompetitionRow) : Except Error CompetitionTables := do
  refuse
    [(!row.storable, notInRepertoire),
      ((t.competitions.find row.id).isNone, "P2025"),
      (decide (row.endsAt ≤ row.startsAt), "Competition_time_check")]
  pure { t with competitions := t.competitions.replace row }

def insertRound (row : RoundRow) : Except Error CompetitionTables := do
  refuse
    [(!Sql.storable row.title, notInRepertoire),
      (decide (row.endsAt ≤ row.startsAt), "CompetitionRound_time_check"),
      ((t.rounds.find row.id).isSome, "CompetitionRound_pkey"),
      ((t.findRound row.competitionId row.ordinal).isSome,
        "CompetitionRound_competitionId_ordinal_key"),
      ((t.competitions.find row.competitionId).isNone, "CompetitionRound_competitionId_fkey")]
  pure { t with rounds := t.rounds.insert row }

/-- The row takes the place of the one with its identifier. No update moves a round. -/
def updateRound (row : RoundRow) : Except Error CompetitionTables := do
  refuse
    [(!Sql.storable row.title, notInRepertoire),
      ((t.rounds.find row.id).isNone, "P2025"),
      (decide (row.endsAt ≤ row.startsAt), "CompetitionRound_time_check")]
  pure { t with rounds := t.rounds.replace row }

def ordinalTaken (row : RoundProblemRow) : Bool :=
  t.problems.rows.any fun other => decide (other.key ≠ row.key ∧ other.roundId = row.roundId ∧
    other.ordinal = row.ordinal)

def insertProblem (row : RoundProblemRow) : Except Error CompetitionTables := do
  refuse
    [(decide (row.points ≤ 0), "CompetitionProblem_points_check"),
      ((t.problems.find row.key).isSome, "CompetitionProblem_pkey"),
      (t.ordinalTaken row, "CompetitionProblem_roundId_ordinal_key"),
      ((t.rounds.find row.roundId).isNone, "CompetitionProblem_roundId_fkey"),
      ((t.catalogue.find row.problemId).isNone, "CompetitionProblem_problemId_fkey")]
  pure { t with problems := t.problems.insert row }

def updateProblem (row : RoundProblemRow) : Except Error CompetitionTables := do
  refuse
    [((t.problems.find row.key).isNone, "P2025"),
      (decide (row.points ≤ 0), "CompetitionProblem_points_check"),
      (t.ordinalTaken row, "CompetitionProblem_roundId_ordinal_key")]
  pure { t with problems := t.problems.replace row }

/-- The tables without the rounds of a competition and their problems. -/
def dropRounds (competitionId : Uuid) : CompetitionTables :=
  { t with
    rounds := t.rounds.delete fun row => decide (row.competitionId = competitionId)
    problems := t.problems.delete fun row =>
      (t.roundsOf competitionId).any fun round => decide (round.id = row.roundId) }

def deleteRounds (competitionId : Uuid) : Except Error CompetitionTables := do
  refuse [(t.submitted competitionId, "Execution_competitionRoundId_fkey")]
  pure (t.dropRounds competitionId)

def deleteCompetition (id : Uuid) : Except Error CompetitionTables := do
  refuse
    [((t.competitions.find id).isNone, "P2025"),
      (t.submitted id, "Execution_competitionRoundId_fkey")]
  pure
    { t.dropRounds id with
      competitions := t.competitions.delete fun row => decide (row.id = id)
      registrations := t.registrations.delete fun row => decide (row.competitionId = id) }

def insertRegistration (row : RegistrationRow) : Except Error CompetitionTables := do
  refuse
    [((t.registrations.find row.key).isSome, "CompetitionRegistration_pkey"),
      ((t.competitions.find row.competitionId).isNone,
        "CompetitionRegistration_competitionId_fkey")]
  pure { t with registrations := t.registrations.insert row }

/-! ### What accepted statements do -/

section Accepted

variable {t} {t' : CompetitionTables} {competitionId : Uuid} {row : RoundRow}

theorem findSlug_eq_none {slug : String} :
    t.findSlug slug = none ↔ ∀ row ∈ t.competitions.rows, row.slug ≠ slug := by
  simp [findSlug, List.find?_eq_none]

theorem mem_of_findSlug {slug : String} {row : CompetitionRow} (h : t.findSlug slug = some row) :
    row ∈ t.competitions.rows ∧ row.slug = slug := by
  have hslug := List.find?_some h
  exact ⟨List.mem_of_find?_eq_some h, of_decide_eq_true hslug⟩

theorem findRound_eq_none {ordinal : Nat} :
    t.findRound competitionId ordinal = none ↔
      ∀ row ∈ t.rounds.rows, row.competitionId = competitionId → row.ordinal ≠ ordinal := by
  simp [findRound, List.find?_eq_none]

theorem mem_of_findRound {ordinal : Nat} (h : t.findRound competitionId ordinal = some row) :
    row ∈ t.rounds.rows ∧ row.competitionId = competitionId ∧ row.ordinal = ordinal := by
  have hplace := List.find?_some h
  exact ⟨List.mem_of_find?_eq_some h, of_decide_eq_true hplace⟩

theorem ordinalTaken_eq_false {row : RoundProblemRow} :
    t.ordinalTaken row = false ↔ ∀ other ∈ t.problems.rows, other.key ≠ row.key →
      other.roundId = row.roundId → other.ordinal ≠ row.ordinal := by
  simp [ordinalTaken]

theorem insertCompetition_eq_ok {row : CompetitionRow} :
    t.insertCompetition row = .ok t' ↔ row.storable = true ∧ row.startsAt < row.endsAt ∧
      t.competitions.find row.id = none ∧ t.findSlug row.slug = none ∧
      t' = { t with competitions := t.competitions.insert row } := by
  refine refuse_bind_eq_ok.trans ?_
  simp [and_assoc]

theorem updateCompetition_eq_ok {row : CompetitionRow} :
    t.updateCompetition row = .ok t' ↔ row.storable = true ∧
      (t.competitions.find row.id).isSome ∧ row.startsAt < row.endsAt ∧
      t' = { t with competitions := t.competitions.replace row } := by
  refine refuse_bind_eq_ok.trans ?_
  simp [and_assoc]

theorem insertRound_eq_ok :
    t.insertRound row = .ok t' ↔ Sql.storable row.title = true ∧ row.startsAt < row.endsAt ∧
      t.rounds.find row.id = none ∧
      t.findRound row.competitionId row.ordinal = none ∧
      (t.competitions.find row.competitionId).isSome ∧
      t' = { t with rounds := t.rounds.insert row } := by
  refine refuse_bind_eq_ok.trans ?_
  simp [and_assoc]

theorem updateRound_eq_ok :
    t.updateRound row = .ok t' ↔ Sql.storable row.title = true ∧
      (t.rounds.find row.id).isSome ∧ row.startsAt < row.endsAt ∧
      t' = { t with rounds := t.rounds.replace row } := by
  refine refuse_bind_eq_ok.trans ?_
  simp [and_assoc]

theorem insertProblem_eq_ok {row : RoundProblemRow} :
    t.insertProblem row = .ok t' ↔ 0 < row.points ∧ t.problems.find row.key = none ∧
      t.ordinalTaken row = false ∧ (t.rounds.find row.roundId).isSome ∧
      (t.catalogue.find row.problemId).isSome ∧
      t' = { t with problems := t.problems.insert row } := by
  refine refuse_bind_eq_ok.trans ?_
  simp [and_assoc]

theorem updateProblem_eq_ok {row : RoundProblemRow} :
    t.updateProblem row = .ok t' ↔ (t.problems.find row.key).isSome ∧ 0 < row.points ∧
      t.ordinalTaken row = false ∧ t' = { t with problems := t.problems.replace row } := by
  refine refuse_bind_eq_ok.trans ?_
  simp [and_assoc]

theorem deleteRounds_eq_ok :
    t.deleteRounds competitionId = .ok t' ↔ t.submitted competitionId = false ∧
      t' = t.dropRounds competitionId := by
  refine refuse_bind_eq_ok.trans ?_
  simp

theorem deleteCompetition_eq_ok {id : Uuid} :
    t.deleteCompetition id = .ok t' ↔ (t.competitions.find id).isSome ∧ t.submitted id = false ∧
      t' = { t.dropRounds id with
        competitions := t.competitions.delete fun row => decide (row.id = id)
        registrations := t.registrations.delete fun row => decide (row.competitionId = id) } := by
  refine refuse_bind_eq_ok.trans ?_
  simp [and_assoc]

theorem insertRegistration_eq_ok {row : RegistrationRow} :
    t.insertRegistration row = .ok t' ↔ t.registrations.find row.key = none ∧
      (t.competitions.find row.competitionId).isSome ∧
      t' = { t with registrations := t.registrations.insert row } := by
  refine refuse_bind_eq_ok.trans ?_
  simp [and_assoc]

theorem mem_dropRounds :
    row ∈ (t.dropRounds competitionId).rounds.rows ↔
      row ∈ t.rounds.rows ∧ row.competitionId ≠ competitionId := by
  rw [dropRounds, Rows.mem_delete, decide_eq_false_iff_not]

theorem mem_dropRounds_problems {row : RoundProblemRow} :
    row ∈ (t.dropRounds competitionId).problems.rows ↔ row ∈ t.problems.rows ∧
      ∀ round ∈ t.rounds.rows, round.competitionId = competitionId → round.id ≠ row.roundId := by
  rw [dropRounds, Rows.mem_delete]
  simp [roundsOf]

end Accepted

end CompetitionTables

/-! ### Inputs -/

structure RoundInput where
  title : String
  startsAt : Int
  endsAt : Int
  problemSlugs : List String
deriving DecidableEq

structure CompetitionInput where
  slug : String
  kind : CompetitionKind
  title : String
  description : String
  rulesMarkdown : String
  prizeLabel : Option String
  startsAt : Int
  endsAt : Int
  rounds : List RoundInput
deriving DecidableEq

/-- What the environment decides for a call: its time and the identifiers that the
    client library generates. -/
structure CallContext where
  now : Int
  fresh : Nat → Uuid

def invalidSchedule (message : String) : Error :=
  .api 400 "INVALID_SCHEDULE" message

def competitionNotFound : Error :=
  .api 404 "NOT_FOUND" "Competition not found."

/-- The checks of the rounds, which all three services make. -/
def CompetitionInput.checkRounds (input : CompetitionInput) : Except Error Unit :=
  if input.kind = .contest ∧ input.rounds.length ≠ 1 then
    .error (.api 400 "INVALID_ROUNDS" "A contest must contain exactly one round.")
  else if input.rounds.any fun round => decide (round.startsAt < input.startsAt ∨
      input.endsAt < round.endsAt ∨ round.endsAt ≤ round.startsAt) then
    .error (invalidSchedule "Every round must fit inside the competition schedule.")
  else .ok ()

/-- The published problems of the rounds. -/
def CompetitionInput.findProblems (input : CompetitionInput) (catalogue : List ProblemEntry) :
    Except Error (List ProblemEntry) :=
  let slugs := (input.rounds.flatMap RoundInput.problemSlugs).dedup
  let problems := catalogue.filter fun problem =>
    decide (problem.slug ∈ slugs) && problem.isPublished
  if problems.length ≠ slugs.length then
    .error (.api 400 "INVALID_PROBLEM" "Every round problem must reference a published problem.")
  else .ok problems

/-- The constraints whose violation has code `P2002`. -/
def competitionKeys : List String :=
  ["Competition_pkey", "Competition_slug_key", "CompetitionRound_pkey",
    "CompetitionRound_competitionId_ordinal_key", "CompetitionProblem_pkey",
    "CompetitionProblem_roundId_ordinal_key", "CompetitionRegistration_pkey"]

/-- The error of a unique column that is taken. -/
def orSlugTaken {α : Type} : Except Error α → Except Error α
  | .error (.guard constraint) =>
      if constraint ∈ competitionKeys then
        .error (.api 409 "SLUG_TAKEN" "That competition slug is already in use.")
      else .error (.guard constraint)
  | result => result

theorem orSlugTaken_eq_ok {α : Type} {x : Except Error α} {a : α} :
    orSlugTaken x = .ok a ↔ x = .ok a := by
  unfold orSlugTaken
  split
  · split <;> exact iff_of_false (fun h => by cases h) fun h => by cases h
  · rfl

/-- What other calls commit before the statements of a call, by their number. -/
abbrev Others := Nat → CompetitionTables → CompetitionTables

/-- There is no other call. -/
def alone : Others := fun _ t => t

namespace CompetitionTables

/-- The problems of a round, in their order. -/
def createProblems (problems : List ProblemEntry) (roundId : Uuid) (t : CompetitionTables)
    (entry : String × Nat) : Except Error CompetitionTables :=
  match problems.find? fun problem => decide (problem.slug = entry.1) with
  | none => .error (.thrown "problemId is missing")
  | some problem =>
      t.insertProblem { roundId, problemId := problem.id, ordinal := entry.2 + 1, points := 100 }

/-- A round and its problems, which are one statement each. -/
def createRound (others : Others) (problems : List ProblemEntry) (competitionId : Uuid)
    (fresh : Nat → Uuid) (t : CompetitionTables) (entry : RoundInput × Nat) :
    Except Error CompetitionTables := do
  let t ← (others (2 * entry.2) t).insertRound
    { id := fresh (entry.2 + 1), competitionId, title := entry.1.title, ordinal := entry.2 + 1,
      startsAt := entry.1.startsAt, endsAt := entry.1.endsAt }
  entry.1.problemSlugs.zipIdx.foldlM (createProblems problems (fresh (entry.2 + 1)))
    (others (2 * entry.2 + 1) t)

/-- The rounds of a competition, in their order. -/
def createRounds (others : Others) (t : CompetitionTables) (problems : List ProblemEntry)
    (competitionId : Uuid) (fresh : Nat → Uuid) (rounds : List RoundInput) :
    Except Error CompetitionTables :=
  rounds.zipIdx.foldlM (createRound others problems competitionId fresh) t

end CompetitionTables

/-! ### Organisers and participants -/

/-- The row of a new competition. -/
def CompetitionInput.row (input : CompetitionInput) (id : Uuid) (ownerId : Option Uuid)
    (published : Bool) : CompetitionRow where
  id := id
  ownerId := ownerId
  slug := input.slug
  kind := input.kind
  title := input.title
  description := input.description
  rulesMarkdown := input.rulesMarkdown
  prizeLabel := input.prizeLabel
  startsAt := input.startsAt
  endsAt := input.endsAt
  published := published

/-- The row after an update. A prize that is not given stays as it is. -/
def CompetitionInput.updated (input : CompetitionInput) (row : CompetitionRow) : CompetitionRow :=
  { row with
    kind := input.kind
    title := input.title
    description := input.description
    rulesMarkdown := input.rulesMarkdown
    prizeLabel := input.prizeLabel.or row.prizeLabel
    startsAt := input.startsAt
    endsAt := input.endsAt }

namespace Competitions

/-- The competitions of an organiser that are not over. -/
def active (t : CompetitionTables) (userId : Uuid) (now : Int) : Nat :=
  t.competitions.rows.countP fun row =>
    decide (row.ownerId = some userId) && decide (now < row.endsAt)

/-- The transaction of `create`. The competitions have been counted before it inserts. -/
def store (counted t : CompetitionTables) (c : CallContext) (userId : Uuid)
    (input : CompetitionInput) (problems : List ProblemEntry) : Except Error CompetitionTables :=
  if 5 ≤ active counted userId c.now then
    .error (.api 429 "COMPETITION_LIMIT"
      "You can manage at most five upcoming or live competitions.")
  else do
    let t ← t.insertCompetition (input.row (c.fresh 0) (some userId) true)
    let t ← t.createRounds alone problems (c.fresh 0) c.fresh input.rounds
    t.insertRegistration { competitionId := c.fresh 0, userId, joinedAt := c.now }

/-- The problems are read from the catalogue as it is then. -/
def create (catalogue : Rows ProblemEntry.id) (counted t : CompetitionTables) (c : CallContext)
    (userId : Uuid) (input : CompetitionInput) : Except Error CompetitionTables :=
  if input.startsAt < c.now + 5 * 60000 then
    .error (invalidSchedule "Competition must start at least five minutes in the future.")
  else if input.endsAt ≤ input.startsAt then
    .error (invalidSchedule "Competition end must be after its start.")
  else do
    input.checkRounds
    let problems ← input.findProblems catalogue.rows
    orSlugTaken (store counted t c userId input problems)

/-- The competition that the user may manage. -/
def managed (t : CompetitionTables) (userId : Uuid) (role : Role) (slug : String) :
    Except Error CompetitionRow :=
  match t.findSlug slug with
  | none => .error competitionNotFound
  | some row =>
      if role ≠ .admin ∧ row.ownerId ≠ some userId then
        .error (.api 403 "ORGANIZER_REQUIRED"
          "Only this competition organizer or an administrator can manage it.")
      else .ok row

/-- The transaction of `update`. It changes the row that has the identifier by then. -/
def rewrite (others : Others) (t : CompetitionTables) (c : CallContext) (input : CompetitionInput)
    (current : CompetitionRow) (problems : List ProblemEntry) : Except Error CompetitionTables := do
  let t ← t.deleteRounds current.id
  let t := others 2 t
  let t ← t.updateCompetition (input.updated ((t.competitions.find current.id).getD current))
  t.createRounds (fun n => others (n + 3)) problems current.id c.fresh input.rounds

/-- The checks of `update` that look at the competition. -/
def checkUpdate (c : CallContext) (slug : String) (input : CompetitionInput)
    (current : CompetitionRow) : Except Error Unit :=
  if input.slug ≠ slug then
    .error (.api 409 "SLUG_IMMUTABLE" "A competition slug cannot change after creation.")
  else if current.startsAt ≤ c.now then
    .error (.api 409 "COMPETITION_STARTED"
      "Competition structure cannot change after it starts.")
  else if input.startsAt < c.now + 60000 ∨ input.endsAt ≤ input.startsAt then
    .error (invalidSchedule
      "The updated competition must start in the future and end after it starts.")
  else .ok ()

def update (others : Others) (t : CompetitionTables) (c : CallContext) (userId : Uuid)
    (role : Role) (slug : String) (input : CompetitionInput) : Except Error CompetitionTables := do
  let current ← managed t userId role slug
  checkUpdate c slug input current
  input.checkRounds
  let t := others 0 t
  let problems ← input.findProblems t.catalogue.rows
  rewrite others (others 1 t) c input current problems

def register (t : CompetitionTables) (c : CallContext) (userId : Uuid) (slug : String) :
    Except Error CompetitionTables :=
  match t.findSlug slug with
  | none => .error competitionNotFound
  | some row =>
      if !row.published then .error competitionNotFound
      else if row.endsAt ≤ c.now then
        .error (.api 409 "REGISTRATION_CLOSED" "This competition has finished.")
      else if (t.registrations.find (row.id, userId)).isSome then .ok t
      else t.insertRegistration { competitionId := row.id, userId, joinedAt := c.now }

end Competitions

/-! ### Administrators -/

namespace AdminCompetitions

def createCompetition (catalogue : Rows ProblemEntry.id) (t : CompetitionTables) (c : CallContext)
    (input : CompetitionInput) (published : Bool) : Except Error CompetitionTables :=
  if input.endsAt ≤ input.startsAt then
    .error (invalidSchedule "Competition end must be after its start.")
  else do
    input.checkRounds
    let problems ← input.findProblems catalogue.rows
    orSlugTaken do
      let t ← t.insertCompetition (input.row (c.fresh 0) none published)
      t.createRounds alone problems (c.fresh 0) c.fresh input.rounds

def setCompetitionPublication (t : CompetitionTables) (id : Uuid) (published : Bool) :
    Except Error CompetitionTables :=
  match t.competitions.find id with
  | none => .error competitionNotFound
  | some row => t.updateCompetition { row with published }

def deleteCompetition (t : CompetitionTables) (id : Uuid) : Except Error CompetitionTables :=
  match t.competitions.find id with
  | none => .error competitionNotFound
  | some _ =>
      if t.submitted id then
        .error (.api 409 "COMPETITION_IN_USE"
          "Unpublish this competition instead because submission history references it.")
      else t.deleteCompetition id

end AdminCompetitions

/-! ### Submissions -/

namespace Executions

/-- The rounds in which a problem can be submitted. -/
def activeRounds (t : CompetitionTables) (competitionId problemId : Uuid) (now : Int) :
    List RoundRow :=
  (t.roundsOf competitionId).filter fun round =>
    decide (round.startsAt ≤ now ∧ now < round.endsAt) &&
      (t.problems.find (round.id, problemId)).isSome

/-- A submission to a competition that passes the checks on the user, the problem and
    the quota. If several rounds are active, the database picks one. -/
def submit (t : CompetitionTables) (c : CallContext) (userId problemId : Uuid) (slug : String)
    (pick : Uuid) : Except Error CompetitionTables :=
  match t.findSlug slug with
  | none => .error competitionNotFound
  | some row =>
      if !row.published then .error competitionNotFound
      else if c.now < row.startsAt then
        .error (.api 409 "COMPETITION_NOT_STARTED" "This competition has not started yet.")
      else if row.endsAt ≤ c.now then
        .error (.api 409 "COMPETITION_FINISHED" "This competition has finished.")
      else if (t.registrations.find (row.id, userId)).isNone then
        .error (.api 403 "REGISTRATION_REQUIRED"
          "Register for this competition before solving its problems.")
      else
        let rounds := activeRounds t row.id problemId c.now
        match (rounds.find? fun round => decide (round.id = pick)).or rounds.head? with
        | none =>
            .error (.api 409 "ROUND_NOT_ACTIVE"
              "This problem is not available in an active round.")
        | some round => .ok { t with executions := t.executions ++ [round.id] }

end Executions

end ArenaCore
