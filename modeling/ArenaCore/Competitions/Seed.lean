import ArenaCore.Store.System
import ArenaCore.Competitions.Tables

/-!
# The Sample Seed

`seed` stores a sample problem and two sample competitions under fixed identifiers, or
verifies the problem and brings the competitions up to date. It looks for a competition
by its slug, for its first round by the identifier of the sample competition, and for
the problem of that round by the identifier of the sample round.

The three keys belong to the same rows as long as nobody but the seed writes them. An
organiser who updates a sample competition replaces its rounds by new ones, and then the
third key names a round that is gone (`Undisturbed`). The seed succeeds exactly when
this has not happened.

## Main definitions

* `SampleEvent`, `sampleEvents`: The two competitions.
* `seed`: The seed.
* `KeysKept`: What every call keeps.
* `Undisturbed`: The rows of a sample competition are those of the seed.
* `Repeated`: What a seed leaves of the tables.

## Theorems

* `serve_kept`: Every call keeps the keys and the reserved identifiers.
* `seedEvent_iff`: When the seed succeeds for one competition.
* `seed_repeatable`: When it succeeds, and what it leaves.
-/

namespace ArenaCore

open CompetitionTables Transaction

/-! ### The seed -/

/-- The identifiers that are written into the seed. -/
def seedTexts : List String :=
  ["00000000-0000-4000-8000-000000000001", "00000000-0000-4000-8000-000000000002",
    "00000000-0000-4000-8000-000000000010", "00000000-0000-4000-8000-000000000011",
    "00000000-0000-4000-8000-000000000020", "00000000-0000-4000-8000-000000000021"]

theorem uuidShape_seedTexts :
    ∀ n : Fin 6, uuidShape isHexLower (seedTexts.get n).toList = true := by
  decide

def seedId (n : Fin 6) : Uuid := ⟨seedTexts.get n, uuidShape_seedTexts n⟩

def sampleProblemId : Uuid := seedId 0
def sampleVersionId : Uuid := seedId 1
def contestId : Uuid := seedId 2
def contestRoundId : Uuid := seedId 3
def tournamentId : Uuid := seedId 4
def tournamentRoundId : Uuid := seedId 5

def sampleCases : List CaseEntry :=
  [⟨0, .publicCase, "2 3\n", "5\n"⟩, ⟨1, .publicCase, "-2 8\n", "6\n"⟩,
    ⟨2, .hiddenCase, "1000000000 1000000000\n", "2000000000\n"⟩]

/-- The version that the seed stores. -/
def sampleVersion : VersionEntry where
  id := sampleVersionId
  published := true
  comparator := "EXACT_NEWLINE"
  timeMs := 2000
  memoryKiB := 262144
  testCases := sampleCases

def sampleProblem : ProblemEntry where
  id := sampleProblemId
  slug := "sum-two-numbers"
  currentVersionId := some sampleVersionId
  versions := [sampleVersion]

def VersionEntry.exact (version : VersionEntry) : Bool :=
  version.published && decide (version.comparator = "EXACT_NEWLINE") &&
    decide (version.timeMs = 2000) && decide (version.memoryKiB = 262144) &&
    decide (version.testCases = sampleCases)

/-- The stored problem is the sample, as far as the seed compares it. -/
def ProblemEntry.exact (existing : ProblemEntry) : Bool :=
  decide (existing.id = sampleProblemId) &&
    decide (existing.currentVersionId = some sampleVersionId) &&
    (existing.versions.find? fun version => decide (version.id = sampleVersionId)).any
      VersionEntry.exact

structure SampleEvent where
  id : Uuid
  roundId : Uuid
  slug : String
  kind : CompetitionKind
  title : String
  description : String
  rulesMarkdown : String
  prizeLabel : String
  startOffsetDays : Int
  durationDays : Int
  roundTitle : String
deriving DecidableEq

def contestEvent : SampleEvent where
  id := contestId
  roundId := contestRoundId
  slug := "weekend-sprint"
  kind := .contest
  title := "Weekend Sprint"
  description := "A focused timed contest for practicing speed and accuracy."
  rulesMarkdown := "Solve the published problems during the event. Highest score wins; "
    ++ "ties use the lowest penalty."
  prizeLabel := "1,000 XP"
  startOffsetDays := 7
  durationDays := 0
  roundTitle := "Main round"

def tournamentEvent : SampleEvent where
  id := tournamentId
  roundId := tournamentRoundId
  slug := "arena-open"
  kind := .tournament
  title := "Arena Open"
  description := "A multi-round tournament that rewards consistent problem solving."
  rulesMarkdown := "Register before the final round ends. Scores come from accepted "
    ++ "submissions during active tournament rounds."
  prizeLabel := "5,000 XP"
  startOffsetDays := 14
  durationDays := 7
  roundTitle := "Qualifier"

def sampleEvents : List SampleEvent :=
  [contestEvent, tournamentEvent]

namespace SampleEvent

variable (e : SampleEvent) (now : Int)

def startsAt : Int :=
  now + e.startOffsetDays * 86400000

def endsAt : Int :=
  now + (e.startOffsetDays + e.durationDays) * 86400000 + 2 * 3600000

/-- Nobody has a part in the competition, and it is over, or there is none. -/
def mayReschedule (t : CompetitionTables) : Bool :=
  (t.findSlug e.slug).all fun existing => decide (existing.endsAt ≤ now) &&
    !t.registered existing.id && !t.submitted existing.id

def newRow : CompetitionRow where
  id := e.id
  slug := e.slug
  kind := e.kind
  title := e.title
  description := e.description
  rulesMarkdown := e.rulesMarkdown
  prizeLabel := some e.prizeLabel
  startsAt := e.startsAt now
  endsAt := e.endsAt now
  published := true

def updatedRow (mayReschedule : Bool) (row : CompetitionRow) : CompetitionRow :=
  { row with
    title := e.title
    description := e.description
    rulesMarkdown := e.rulesMarkdown
    prizeLabel := some e.prizeLabel
    published := true
    startsAt := if mayReschedule then e.startsAt now else row.startsAt
    endsAt := if mayReschedule then e.endsAt now else row.endsAt }

def upsertCompetition (mayReschedule : Bool) (t : CompetitionTables) :
    Except Error CompetitionTables :=
  match t.findSlug e.slug with
  | none => t.insertCompetition (e.newRow now)
  | some row => t.updateCompetition (e.updatedRow now mayReschedule row)

def newRound : RoundRow where
  id := e.roundId
  competitionId := e.id
  title := e.roundTitle
  ordinal := 1
  startsAt := e.startsAt now
  endsAt := e.endsAt now

def updatedRound (mayReschedule : Bool) (row : RoundRow) : RoundRow :=
  { row with
    title := e.roundTitle
    startsAt := if mayReschedule then e.startsAt now else row.startsAt
    endsAt := if mayReschedule then e.endsAt now else row.endsAt }

def upsertRound (mayReschedule : Bool) (t : CompetitionTables) : Except Error CompetitionTables :=
  match t.findRound e.id 1 with
  | none => t.insertRound (e.newRound now)
  | some row => t.updateRound (e.updatedRound now mayReschedule row)

def roundProblem : RoundProblemRow where
  roundId := e.roundId
  problemId := sampleProblemId
  ordinal := 1
  points := 100

def upsertProblem (t : CompetitionTables) : Except Error CompetitionTables :=
  match t.problems.find (e.roundId, sampleProblemId) with
  | none => t.insertProblem e.roundProblem
  | some row => t.updateProblem { row with ordinal := 1, points := 100 }

end SampleEvent

/-- One turn of the loop of `seedCompetitions`. -/
def seedEvent (now : Int) (t : CompetitionTables) (e : SampleEvent) :
    Except Error CompetitionTables := do
  let mayReschedule := e.mayReschedule now t
  let t ← e.upsertCompetition now mayReschedule t
  let t ← e.upsertRound now mayReschedule t
  e.upsertProblem t

def seedCompetitions (now : Int) (t : CompetitionTables) : Except Error CompetitionTables :=
  sampleEvents.foldlM (seedEvent now) t

inductive SeedResult where
  | verified
  | created
deriving DecidableEq

/-- The sample problem with its version and cases, stored by five statements. -/
def createSampleProblem (t : CompetitionTables) : Except Error CompetitionTables := do
  refuse
    [((t.catalogue.find sampleProblemId).isSome, "Problem_pkey"),
      (t.catalogue.rows.any fun problem => problem.versions.any fun version =>
        decide (version.id = sampleVersionId), "ProblemVersion_pkey")]
  pure { t with catalogue := t.catalogue.insert sampleProblem }

def findProblem (catalogue : Rows ProblemEntry.id) (slug : String) : Option ProblemEntry :=
  catalogue.rows.find? fun problem => decide (problem.slug = slug)

def seed (now : Int) (t : CompetitionTables) : Except Error (SeedResult × CompetitionTables) :=
  match findProblem t.catalogue sampleProblem.slug with
  | some existing =>
      if existing.exact then (seedCompetitions now t).map fun t => (.verified, t)
      else .error (.thrown "SAMPLE_SEED_CONFLICT")
  | none => do
      let t ← createSampleProblem t
      (seedCompetitions now t).map fun t => (.created, t)

/-! ### Calls -/

inductive CompetitionCall where
  | create (userId : Uuid) (input : CompetitionInput)
  | createCompetition (input : CompetitionInput) (published : Bool)
  | update (userId : Uuid) (role : Role) (slug : String) (input : CompetitionInput)
  | setCompetitionPublication (id : Uuid) (published : Bool)
  | deleteCompetition (id : Uuid)
  | register (userId : Uuid) (slug : String)
  | submit (userId problemId : Uuid) (slug : String) (pick : Uuid)
  | seed

def CompetitionCall.serve (t : CompetitionTables) (c : CallContext) :
    CompetitionCall → Except Error CompetitionTables
  | .create userId input => Competitions.create t.catalogue t t c userId input
  | .createCompetition input published =>
      AdminCompetitions.createCompetition t.catalogue t c input published
  | .update userId role slug input => Competitions.update alone t c userId role slug input
  | .setCompetitionPublication id published => AdminCompetitions.setCompetitionPublication t id published
  | .deleteCompetition id => AdminCompetitions.deleteCompetition t id
  | .register userId slug => Competitions.register t c userId slug
  | .submit userId problemId slug pick => Executions.submit t c userId problemId slug pick
  | .seed => (ArenaCore.seed c.now t).map Prod.snd

/-- A call that fails leaves the tables as they are. -/
def serveCall (t : CompetitionTables) (call : CallContext × CompetitionCall) : CompetitionTables :=
  match call.2.serve t call.1 with
  | .ok t' => t'
  | .error _ => t

def serveCalls (t : CompetitionTables) (calls : List (CallContext × CompetitionCall)) :
    CompetitionTables :=
  calls.foldl serveCall t

/-! ### What calls keep -/

/-- The keys of the tables and their references. -/
structure Regular (t : CompetitionTables) : Prop where
  times : ∀ c ∈ t.competitions.rows, c.startsAt < c.endsAt
  roundTimes : ∀ r ∈ t.rounds.rows, r.startsAt < r.endsAt
  slugs : ∀ c ∈ t.competitions.rows, ∀ c' ∈ t.competitions.rows, c.slug = c'.slug → c = c'
  places : ∀ r ∈ t.rounds.rows, ∀ r' ∈ t.rounds.rows, r.competitionId = r'.competitionId →
    r.ordinal = r'.ordinal → r = r'
  parents : ∀ r ∈ t.rounds.rows, ∃ c ∈ t.competitions.rows, c.id = r.competitionId
  roundParents : ∀ p ∈ t.problems.rows, ∃ r ∈ t.rounds.rows, r.id = p.roundId

/-- The identifiers of a sample competition are used for its own rows. -/
structure SampleRows (t : CompetitionTables) (e : SampleEvent) : Prop where
  slug : ∀ c ∈ t.competitions.rows, c.id = e.id → c.slug = e.slug
  place : ∀ r ∈ t.rounds.rows, r.id = e.roundId → r.competitionId = e.id ∧ r.ordinal = 1
  problem : ∀ p ∈ t.problems.rows, p.roundId = e.roundId →
    p.problemId = sampleProblemId ∧ p.ordinal = 1

structure KeysKept (catalogue : Rows ProblemEntry.id) (t : CompetitionTables) : Prop
    extends Regular t where
  same : t.catalogue = catalogue
  reserved : ∀ e ∈ sampleEvents, SampleRows t e

/-- The identifiers that the client library generates are not those of the samples. -/
def CallContext.Fresh (c : CallContext) : Prop :=
  ∀ n, ∀ e ∈ sampleEvents, c.fresh n ≠ e.id ∧ c.fresh n ≠ e.roundId

section Keys

variable {catalogue : Rows ProblemEntry.id} {t t' : CompetitionTables} {row : RoundProblemRow}

section

variable (h : KeysKept catalogue t)

include h

/-- Registrations and executions do not matter, and the catalogue is what it is. -/
theorem KeysKept.unrelated (registrations : Rows RegistrationRow.key) (executions : List Uuid)
    (catalogue' : Rows ProblemEntry.id) :
    KeysKept catalogue' { t with registrations, executions, catalogue := catalogue' } :=
  ⟨⟨h.times, h.roundTimes, h.slugs, h.places, h.parents, h.roundParents⟩, rfl,
    fun e he => ⟨(h.reserved e he).slug, (h.reserved e he).place, (h.reserved e he).problem⟩⟩

/-- A competition that is added or changed. -/
theorem KeysKept.competitions {row : CompetitionRow} {rows : Rows CompetitionRow.id}
    (hmem : ∀ c, c ∈ rows.rows ↔ c = row ∨ c ∈ t.competitions.rows ∧ c.id ≠ row.id)
    (htime : row.startsAt < row.endsAt)
    (hslug : ∀ c ∈ t.competitions.rows, c.id ≠ row.id → c.slug ≠ row.slug)
    (hreserved : ∀ e ∈ sampleEvents, row.id = e.id → row.slug = e.slug) :
    KeysKept catalogue { t with competitions := rows } := by
  refine ⟨⟨?_, h.roundTimes, ?_, h.places, ?_, h.roundParents⟩, h.same, fun e he =>
    ⟨?_, (h.reserved e he).place, (h.reserved e he).problem⟩⟩
  · intro c hc
    rcases (hmem c).1 hc with rfl | ⟨hc, -⟩
    · exact htime
    · exact h.times c hc
  · intro c hc c' hc' heq
    rcases (hmem c).1 hc with rfl | ⟨hleft, hne⟩ <;>
      rcases (hmem c').1 hc' with rfl | ⟨hleft', hne'⟩
    · rfl
    · exact absurd heq.symm (hslug c' hleft' hne')
    · exact absurd heq (hslug c hleft hne)
    · exact h.slugs c hleft c' hleft' heq
  · intro r hr
    obtain ⟨c, hc, hid⟩ := h.parents r hr
    by_cases hrow : c.id = row.id
    · exact ⟨row, (hmem row).2 (.inl rfl), hrow.symm.trans hid⟩
    · exact ⟨c, (hmem c).2 (.inr ⟨hc, hrow⟩), hid⟩
  · intro c hc hid
    rcases (hmem c).1 hc with rfl | ⟨hc, -⟩
    · exact hreserved e he hid
    · exact (h.reserved e he).slug c hc hid

theorem kept_insertCompetition {row : CompetitionRow} (hok : t.insertCompetition row = .ok t')
    (hreserved : ∀ e ∈ sampleEvents, row.id = e.id → row.slug = e.slug) :
    KeysKept catalogue t' := by
  obtain ⟨-, htime, hfree, hslug, rfl⟩ := insertCompetition_eq_ok.1 hok
  exact h.competitions (fun _ => Rows.mem_insert_iff hfree) htime
    (fun c hc _ => findSlug_eq_none.1 hslug c hc) hreserved

theorem kept_updateCompetition {row : CompetitionRow} (hok : t.updateCompetition row = .ok t')
    {old : CompetitionRow} (hold : old ∈ t.competitions.rows) (hkey : old.id = row.id)
    (hslug : old.slug = row.slug) : KeysKept catalogue t' := by
  obtain ⟨-, hfound, htime, rfl⟩ := updateCompetition_eq_ok.1 hok
  refine h.competitions (fun _ => Rows.mem_replace_iff hfound) htime (fun c hc hne heq => ?_)
    fun e he hid => ?_
  · -- another row has another slug, since the slug of this one stays
    have hsame := h.slugs c hc old hold (heq.trans hslug.symm)
    exact hne (hsame ▸ hkey)
  · exact hslug.symm.trans ((h.reserved e he).slug old hold (hkey.trans hid))

/-- A round that is added or changed. -/
theorem KeysKept.rounds {row : RoundRow} {rows : Rows RoundRow.id}
    (hmem : ∀ r, r ∈ rows.rows ↔ r = row ∨ r ∈ t.rounds.rows ∧ r.id ≠ row.id)
    (htime : row.startsAt < row.endsAt)
    (hplace : ∀ r ∈ t.rounds.rows, r.id ≠ row.id → r.competitionId = row.competitionId →
      r.ordinal ≠ row.ordinal)
    (hparent : ∃ c ∈ t.competitions.rows, c.id = row.competitionId)
    (hreserved : ∀ e ∈ sampleEvents, row.id = e.roundId →
      row.competitionId = e.id ∧ row.ordinal = 1) :
    KeysKept catalogue { t with rounds := rows } := by
  refine ⟨⟨h.times, ?_, h.slugs, ?_, ?_, ?_⟩, h.same, fun e he =>
    ⟨(h.reserved e he).slug, ?_, (h.reserved e he).problem⟩⟩
  · intro r hr
    rcases (hmem r).1 hr with rfl | ⟨hr, -⟩
    · exact htime
    · exact h.roundTimes r hr
  · intro r hr r' hr' hid heq
    rcases (hmem r).1 hr with rfl | ⟨hleft, hne⟩ <;>
      rcases (hmem r').1 hr' with rfl | ⟨hleft', hne'⟩
    · rfl
    · exact absurd heq.symm (hplace r' hleft' hne' hid.symm)
    · exact absurd heq (hplace r hleft hne hid)
    · exact h.places r hleft r' hleft' hid heq
  · intro r hr
    rcases (hmem r).1 hr with rfl | ⟨hr, -⟩
    · exact hparent
    · exact h.parents r hr
  · intro p hp
    obtain ⟨r, hr, hid⟩ := h.roundParents p hp
    by_cases hrow : r.id = row.id
    · exact ⟨row, (hmem row).2 (.inl rfl), hrow.symm.trans hid⟩
    · exact ⟨r, (hmem r).2 (.inr ⟨hr, hrow⟩), hid⟩
  · intro r hr hid
    rcases (hmem r).1 hr with rfl | ⟨hr, -⟩
    · exact hreserved e he hid
    · exact (h.reserved e he).place r hr hid

theorem kept_insertRound {row : RoundRow} (hok : t.insertRound row = .ok t')
    (hreserved : ∀ e ∈ sampleEvents, row.id = e.roundId →
      row.competitionId = e.id ∧ row.ordinal = 1) :
    KeysKept catalogue t' := by
  obtain ⟨-, htime, hfree, hplace, hparent, rfl⟩ := insertRound_eq_ok.1 hok
  obtain ⟨c, hc⟩ := Option.isSome_iff_exists.1 hparent
  exact h.rounds (fun _ => Rows.mem_insert_iff hfree) htime
    (fun r hr _ => findRound_eq_none.1 hplace r hr) ⟨c, Rows.mem_of_find hc⟩ hreserved

theorem kept_updateRound {row : RoundRow} (hok : t.updateRound row = .ok t') {old : RoundRow}
    (hold : old ∈ t.rounds.rows) (hkey : old.id = row.id)
    (hcompetition : old.competitionId = row.competitionId) (hordinal : old.ordinal = row.ordinal) :
    KeysKept catalogue t' := by
  obtain ⟨-, hfound, htime, rfl⟩ := updateRound_eq_ok.1 hok
  obtain ⟨c, hc, hparent⟩ := h.parents old hold
  refine h.rounds (fun _ => Rows.mem_replace_iff hfound) htime (fun r hr hne hid heq => ?_)
    ⟨c, hc, hparent.trans hcompetition⟩ fun e he hid => ?_
  · have hsame := h.places r hr old hold (hid.trans hcompetition.symm) (heq.trans hordinal.symm)
    exact hne (hsame ▸ hkey)
  · obtain ⟨hparent, hfirst⟩ := (h.reserved e he).place old hold (hkey.trans hid)
    exact ⟨hcompetition.symm.trans hparent, hordinal.symm.trans hfirst⟩

/-- A problem of a round that is added or changed. -/
theorem KeysKept.problems {rows : Rows RoundProblemRow.key}
    (hmem : ∀ p ∈ rows.rows, p = row ∨ p ∈ t.problems.rows)
    (hparent : ∃ r ∈ t.rounds.rows, r.id = row.roundId)
    (hreserved : ∀ e ∈ sampleEvents, row.roundId = e.roundId →
      row.problemId = sampleProblemId ∧ row.ordinal = 1) :
    KeysKept catalogue { t with problems := rows } := by
  refine ⟨⟨h.times, h.roundTimes, h.slugs, h.places, h.parents, ?_⟩, h.same, fun e he =>
    ⟨(h.reserved e he).slug, (h.reserved e he).place, ?_⟩⟩
  · intro p hp
    rcases hmem p hp with rfl | hp
    · exact hparent
    · exact h.roundParents p hp
  · intro p hp hid
    rcases hmem p hp with rfl | hp
    · exact hreserved e he hid
    · exact (h.reserved e he).problem p hp hid

theorem kept_insertProblem (hok : t.insertProblem row = .ok t')
    (hreserved : ∀ e ∈ sampleEvents, row.roundId = e.roundId →
      row.problemId = sampleProblemId ∧ row.ordinal = 1) :
    KeysKept catalogue t' := by
  obtain ⟨-, -, -, hparent, -, rfl⟩ := insertProblem_eq_ok.1 hok
  obtain ⟨r, hr⟩ := Option.isSome_iff_exists.1 hparent
  exact h.problems (fun p hp => Rows.mem_insert hp) ⟨r, Rows.mem_of_find hr⟩ hreserved

theorem kept_updateProblem (hok : t.updateProblem row = .ok t')
    (hreserved : ∀ e ∈ sampleEvents, row.roundId = e.roundId →
      row.problemId = sampleProblemId ∧ row.ordinal = 1) :
    KeysKept catalogue t' := by
  obtain ⟨hfound, -, -, rfl⟩ := updateProblem_eq_ok.1 hok
  obtain ⟨old, hfind⟩ := Option.isSome_iff_exists.1 hfound
  obtain ⟨hold, hkey⟩ := Rows.mem_of_find hfind
  obtain ⟨r, hr, hid⟩ := h.roundParents old hold
  have hround : old.roundId = row.roundId := congrArg Prod.fst hkey
  exact h.problems (fun p hp => Rows.mem_replace hp) ⟨r, hr, hid.trans hround⟩ hreserved

theorem kept_dropRounds (competitionId : Uuid) :
    KeysKept catalogue (t.dropRounds competitionId) := by
  refine ⟨⟨h.times, ?_, h.slugs, ?_, ?_, ?_⟩, h.same, fun e he =>
    ⟨(h.reserved e he).slug, ?_, ?_⟩⟩
  · intro r hr
    exact h.roundTimes r (mem_dropRounds.1 hr).1
  · intro r hr r' hr'
    exact h.places r (mem_dropRounds.1 hr).1 r' (mem_dropRounds.1 hr').1
  · intro r hr
    exact h.parents r (mem_dropRounds.1 hr).1
  · intro p hp
    obtain ⟨hp, hkept⟩ := mem_dropRounds_problems.1 hp
    obtain ⟨r, hr, hid⟩ := h.roundParents p hp
    exact ⟨r, mem_dropRounds.2 ⟨hr, fun hc => hkept r hr hc hid⟩, hid⟩
  · intro r hr
    exact (h.reserved e he).place r (mem_dropRounds.1 hr).1
  · intro p hp
    exact (h.reserved e he).problem p (mem_dropRounds_problems.1 hp).1

theorem kept_deleteCompetition {id : Uuid} (hok : t.deleteCompetition id = .ok t') :
    KeysKept catalogue t' := by
  obtain ⟨-, -, rfl⟩ := deleteCompetition_eq_ok.1 hok
  have hdrop := kept_dropRounds h id
  have hmem {c : CompetitionRow} (hc : c ∈ (t.competitions.delete fun row =>
      decide (row.id = id)).rows) : c ∈ t.competitions.rows :=
    (Rows.mem_delete.1 hc).1
  refine ⟨⟨?_, hdrop.roundTimes, ?_, hdrop.places, ?_, hdrop.roundParents⟩, hdrop.same,
    fun e he => ⟨?_, (hdrop.reserved e he).place, (hdrop.reserved e he).problem⟩⟩
  · intro c hc
    exact h.times c (hmem hc)
  · intro c hc c' hc'
    exact h.slugs c (hmem hc) c' (hmem hc')
  · intro r hr
    obtain ⟨hr, hne⟩ := mem_dropRounds.1 hr
    obtain ⟨c, hc, hid⟩ := h.parents r hr
    exact ⟨c, Rows.mem_delete.2 ⟨hc, decide_eq_false (hid ▸ hne)⟩, hid⟩
  · intro c hc
    exact (h.reserved e he).slug c (hmem hc)

theorem kept_insertRegistration {row : RegistrationRow} (hok : t.insertRegistration row = .ok t') :
    KeysKept catalogue t' := by
  obtain ⟨-, -, rfl⟩ := insertRegistration_eq_ok.1 hok
  obtain rfl := h.same
  exact h.unrelated _ _ _

end

end Keys

/-! ### The samples have different keys -/

theorem sampleEvents_id : ∀ e ∈ sampleEvents, ∀ e' ∈ sampleEvents, e.id = e'.id → e = e' := by
  decide

theorem sampleEvents_roundId :
    ∀ e ∈ sampleEvents, ∀ e' ∈ sampleEvents, e.roundId = e'.roundId → e = e' := by
  decide

theorem sampleEvents_slug :
    ∀ e ∈ sampleEvents, ∀ e' ∈ sampleEvents, e.slug = e'.slug → e = e' := by
  decide

theorem sampleEvents_durationDays : ∀ e ∈ sampleEvents, 0 ≤ e.durationDays := by
  decide

/-- The texts of the samples have no NUL. -/
theorem storable_sampleEvents : ∀ e ∈ sampleEvents,
    ([e.title, e.description, e.rulesMarkdown].all Sql.storable && Sql.storable e.prizeLabel) =
      true ∧ Sql.storable e.roundTitle = true := by
  decide +kernel

/-- The schedule of a sample passes the checks on times. -/
theorem startsAt_lt_endsAt {e : SampleEvent} (he : e ∈ sampleEvents) (now : Int) :
    e.startsAt now < e.endsAt now := by
  have hduration := sampleEvents_durationDays e he
  rw [SampleEvent.startsAt, SampleEvent.endsAt]
  omega

section Calls

variable {catalogue : Rows ProblemEntry.id} {t t' : CompetitionTables} {c : CallContext}
  {e : SampleEvent} {now : Int} {userId : Uuid} {input : CompetitionInput} {slug : String}

section

variable (h : KeysKept catalogue t)

include h

theorem kept_createRounds {problems : List ProblemEntry} {competitionId : Uuid} {fresh : Nat → Uuid}
    (hfresh : ∀ n, ∀ e ∈ sampleEvents, fresh n ≠ e.roundId) {rounds : List RoundInput}
    (hok : t.createRounds alone problems competitionId fresh rounds = .ok t') :
    KeysKept catalogue t' := by
  refine foldlM_induction (P := KeysKept catalogue) (fun t entry t' ht hround => ?_) h hok
  obtain ⟨t₁, hinsert, hproblems⟩ := bind_eq_ok.1 hround
  have hreserved := hfresh (entry.2 + 1)
  have ht₁ := kept_insertRound ht hinsert fun e he hid => absurd hid (hreserved e he)
  refine foldlM_induction (P := KeysKept catalogue) (fun t entry t' ht hproblem => ?_) ht₁ hproblems
  unfold createProblems at hproblem
  split at hproblem
  · cases hproblem
  · exact kept_insertProblem ht hproblem fun e he hid => absurd hid (hreserved e he)

theorem kept_upsertCompetition (he : e ∈ sampleEvents) {mayReschedule : Bool}
    (hok : e.upsertCompetition now mayReschedule t = .ok t') : KeysKept catalogue t' := by
  unfold SampleEvent.upsertCompetition at hok
  split at hok
  · exact kept_insertCompetition h hok fun e' he' hid =>
      congrArg SampleEvent.slug (sampleEvents_id e he e' he' hid)
  · next row hrow => exact kept_updateCompetition h hok (mem_of_findSlug hrow).1 rfl rfl

theorem kept_upsertRound (he : e ∈ sampleEvents) {mayReschedule : Bool}
    (hok : e.upsertRound now mayReschedule t = .ok t') : KeysKept catalogue t' := by
  unfold SampleEvent.upsertRound at hok
  split at hok
  · refine kept_insertRound h hok fun e' he' hid => ⟨?_, rfl⟩
    exact congrArg SampleEvent.id (sampleEvents_roundId e he e' he' hid)
  · next row hrow => exact kept_updateRound h hok (mem_of_findRound hrow).1 rfl rfl rfl

theorem kept_upsertProblem (hok : e.upsertProblem t = .ok t') : KeysKept catalogue t' := by
  unfold SampleEvent.upsertProblem at hok
  split at hok
  · exact kept_insertProblem h hok fun _ _ _ => ⟨rfl, rfl⟩
  · next row hrow =>
      refine kept_updateProblem h hok fun _ _ _ => ⟨?_, rfl⟩
      exact congrArg Prod.snd (Rows.mem_of_find hrow).2

theorem kept_seedEvent (he : e ∈ sampleEvents) (hok : seedEvent now t e = .ok t') :
    KeysKept catalogue t' := by
  obtain ⟨t₁, hcompetition, hok⟩ := bind_eq_ok.1 hok
  obtain ⟨t₂, hround, hproblem⟩ := bind_eq_ok.1 hok
  exact kept_upsertProblem (kept_upsertRound (kept_upsertCompetition h he hcompetition) he hround)
    hproblem

theorem kept_seedCompetitions (hok : seedCompetitions now t = .ok t') : KeysKept catalogue t' := by
  obtain ⟨t₁, hcontest, hok⟩ := bind_eq_ok.1 hok
  obtain ⟨t₂, htournament, hok⟩ := bind_eq_ok.1 hok
  cases hok
  have ht₁ := kept_seedEvent h List.mem_cons_self hcontest
  exact kept_seedEvent ht₁ (List.mem_cons_of_mem _ List.mem_cons_self) htournament

end

/-- The sample problem is stored. -/
def SampleStored (catalogue : Rows ProblemEntry.id) : Prop :=
  ∃ existing, findProblem catalogue sampleProblem.slug = some existing ∧ existing.exact = true

theorem SampleStored.isSome (h : SampleStored catalogue) :
    (catalogue.find sampleProblemId).isSome := by
  obtain ⟨existing, hfind, hexact⟩ := h
  simp only [ProblemEntry.exact, Bool.and_eq_true, decide_eq_true_iff] at hexact
  exact Option.isSome_iff_exists.2
    ⟨existing, Rows.find_eq_some.2 ⟨List.mem_of_find?_eq_some hfind, hexact.1.1⟩⟩

/-- The problem that the seed creates is the one that it looks for. -/
theorem sampleStored_insert (hfree : catalogue.find sampleProblemId = none)
    (hnone : findProblem catalogue sampleProblem.slug = none) :
    SampleStored (catalogue.insert sampleProblem) := by
  have hmem (problem : ProblemEntry) :=
    Rows.mem_insert_iff (a := sampleProblem) (b := problem) hfree
  cases hfind : findProblem (catalogue.insert sampleProblem) sampleProblem.slug with
  | none =>
      have hslug := List.find?_eq_none.1 hfind sampleProblem ((hmem _).2 (.inl rfl))
      exact absurd (decide_eq_true rfl) hslug
  | some existing =>
      refine ⟨existing, hfind, ?_⟩
      rcases (hmem existing).1 (List.mem_of_find?_eq_some hfind) with rfl | ⟨hold, -⟩
      · decide
      · have hslug := List.find?_some hfind
        exact absurd hslug (List.find?_eq_none.1 hnone existing hold)

theorem seed_eq_ok {result : SeedResult} (hok : seed now t = .ok (result, t')) :
    ∃ t₁, seedCompetitions now t₁ = .ok t' ∧ SampleStored t₁.catalogue ∧
      t₁ = { t with catalogue := t₁.catalogue } ∧ (SampleStored t.catalogue → t₁ = t) := by
  unfold seed at hok
  split at hok
  · next existing hfind =>
      split at hok
      · next hexact =>
          obtain ⟨t₁, hseed, hok⟩ := map_eq_ok.1 hok
          cases hok
          exact ⟨t, hseed, ⟨existing, hfind, hexact⟩, rfl, fun _ => rfl⟩
      · cases hok
  · next hnone =>
      obtain ⟨t₁, hcreate, hok⟩ := bind_eq_ok.1 hok
      obtain ⟨hfree, rfl⟩ := refuse_bind_eq_ok.1 hcreate
      obtain ⟨t₂, hseed, hok⟩ := map_eq_ok.1 hok
      cases hok
      rw [List.forall_mem_cons, Option.isSome_eq_false_iff, Option.isNone_iff_eq_none] at hfree
      refine ⟨_, hseed, sampleStored_insert hfree.1 hnone, rfl, ?_⟩
      rintro ⟨existing, hfind, -⟩
      rw [hnone] at hfind
      cases hfind

theorem kept_seed (h : KeysKept catalogue t) {result : SeedResult}
    (hok : seed now t = .ok (result, t')) :
    KeysKept t'.catalogue t' ∧ SampleStored t'.catalogue ∧
      (SampleStored catalogue → t'.catalogue = catalogue) := by
  obtain ⟨t₁, hseed, hstored, htables, hsame⟩ := seed_eq_ok hok
  have h₁ : KeysKept t₁.catalogue t₁ := by
    rw [htables]
    exact h.unrelated _ _ _
  have h' := kept_seedCompetitions h₁ hseed
  rw [h'.same]
  refine ⟨h', hstored, fun hbefore => ?_⟩
  rw [hsame (h.same ▸ hbefore), h.same]

theorem kept_create (h : KeysKept catalogue t) (hfresh : c.Fresh)
    (hok : Competitions.create t.catalogue t t c userId input = .ok t') :
    KeysKept catalogue t' := by
  unfold Competitions.create at hok
  split at hok
  · cases hok
  split at hok
  · cases hok
  obtain ⟨_, -, hok⟩ := bind_eq_ok.1 hok
  obtain ⟨problems, -, hok⟩ := bind_eq_ok.1 hok
  replace hok := orSlugTaken_eq_ok.1 hok
  unfold Competitions.store at hok
  split at hok
  · cases hok
  obtain ⟨t₁, hinsert, hok⟩ := bind_eq_ok.1 hok
  obtain ⟨t₂, hrounds, hregistration⟩ := bind_eq_ok.1 hok
  have ht₁ := kept_insertCompetition h hinsert fun e he hid => absurd hid (hfresh 0 e he).1
  have ht₂ := kept_createRounds ht₁ (fun n e he => (hfresh n e he).2) hrounds
  exact kept_insertRegistration ht₂ hregistration

theorem kept_createCompetition (h : KeysKept catalogue t) (hfresh : c.Fresh) {published : Bool}
    (hok : AdminCompetitions.createCompetition t.catalogue t c input published = .ok t') :
    KeysKept catalogue t' := by
  unfold AdminCompetitions.createCompetition at hok
  split at hok
  · cases hok
  obtain ⟨_, -, hok⟩ := bind_eq_ok.1 hok
  obtain ⟨problems, -, hok⟩ := bind_eq_ok.1 hok
  obtain ⟨t₁, hinsert, hrounds⟩ := bind_eq_ok.1 (orSlugTaken_eq_ok.1 hok)
  have ht₁ := kept_insertCompetition h hinsert fun e he hid => absurd hid (hfresh 0 e he).1
  exact kept_createRounds ht₁ (fun n e he => (hfresh n e he).2) hrounds

theorem mem_of_managed {role : Role} {row : CompetitionRow}
    (hok : Competitions.managed t userId role slug = .ok row) : row ∈ t.competitions.rows := by
  unfold Competitions.managed at hok
  split at hok
  · cases hok
  · next hrow =>
      split at hok
      · cases hok
      · cases hok
        exact (mem_of_findSlug hrow).1

section

variable (h : KeysKept catalogue t)

include h

theorem kept_update (hfresh : c.Fresh) {role : Role}
    (hok : Competitions.update alone t c userId role slug input = .ok t') :
    KeysKept catalogue t' := by
  obtain ⟨current, hmanaged, hok⟩ := bind_eq_ok.1 hok
  obtain ⟨_, -, hok⟩ := bind_eq_ok.1 hok
  obtain ⟨_, -, hok⟩ := bind_eq_ok.1 hok
  obtain ⟨problems, -, hok⟩ := bind_eq_ok.1 hok
  obtain ⟨t₁, hdelete, hok⟩ := bind_eq_ok.1 hok
  obtain ⟨t₂, hupdate, hrounds⟩ := bind_eq_ok.1 hok
  have hcurrent := mem_of_managed hmanaged
  obtain ⟨-, rfl⟩ := deleteRounds_eq_ok.1 hdelete
  have hfind : (t.competitions.find current.id).getD current = current := by
    rw [Rows.find_eq_some.2 ⟨hcurrent, rfl⟩]
    rfl
  have ht₂ := kept_updateCompetition (kept_dropRounds h current.id) hupdate hcurrent
    (congrArg (fun row => row.id) hfind.symm) (congrArg (fun row => row.slug) hfind.symm)
  exact kept_createRounds ht₂ (fun n e he => (hfresh n e he).2) hrounds

theorem kept_setCompetitionPublication {id : Uuid} {published : Bool}
    (hok : AdminCompetitions.setCompetitionPublication t id published = .ok t') :
    KeysKept catalogue t' := by
  unfold AdminCompetitions.setCompetitionPublication at hok
  split at hok
  · cases hok
  · next row hrow => exact kept_updateCompetition h hok (Rows.mem_of_find hrow).1 rfl rfl

theorem kept_register (hok : Competitions.register t c userId slug = .ok t') :
    KeysKept catalogue t' := by
  unfold Competitions.register at hok
  split at hok
  · cases hok
  split at hok
  · cases hok
  split at hok
  · cases hok
  split at hok
  · cases hok
    exact h
  · exact kept_insertRegistration h hok

theorem kept_submit {problemId pick : Uuid}
    (hok : Executions.submit t c userId problemId slug pick = .ok t') : KeysKept catalogue t' := by
  unfold Executions.submit at hok
  split at hok
  · cases hok
  split at hok
  · cases hok
  split at hok
  · cases hok
  split at hok
  · cases hok
  split at hok
  · cases hok
  dsimp only at hok
  split at hok
  · cases hok
  · cases hok
    obtain rfl := h.same
    exact h.unrelated _ _ _

/-- Every call keeps the keys and the reserved identifiers, and the sample problem once it
    is stored. -/
theorem serve_kept (hfresh : c.Fresh) {call : CompetitionCall} (hok : call.serve t c = .ok t') :
    KeysKept t'.catalogue t' ∧ (SampleStored catalogue → t'.catalogue = catalogue) := by
  have hplain (h' : KeysKept catalogue t') :
      KeysKept t'.catalogue t' ∧ (SampleStored catalogue → t'.catalogue = catalogue) := by
    rw [h'.same]
    exact ⟨h', fun _ => rfl⟩
  cases call with
  | create => exact hplain (kept_create h hfresh hok)
  | createCompetition => exact hplain (kept_createCompetition h hfresh hok)
  | update => exact hplain (kept_update h hfresh hok)
  | setCompetitionPublication => exact hplain (kept_setCompetitionPublication h hok)
  | deleteCompetition id =>
      change AdminCompetitions.deleteCompetition t id = .ok t' at hok
      unfold AdminCompetitions.deleteCompetition at hok
      split at hok
      · cases hok
      split at hok
      · cases hok
      · exact hplain (kept_deleteCompetition h hok)
  | register => exact hplain (kept_register h hok)
  | submit => exact hplain (kept_submit h hok)
  | seed =>
      obtain ⟨⟨result, t₁⟩, hseed, hok⟩ := map_eq_ok.1 hok
      cases hok
      obtain ⟨h', -, hsame⟩ := kept_seed h hseed
      exact ⟨h', hsame⟩

end

theorem serveCalls_kept (h : KeysKept t.catalogue t) {calls : List (CallContext × CompetitionCall)}
    (hfresh : ∀ call ∈ calls, call.1.Fresh) :
    KeysKept (serveCalls t calls).catalogue (serveCalls t calls) ∧
      (SampleStored t.catalogue → (serveCalls t calls).catalogue = t.catalogue) := by
  induction calls generalizing t with
  | nil => exact ⟨h, fun _ => rfl⟩
  | cons call rest ih =>
      rw [List.forall_mem_cons] at hfresh
      have hstep : KeysKept (serveCall t call).catalogue (serveCall t call) ∧
          (SampleStored t.catalogue → (serveCall t call).catalogue = t.catalogue) := by
        unfold serveCall
        split
        · next hok => exact serve_kept h hfresh.1 hok
        · exact ⟨h, fun _ => rfl⟩
      obtain ⟨hrest, hsame⟩ := ih hstep.1 hfresh.2
      refine ⟨hrest, fun hstored => ?_⟩
      have heq := hstep.2 hstored
      exact (hsame (heq ▸ hstored)).trans heq

theorem keysKept_empty (catalogue : Rows ProblemEntry.id) : KeysKept catalogue { catalogue } where
  times := by simp
  roundTimes := by simp
  slugs := by simp
  places := by simp
  parents := by simp
  roundParents := by simp
  same := rfl
  reserved e _ := ⟨by simp, by simp, by simp⟩

end Calls

/-! ### One competition -/

/-- The rows under the keys of a sample competition are those that the seed has stored. -/
structure Undisturbed (t : CompetitionTables) (e : SampleEvent) : Prop where
  competition : ∀ c ∈ t.competitions.rows, c.slug = e.slug → c.id = e.id
  round : ∀ r ∈ t.rounds.rows, r.competitionId = e.id → r.ordinal = 1 → r.id = e.roundId

section Event

variable {catalogue : Rows ProblemEntry.id} {t t' : CompetitionTables} {e : SampleEvent}
  {now : Int} {mayReschedule : Bool}

/-- A competition that the seed has stored or brought up to date. -/
structure CompetitionStored (e : SampleEvent) (mayReschedule : Bool) (t t' : CompetitionTables)
    (row : CompetitionRow) : Prop where
  tables : t' = { t with competitions := t'.competitions }
  slug : row.slug = e.slug
  mem : ∀ c, c ∈ t'.competitions.rows ↔ c = row ∨ c ∈ t.competitions.rows ∧ c.id ≠ row.id
  fresh : t.findSlug e.slug = none → row.id = e.id
  kept : ∀ c ∈ t.competitions.rows, c.slug = e.slug → c.id = row.id ∧
    (mayReschedule = false → row.startsAt = c.startsAt ∧ row.endsAt = c.endsAt)

theorem upsertCompetition_stored (h : KeysKept catalogue t)
    (hok : e.upsertCompetition now mayReschedule t = .ok t') :
    ∃ row, CompetitionStored e mayReschedule t t' row := by
  unfold SampleEvent.upsertCompetition at hok
  split at hok
  · next hnone =>
      obtain ⟨-, -, hfree, -, rfl⟩ := insertCompetition_eq_ok.1 hok
      exact ⟨e.newRow now, rfl, rfl, fun c => Rows.mem_insert_iff hfree, fun _ => rfl,
        fun c hc hslug => absurd hslug (findSlug_eq_none.1 hnone c hc)⟩
  · next row hrow =>
      obtain ⟨-, hfound, -, rfl⟩ := updateCompetition_eq_ok.1 hok
      obtain ⟨hmem, hslug⟩ := mem_of_findSlug hrow
      refine ⟨e.updatedRow now mayReschedule row, rfl, hslug,
        fun c => Rows.mem_replace_iff hfound, fun hnone => ?_, fun c hc heq => ?_⟩
      · rw [hrow] at hnone
        cases hnone
      · obtain rfl := h.slugs c hc row hmem (heq.trans hslug.symm)
        refine ⟨rfl, ?_⟩
        rintro rfl
        exact ⟨rfl, rfl⟩

/-- The first statement always succeeds. -/
theorem exists_upsertCompetition (h : KeysKept catalogue t) (he : e ∈ sampleEvents) (now : Int)
    (mayReschedule : Bool) :
    ∃ t', e.upsertCompetition now mayReschedule t = .ok t' := by
  unfold SampleEvent.upsertCompetition
  split
  · next hnone =>
      refine ⟨_, insertCompetition_eq_ok.2
        ⟨(storable_sampleEvents e he).1, startsAt_lt_endsAt he now, ?_, hnone, rfl⟩⟩
      refine Rows.find_eq_none.2 fun c hc hid => ?_
      exact findSlug_eq_none.1 hnone c hc ((h.reserved e he).slug c hc hid)
  · next row hrow =>
      have hmem := (mem_of_findSlug hrow).1
      refine ⟨_, updateCompetition_eq_ok.2
        ⟨(storable_sampleEvents e he).1, ?_, ?_, rfl⟩⟩
      · exact Option.isSome_iff_exists.2 ⟨row, Rows.find_eq_some.2 ⟨hmem, rfl⟩⟩
      · cases mayReschedule
        · exact h.times row hmem
        · exact startsAt_lt_endsAt he now

/-- A round that the seed has stored or brought up to date. -/
structure RoundStored (e : SampleEvent) (mayReschedule : Bool) (t t' : CompetitionTables)
    (row : RoundRow) : Prop where
  tables : t' = { t with rounds := t'.rounds }
  competition : row.competitionId = e.id
  ordinal : row.ordinal = 1
  mem : ∀ r, r ∈ t'.rounds.rows ↔ r = row ∨ r ∈ t.rounds.rows ∧ r.id ≠ row.id
  fresh : t.findRound e.id 1 = none → row.id = e.roundId
  kept : ∀ r ∈ t.rounds.rows, r.competitionId = e.id → r.ordinal = 1 → r.id = row.id ∧
    (mayReschedule = false → row.startsAt = r.startsAt ∧ row.endsAt = r.endsAt)

theorem upsertRound_stored (h : KeysKept catalogue t)
    (hok : e.upsertRound now mayReschedule t = .ok t') :
    ∃ row, RoundStored e mayReschedule t t' row := by
  unfold SampleEvent.upsertRound at hok
  split at hok
  · next hnone =>
      obtain ⟨-, -, hfree, -, -, rfl⟩ := insertRound_eq_ok.1 hok
      exact ⟨e.newRound now, rfl, rfl, rfl, fun r => Rows.mem_insert_iff hfree,
        fun _ => rfl, fun r hr hid hordinal =>
          absurd hordinal (findRound_eq_none.1 hnone r hr hid)⟩
  · next row hrow =>
      obtain ⟨-, hfound, -, rfl⟩ := updateRound_eq_ok.1 hok
      obtain ⟨hmem, hcompetition, hordinal⟩ := mem_of_findRound hrow
      refine ⟨e.updatedRound now mayReschedule row, rfl, hcompetition, hordinal,
        fun r => Rows.mem_replace_iff hfound, fun hnone => ?_, fun r hr hid heq => ?_⟩
      · rw [hrow] at hnone
        cases hnone
      · obtain rfl := h.places r hr row hmem (hid.trans hcompetition.symm)
          (heq.trans hordinal.symm)
        refine ⟨rfl, ?_⟩
        rintro rfl
        exact ⟨rfl, rfl⟩

/-- The second statement succeeds if the sample competition has its identifier. -/
theorem exists_upsertRound (h : KeysKept catalogue t) (he : e ∈ sampleEvents) (now : Int)
    (mayReschedule : Bool) :
    (∃ t', e.upsertRound now mayReschedule t = .ok t') ↔
      ∃ c ∈ t.competitions.rows, c.id = e.id := by
  unfold SampleEvent.upsertRound
  split
  · next hnone =>
      constructor
      · rintro ⟨t', hok⟩
        obtain ⟨-, -, -, -, hparent, -⟩ := insertRound_eq_ok.1 hok
        obtain ⟨c, hc⟩ := Option.isSome_iff_exists.1 hparent
        exact ⟨c, Rows.mem_of_find hc⟩
      · rintro ⟨c, hc, hid⟩
        refine ⟨_, insertRound_eq_ok.2
          ⟨(storable_sampleEvents e he).2, startsAt_lt_endsAt he now, ?_, hnone, ?_, rfl⟩⟩
        · refine Rows.find_eq_none.2 fun r hr hround => ?_
          obtain ⟨hcompetition, hordinal⟩ := (h.reserved e he).place r hr hround
          exact findRound_eq_none.1 hnone r hr hcompetition hordinal
        · exact Option.isSome_iff_exists.2 ⟨c, Rows.find_eq_some.2 ⟨hc, hid⟩⟩
  · next row hrow =>
      obtain ⟨hmem, hcompetition, -⟩ := mem_of_findRound hrow
      refine iff_of_true ?_ ?_
      · refine ⟨_, updateRound_eq_ok.2
          ⟨(storable_sampleEvents e he).2, ?_, ?_, rfl⟩⟩
        · exact Option.isSome_iff_exists.2 ⟨row, Rows.find_eq_some.2 ⟨hmem, rfl⟩⟩
        · cases mayReschedule
          · exact h.roundTimes row hmem
          · exact startsAt_lt_endsAt he now
      · obtain ⟨c, hc, hid⟩ := h.parents row hmem
        exact ⟨c, hc, hid.trans hcompetition⟩

theorem upsertProblem_stored (hok : e.upsertProblem t = .ok t') :
    t' = { t with problems := t'.problems } ∧ ∀ p, p ∈ t'.problems.rows ↔
      p = e.roundProblem ∨ p ∈ t.problems.rows ∧ p.key ≠ e.roundProblem.key := by
  unfold SampleEvent.upsertProblem at hok
  split at hok
  · obtain ⟨-, hfree, -, -, -, rfl⟩ := insertProblem_eq_ok.1 hok
    exact ⟨rfl, fun p => Rows.mem_insert_iff hfree⟩
  · next row hrow =>
      obtain ⟨hfound, -, -, rfl⟩ := updateProblem_eq_ok.1 hok
      obtain ⟨-, hkey⟩ := Rows.mem_of_find hrow
      have hround : row.roundId = e.roundId := congrArg Prod.fst hkey
      have hproblem : row.problemId = sampleProblemId := congrArg Prod.snd hkey
      have hnew : ({ row with ordinal := 1, points := 100 } : RoundProblemRow)
          = e.roundProblem := by
        rw [SampleEvent.roundProblem, hround, hproblem]
      rw [hnew] at hfound ⊢
      exact ⟨rfl, fun p => Rows.mem_replace_iff hfound⟩

/-- The third statement succeeds if the sample round has its identifier. -/
theorem exists_upsertProblem (h : KeysKept catalogue t) (he : e ∈ sampleEvents)
    (hsample : (t.catalogue.find sampleProblemId).isSome) :
    (∃ t', e.upsertProblem t = .ok t') ↔ ∃ r ∈ t.rounds.rows, r.id = e.roundId := by
  -- the round has no other problem than the sample
  have hfree (row : RoundProblemRow) (hround : row.roundId = e.roundId)
      (hproblem : row.problemId = sampleProblemId) : t.ordinalTaken row = false := by
    refine ordinalTaken_eq_false.2 fun other hother hne hid => ?_
    have hsame := ((h.reserved e he).problem other hother (hid.trans hround)).1
    exact absurd (Prod.ext hid (hsame.trans hproblem.symm)) hne
  unfold SampleEvent.upsertProblem
  split
  · next hnone =>
      constructor
      · rintro ⟨t', hok⟩
        obtain ⟨-, -, -, hparent, -⟩ := insertProblem_eq_ok.1 hok
        obtain ⟨r, hr⟩ := Option.isSome_iff_exists.1 hparent
        exact ⟨r, Rows.mem_of_find hr⟩
      · rintro ⟨r, hr, hid⟩
        refine ⟨_, insertProblem_eq_ok.2 ⟨by simp [SampleEvent.roundProblem],
          hnone, hfree _ rfl rfl, ?_, hsample, rfl⟩⟩
        exact Option.isSome_iff_exists.2 ⟨r, Rows.find_eq_some.2 ⟨hr, hid⟩⟩
  · next row hrow =>
      obtain ⟨hmem, hkey⟩ := Rows.mem_of_find hrow
      have hround : row.roundId = e.roundId := congrArg Prod.fst hkey
      refine iff_of_true ?_ ?_
      · refine ⟨_, updateProblem_eq_ok.2 ⟨?_, by simp, ?_, rfl⟩⟩
        · exact Option.isSome_iff_exists.2 ⟨row, Rows.find_eq_some.2 ⟨hmem, rfl⟩⟩
        · exact hfree _ hround (congrArg Prod.snd hkey)
      · obtain ⟨r, hr, hid⟩ := h.roundParents row hmem
        exact ⟨r, hr, hid.trans hround⟩

/-- What a turn of the loop leaves. -/
structure EventSeeded (now : Int) (e : SampleEvent) (t t' : CompetitionTables)
    (row : CompetitionRow) (round : RoundRow) : Prop where
  id : row.id = e.id
  slug : row.slug = e.slug
  roundId : round.id = e.roundId
  competition : round.competitionId = e.id
  ordinal : round.ordinal = 1
  competitions : ∀ c, c ∈ t'.competitions.rows ↔ c = row ∨ c ∈ t.competitions.rows ∧ c.id ≠ e.id
  rounds : ∀ r, r ∈ t'.rounds.rows ↔ r = round ∨ r ∈ t.rounds.rows ∧ r.id ≠ e.roundId
  problems : ∀ p, p ∈ t'.problems.rows ↔
    p = e.roundProblem ∨ p ∈ t.problems.rows ∧ p.key ≠ e.roundProblem.key
  registrations : t'.registrations = t.registrations
  executions : t'.executions = t.executions
  catalogue : t'.catalogue = t.catalogue
  schedule : e.mayReschedule now t = false → (∀ c ∈ t.competitions.rows, c.id = e.id →
    row.startsAt = c.startsAt ∧ row.endsAt = c.endsAt) ∧ ∀ r ∈ t.rounds.rows, r.id = e.roundId →
      round.startsAt = r.startsAt ∧ round.endsAt = r.endsAt

/-- A turn that succeeds has found the rows of the seed. -/
theorem seedEvent_seeded (h : KeysKept catalogue t) (he : e ∈ sampleEvents)
    (hsample : (t.catalogue.find sampleProblemId).isSome) (hok : seedEvent now t e = .ok t') :
    Undisturbed t e ∧ ∃ row round, EventSeeded now e t t' row round := by
  obtain ⟨t₁, hcompetition, hok⟩ := bind_eq_ok.1 hok
  obtain ⟨t₂, hround, hproblem⟩ := bind_eq_ok.1 hok
  have h₁ := kept_upsertCompetition h he hcompetition
  have h₂ := kept_upsertRound h₁ he hround
  obtain ⟨row, hrow⟩ := upsertCompetition_stored h hcompetition
  obtain ⟨round, hstored⟩ := upsertRound_stored h₁ hround
  obtain ⟨htables, hproblems⟩ := upsertProblem_stored hproblem
  have hrounds : t₁.rounds = t.rounds := by rw [hrow.tables]
  have hcatalogue : t₂.catalogue = t.catalogue := by rw [hstored.tables, hrow.tables]
  -- the competition is there under the identifier of the sample
  have hid : row.id = e.id := by
    obtain ⟨c, hc, hid⟩ := (exists_upsertRound h₁ he _ _).1 ⟨t₂, hround⟩
    have hslug := (h₁.reserved e he).slug c hc hid
    rw [← h₁.slugs c hc row ((hrow.mem row).2 (.inl rfl)) (hslug.trans hrow.slug.symm), hid]
  -- so is the round
  have hroundId : round.id = e.roundId := by
    have hsample₂ : (t₂.catalogue.find sampleProblemId).isSome := by rwa [hcatalogue]
    obtain ⟨r, hr, hid⟩ := (exists_upsertProblem h₂ he hsample₂).1 ⟨t', hproblem⟩
    obtain ⟨hplace, hordinal⟩ := (h₂.reserved e he).place r hr hid
    rw [← h₂.places r hr round ((hstored.mem round).2 (.inl rfl))
      (hplace.trans hstored.competition.symm) (hordinal.trans hstored.ordinal.symm), hid]
  refine ⟨⟨fun c hc hslug => ((hrow.kept c hc hslug).1).trans hid, fun r hr hplace hordinal => ?_⟩,
    row, round, hid, hrow.slug, hroundId, hstored.competition, hstored.ordinal, ?_, ?_, ?_, ?_, ?_,
    ?_, ?_⟩
  · rw [← hrounds] at hr
    exact (hstored.kept r hr hplace hordinal).1.trans hroundId
  · rw [htables, hstored.tables, ← hid]
    exact hrow.mem
  · rw [htables, ← hroundId, ← hrounds]
    exact hstored.mem
  · have heq : t₂.problems = t.problems := by rw [hstored.tables, hrow.tables]
    rw [← heq]
    exact hproblems
  · rw [htables, hstored.tables, hrow.tables]
  · rw [htables, hstored.tables, hrow.tables]
  · rw [htables, hcatalogue]
  · intro hkept
    refine ⟨fun c hc heq => ?_, fun r hr heq => ?_⟩
    · exact (hrow.kept c hc ((h.reserved e he).slug c hc heq)).2 hkept
    · obtain ⟨hplace, hordinal⟩ := (h.reserved e he).place r hr heq
      rw [← hrounds] at hr
      exact (hstored.kept r hr hplace hordinal).2 hkept

/-- When the seed succeeds for one competition. -/
theorem seedEvent_iff (h : KeysKept catalogue t) (he : e ∈ sampleEvents)
    (hsample : (t.catalogue.find sampleProblemId).isSome) :
    (∃ t', seedEvent now t e = .ok t') ↔ Undisturbed t e := by
  refine ⟨fun ⟨t', hok⟩ => (seedEvent_seeded h he hsample hok).1, fun hfree => ?_⟩
  obtain ⟨t₁, hcompetition⟩ := exists_upsertCompetition h he now (e.mayReschedule now t)
  obtain ⟨row, hrow⟩ := upsertCompetition_stored h hcompetition
  have h₁ := kept_upsertCompetition h he hcompetition
  have hid : row.id = e.id := by
    cases hfind : t.findSlug e.slug with
    | none => exact hrow.fresh hfind
    | some c =>
        obtain ⟨hc, hslug⟩ := mem_of_findSlug hfind
        exact (hrow.kept c hc hslug).1.symm.trans (hfree.competition c hc hslug)
  obtain ⟨t₂, hround⟩ := (exists_upsertRound h₁ he now (e.mayReschedule now t)).2
    ⟨row, (hrow.mem row).2 (.inl rfl), hid⟩
  obtain ⟨round, hstored⟩ := upsertRound_stored h₁ hround
  have h₂ := kept_upsertRound h₁ he hround
  have hroundId : round.id = e.roundId := by
    cases hfind : t₁.findRound e.id 1 with
    | none => exact hstored.fresh hfind
    | some r =>
        obtain ⟨hr, hplace, hordinal⟩ := mem_of_findRound hfind
        have hold : r ∈ t.rounds.rows := by rwa [hrow.tables] at hr
        exact (hstored.kept r hr hplace hordinal).1.symm.trans (hfree.round r hold hplace hordinal)
  have hsample₂ : (t₂.catalogue.find sampleProblemId).isSome := by
    rwa [hstored.tables, hrow.tables]
  obtain ⟨t₃, hproblem⟩ := (exists_upsertProblem h₂ he hsample₂).2
    ⟨round, (hstored.mem round).2 (.inl rfl), hroundId⟩
  exact ⟨t₃, bind_eq_ok.2 ⟨t₁, hcompetition, bind_eq_ok.2 ⟨t₂, hround, hproblem⟩⟩⟩

end Event

/-! ### Both competitions -/

/-- Somebody has a part in the competition, or it is not over. -/
def Engaged (now : Int) (t : CompetitionTables) (c : CompetitionRow) : Prop :=
  t.registered c.id = true ∨ t.submitted c.id = true ∨ now < c.endsAt

/-- The competition is there with its schedule and the windows of its rounds. -/
structure ScheduleKept (c : CompetitionRow) (t t' : CompetitionTables) : Prop where
  competition : ∃ c' ∈ t'.competitions.rows, c'.id = c.id ∧ c'.startsAt = c.startsAt ∧
    c'.endsAt = c.endsAt
  rounds : ∀ r ∈ t.rounds.rows, r.competitionId = c.id → ∃ r' ∈ t'.rounds.rows, r'.id = r.id ∧
    r'.competitionId = c.id ∧ r'.startsAt = r.startsAt ∧ r'.endsAt = r.endsAt

/-- What a seed leaves of the tables. -/
structure Repeated (now : Int) (t t' : CompetitionTables) : Prop where
  competitions : ∀ c, (∀ e ∈ sampleEvents, c.id ≠ e.id) →
    (c ∈ t'.competitions.rows ↔ c ∈ t.competitions.rows)
  rounds : ∀ r, (∀ e ∈ sampleEvents, r.competitionId ≠ e.id) →
    (r ∈ t'.rounds.rows ↔ r ∈ t.rounds.rows)
  problems : ∀ p, (∀ e ∈ sampleEvents, p.roundId ≠ e.roundId) →
    (p ∈ t'.problems.rows ↔ p ∈ t.problems.rows)
  registrations : t'.registrations = t.registrations
  executions : t'.executions = t.executions
  schedule : ∀ c ∈ t.competitions.rows, Engaged now t c → ScheduleKept c t t'
  stored : ∀ e ∈ sampleEvents, ∃ c ∈ t'.competitions.rows, c.id = e.id ∧
    ∃ r ∈ t'.rounds.rows, r.competitionId = e.id ∧
      ∃ p ∈ t'.problems.rows, p.roundId = r.id ∧ p.problemId = sampleProblemId

section Events

variable {catalogue : Rows ProblemEntry.id} {t t' t₁ t₂ : CompetitionTables} {e e' : SampleEvent}
  {now : Int} {row : CompetitionRow} {round : RoundRow} {c : CompetitionRow}

theorem submitted_iff {competitionId : Uuid} : t.submitted competitionId = true ↔
    ∃ r ∈ t.rounds.rows, r.competitionId = competitionId ∧ r.id ∈ t.executions := by
  simp [submitted, roundsOf]

/-- A competition with participants keeps its schedule in the turn of a sample. -/
theorem EventSeeded.scheduleKept (hseeded : EventSeeded now e t t' row round)
    (h : KeysKept catalogue t) (he : e ∈ sampleEvents) (hc : c ∈ t.competitions.rows)
    (hengaged : Engaged now t c) : ScheduleKept c t t' := by
  by_cases hid : c.id = e.id
  · have hslug := (h.reserved e he).slug c hc hid
    have hkept : e.mayReschedule now t = false := by
      obtain ⟨existing, hfind⟩ : ∃ existing, t.findSlug e.slug = some existing := by
        refine Option.ne_none_iff_exists'.1 fun hnone => ?_
        exact findSlug_eq_none.1 hnone c hc hslug
      obtain ⟨hmem, heq⟩ := mem_of_findSlug hfind
      obtain rfl := h.slugs c hc existing hmem (hslug.trans heq.symm)
      rw [SampleEvent.mayReschedule, hfind, Option.all_some]
      rcases hengaged with hregistered | hsubmitted | hopen
      · rw [hregistered, Bool.not_true, Bool.and_false, Bool.false_and]
      · rw [hsubmitted, Bool.not_true, Bool.and_false]
      · rw [decide_eq_false (by omega), Bool.false_and, Bool.false_and]
    obtain ⟨hcompetition, hround⟩ := hseeded.schedule hkept
    refine ⟨⟨row, (hseeded.competitions row).2 (.inl rfl), hseeded.id.trans hid.symm,
      hcompetition c hc hid⟩, fun r hr hplace => ?_⟩
    by_cases hrow : r.id = e.roundId
    · exact ⟨round, (hseeded.rounds round).2 (.inl rfl), hseeded.roundId.trans hrow.symm,
        hseeded.competition.trans hid.symm, hround r hr hrow⟩
    · exact ⟨r, (hseeded.rounds r).2 (.inr ⟨hr, hrow⟩), rfl, hplace, rfl, rfl⟩
  · refine ⟨⟨c, (hseeded.competitions c).2 (.inr ⟨hc, hid⟩), rfl, rfl, rfl⟩, fun r hr hplace => ?_⟩
    refine ⟨r, (hseeded.rounds r).2 (.inr ⟨hr, fun hrow => hid ?_⟩), rfl, hplace, rfl, rfl⟩
    exact hplace.symm.trans ((h.reserved e he).place r hr hrow).1

/-- The turn of one sample does not touch the rows of the other. -/
theorem EventSeeded.undisturbed_iff (hseeded : EventSeeded now e t t' row round)
    (h : KeysKept catalogue t) (he : e ∈ sampleEvents) (he' : e' ∈ sampleEvents) (hne : e ≠ e') :
    Undisturbed t' e' ↔ Undisturbed t e' := by
  have hcompetitions (c : CompetitionRow) (hslug : c.slug = e'.slug) :
      c ∈ t'.competitions.rows ↔ c ∈ t.competitions.rows := by
    rw [hseeded.competitions]
    refine ⟨fun hc => ?_, fun hc => .inr ⟨hc, fun hid => ?_⟩⟩
    · rcases hc with rfl | ⟨hc, -⟩
      · exact absurd (sampleEvents_slug e he e' he' (hseeded.slug.symm.trans hslug)) hne
      · exact hc
    · have hsame := (h.reserved e he).slug c hc hid
      exact hne (sampleEvents_slug e he e' he' (hsame.symm.trans hslug))
  have hrounds (r : RoundRow) (hplace : r.competitionId = e'.id) :
      r ∈ t'.rounds.rows ↔ r ∈ t.rounds.rows := by
    rw [hseeded.rounds]
    refine ⟨fun hr => ?_, fun hr => .inr ⟨hr, fun hid => ?_⟩⟩
    · rcases hr with rfl | ⟨hr, -⟩
      · exact absurd (sampleEvents_id e he e' he' (hseeded.competition.symm.trans hplace)) hne
      · exact hr
    · have hsame := ((h.reserved e he).place r hr hid).1
      exact hne (sampleEvents_id e he e' he' (hsame.symm.trans hplace))
  constructor
  · intro hfree
    exact ⟨fun c hc hslug => hfree.competition c ((hcompetitions c hslug).2 hc) hslug,
      fun r hr hplace => hfree.round r ((hrounds r hplace).2 hr) hplace⟩
  · intro hfree
    exact ⟨fun c hc hslug => hfree.competition c ((hcompetitions c hslug).1 hc) hslug,
      fun r hr hplace => hfree.round r ((hrounds r hplace).1 hr) hplace⟩

/-- A competition that keeps its schedule keeps its participants. -/
theorem ScheduleKept.engaged {c' : CompetitionRow} (hkept : ScheduleKept c t t')
    (hregistrations : t'.registrations = t.registrations)
    (hexecutions : t'.executions = t.executions) (hid : c'.id = c.id) (hends : c'.endsAt = c.endsAt)
    (h : Engaged now t c) : Engaged now t' c' := by
  rcases h with hregistered | hsubmitted | hopen
  · refine .inl ?_
    rw [registered, hregistrations, hid]
    exact hregistered
  · obtain ⟨r, hr, hplace, hexecuted⟩ := submitted_iff.1 hsubmitted
    obtain ⟨r', hr', hsame, hplace', -⟩ := hkept.rounds r hr hplace
    exact .inr (.inl (submitted_iff.2
      ⟨r', hr', hplace'.trans hid.symm, hexecutions ▸ hsame ▸ hexecuted⟩))
  · exact .inr (.inr (hends ▸ hopen))

theorem ScheduleKept.trans {c' : CompetitionRow} (h₁ : ScheduleKept c t t₁) (hid : c'.id = c.id)
    (hstarts : c'.startsAt = c.startsAt) (hends : c'.endsAt = c.endsAt) (h₂ : ScheduleKept c' t₁ t₂) :
    ScheduleKept c t t₂ := by
  constructor
  · obtain ⟨c'', hc'', hid', hstarts', hends'⟩ := h₂.competition
    exact ⟨c'', hc'', hid'.trans hid, hstarts'.trans hstarts, hends'.trans hends⟩
  · intro r hr hplace
    obtain ⟨r₁, hr₁, hid₁, hplace₁, hstarts₁, hends₁⟩ := h₁.rounds r hr hplace
    obtain ⟨r₂, hr₂, hid₂, hplace₂, hstarts₂, hends₂⟩ :=
      h₂.rounds r₁ hr₁ (hplace₁.trans hid.symm)
    exact ⟨r₂, hr₂, hid₂.trans hid₁, hplace₂.trans hid, hstarts₂.trans hstarts₁,
      hends₂.trans hends₁⟩

theorem contest_mem : contestEvent ∈ sampleEvents := List.mem_cons_self

theorem tournament_mem : tournamentEvent ∈ sampleEvents :=
  List.mem_cons_of_mem _ List.mem_cons_self

theorem seedCompetitions_eq_ok : seedCompetitions now t = .ok t' ↔
    ∃ t₁, seedEvent now t contestEvent = .ok t₁ ∧ seedEvent now t₁ tournamentEvent = .ok t' := by
  refine bind_eq_ok.trans (exists_congr fun t₁ => and_congr_right fun _ => ?_)
  refine bind_eq_ok.trans ⟨?_, fun h => ⟨t', h, rfl⟩⟩
  rintro ⟨t₂, htournament, hok⟩
  cases hok
  exact htournament

/-- A row that the turn of a sample does not touch. -/
theorem EventSeeded.others (hseeded : EventSeeded now e t t' row round) (h : KeysKept catalogue t)
    (he : e ∈ sampleEvents) :
    (∀ c, c.id ≠ e.id → (c ∈ t'.competitions.rows ↔ c ∈ t.competitions.rows)) ∧
    (∀ r, r.competitionId ≠ e.id → (r ∈ t'.rounds.rows ↔ r ∈ t.rounds.rows)) ∧
    ∀ p, p.roundId ≠ e.roundId → (p ∈ t'.problems.rows ↔ p ∈ t.problems.rows) := by
  refine ⟨fun c hne => ?_, fun r hne => ?_, fun p hne => ?_⟩
  · rw [hseeded.competitions]
    refine ⟨fun hc => ?_, fun hc => .inr ⟨hc, hne⟩⟩
    rcases hc with rfl | ⟨hc, -⟩
    · exact absurd hseeded.id hne
    · exact hc
  · rw [hseeded.rounds]
    refine ⟨fun hr => ?_, fun hr => .inr ⟨hr, fun hid => ?_⟩⟩
    · rcases hr with rfl | ⟨hr, -⟩
      · exact absurd hseeded.competition hne
      · exact hr
    · exact hne ((h.reserved e he).place r hr hid).1
  · rw [hseeded.problems]
    refine ⟨fun hp => ?_, fun hp => .inr ⟨hp, fun hkey => ?_⟩⟩
    · rcases hp with rfl | ⟨hp, -⟩
      · exact absurd rfl hne
      · exact hp
    · exact hne (congrArg Prod.fst hkey)

/-- A seed that succeeds leaves everything else alone. -/
theorem seedCompetitions_repeated (h : KeysKept catalogue t) (hstored : SampleStored catalogue)
    (hok : seedCompetitions now t = .ok t') : Repeated now t t' := by
  obtain ⟨t₁, hcontest, htournament⟩ := seedCompetitions_eq_ok.1 hok
  have hsample : (t.catalogue.find sampleProblemId).isSome := h.same ▸ hstored.isSome
  have h₁ := kept_seedEvent h contest_mem hcontest
  have hsample₁ : (t₁.catalogue.find sampleProblemId).isSome := h₁.same ▸ hstored.isSome
  obtain ⟨-, row, round, hseeded⟩ := seedEvent_seeded h contest_mem hsample hcontest
  obtain ⟨-, row', round', hseeded'⟩ := seedEvent_seeded h₁ tournament_mem hsample₁ htournament
  obtain ⟨hcompetitions, hrounds, hproblems⟩ := hseeded.others h contest_mem
  obtain ⟨hcompetitions', hrounds', hproblems'⟩ := hseeded'.others h₁ tournament_mem
  refine ⟨?_, ?_, ?_, ?_, ?_, ?_, ?_⟩
  · intro c hne
    exact (hcompetitions' c (hne _ tournament_mem)).trans (hcompetitions c (hne _ contest_mem))
  · intro r hne
    exact (hrounds' r (hne _ tournament_mem)).trans (hrounds r (hne _ contest_mem))
  · intro p hne
    exact (hproblems' p (hne _ tournament_mem)).trans (hproblems p (hne _ contest_mem))
  · exact hseeded'.registrations.trans hseeded.registrations
  · exact hseeded'.executions.trans hseeded.executions
  · intro c hc hengaged
    have hkept := hseeded.scheduleKept h contest_mem hc hengaged
    obtain ⟨c', hc', hid, hstarts, hends⟩ := hkept.competition
    have hengaged' := hkept.engaged hseeded.registrations hseeded.executions hid hends hengaged
    exact hkept.trans hid hstarts hends
      (hseeded'.scheduleKept h₁ tournament_mem hc' hengaged')
  · intro e he
    rw [sampleEvents, List.mem_cons, List.mem_singleton] at he
    rcases he with rfl | rfl
    · refine ⟨row, (hcompetitions' row ?_).2 ((hseeded.competitions row).2 (.inl rfl)), hseeded.id,
        round, (hrounds' round ?_).2 ((hseeded.rounds round).2 (.inl rfl)), hseeded.competition,
        contestEvent.roundProblem, (hproblems' _ ?_).2 ((hseeded.problems _).2 (.inl rfl)),
        hseeded.roundId.symm, rfl⟩
      · rw [hseeded.id]
        decide
      · rw [hseeded.competition]
        decide
      · decide
    · exact ⟨row', (hseeded'.competitions row').2 (.inl rfl), hseeded'.id, round',
        (hseeded'.rounds round').2 (.inl rfl), hseeded'.competition, tournamentEvent.roundProblem,
        (hseeded'.problems _).2 (.inl rfl), hseeded'.roundId.symm, rfl⟩

/-- When both turns succeed. -/
theorem seedCompetitions_iff (h : KeysKept catalogue t) (hstored : SampleStored catalogue) :
    (∃ t', seedCompetitions now t = .ok t') ↔ ∀ e ∈ sampleEvents, Undisturbed t e := by
  have hsample : (t.catalogue.find sampleProblemId).isSome := h.same ▸ hstored.isSome
  have hsecond {t₁ : CompetitionTables} (hcontest : seedEvent now t contestEvent = .ok t₁) :
      (∃ t', seedEvent now t₁ tournamentEvent = .ok t') ↔ Undisturbed t tournamentEvent := by
    have h₁ := kept_seedEvent h contest_mem hcontest
    obtain ⟨-, row, round, hseeded⟩ := seedEvent_seeded h contest_mem hsample hcontest
    rw [seedEvent_iff h₁ tournament_mem (h₁.same ▸ hstored.isSome)]
    exact hseeded.undisturbed_iff h contest_mem tournament_mem (by decide)
  rw [sampleEvents, List.forall_mem_cons, List.forall_mem_singleton]
  constructor
  · rintro ⟨t', hok⟩
    obtain ⟨t₁, hcontest, htournament⟩ := seedCompetitions_eq_ok.1 hok
    exact ⟨(seedEvent_iff h contest_mem hsample).1 ⟨t₁, hcontest⟩,
      (hsecond hcontest).1 ⟨t', htournament⟩⟩
  · rintro ⟨hfree, hfree'⟩
    obtain ⟨t₁, hcontest⟩ := (seedEvent_iff h contest_mem hsample).2 hfree
    obtain ⟨t', htournament⟩ := (hsecond hcontest).2 hfree'
    exact ⟨t', seedCompetitions_eq_ok.2 ⟨t₁, hcontest, htournament⟩⟩

end Events

/-- From a seeded database, whatever is called meanwhile, the seed succeeds and leaves
    what it should exactly if the rows of the sample competitions are still its own. -/
theorem seed_repeatable (catalogue : Rows ProblemEntry.id)
    (first rest : List (CallContext × CompetitionCall))
    (hfresh : ∀ call ∈ first ++ rest, call.1.Fresh) {time : Int} {result : SeedResult}
    {seeded : CompetitionTables}
    (hseed : seed time (serveCalls { catalogue } first) = .ok (result, seeded)) (now : Int) :
    (∃ t', seed now (serveCalls seeded rest) = .ok (.verified, t') ∧
      Repeated now (serveCalls seeded rest) t') ↔
        ∀ e ∈ sampleEvents, Undisturbed (serveCalls seeded rest) e := by
  rw [List.forall_mem_append] at hfresh
  obtain ⟨hfirst, -⟩ := serveCalls_kept (t := { catalogue }) (keysKept_empty catalogue) hfresh.1
  obtain ⟨hkept, hstored, -⟩ := kept_seed hfirst hseed
  obtain ⟨hrest, hsame⟩ := serveCalls_kept hkept hfresh.2
  have hafter : SampleStored (serveCalls seeded rest).catalogue := (hsame hstored).symm ▸ hstored
  rw [← seedCompetitions_iff hrest hafter, seed]
  obtain ⟨existing, hfind, hexact⟩ := id hafter
  simp only [hfind, hexact, if_true]
  constructor
  · rintro ⟨t', hok, -⟩
    obtain ⟨t₁, hseed, -⟩ := map_eq_ok.1 hok
    exact ⟨t₁, hseed⟩
  · rintro ⟨t', hok⟩
    exact ⟨t', map_eq_ok.2 ⟨t', hok, rfl⟩, seedCompetitions_repeated hrest hafter hok⟩

namespace Sample

/-- An organiser moves the sample contest by some hours. -/
def movedContest : CompetitionInput where
  slug := "weekend-sprint"
  kind := .contest
  title := "Weekend Sprint"
  description := "A focused timed contest for practicing speed and accuracy."
  rulesMarkdown := "Solve the published problems during the event."
  prizeLabel := none
  startsAt := 8 * 86400000
  endsAt := 8 * 86400000 + 7200000
  rounds := [⟨"Main round", 8 * 86400000, 8 * 86400000 + 7200000, ["sum-two-numbers"]⟩]

def callContext : CallContext where
  now := 60000
  fresh n := if n = 0 then owner else execution

theorem fresh_callContext : callContext.Fresh := by
  intro n
  change ∀ e ∈ sampleEvents, (if n = 0 then owner else execution) ≠ e.id ∧
    (if n = 0 then owner else execution) ≠ e.roundId
  split <;> decide

/-- The tables after a seed. -/
def tablesOf : Except Error (SeedResult × CompetitionTables) → CompetitionTables
  | .ok (_, t) => t
  | .error _ => {}

def seeded : CompetitionTables := tablesOf (seed 0 {})

theorem eq_tablesOf {x : Except Error (SeedResult × CompetitionTables)} {result : SeedResult}
    (h : x.toOption.map Prod.fst = some result) : x = .ok (result, tablesOf x) := by
  cases x with
  | error => cases h
  | ok p =>
      cases h
      rfl

theorem seed_empty : seed 0 (serveCalls { catalogue := {} } []) = .ok (.created, seeded) :=
  eq_tablesOf (by decide +kernel)

def updated : List (CallContext × CompetitionCall) :=
  [(callContext, .update problem .admin "weekend-sprint" movedContest)]

def joined : List (CallContext × CompetitionCall) :=
  [(callContext, .register owner "weekend-sprint")]

def failureOf {α : Type} : Except Error α → Option Error
  | .ok _ => none
  | .error e => some e

end Sample

/-- A registration does not keep the seed from being repeated. -/
theorem seed_repeatable_joined :
    Sample.seeded.registrations.rows.length < (serveCalls Sample.seeded
        Sample.joined).registrations.rows.length ∧
      ∃ t', seed 120000 (serveCalls Sample.seeded Sample.joined) = .ok (.verified, t') ∧
        Repeated 120000 (serveCalls Sample.seeded Sample.joined) t' := by
  refine ⟨by decide +kernel, (seed_repeatable {} [] Sample.joined ?_ Sample.seed_empty 120000).2 ?_⟩
  · intro call hcall
    obtain rfl := List.mem_singleton.1 hcall
    exact Sample.fresh_callContext
  · intro e he
    rw [sampleEvents, List.mem_cons, List.mem_singleton] at he
    rcases he with rfl | rfl <;> exact ⟨by decide +kernel, by decide +kernel⟩

/-- An update of a sample competition makes every later seed fail. -/
theorem seed_fails_after_update :
    seed 0 (serveCalls { catalogue := {} } []) = .ok (.created, Sample.seeded) ∧
      Sample.failureOf ((CompetitionCall.update Sample.problem .admin "weekend-sprint"
        Sample.movedContest).serve Sample.seeded Sample.callContext) = none ∧
      Sample.failureOf (seed 120000 (serveCalls Sample.seeded Sample.updated)) =
        some (.guard "CompetitionProblem_roundId_fkey") :=
  ⟨Sample.seed_empty, by decide +kernel, by decide +kernel⟩

end ArenaCore
