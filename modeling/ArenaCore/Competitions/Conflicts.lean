import Mathlib.Data.List.Dedup
import Mathlib.Data.List.Perm.Subperm
import ArenaCore.Competitions.Seed

/-!
# Conflicts of New Competitions

A competition is stored with its rounds, their problems and a registration, and every
violation of a unique key on the way is reported as a slug that is taken. With
identifiers that are not in use, only two keys can be violated: that of the slugs, and
that of the problems of a round. The second one is violated by a round that lists a
problem twice, which the checks of the input let pass: they count each problem once.

So a competition with such a round cannot be created, and the organiser is told that the
slug is taken, and an update with such a round fails without an answer. A text with a NUL
passes the checks as well, and the database refuses it without an answer.

An update reads before its transaction and locks nothing, so it also fails when another
call replaces the rounds in the meantime, or deletes the competition. `Leaves` says what
other calls have to leave alone.

## Main definitions

* `Intact`: The keys of the tables and their references.
* `CompetitionInput.Plain`: No round lists a problem twice or has a NUL in its title.
* `CompetitionCreated`: A competition was stored as it was requested.
* `CompetitionTables.Leaves`: Other calls leave a competition alone.

## Theorems

* `createProblems_run`: The problems of a round are stored, unless one is listed twice.
* `createRounds_run`: The rounds of a competition are stored, unless one is not plain.
* `competition_conflicts`: When the answers are right.
-/

namespace ArenaCore

/-! ### What is stored -/

/-- The keys of the tables and their references, as the schema has them, and texts that the
    database has taken. -/
structure Intact (t : CompetitionTables) : Prop extends Regular t where
  registrationParents : ∀ r ∈ t.registrations.rows, ∃ c ∈ t.competitions.rows,
    c.id = r.competitionId
  texts : ∀ row ∈ t.competitions.rows, row.storable = true

/-- The slugs of problems are unique. -/
def DistinctSlugs (catalogue : Rows ProblemEntry.id) : Prop :=
  ∀ p ∈ catalogue.rows, ∀ p' ∈ catalogue.rows, p.slug = p'.slug → p = p'

/-- The identifiers of a call with some rounds are not in use, and no two are the same. -/
structure CallContext.Unused (c : CallContext) (rounds : Nat) (t : CompetitionTables) : Prop where
  distinct : ∀ j k, j ≤ rounds → k ≤ rounds → c.fresh j = c.fresh k → j = k
  competition : ∀ row ∈ t.competitions.rows, row.id ≠ c.fresh 0
  round : ∀ k ≤ rounds, ∀ row ∈ t.rounds.rows, row.id ≠ c.fresh k

/-- The round lists no problem twice, and its title has no NUL. -/
def RoundInput.Plain (round : RoundInput) : Prop :=
  Sql.storable round.title = true ∧ round.problemSlugs.Nodup

instance (round : RoundInput) : Decidable round.Plain :=
  inferInstanceAs (Decidable (_ ∧ _))

def CompetitionInput.Plain (input : CompetitionInput) : Prop :=
  ∀ round ∈ input.rounds, round.Plain

instance (input : CompetitionInput) : Decidable input.Plain :=
  inferInstanceAs (Decidable (∀ round ∈ input.rounds, round.Plain))

/-- The texts of the competition itself have no NUL. -/
def CompetitionInput.storable (input : CompetitionInput) : Bool :=
  [input.title, input.description, input.rulesMarkdown].all Sql.storable &&
    input.prizeLabel.all Sql.storable

/-- The row of a round. -/
def roundRow (competitionId : Uuid) (fresh : Nat → Uuid) (entry : RoundInput × Nat) : RoundRow where
  id := fresh (entry.2 + 1)
  competitionId := competitionId
  title := entry.1.title
  ordinal := entry.2 + 1
  startsAt := entry.1.startsAt
  endsAt := entry.1.endsAt

/-- The row of a problem of a round. -/
def problemRow (idOf : String → Uuid) (roundId : Uuid) (entry : String × Nat) :
    RoundProblemRow where
  roundId := roundId
  problemId := idOf entry.1
  ordinal := entry.2 + 1
  points := 100

/-- The rows of the problems of a round. -/
def problemRows (idOf : String → Uuid) (fresh : Nat → Uuid) (entry : RoundInput × Nat) :
    List RoundProblemRow :=
  entry.1.problemSlugs.zipIdx.map (problemRow idOf (fresh (entry.2 + 1)))

/-- The identifiers of the published problems. -/
def Names (catalogue : Rows ProblemEntry.id) (rounds : List RoundInput) (idOf : String → Uuid) :
    Prop :=
  ∀ round ∈ rounds, ∀ slug ∈ round.problemSlugs, ∃ problem ∈ catalogue.rows,
    problem.slug = slug ∧ problem.isPublished = true ∧ problem.id = idOf slug

/-- A competition was stored with the rounds and problems that were requested, in their
    order, and with some registrations. -/
structure CompetitionCreated (catalogue : Rows ProblemEntry.id) (c : CallContext)
    (input : CompetitionInput) (row : CompetitionRow) (registrations : List RegistrationRow)
    (t t' : CompetitionTables) : Prop where
  competitions : t'.competitions.rows = t.competitions.rows ++ [row]
  rounds : t'.rounds.rows =
    t.rounds.rows ++ input.rounds.zipIdx.map (roundRow row.id c.fresh)
  problems : ∃ idOf, Names catalogue input.rounds idOf ∧ t'.problems.rows =
    t.problems.rows ++ input.rounds.zipIdx.flatMap (problemRows idOf c.fresh)
  registrations : t'.registrations.rows = t.registrations.rows ++ registrations
  executions : t'.executions = t.executions
  catalogue : t'.catalogue = t.catalogue

/-! ### The problems of a round -/

/-- A text with a NUL is refused first. -/
theorem refuse_storable {σ : Type} {storable : Bool} {violations : List (Bool × String)} {s : σ}
    (h : ¬ storable = true) :
    (do refuse ((!storable, CompetitionTables.notInRepertoire) :: violations); pure s) =
      Except.error (.guard CompetitionTables.notInRepertoire) := by
  rw [Bool.eq_false_iff.2 h]
  rfl

namespace CompetitionTables

variable {t : CompetitionTables} {problems : List ProblemEntry} {roundId : Uuid}
  {idOf : String → Uuid} {slugs : List String} {round : RoundInput}

theorem insertProblem_taken {row : RoundProblemRow} (hpoints : 0 < row.points)
    (htaken : (t.problems.find row.key).isSome) :
    t.insertProblem row = .error (.guard "CompetitionProblem_pkey") := by
  have hpositive : decide (row.points ≤ 0) = false := decide_eq_false (not_le.2 hpoints)
  simp only [insertProblem, refuse, hpositive, htaken, List.find?_cons]
  rfl

/-- The problem of a slug was found. -/
def Found (problems : List ProblemEntry) (idOf : String → Uuid) (slug : String) : Prop :=
  ∃ problem, problems.find? (fun problem => decide (problem.slug = slug)) = some problem ∧
    problem.id = idOf slug

theorem createProblems_eq {entry : String × Nat} (h : Found problems idOf entry.1) :
    createProblems problems roundId t entry = t.insertProblem (problemRow idOf roundId entry) := by
  obtain ⟨problem, hfind, hid⟩ := h
  rw [createProblems, hfind, problemRow, ← hid]

theorem problemRow_positive (entry : String × Nat) : 0 < (problemRow idOf roundId entry).points :=
  (by decide : (0 : Int) < 100)

/-- The problems of a round are stored, unless one is listed twice. The problems that the
    round has already come before those that follow. -/
theorem createProblems_run {n : Nat} (hround : (t.rounds.find roundId).isSome)
    (hordinals : ∀ row ∈ t.problems.rows, row.roundId = roundId → row.ordinal ≤ n)
    (hfound : ∀ slug ∈ slugs, Found problems idOf slug ∧ (t.catalogue.find (idOf slug)).isSome) :
    let rows := t.problems.rows ++ (slugs.zipIdx n).map (problemRow idOf roundId)
    ((rows.map RoundProblemRow.key).Nodup ∧ ∃ stored : Rows RoundProblemRow.key,
      stored.rows = rows ∧ (slugs.zipIdx n).foldlM (createProblems problems roundId) t =
        .ok { t with problems := stored }) ∨
    (¬ (rows.map RoundProblemRow.key).Nodup ∧
      (slugs.zipIdx n).foldlM (createProblems problems roundId) t =
        .error (.guard "CompetitionProblem_pkey")) := by
  induction slugs generalizing t n with
  | nil => exact .inl ⟨by simpa using t.problems.nodup, t.problems, by simp, rfl⟩
  | cons slug slugs ih =>
      intro rows
      have hslug := hfound slug List.mem_cons_self
      have hrest := fun other hother => hfound other (List.mem_cons_of_mem slug hother)
      have hstep : createProblems problems roundId t (slug, n) =
          t.insertProblem (problemRow idOf roundId (slug, n)) := createProblems_eq hslug.1
      rw [List.zipIdx_cons, List.foldlM_cons, hstep]
      have hrows : rows = (t.problems.rows ++ [problemRow idOf roundId (slug, n)]) ++
          (slugs.zipIdx (n + 1)).map (problemRow idOf roundId) := by
        simp [rows]
      by_cases htaken : (t.problems.find (problemRow idOf roundId (slug, n)).key).isSome
      · rw [insertProblem_taken (problemRow_positive _) htaken]
        refine .inr ⟨fun hnodup => ?_, rfl⟩
        rw [hrows, List.map_append, List.map_append] at hnodup
        have hfirst := (List.nodup_append.1 hnodup).1
        exact (List.nodup_append.1 hfirst).2.2 _ (Rows.mem_keys.2 htaken) _
          (List.mem_singleton_self _) rfl
      · have hfree := Option.not_isSome_iff_eq_none.1 htaken
        have hplace : t.ordinalTaken (problemRow idOf roundId (slug, n)) = false := by
          refine ordinalTaken_eq_false.2 fun other hother _ hsame => ?_
          have hle := hordinals other hother hsame
          change other.ordinal ≠ n + 1
          omega
        have hinsert : t.insertProblem (problemRow idOf roundId (slug, n)) = .ok
            { t with problems := t.problems.insert (problemRow idOf roundId (slug, n)) } :=
          insertProblem_eq_ok.2 ⟨problemRow_positive _, hfree, hplace, hround, hslug.2, rfl⟩
        rw [hinsert, hrows, ← Rows.rows_insert hfree]
        refine ih (t := { t with
            problems := t.problems.insert (problemRow idOf roundId (slug, n)) })
          (n := n + 1) hround (fun row hrow hsame => ?_) hrest
        rw [Rows.rows_insert hfree] at hrow
        obtain hrow | hrow := List.mem_append.1 hrow
        · exact Nat.le_succ_of_le (hordinals row hrow hsame)
        · exact le_of_eq (congrArg RoundProblemRow.ordinal (List.mem_singleton.1 hrow))

/-- The keys of the problems of a round that has none yet. -/
theorem nodup_keys (hnone : ∀ row ∈ t.problems.rows, row.roundId ≠ roundId)
    (hid : ∀ slug ∈ slugs, ∀ other ∈ slugs, idOf slug = idOf other → slug = other) :
    ((t.problems.rows ++ slugs.zipIdx.map (problemRow idOf roundId)).map
      RoundProblemRow.key).Nodup ↔ slugs.Nodup := by
  have hkeys : (slugs.zipIdx.map (problemRow idOf roundId)).map RoundProblemRow.key =
      slugs.map fun slug => (roundId, idOf slug) := by
    rw [List.map_map]
    conv_rhs => rw [← List.zipIdx_map_fst 0 slugs, List.map_map]
    rfl
  rw [List.map_append, hkeys, List.nodup_append]
  constructor
  · rintro ⟨-, hnodup, -⟩
    exact hnodup.of_map _
  · intro hnodup
    refine ⟨t.problems.nodup, hnodup.map_on fun a ha b hb hab => ?_, ?_⟩
    · exact hid a ha b hb (congrArg Prod.snd hab)
    · rintro k hk k' hk' rfl
      obtain ⟨row, hrow, rfl⟩ := List.mem_map.1 hk
      obtain ⟨slug, -, hkey⟩ := List.mem_map.1 hk'
      exact hnone row hrow (congrArg Prod.fst hkey).symm

/-! ### The rounds of a competition -/

/-- The next rounds of a competition can be stored: its rounds come before them, and their
    identifiers are not in use. -/
structure Ready (competitionId : Uuid) (fresh : Nat → Uuid) (last n : Nat)
    (t : CompetitionTables) : Prop where
  competition : (t.competitions.find competitionId).isSome
  ordinals : ∀ row ∈ t.rounds.rows, row.competitionId = competitionId → row.ordinal ≤ n
  rounds : ∀ row ∈ t.rounds.rows, ∀ k, n < k → k ≤ last → row.id ≠ fresh k
  problems : ∀ row ∈ t.problems.rows, ∀ k, n < k → k ≤ last → row.roundId ≠ fresh k

/-- Other calls have left a competition alone: its row, its rounds with the executions that
    refer to them, and whatever has an identifier of the call. No problem was deleted. -/
structure Leaves (competitionId : Uuid) (fresh : Nat → Uuid) (last : Nat)
    (t t' : CompetitionTables) : Prop where
  competition : t'.competitions.find competitionId = t.competitions.find competitionId
  rounds : ∀ row : RoundRow, row.competitionId = competitionId ∨ (∃ k ≤ last, row.id = fresh k) →
    (row ∈ t'.rounds.rows ↔ row ∈ t.rounds.rows)
  problems : ∀ row : RoundProblemRow, (∃ k ≤ last, row.roundId = fresh k) →
    (row ∈ t'.problems.rows ↔ row ∈ t.problems.rows)
  references : t'.submitted competitionId = t.submitted competitionId
  catalogue : ∀ id, (t.catalogue.find id).isSome → (t'.catalogue.find id).isSome

variable {competitionId : Uuid} {fresh : Nat → Uuid} {last n : Nat} {t' t'' : CompetitionTables}

theorem Leaves.alone (m : Nat) (t : CompetitionTables) :
    Leaves competitionId fresh last t (alone m t) :=
  ⟨rfl, fun _ _ => Iff.rfl, fun _ _ => Iff.rfl, rfl, fun _ h => h⟩

theorem Leaves.trans (h : Leaves competitionId fresh last t t')
    (h' : Leaves competitionId fresh last t' t'') : Leaves competitionId fresh last t t'' where
  competition := h'.competition.trans h.competition
  rounds := fun row hrow => (h'.rounds row hrow).trans (h.rounds row hrow)
  problems := fun row hrow => (h'.problems row hrow).trans (h.problems row hrow)
  references := h'.references.trans h.references
  catalogue := fun id hid => h'.catalogue id (h.catalogue id hid)

theorem Ready.leaves (h : t.Ready competitionId fresh last n)
    (hleaves : Leaves competitionId fresh last t t') : t'.Ready competitionId fresh last n where
  competition := hleaves.competition ▸ h.competition
  ordinals := fun row hrow hsame =>
    h.ordinals row ((hleaves.rounds row (.inl hsame)).1 hrow) hsame
  rounds := fun row hrow k hk hlast hsame =>
    h.rounds row ((hleaves.rounds row (.inr ⟨k, hlast, hsame⟩)).1 hrow) k hk hlast hsame
  problems := fun row hrow k hk hlast hsame =>
    h.problems row ((hleaves.problems row ⟨k, hlast, hsame⟩).1 hrow) k hk hlast hsame

/-- A round is stored. -/
theorem Ready.insertRound (h : t.Ready competitionId fresh last n) (hn : n < last)
    (hstorable : Sql.storable round.title = true) (htimes : round.startsAt < round.endsAt) :
    t.insertRound (roundRow competitionId fresh (round, n)) =
        .ok { t with rounds := t.rounds.insert (roundRow competitionId fresh (round, n)) } ∧
      (t.rounds.insert (roundRow competitionId fresh (round, n))).rows =
        t.rounds.rows ++ [roundRow competitionId fresh (round, n)] := by
  have hfree : t.rounds.find (roundRow competitionId fresh (round, n)).id = none :=
    Rows.find_eq_none.2 fun row hrow => h.rounds row hrow (n + 1) (Nat.lt_succ_self n) hn
  have hplace : t.findRound competitionId (n + 1) = none := by
    refine findRound_eq_none.2 fun row hrow hsame => ?_
    have hle := h.ordinals row hrow hsame
    omega
  exact ⟨insertRound_eq_ok.2 ⟨hstorable, htimes, hfree, hplace, h.competition, rfl⟩,
    Rows.rows_insert hfree⟩

/-- A round that is stored leaves the next ones ready. -/
theorem Ready.withRound (h : t.Ready competitionId fresh last n) (hn : n < last)
    (hdistinct : ∀ j k, j ≤ last → k ≤ last → fresh j = fresh k → j = k) {rounds : Rows RoundRow.id}
    (hrounds : rounds.rows = t.rounds.rows ++ [roundRow competitionId fresh (round, n)]) :
    Ready competitionId fresh last (n + 1) { t with rounds } where
  competition := h.competition
  ordinals := by
    intro row hrow hsame
    rw [hrounds] at hrow
    obtain hrow | hrow := List.mem_append.1 hrow
    · exact Nat.le_succ_of_le (h.ordinals row hrow hsame)
    · exact le_of_eq (congrArg RoundRow.ordinal (List.mem_singleton.1 hrow))
  rounds := by
    intro row hrow k hk hlast
    rw [hrounds] at hrow
    obtain hrow | hrow := List.mem_append.1 hrow
    · exact h.rounds row hrow k (by omega) hlast
    · rw [List.mem_singleton.1 hrow]
      intro hsame
      have := hdistinct (n + 1) k hn hlast hsame
      omega
  problems := fun row hrow k hk => h.problems row hrow k (by omega)

/-- So do its problems. -/
theorem Ready.withProblems (h : t.Ready competitionId fresh last (n + 1)) (hn : n < last)
    (hdistinct : ∀ j k, j ≤ last → k ≤ last → fresh j = fresh k → j = k)
    {stored : Rows RoundProblemRow.key}
    (hstored : stored.rows = t.problems.rows ++ problemRows idOf fresh (round, n)) :
    Ready competitionId fresh last (n + 1) { t with problems := stored } where
  competition := h.competition
  ordinals := h.ordinals
  rounds := h.rounds
  problems := by
    intro row hrow k hk hlast
    rw [hstored] at hrow
    obtain hrow | hrow := List.mem_append.1 hrow
    · exact h.problems row hrow k hk hlast
    · obtain ⟨entry, -, rfl⟩ := List.mem_map.1 hrow
      intro hsame
      have := hdistinct (n + 1) k hn hlast hsame
      omega

/-- The tables have got some rounds and their problems, and nothing else. -/
def Appended (competitionId : Uuid) (fresh : Nat → Uuid) (idOf : String → Uuid)
    (entries : List (RoundInput × Nat)) (t t' : CompetitionTables) : Prop :=
  ∃ (rounds : Rows RoundRow.id) (problems : Rows RoundProblemRow.key),
    rounds.rows = t.rounds.rows ++ entries.map (roundRow competitionId fresh) ∧
    problems.rows = t.problems.rows ++ entries.flatMap (problemRows idOf fresh) ∧
    t' = { t with rounds, problems }

theorem Appended.cons {entry : RoundInput × Nat} {entries : List (RoundInput × Nat)}
    (h : Appended competitionId fresh idOf [entry] t t')
    (h' : Appended competitionId fresh idOf entries t' t'') :
    Appended competitionId fresh idOf (entry :: entries) t t'' := by
  obtain ⟨rounds, stored, hrounds, hstored, rfl⟩ := h
  obtain ⟨newRounds, newProblems, hnewRounds, hnewProblems, rfl⟩ := h'
  refine ⟨newRounds, newProblems, ?_, ?_, rfl⟩
  · rw [hnewRounds, hrounds, List.append_assoc]
    rfl
  · rw [hnewProblems, hstored, List.append_assoc]
    simp

section Rounds

variable {others : Others} (hothers : ∀ m t, Leaves competitionId fresh last t (others m t))
  (hdistinct : ∀ j k, j ≤ last → k ≤ last → fresh j = fresh k → j = k)
  (hid : ∀ slug other, Found problems idOf slug → Found problems idOf other →
    idOf slug = idOf other → slug = other)

include hothers hdistinct hid

/-- The next round of a competition that other calls leave alone is stored, unless it is not
    plain, and the ones after it are ready. Without other calls, nothing else is stored. -/
theorem createRound_step (h : t.Ready competitionId fresh last n) (hn : n < last)
    (htimes : round.startsAt < round.endsAt)
    (hfound : ∀ slug ∈ round.problemSlugs,
      Found problems idOf slug ∧ (t.catalogue.find (idOf slug)).isSome) :
    (round.Plain ∧ ∃ t', createRound others problems competitionId fresh t (round, n) = .ok t' ∧
      t'.Ready competitionId fresh last (n + 1) ∧
      (∀ id, (t.catalogue.find id).isSome → (t'.catalogue.find id).isSome) ∧
      (others = ArenaCore.alone → Appended competitionId fresh idOf [(round, n)] t t')) ∨
    (¬ round.Plain ∧ ∃ constraint,
      createRound others problems competitionId fresh t (round, n) =
        .error (.guard constraint)) := by
  have hbefore := h.leaves (hothers (2 * n) t)
  by_cases hstorable : Sql.storable round.title = true
  swap
  · have hstep : createRound others problems competitionId fresh t (round, n) =
        .error (.guard notInRepertoire) := by
      exact congrArg (· >>= _) (refuse_storable hstorable)
    exact .inr ⟨fun hplain => hstorable hplain.1, _, hstep⟩
  obtain ⟨hinsert, hrounds⟩ := hbefore.insertRound hn hstorable htimes
  -- the round is stored, and then its problems, with other calls in between
  let t₁ : CompetitionTables := { others (2 * n) t with
    rounds := (others (2 * n) t).rounds.insert (roundRow competitionId fresh (round, n)) }
  have hstep : createRound others problems competitionId fresh t (round, n) =
      round.problemSlugs.zipIdx.foldlM (createProblems problems (fresh (n + 1)))
        (others (2 * n + 1) t₁) := by
    change ((others (2 * n) t).insertRound (roundRow competitionId fresh (round, n)) >>= _) = _
    rw [hinsert]
    rfl
  rw [hstep]
  have hleaves := hothers (2 * n + 1) t₁
  have hready := (hbefore.withRound hn hdistinct hrounds).leaves hleaves
  have hnone : ∀ row ∈ (others (2 * n + 1) t₁).problems.rows, row.roundId ≠ fresh (n + 1) :=
    fun row hrow hsame => hbefore.problems row
      ((hleaves.problems row ⟨n + 1, hn, hsame⟩).1 hrow) (n + 1) (Nat.lt_succ_self n) hn hsame
  have hstored : ((others (2 * n + 1) t₁).rounds.find (fresh (n + 1))).isSome := by
    refine Rows.mem_keys.1 (List.mem_map.2 ⟨roundRow competitionId fresh (round, n),
      (hleaves.rounds _ (.inl rfl)).2 ?_, rfl⟩)
    change _ ∈ ((others (2 * n) t).rounds.insert _).rows
    rw [hrounds]
    exact List.mem_append_right _ (List.mem_singleton_self _)
  have hkept : ∀ id, (t.catalogue.find id).isSome →
      ((others (2 * n + 1) t₁).catalogue.find id).isSome :=
    fun id hlisted => hleaves.catalogue id ((hothers (2 * n) t).catalogue id hlisted)
  have hkeys : (((others (2 * n + 1) t₁).problems.rows ++
      problemRows idOf fresh (round, n)).map RoundProblemRow.key).Nodup ↔
        round.problemSlugs.Nodup :=
    nodup_keys hnone fun slug hslug other hother =>
      hid slug other (hfound slug hslug).1 (hfound other hother).1
  obtain ⟨hnodup, stored, hrows, hok⟩ | ⟨hrepeated, herror⟩ := createProblems_run (n := 0) hstored
    (fun row hrow hsame => absurd hsame (hnone row hrow))
    fun slug hslug => (hfound slug hslug).imp_right (hkept _)
  · refine .inl ⟨⟨hstorable, hkeys.1 hnodup⟩, _, hok, hready.withProblems hn hdistinct hrows,
      hkept, ?_⟩
    rintro rfl
    exact ⟨_, stored, hrounds, by rwa [List.flatMap_singleton], rfl⟩
  · exact .inr ⟨fun hplain => hrepeated (hkeys.2 hplain.2), _, herror⟩

/-- So are all of its rounds, unless one is not plain. -/
theorem createRounds_run {rounds : List RoundInput} (h : t.Ready competitionId fresh last n)
    (hlast : n + rounds.length ≤ last)
    (htimes : ∀ round ∈ rounds, round.startsAt < round.endsAt)
    (hfound : ∀ round ∈ rounds, ∀ slug ∈ round.problemSlugs,
      Found problems idOf slug ∧ (t.catalogue.find (idOf slug)).isSome) :
    ((∀ round ∈ rounds, round.Plain) ∧ ∃ t',
      (rounds.zipIdx n).foldlM (createRound others problems competitionId fresh) t = .ok t' ∧
        (others = ArenaCore.alone →
          Appended competitionId fresh idOf (rounds.zipIdx n) t t')) ∨
    ((¬ ∀ round ∈ rounds, round.Plain) ∧ ∃ constraint,
      (rounds.zipIdx n).foldlM (createRound others problems competitionId fresh) t =
        .error (.guard constraint)) := by
  induction rounds generalizing t n with
  | nil =>
      exact .inl ⟨by simp, t, rfl, fun _ => ⟨t.rounds, t.problems, by simp, by simp, rfl⟩⟩
  | cons round rounds ih =>
      rw [List.length_cons] at hlast
      rw [List.zipIdx_cons, List.foldlM_cons]
      obtain ⟨hplain, t₁, hstep, hready, hkept, hfirst⟩ | ⟨hplain, constraint, hstep⟩ :=
        createRound_step hothers hdistinct hid h (by omega) (htimes round List.mem_cons_self)
          (hfound round List.mem_cons_self)
      · rw [hstep]
        obtain ⟨hrest, t', hresult, hnew⟩ | ⟨hrest, hresult⟩ := ih hready (by omega)
          (fun other hother => htimes other (List.mem_cons_of_mem _ hother))
          fun other hother slug hslug =>
            (hfound other (List.mem_cons_of_mem _ hother) slug hslug).imp_right (hkept _)
        · exact .inl ⟨List.forall_mem_cons.2 ⟨hplain, hrest⟩, t', hresult,
            fun halone => (hfirst halone).cons (hnew halone)⟩
        · exact .inr ⟨fun hall => hrest (List.forall_mem_cons.1 hall).2, hresult⟩
      · rw [hstep]
        exact .inr ⟨fun hall => hplain (List.forall_mem_cons.1 hall).1, constraint, rfl⟩

end Rounds

end CompetitionTables

open CompetitionTables

/-! ### Inputs that pass the checks -/

section Checks

variable {t : CompetitionTables} {c : CallContext} {input : CompetitionInput}
  {problems : List ProblemEntry} {slug : String} {catalogue : Rows ProblemEntry.id}
  {others : Others}

theorem roundTimes_of_checkRounds (h : input.checkRounds = .ok ()) :
    ∀ round ∈ input.rounds, round.startsAt < round.endsAt := by
  unfold CompetitionInput.checkRounds at h
  split at h
  · cases h
  · split at h
    · cases h
    · next hall =>
        intro round hround
        by_contra hle
        exact hall (List.any_eq_true.2 ⟨round, hround, decide_eq_true (.inr (.inr (not_lt.1 hle)))⟩)

theorem mem_of_findProblem {problem : ProblemEntry}
    (h : problems.find? (fun problem => decide (problem.slug = slug)) = some problem) :
    problem ∈ problems ∧ problem.slug = slug := by
  have hslug := List.find?_some h
  exact ⟨List.mem_of_find?_eq_some h, of_decide_eq_true hslug⟩

theorem mem_catalogue (h : input.findProblems catalogue.rows = .ok problems) :
    ∀ problem ∈ problems, problem ∈ catalogue.rows := by
  unfold CompetitionInput.findProblems at h
  simp only at h
  split at h
  · cases h
  · cases h
    exact fun problem hproblem => (List.mem_filter.1 hproblem).1

/-- The checks find a published problem for each slug, since they find as many problems as
    there are slugs. -/
theorem exists_problem (hslugs : DistinctSlugs catalogue)
    (h : input.findProblems catalogue.rows = .ok problems)
    (hslug : slug ∈ input.rounds.flatMap RoundInput.problemSlugs) :
    ∃ problem ∈ catalogue.rows, problem.isPublished = true ∧ problem.slug = slug ∧
      problems.find? (fun problem => decide (problem.slug = slug)) = some problem := by
  unfold CompetitionInput.findProblems at h
  simp only at h
  split at h
  · cases h
  next hlength =>
    rw [Except.ok.injEq] at h
    rw [h, ne_eq, not_not] at hlength
    have hmem : ∀ problem ∈ problems, problem ∈ catalogue.rows ∧ problem.isPublished = true ∧
        problem.slug ∈ (input.rounds.flatMap RoundInput.problemSlugs).dedup := by
      intro problem hproblem
      rw [← h, List.mem_filter, Bool.and_eq_true, decide_eq_true_iff] at hproblem
      exact ⟨hproblem.1, hproblem.2.2, hproblem.2.1⟩
    have hnodup : (problems.map ProblemEntry.slug).Nodup := by
      refine List.Nodup.map_on (fun p hp p' hp' hsame =>
        hslugs p (hmem p hp).1 p' (hmem p' hp').1 hsame) ?_
      rw [← h]
      exact (catalogue.nodup.of_map _).filter _
    have hsubset : problems.map ProblemEntry.slug ⊆
        (input.rounds.flatMap RoundInput.problemSlugs).dedup := by
      intro other hother
      obtain ⟨problem, hproblem, rfl⟩ := List.mem_map.1 hother
      exact (hmem problem hproblem).2.2
    have hperm := (hnodup.subperm hsubset).perm_of_length_le
      (by rw [List.length_map]; exact hlength.ge)
    obtain ⟨problem, hproblem, rfl⟩ := List.mem_map.1 (hperm.mem_iff.2 (List.mem_dedup.2 hslug))
    cases hfind : problems.find? (fun other => decide (other.slug = problem.slug)) with
    | none => exact absurd (decide_eq_true rfl) (List.find?_eq_none.1 hfind problem hproblem)
    | some other =>
        obtain ⟨hother, hsame⟩ := mem_of_findProblem hfind
        obtain rfl := hslugs other (hmem other hother).1 problem (hmem problem hproblem).1 hsame
        exact ⟨other, (hmem other hproblem).1, (hmem other hproblem).2.1, rfl, rfl⟩

/-- The identifier of each slug. -/
theorem exists_idOf (hslugs : DistinctSlugs catalogue)
    (h : input.findProblems catalogue.rows = .ok problems) (fallback : Uuid) :
    ∃ idOf, Names catalogue input.rounds idOf ∧
      (∀ round ∈ input.rounds, ∀ slug ∈ round.problemSlugs,
        Found problems idOf slug) ∧
      ∀ slug other, Found problems idOf slug →
        Found problems idOf other → idOf slug = idOf other → slug = other := by
  let idOf : String → Uuid := fun slug =>
    ((problems.find? fun problem => decide (problem.slug = slug)).map ProblemEntry.id).getD fallback
  have hidOf : ∀ slug problem, problems.find? (fun problem => decide (problem.slug = slug)) =
      some problem → problem.id = idOf slug := by
    intro slug problem hfind
    simp only [idOf, hfind, Option.map_some, Option.getD_some]
  have hlisted : ∀ round ∈ input.rounds, ∀ slug ∈ round.problemSlugs, ∃ problem ∈ catalogue.rows,
      problem.isPublished = true ∧ problem.slug = slug ∧
        problems.find? (fun problem => decide (problem.slug = slug)) = some problem :=
    fun round hround slug hslug =>
      exists_problem hslugs h (List.mem_flatMap.2 ⟨round, hround, hslug⟩)
  refine ⟨idOf, fun round hround slug hslug => ?_, fun round hround slug hslug => ?_, ?_⟩
  · obtain ⟨problem, hmem, hpublished, hsame, hfind⟩ := hlisted round hround slug hslug
    exact ⟨problem, hmem, hsame, hpublished, hidOf slug problem hfind⟩
  · obtain ⟨problem, -, -, -, hfind⟩ := hlisted round hround slug hslug
    exact ⟨problem, hfind, hidOf slug problem hfind⟩
  · rintro slug other ⟨problem, hfind, hid⟩ ⟨problem', hfind', hid'⟩ hsame
    obtain ⟨hproblem, rfl⟩ := mem_of_findProblem hfind
    obtain ⟨hproblem', rfl⟩ := mem_of_findProblem hfind'
    have heq : problem = problem' := Rows.eq_of_key (mem_catalogue h problem hproblem)
      (mem_catalogue h problem' hproblem') (hid.trans (hsame.trans hid'.symm))
    rw [heq]

/-- The problems of the rounds that were read are in the catalogue. -/
def CompetitionInput.Listed (input : CompetitionInput) (catalogue : Rows ProblemEntry.id)
    (t : CompetitionTables) : Prop :=
  ∀ problem ∈ catalogue.rows, problem.slug ∈ input.rounds.flatMap RoundInput.problemSlugs →
    (t.catalogue.find problem.id).isSome

/-- What the rounds of an input that passes the checks come to. -/
theorem rounds_stored {competitionId : Uuid}
    (hothers : ∀ m t, Leaves competitionId c.fresh input.rounds.length t
      (others m t))
    (hslugs : DistinctSlugs catalogue) (hchecked : input.checkRounds = .ok ())
    (h : input.findProblems catalogue.rows = .ok problems)
    (hready : t.Ready competitionId c.fresh input.rounds.length 0)
    (hlisted : input.Listed catalogue t)
    (hdistinct : ∀ j k, j ≤ input.rounds.length → k ≤ input.rounds.length →
      c.fresh j = c.fresh k → j = k) :
    (input.Plain ∧ ∃ t',
      t.createRounds others problems competitionId c.fresh input.rounds = .ok t' ∧
      (others = alone → ∃ idOf, Names catalogue input.rounds idOf ∧
        Appended competitionId c.fresh idOf input.rounds.zipIdx t t')) ∨
    (¬ input.Plain ∧ ∃ constraint,
      t.createRounds others problems competitionId c.fresh input.rounds =
        .error (.guard constraint)) := by
  obtain ⟨idOf, hnames, hfound, hid⟩ := exists_idOf hslugs h (c.fresh 0)
  have hboth : ∀ round ∈ input.rounds, ∀ slug ∈ round.problemSlugs,
      Found problems idOf slug ∧ (t.catalogue.find (idOf slug)).isSome := by
    intro round hround slug hslug
    obtain ⟨problem, hproblem, rfl, -, hid⟩ := hnames round hround slug hslug
    refine ⟨hfound round hround _ hslug, ?_⟩
    rw [← hid]
    exact hlisted problem hproblem (List.mem_flatMap.2 ⟨round, hround, hslug⟩)
  obtain ⟨hplain, t', hok, hnew⟩ | hfailed := createRounds_run (n := 0) hothers
    hdistinct hid hready (Nat.zero_add _).le (roundTimes_of_checkRounds hchecked) hboth
  · exact .inl ⟨hplain, t', hok, fun hnone => ⟨idOf, hnames, hnew hnone⟩⟩
  · exact .inr hfailed

/-- A new competition is ready for its rounds. -/
theorem ready_inserted (hintact : Intact t) (hunused : c.Unused input.rounds.length t)
    {row : CompetitionRow} (hrow : row.id = c.fresh 0) :
    CompetitionTables.Ready (c.fresh 0) c.fresh input.rounds.length 0
      { t with competitions := t.competitions.insert row } where
  competition := by
    have hfree : t.competitions.find row.id = none :=
      Rows.find_eq_none.2 fun other hother => hrow ▸ hunused.competition other hother
    refine Rows.mem_keys.1 (List.mem_map.2 ⟨row, ?_, hrow⟩)
    rw [Rows.rows_insert hfree]
    exact List.mem_append_right _ (List.mem_singleton_self _)
  ordinals := by
    intro round hround hsame
    obtain ⟨parent, hparent, hid⟩ := hintact.parents round hround
    exact absurd (hid.trans hsame) (hunused.competition parent hparent)
  rounds := fun round hround k _ hk => hunused.round k hk round hround
  problems := by
    intro problem hproblem k _ hk hsame
    obtain ⟨round, hround, hid⟩ := hintact.roundParents problem hproblem
    exact hunused.round k hk round hround (hid.trans hsame)

/-- A competition is ready for its new rounds when it has lost the old ones. -/
theorem ready_dropped (hintact : Intact t) (hunused : c.Unused input.rounds.length t)
    {current : CompetitionRow} (hcurrent : current ∈ t.competitions.rows) {t₁ : CompetitionTables}
    (hleaves : Leaves current.id c.fresh input.rounds.length t t₁) :
    (t₁.dropRounds current.id).Ready current.id c.fresh input.rounds.length 0 where
  competition := by
    change (t₁.competitions.find current.id).isSome
    rw [hleaves.competition]
    exact Rows.mem_keys.1 (List.mem_map.2 ⟨current, hcurrent, rfl⟩)
  ordinals := by
    intro round hround hsame
    exact absurd hsame (mem_dropRounds.1 hround).2
  rounds := by
    intro round hround k _ hk hsame
    have hmem := (mem_dropRounds.1 hround).1
    exact hunused.round k hk round ((hleaves.rounds round (.inr ⟨k, hk, hsame⟩)).1 hmem) hsame
  problems := by
    intro problem hproblem k _ hk hsame
    have hmem := (mem_dropRounds_problems.1 hproblem).1
    obtain ⟨round, hround, hid⟩ :=
      hintact.roundParents problem ((hleaves.problems problem ⟨k, hk, hsame⟩).1 hmem)
    exact hunused.round k hk round hround (hid.trans hsame)

/-- It stays ready when its row is changed. -/
theorem ready_replaced {competitionId : Uuid} {fresh : Nat → Uuid} {last : Nat}
    (h : t.Ready competitionId fresh last 0) {row : CompetitionRow}
    (hrow : row.id = competitionId) :
    CompetitionTables.Ready competitionId fresh last 0
      { t with competitions := t.competitions.replace row } where
  competition := by
    subst hrow
    exact Rows.mem_keys.1 (List.mem_map.2 ⟨row,
      (Rows.mem_replace_iff h.competition).2 (.inl rfl), rfl⟩)
  ordinals := h.ordinals
  rounds := h.rounds
  problems := h.problems

end Checks

/-! ### Answers -/

def slugTakenError : Error :=
  .api 409 "SLUG_TAKEN" "That competition slug is already in use."

/-- An error with a status and a code. -/
def Error.Classified (e : Error) : Prop :=
  ∃ status code message retryAfterSeconds, e = .api status code message retryAfterSeconds

/-- The schedule, the rounds and the problems of the input pass. -/
structure CompetitionInput.Checked (input : CompetitionInput) (catalogue : Rows ProblemEntry.id) :
    Prop where
  schedule : input.startsAt < input.endsAt
  rounds : input.checkRounds = .ok ()
  problems : ∃ problems, input.findProblems catalogue.rows = .ok problems

section Answers

variable {t : CompetitionTables} {c : CallContext} {input : CompetitionInput}
  {problems : List ProblemEntry} {e : Error} {slug : String} {current : CompetitionRow}
  {row : CompetitionRow} {catalogue : Rows ProblemEntry.id} {others : Others}

theorem insertCompetition_taken (hstorable : row.storable = true)
    (htimes : row.startsAt < row.endsAt)
    (hfree : t.competitions.find row.id = none) (htaken : (t.findSlug row.slug).isSome) :
    t.insertCompetition row = .error (.guard "Competition_slug_key") := by
  have horder : decide (row.endsAt ≤ row.startsAt) = false := decide_eq_false (not_le.2 htimes)
  simp only [insertCompetition, refuse, hstorable, horder, hfree, htaken,
    List.find?_cons]
  rfl

/-- The registration of the organiser. -/
def ownRegistration (c : CallContext) (userId : Uuid) : RegistrationRow :=
  { competitionId := c.fresh 0, userId, joinedAt := c.now }

/-- The organiser is registered for the new competition. -/
theorem registered_created (hintact : Intact t) (hunused : c.Unused input.rounds.length t)
    {t' : CompetitionTables} (hrow : row.id = c.fresh 0)
    (hcreated : CompetitionCreated catalogue c input row [] t t') (userId : Uuid) :
    ∃ t'', t'.insertRegistration (ownRegistration c userId) = .ok t'' ∧
      CompetitionCreated catalogue c input row [ownRegistration c userId] t t'' := by
  have hregistrations : t'.registrations.rows = t.registrations.rows := by
    rw [hcreated.registrations, List.append_nil]
  have hfree : t'.registrations.find (ownRegistration c userId).key = none := by
    refine Rows.find_eq_none.2 fun other hother hsame => ?_
    rw [hregistrations] at hother
    obtain ⟨parent, hparent, hid⟩ := hintact.registrationParents other hother
    exact hunused.competition parent hparent (hid.trans (congrArg Prod.fst hsame))
  have hparent : (t'.competitions.find (c.fresh 0)).isSome := by
    refine Rows.mem_keys.1 (List.mem_map.2 ⟨row, ?_, hrow⟩)
    rw [hcreated.competitions]
    exact List.mem_append_right _ (List.mem_singleton_self _)
  refine ⟨_, insertRegistration_eq_ok.2 ⟨hfree, hparent, rfl⟩,
    hcreated.competitions, hcreated.rounds, hcreated.problems, ?_, hcreated.executions,
    hcreated.catalogue⟩
  rw [Rows.rows_insert hfree, hregistrations]

/-- An answer of a call that creates a competition is right: it says that the slug is taken
    if it is and in no other case, and the competition is stored if nothing stands
    against it. -/
structure RightCreation (catalogue : Rows ProblemEntry.id) (c : CallContext)
    (input : CompetitionInput) (row : CompetitionRow) (registrations : List RegistrationRow)
    (t : CompetitionTables) (allowed : Prop) (answer : Except Error CompetitionTables) : Prop where
  taken : answer = .error slugTakenError ↔ (t.findSlug input.slug).isSome
  stored : t.findSlug input.slug = none → allowed →
    ∃ t', answer = .ok t' ∧ CompetitionCreated catalogue c input row registrations t t'

/-- An answer is not right that is neither a success nor about the slug. -/
theorem not_right {registrations : List RegistrationRow} {constraint : String}
    (h : (t.findSlug input.slug).isSome = true → constraint ∉ competitionKeys) :
    ¬ RightCreation catalogue c input row registrations t True
      (orSlugTaken (.error (.guard constraint))) := by
  intro hright
  cases hslug : t.findSlug input.slug with
  | none =>
      obtain ⟨t', hok, -⟩ := hright.stored hslug trivial
      cases orSlugTaken_eq_ok.1 hok
  | some row =>
      have hsome : (t.findSlug input.slug).isSome = true := by rw [hslug]; rfl
      have hanswer := hright.taken.2 hsome
      rw [orSlugTaken, if_neg (h hsome)] at hanswer
      cases hanswer

section Creations

variable (hintact : Intact t) (hunused : c.Unused input.rounds.length t)
  (hslugs : DistinctSlugs catalogue) (hlisted : input.Listed catalogue t)
  (hchecked : input.Checked catalogue)

include hintact hunused hslugs hlisted hchecked

/-- The transaction of a creation, with what it does in the end. Its answer is right if no
    text has a NUL and, where the slug is free, the rounds are plain. -/
theorem stored_right (hproblems : input.findProblems catalogue.rows = .ok problems)
    (ownerId : Option Uuid) (published : Bool)
    (finish : CompetitionTables → Except Error CompetitionTables)
    {registrations : List RegistrationRow}
    (hfinish : ∀ t', CompetitionCreated catalogue c input
        (input.row (c.fresh 0) ownerId published) [] t t' →
      ∃ t'', finish t' = .ok t'' ∧ CompetitionCreated catalogue c input
        (input.row (c.fresh 0) ownerId published) registrations t t'') :
    RightCreation catalogue c input (input.row (c.fresh 0) ownerId published) registrations t True
        (orSlugTaken (do
          let t ← t.insertCompetition (input.row (c.fresh 0) ownerId published)
          let t ← t.createRounds alone problems (c.fresh 0) c.fresh input.rounds
          finish t)) ↔
      input.storable = true ∧ (t.findSlug input.slug = none → input.Plain) := by
  have hfree : t.competitions.find (c.fresh 0) = none :=
    Rows.find_eq_none.2 hunused.competition
  by_cases hstorable : input.storable = true
  swap
  · have hinsert : t.insertCompetition (input.row (c.fresh 0) ownerId published) =
        .error (.guard notInRepertoire) := refuse_storable hstorable
    rw [hinsert]
    exact iff_of_false (not_right fun _ => by decide) fun h => hstorable h.1
  cases hslug : t.findSlug input.slug with
  | some old =>
      have hsome : (t.findSlug input.slug).isSome = true := by rw [hslug]; rfl
      have hinsert : t.insertCompetition (input.row (c.fresh 0) ownerId published) =
          .error (.guard "Competition_slug_key") :=
        insertCompetition_taken hstorable hchecked.schedule hfree hsome
      rw [hinsert]
      refine iff_of_true ⟨iff_of_true rfl hsome, fun hnone => ?_⟩ ⟨hstorable, nofun⟩
      rw [hnone] at hslug
      cases hslug
  | none =>
      have hnone : ¬ (t.findSlug input.slug).isSome = true := by rw [hslug]; nofun
      have hinsert := insertCompetition_eq_ok.2
        (⟨hstorable, hchecked.schedule, hfree, hslug, rfl⟩ :
          (input.row (c.fresh 0) ownerId published).storable = true ∧
          (input.row (c.fresh 0) ownerId published).startsAt <
            (input.row (c.fresh 0) ownerId published).endsAt ∧ _ ∧ _ ∧ _)
      rw [hinsert]
      simp only [bind, Except.bind]
      obtain ⟨hplain, t', hok, hnew⟩ | ⟨hplain, constraint, hfailed⟩ :=
        rounds_stored Leaves.alone hslugs hchecked.rounds hproblems
          (ready_inserted hintact hunused
            (rfl : (input.row (c.fresh 0) ownerId published).id = c.fresh 0)) hlisted
          hunused.distinct
      · obtain ⟨idOf, hnames, rounds, stored, hrounds, hstored, rfl⟩ := hnew rfl
        obtain ⟨t'', hlast, hcreated⟩ := hfinish
          { t with
            competitions := t.competitions.insert (input.row (c.fresh 0) ownerId published)
            rounds, problems := stored }
          ⟨Rows.rows_insert hfree, hrounds, ⟨idOf, hnames, hstored⟩, (List.append_nil _).symm, rfl,
            rfl⟩
        rw [hok]
        simp only [hlast]
        exact iff_of_true ⟨iff_of_false nofun hnone, fun _ _ => ⟨t'', rfl, hcreated⟩⟩
          ⟨hstorable, fun _ => hplain⟩
      · rw [hfailed]
        exact iff_of_false (not_right fun hsome => absurd hsome hnone) fun h => hplain (h.2 trivial)

/-- The administrator's answer is right, unless a text has a NUL, or the slug is free and a
    round is not plain. -/
theorem createCompetition_right (published : Bool) :
    RightCreation catalogue c input (input.row (c.fresh 0) none published) [] t True
        (AdminCompetitions.createCompetition catalogue t c input published) ↔
      input.storable = true ∧ (t.findSlug input.slug = none → input.Plain) := by
  obtain ⟨problems, hproblems⟩ := hchecked.problems
  rw [← stored_right hintact hunused hslugs hlisted hchecked hproblems none published pure
    fun t' hcreated => ⟨t', rfl, hcreated⟩, AdminCompetitions.createCompetition,
    if_neg (not_le.2 hchecked.schedule), hchecked.rounds, hproblems]
  simp only [bind_pure]
  rfl

/-- The organiser's answer is right, unless the slug is taken and the limit is reached, or
    the limit is not reached and a text has a NUL, or the slug is free as well and a round
    is not plain. -/
theorem create_right (hfuture : c.now + 5 * 60000 ≤ input.startsAt) (counted : CompetitionTables)
    (userId : Uuid) :
    RightCreation catalogue c input (input.row (c.fresh 0) (some userId) true)
        [ownRegistration c userId] t (Competitions.active counted userId c.now < 5)
        (Competitions.create catalogue counted t c userId input) ↔
      if (t.findSlug input.slug).isSome then
        Competitions.active counted userId c.now < 5 ∧ input.storable = true
      else Competitions.active counted userId c.now < 5 → input.storable = true ∧ input.Plain := by
  obtain ⟨problems, hproblems⟩ := hchecked.problems
  have hcreate : Competitions.create catalogue counted t c userId input =
      orSlugTaken (Competitions.store counted t c userId input problems) := by
    rw [Competitions.create, if_neg (not_lt.2 hfuture), if_neg (not_le.2 hchecked.schedule),
      hchecked.rounds, hproblems]
    rfl
  rw [hcreate, Competitions.store]
  by_cases hlimit : 5 ≤ Competitions.active counted userId c.now
  · rw [if_pos hlimit]
    -- the limit is reported first
    cases hslug : t.findSlug input.slug with
    | some row =>
        refine iff_of_false (fun h => ?_) fun h => absurd hlimit (not_le.2 h.1)
        have hanswer := h.taken.2 (by rw [hslug]; rfl)
        exact absurd (Except.error.inj hanswer) (by decide)
    | none =>
        refine iff_of_true ⟨iff_of_false (fun h => ?_) (by rw [hslug]; nofun), ?_⟩ ?_
        · exact absurd (Except.error.inj h) (by decide)
        · exact fun _ h => absurd hlimit (not_le.2 h)
        · exact fun h => absurd hlimit (not_le.2 h)
  · have hbelow := not_le.1 hlimit
    have hright := stored_right hintact hunused hslugs hlisted hchecked hproblems (some userId) true
      (·.insertRegistration (ownRegistration c userId))
      fun t' hcreated => registered_created hintact hunused rfl hcreated userId
    rw [if_neg hlimit]
    refine Iff.trans ⟨fun h => ⟨h.taken, fun hnone _ => h.stored hnone hbelow⟩,
      fun h => ⟨h.taken, fun hnone _ => h.stored hnone trivial⟩⟩ (hright.trans ?_)
    cases hslug : t.findSlug input.slug with
    | some row => exact ⟨fun h => ⟨hbelow, h.1⟩, fun h => ⟨h.2, nofun⟩⟩
    | none => exact ⟨fun h _ => ⟨h.1, h.2 rfl⟩, fun h => ⟨(h hbelow).1, fun _ => (h hbelow).2⟩⟩

end Creations

theorem classified_checkRounds (h : input.checkRounds = .error e) : e.Classified := by
  unfold CompetitionInput.checkRounds at h
  split at h
  · cases h
    exact ⟨_, _, _, _, rfl⟩
  · split at h
    · cases h
      exact ⟨_, _, _, _, rfl⟩
    · cases h

theorem classified_findProblems {catalogue : List ProblemEntry}
    (h : input.findProblems catalogue = .error e) : e.Classified := by
  unfold CompetitionInput.findProblems at h
  simp only at h
  split at h
  · cases h
    exact ⟨_, _, _, _, rfl⟩
  · cases h

theorem classified_checkUpdate (h : Competitions.checkUpdate c slug input current = .error e) :
    e.Classified := by
  unfold Competitions.checkUpdate at h
  split at h
  · cases h
    exact ⟨_, _, _, _, rfl⟩
  · split at h
    · cases h
      exact ⟨_, _, _, _, rfl⟩
    · split at h
      · cases h
        exact ⟨_, _, _, _, rfl⟩
      · cases h

theorem schedule_of_checkUpdate (h : Competitions.checkUpdate c slug input current = .ok ()) :
    input.startsAt < input.endsAt := by
  unfold Competitions.checkUpdate at h
  split at h
  · cases h
  · split at h
    · cases h
    · split at h
      · cases h
      · next hschedule => exact not_le.1 fun hle => hschedule (.inr hle)

theorem storable_updated (h : row.storable = true) :
    (input.updated row).storable = input.storable := by
  rw [CompetitionRow.storable, Bool.and_eq_true] at h
  unfold CompetitionRow.storable CompetitionInput.storable CompetitionInput.updated
  cases input.prizeLabel with
  | none => rw [Option.none_or, h.2]; rfl
  | some label => rfl

/-- What the transaction of an update comes to that other calls leave alone. -/
theorem rewrite_cases (hintact : Intact t) (hunused : c.Unused input.rounds.length t)
    (hslugs : DistinctSlugs catalogue) (hchecked : input.Checked catalogue)
    (hproblems : input.findProblems catalogue.rows = .ok problems)
    (hcurrent : current ∈ t.competitions.rows) (hunreferenced : t.submitted current.id = false)
    (hothers : ∀ n t, Leaves current.id c.fresh input.rounds.length t
      (others n t)) {t₁ : CompetitionTables}
    (hleaves : Leaves current.id c.fresh input.rounds.length t t₁)
    (hlisted : input.Listed catalogue t₁) :
    (¬ (input.storable = true ∧ input.Plain) ∧ ∃ constraint,
        Competitions.rewrite others t₁ c input current problems = .error (.guard constraint)) ∨
      ((input.storable = true ∧ input.Plain) ∧ ∃ t',
        Competitions.rewrite others t₁ c input current problems = .ok t') := by
  have hdelete := deleteRounds_eq_ok.2
    (⟨hleaves.references.trans hunreferenced, rfl⟩ : _ ∧ t₁.dropRounds current.id = _)
  have hleaves₂ := hothers 2 (t₁.dropRounds current.id)
  have hready := (ready_dropped hintact hunused hcurrent hleaves).leaves hleaves₂
  have hfind : (others 2 (t₁.dropRounds current.id)).competitions.find current.id = some current :=
    (hleaves₂.competition.trans hleaves.competition).trans (Rows.find_eq_some.2 ⟨hcurrent, rfl⟩)
  rw [Competitions.rewrite, hdelete]
  simp only [bind, Except.bind, hfind, Option.getD_some]
  by_cases hstorable : input.storable = true
  swap
  · have hrefused : ∀ t₂ : CompetitionTables, t₂.updateCompetition (input.updated current) =
        .error (.guard notInRepertoire) := fun _ => refuse_storable (by
      rwa [storable_updated (hintact.texts current hcurrent)])
    rw [hrefused]
    exact .inl ⟨fun h => hstorable h.1, _, rfl⟩
  have hupdate := updateCompetition_eq_ok.2
    (⟨(storable_updated (hintact.texts current hcurrent)).trans hstorable,
      hready.competition, hchecked.schedule, rfl⟩ :
        (input.updated current).storable = true ∧ _ ∧
          (input.updated current).startsAt < (input.updated current).endsAt ∧ _)
  rw [hupdate]
  obtain ⟨hplain, t', hok, -⟩ | ⟨hplain, constraint, hfailed⟩ :=
    rounds_stored (fun n => hothers (n + 3)) hslugs hchecked.rounds hproblems
      (ready_replaced hready (rfl : (input.updated current).id = current.id))
      (fun problem hproblem hslug => hleaves₂.catalogue _ (hlisted problem hproblem hslug))
      hunused.distinct
  · exact .inr ⟨⟨hstorable, hplain⟩, t', hok⟩
  · exact .inl ⟨fun h => hplain h.2, constraint, hfailed⟩

/-- An update of a competition that no execution refers to and that other calls leave alone
    fails with an answer, unless its input passes the checks and a text has a NUL or a round
    is not plain. -/
theorem update_right (hintact : Intact t) (hunused : c.Unused input.rounds.length t) {userId : Uuid}
    {role : Role} (hmanaged : Competitions.managed t userId role slug = .ok current)
    (hunreferenced : t.submitted current.id = false)
    (hothers : ∀ n t, Leaves current.id c.fresh input.rounds.length t
      (others n t)) (hslugs : DistinctSlugs (others 0 t).catalogue) :
    (∀ e, Competitions.update others t c userId role slug input = .error e → e.Classified) ↔
      (Competitions.checkUpdate c slug input current = .ok () →
        input.Checked (others 0 t).catalogue → input.storable = true ∧ input.Plain) := by
  have hcurrent := mem_of_managed hmanaged
  rw [Competitions.update, hmanaged]
  simp only [bind, Except.bind]
  cases hupdate : Competitions.checkUpdate c slug input current with
  | error e =>
      refine iff_of_true (fun e' he => ?_) nofun
      cases he
      exact classified_checkUpdate hupdate
  | ok =>
    cases hrounds : input.checkRounds with
    | error e =>
        refine iff_of_true (fun e' he => ?_) fun _ h => ?_
        · cases he
          exact classified_checkRounds hrounds
        · cases hrounds.symm.trans h.rounds
    | ok =>
      cases hproblems : input.findProblems (others 0 t).catalogue.rows with
      | error e =>
          refine iff_of_true (fun e' he => ?_) fun _ h => ?_
          · cases he
            exact classified_findProblems hproblems
          · obtain ⟨problems, hok⟩ := h.problems
            cases hproblems.symm.trans hok
      | ok problems =>
          have hchecked : input.Checked (others 0 t).catalogue :=
            ⟨schedule_of_checkUpdate hupdate, hrounds, problems, hproblems⟩
          have hlisted : input.Listed (others 0 t).catalogue (others 1 (others 0 t)) :=
            fun problem hproblem _ => (hothers 1 _).catalogue _
              (Rows.mem_keys.1 (List.mem_map_of_mem hproblem))
          obtain ⟨hrefused, constraint, herror⟩ | ⟨haccepted, t', hok⟩ :=
            rewrite_cases hintact hunused hslugs hchecked hproblems hcurrent hunreferenced hothers
              ((hothers 0 t).trans (hothers 1 _)) hlisted
          · refine iff_of_false (fun h => ?_) fun h => hrefused (h rfl hchecked)
            obtain ⟨status, code, message, retry, he⟩ := h _ herror
            cases he
          · refine iff_of_true (fun e he => ?_) fun _ _ => haccepted
            cases hok.symm.trans he

end Answers

/-- The answers to an organiser or an administrator who creates a competition are right,
    and an update that other calls leave alone fails with an answer, under the conditions
    that stand at the right hand sides, and under no others. -/
theorem competition_conflicts (t : CompetitionTables) (c : CallContext) (input : CompetitionInput)
    (hintact : Intact t) (hunused : c.Unused input.rounds.length t) :
    (∀ catalogue, DistinctSlugs catalogue → input.Listed catalogue t → input.Checked catalogue →
      (c.now + 5 * 60000 ≤ input.startsAt → ∀ counted userId,
        (RightCreation catalogue c input (input.row (c.fresh 0) (some userId) true)
            [ownRegistration c userId] t (Competitions.active counted userId c.now < 5)
            (Competitions.create catalogue counted t c userId input) ↔
          if (t.findSlug input.slug).isSome then
            Competitions.active counted userId c.now < 5 ∧ input.storable = true
          else Competitions.active counted userId c.now < 5 →
            input.storable = true ∧ input.Plain)) ∧
      ∀ published,
        (RightCreation catalogue c input (input.row (c.fresh 0) none published) [] t True
            (AdminCompetitions.createCompetition catalogue t c input published) ↔
          input.storable = true ∧ (t.findSlug input.slug = none → input.Plain))) ∧
    ∀ others userId role slug current, Competitions.managed t userId role slug = .ok current →
      t.submitted current.id = false →
      (∀ n t, Leaves current.id c.fresh input.rounds.length t (others n t)) →
      DistinctSlugs (others 0 t).catalogue →
        ((∀ e, Competitions.update others t c userId role slug input = .error e →
            e.Classified) ↔
          (Competitions.checkUpdate c slug input current = .ok () →
            input.Checked (others 0 t).catalogue → input.storable = true ∧ input.Plain)) := by
  refine ⟨fun catalogue hslugs hlisted hchecked =>
    ⟨fun hfuture counted userId => ?_, fun published => ?_⟩, ?_⟩
  · exact create_right hintact hunused hslugs hlisted hchecked hfuture counted userId
  · exact createCompetition_right hintact hunused hslugs hlisted hchecked published
  · intro others userId role slug current hmanaged hunreferenced hothers hslugs
    exact update_right hintact hunused hmanaged hunreferenced hothers hslugs

namespace Sample

/-- A database with one published problem. -/
def catalogueTables : CompetitionTables where
  problems := ⟨[], by decide⟩
  registrations := ⟨[], by decide⟩
  catalogue := Rows.insert {} sampleProblem

/-- A competition that has the problem once, or twice. -/
def sprint (times : Nat) : CompetitionInput :=
  { movedContest with
    rounds := [⟨"Main round", 8 * 86400000, 8 * 86400000 + 7200000,
      List.replicate times "sum-two-numbers"⟩] }

/-- Another update is committed after the call has deleted the old rounds. -/
def overtaken : Others := fun n t =>
  if n = 2 then
    serveCall t ({ callContext with fresh := fun n => if n = 0 then token else versionId },
      .update owner .admin "weekend-sprint" (sprint 1))
  else t

theorem intact_catalogueTables : Intact catalogueTables where
  times := List.forall_mem_nil _
  roundTimes := List.forall_mem_nil _
  slugs := List.forall_mem_nil _
  places := List.forall_mem_nil _
  parents := List.forall_mem_nil _
  roundParents := List.forall_mem_nil _
  registrationParents := List.forall_mem_nil _
  texts := List.forall_mem_nil _

theorem unused_callContext : callContext.Unused 1 catalogueTables where
  distinct := by
    intro j k hj hk hsame
    obtain rfl | rfl := Nat.le_one_iff_eq_zero_or_eq_one.1 hj <;>
      obtain rfl | rfl := Nat.le_one_iff_eq_zero_or_eq_one.1 hk <;>
      first | rfl | exact absurd hsame (by decide)
  competition := List.forall_mem_nil _
  round := fun _ _ => List.forall_mem_nil _

end Sample

/-- With a problem twice in a round, a slug that is free is reported as taken, and an update
    fails without an answer. So does a creation with a NUL in a text, and an update that
    another one overtakes. -/
theorem repeated_problem_conflicts :
    Sample.catalogueTables.findSlug (Sample.sprint 2).slug = none ∧
      Sample.failureOf (Competitions.create Sample.catalogueTables.catalogue Sample.catalogueTables
        Sample.catalogueTables
        Sample.callContext Sample.owner (Sample.sprint 2)) = some slugTakenError ∧
      Sample.failureOf (AdminCompetitions.createCompetition Sample.catalogueTables.catalogue
        Sample.catalogueTables Sample.callContext (Sample.sprint 2) true) = some slugTakenError ∧
      Sample.failureOf (Competitions.update alone Sample.seeded Sample.callContext Sample.owner
        .admin "weekend-sprint" (Sample.sprint 2)) = some (.guard "CompetitionProblem_pkey") ∧
      Sample.failureOf (Competitions.create Sample.catalogueTables.catalogue Sample.catalogueTables
        Sample.catalogueTables
        Sample.callContext Sample.owner { Sample.sprint 1 with title := "A\x00title" }) =
          some (.guard notInRepertoire) ∧
      Sample.failureOf (Competitions.update Sample.overtaken Sample.seeded Sample.callContext
        Sample.owner .admin "weekend-sprint" (Sample.sprint 1)) =
          some (.guard "CompetitionRound_competitionId_ordinal_key") := by
  refine ⟨rfl, ?_, ?_, ?_, ?_, ?_⟩ <;> decide +kernel

/-- With the problem once, the competition is created. -/
theorem competition_conflicts_sprint :
    (Sample.sprint 1).Checked Sample.catalogueTables.catalogue ∧
      ∃ t', Competitions.create Sample.catalogueTables.catalogue Sample.catalogueTables
        Sample.catalogueTables
          Sample.callContext Sample.owner (Sample.sprint 1) = .ok t' ∧
        t'.rounds.rows.length = 1 := by
  have hchecked : (Sample.sprint 1).Checked Sample.catalogueTables.catalogue :=
    ⟨by decide, rfl, [sampleProblem], by decide +kernel⟩
  have hslugs : DistinctSlugs Sample.catalogueTables.catalogue := by
    intro p hp p' hp' _
    rw [List.mem_singleton.1 hp, List.mem_singleton.1 hp']
  have hlisted : (Sample.sprint 1).Listed Sample.catalogueTables.catalogue
      Sample.catalogueTables := fun problem hproblem _ =>
    Rows.mem_keys.1 (List.mem_map_of_mem hproblem)
  refine ⟨hchecked, ?_⟩
  have hright := (((competition_conflicts Sample.catalogueTables Sample.callContext
    (Sample.sprint 1) Sample.intact_catalogueTables Sample.unused_callContext).1 _ hslugs hlisted
    hchecked).1 (by decide) Sample.catalogueTables Sample.owner).2 (by decide +kernel)
  obtain ⟨t', hok, hcreated⟩ := hright.stored rfl (by decide)
  exact ⟨t', hok, by rw [hcreated.rounds]; rfl⟩

end ArenaCore
