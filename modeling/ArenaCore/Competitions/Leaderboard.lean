import Mathlib.Data.List.Induction
import Mathlib.Data.List.Sort
import ArenaCore.Store.System

/-!
# The Leaderboard

`Competitions.buildLeaderboard`: the submissions of each participant are read in
the order in which they were created. The first accepted one of a problem solves
it, and any other before that is a wrong attempt, which costs twenty minutes.

Anything that is not accepted counts as wrong, so a submission that is still
queued, was cancelled or met an infrastructure failure does too, unless it came
before its owner joined or after the problem was solved. Such submissions are
called neutral here, and those that cost something charged. The leaderboard
depends on the neutral submissions through the number of charged ones only.

## Main definitions

* `tally`: The fold over the submissions of a participant.
* `buildLeaderboard`: The ranked entries.
* `ScoredRow.neutral`: A submission whose outcome is not the learner's.
* `charged`: The neutral submissions a participant pays for.

## Theorems

* `tally_neutral`: What neutral submissions change in a tally.
* `leaderboard_unchanged_iff`: When they change nothing.
-/

namespace ArenaCore

variable {α : Type} {r : α → α → Prop} {joinedAt : Int}

structure CompetitionProblem where
  problemId : Uuid
  points : Int

/-- What `buildLeaderboard` is given of a competition. -/
structure ScoredCompetition where
  id : Uuid
  startsAt : Int
  rounds : List (List CompetitionProblem)

/-- A registration with its user. -/
structure ParticipantRow where
  joinedAt : Int
  userId : Uuid
  username : String
  displayName : String

/-- An execution with the competition of its round and the problem of its
    version. -/
structure ScoredRow where
  userId : Uuid
  mode : ExecutionMode
  competitionId : Option Uuid
  verdict : Option Verdict
  createdAt : Int
  problemId : Uuid

/-- The points of each problem, the most any round gives for it. -/
def pointsOf (competition : ScoredCompetition) : Uuid → Option Int :=
  competition.rounds.flatten.foldl
    (fun points problem id =>
      if id = problem.problemId then some (max ((points id).getD 0) problem.points) else points id)
    fun _ => none

structure ScoreTally where
  /-- The solved problems and when, in this order. -/
  solved : List (Uuid × Int) := []
  wrongAttempts : Nat := 0

def ScoreTally.hasSolved (t : ScoreTally) (problemId : Uuid) : Bool :=
  t.solved.any fun s => decide (s.1 = problemId)

/-- One turn of the loop over the executions of a participant. -/
def ScoreTally.next (joinedAt : Int) (t : ScoreTally) (execution : ScoredRow) : ScoreTally :=
  if execution.createdAt < joinedAt then t
  else if t.hasSolved execution.problemId then t
  else if execution.verdict = some .accepted then
    { t with solved := t.solved ++ [(execution.problemId, execution.createdAt)] }
  else { t with wrongAttempts := t.wrongAttempts + 1 }

def tally (joinedAt : Int) (executions : List ScoredRow) : ScoreTally :=
  executions.foldl (ScoreTally.next joinedAt) {}

/-- The submissions of a participant in the competition, oldest first. -/
def submissionsOf (competition : ScoredCompetition) (participant : ParticipantRow)
    (executions : List ScoredRow) : List ScoredRow :=
  (executions.filter fun e => decide (e.userId = participant.userId) && decide (e.mode = .submit) &&
    decide (e.competitionId = some competition.id)).insertionSort
      fun a b => a.createdAt ≤ b.createdAt

structure LeaderboardEntry where
  username : String
  displayName : String
  score : Int
  solved : Nat
  penalty : Int
  joinedAt : Int
deriving DecidableEq

def leaderboardEntry (competition : ScoredCompetition) (executions : List ScoredRow)
    (participant : ParticipantRow) : LeaderboardEntry :=
  let t := tally participant.joinedAt (submissionsOf competition participant executions)
  { username := participant.username
    displayName := participant.displayName
    score := (t.solved.map fun s => (pointsOf competition s.1).getD 0).sum
    solved := t.solved.length
    penalty := (t.solved.map fun s => max 0 ((s.2 - competition.startsAt) / 60000)).sum +
      t.wrongAttempts * 20
    joinedAt := participant.joinedAt }

/-- The comparison the entries are sorted by; the last criterion is that of the
    runtime's locale. -/
def ranksBefore (localeCompare : String → String → Int) (a b : LeaderboardEntry) : Bool :=
  if a.score ≠ b.score then decide (b.score - a.score ≤ 0)
  else if a.solved ≠ b.solved then decide ((b.solved : Int) - a.solved ≤ 0)
  else if a.penalty ≠ b.penalty then decide (a.penalty - b.penalty ≤ 0)
  else decide (localeCompare a.username b.username ≤ 0)

/-- The entries with their ranks. -/
def buildLeaderboard (localeCompare : String → String → Int) (competition : ScoredCompetition)
    (participants : List ParticipantRow) (executions : List ScoredRow) :
    List (Nat × LeaderboardEntry) :=
  (((participants.map (leaderboardEntry competition executions)).insertionSort
    fun a b => ranksBefore localeCompare a b = true).mapIdx fun index entry => (index + 1, entry))

/-! ### Neutral submissions -/

/-- A submission without a verdict, or with one that is not the learner's. -/
def ScoredRow.neutral (e : ScoredRow) : Bool :=
  decide (e.mode = .submit) &&
    (e.verdict.isNone || decide (e.verdict = some .cancelled) ||
      decide (e.verdict = some .internalError))

/-- The problem was solved by one of these executions. -/
def solvedBy (joinedAt : Int) (executions : List ScoredRow) (problemId : Uuid) : Bool :=
  executions.any fun e => decide (joinedAt ≤ e.createdAt) && decide (e.verdict = some .accepted) &&
    decide (e.problemId = problemId)

/-- A neutral submission after the participant joined and before they solved the
    problem, given the executions before it. -/
def isCharged (joinedAt : Int) (before : List ScoredRow) (e : ScoredRow) : Bool :=
  e.neutral && decide (joinedAt ≤ e.createdAt) && !solvedBy joinedAt before e.problemId

/-- The number of charged submissions, given the executions before. -/
def chargedAfter (joinedAt : Int) : List ScoredRow → List ScoredRow → Nat
  | _, [] => 0
  | before, e :: rest =>
      (if isCharged joinedAt before e then 1 else 0) + chargedAfter joinedAt (before ++ [e]) rest

/-- The neutral submissions a participant pays for. -/
def charged (competition : ScoredCompetition) (executions : List ScoredRow)
    (participant : ParticipantRow) : Nat :=
  chargedAfter participant.joinedAt [] (submissionsOf competition participant executions)

variable {e : ScoredRow}

theorem ScoredRow.neutral.not_accepted (h : e.neutral = true) : e.verdict ≠ some .accepted := by
  intro hverdict
  simp [neutral, hverdict] at h

/-- A tally knows the problems that were solved. -/
theorem hasSolved_tally (joinedAt : Int) (executions : List ScoredRow) (problemId : Uuid) :
    (tally joinedAt executions).hasSolved problemId = solvedBy joinedAt executions problemId := by
  induction executions using List.reverseRecOn with
  | nil => rfl
  | append_singleton executions e ih =>
      have hstep : tally joinedAt (executions ++ [e]) =
          (tally joinedAt executions).next joinedAt e := List.foldl_append
      have hsolved : solvedBy joinedAt (executions ++ [e]) problemId =
          (solvedBy joinedAt executions problemId || (decide (joinedAt ≤ e.createdAt) &&
            decide (e.verdict = some .accepted) && decide (e.problemId = problemId))) := by
        simp [solvedBy]
      rw [hstep, hsolved, ← ih]
      unfold ScoreTally.next
      split
      · next hearly => simp [not_le.2 hearly]
      · next hjoined =>
          split
          · next hknown =>
              by_cases hp : e.problemId = problemId
              · rw [← hp, hknown, Bool.true_or]
              · simp [hp]
          · split
            · next haccepted => simp [ScoreTally.hasSolved, not_lt.1 hjoined, haccepted]
            · next hrejected => simp [ScoreTally.hasSolved, hrejected]

theorem chargedAfter_append_singleton (joinedAt : Int) (executions : List ScoredRow)
    (e : ScoredRow) : ∀ before, chargedAfter joinedAt before (executions ++ [e]) =
      chargedAfter joinedAt before executions +
        if isCharged joinedAt (before ++ executions) e then 1 else 0 := by
  induction executions with
  | nil => intro before; simp [chargedAfter]
  | cons d executions ih =>
      intro before
      rw [List.cons_append, chargedAfter, ih, chargedAfter, Nat.add_assoc, List.append_assoc,
        List.singleton_append]

/-- The wrong attempts an execution adds. -/
theorem wrongAttempts_next (joinedAt : Int) (t : ScoreTally) (e : ScoredRow) :
    (t.next joinedAt e).wrongAttempts = t.wrongAttempts +
      if (decide (joinedAt ≤ e.createdAt) && !t.hasSolved e.problemId &&
        !decide (e.verdict = some .accepted)) = true then 1 else 0 := by
  unfold ScoreTally.next
  split
  · next hearly => simp [not_le.2 hearly]
  · next hjoined =>
      split
      · next hknown => simp [hknown]
      · next hknown =>
          split
          · next haccepted => simp [haccepted]
          · next hrejected =>
              rw [Bool.not_eq_true] at hknown
              simp [not_lt.1 hjoined, hknown, hrejected]

variable {t : ScoreTally}

theorem solved_next_of_not_accepted (h : e.verdict ≠ some .accepted) :
    (t.next joinedAt e).solved = t.solved := by
  simp only [ScoreTally.next, h, if_false]
  split
  · rfl
  · split <;> rfl

variable {u : ScoreTally}

theorem hasSolved_congr (problemId : Uuid) (h : t.solved = u.solved) :
    t.hasSolved problemId = u.hasSolved problemId := by
  rw [ScoreTally.hasSolved, h, ScoreTally.hasSolved]

/-- What is solved next depends on what was solved only. -/
theorem solved_next_congr (e : ScoredRow) (h : t.solved = u.solved) :
    (t.next joinedAt e).solved = (u.next joinedAt e).solved := by
  have hknown := hasSolved_congr e.problemId h
  simp only [ScoreTally.next, hknown]
  split
  · exact h
  · split
    · exact h
    · split
      · exact congrArg (· ++ _) h
      · exact h

/-- Neutral submissions leave the solved problems alone and add the charged ones
    to the wrong attempts. -/
theorem tally_neutral (joinedAt : Int) (executions : List ScoredRow) :
    (tally joinedAt executions).solved =
        (tally joinedAt (executions.filter fun e => !e.neutral)).solved ∧
      (tally joinedAt executions).wrongAttempts =
        (tally joinedAt (executions.filter fun e => !e.neutral)).wrongAttempts +
          chargedAfter joinedAt [] executions := by
  induction executions using List.reverseRecOn with
  | nil => exact ⟨rfl, rfl⟩
  | append_singleton executions e ih =>
      obtain ⟨hsolved, hwrong⟩ := ih
      have hstep : ∀ l, tally joinedAt (l ++ [e]) = (tally joinedAt l).next joinedAt e :=
        fun l => List.foldl_append
      rw [chargedAfter_append_singleton, List.filter_append, hstep, List.nil_append]
      cases hneutral : e.neutral with
      | true =>
          have hverdict := ScoredRow.neutral.not_accepted hneutral
          have hfilter : [e].filter (fun e => !e.neutral) = [] := by simp [hneutral]
          rw [hfilter, List.append_nil, solved_next_of_not_accepted hverdict, wrongAttempts_next,
            hasSolved_tally, hwrong, Nat.add_assoc]
          simp [hsolved, isCharged, hneutral, hverdict]
      | false =>
          -- Both tallies take the same branch, since they agree on what is solved.
          have hfilter : [e].filter (fun e => !e.neutral) = [e] := by simp [hneutral]
          rw [hfilter, hstep, wrongAttempts_next, wrongAttempts_next,
            hasSolved_congr e.problemId hsolved, hwrong]
          refine ⟨solved_next_congr e hsolved, ?_⟩
          simp only [isCharged, hneutral, Bool.false_and, Bool.false_eq_true, if_false]
          omega

/-! ### The order of the executions -/

theorem orderedInsert_of_forall [DecidableRel r] {a : α} {l : List α} (h : ∀ b ∈ l, r a b) :
    l.orderedInsert r a = a :: l := by
  cases l with
  | nil => rfl
  | cons b l => exact List.orderedInsert_cons_of_le r l (h b List.mem_cons_self)

theorem filter_orderedInsert {r : α → α → Prop} [DecidableRel r] [IsTrans α r] (p : α → Bool)
    (a : α) {l : List α} (hl : l.Pairwise r) :
    (l.orderedInsert r a).filter p =
      if p a then (l.filter p).orderedInsert r a else l.filter p := by
  induction l with
  | nil => cases hp : p a <;> simp [hp]
  | cons b l ih =>
      obtain ⟨hb, hl⟩ := List.pairwise_cons.1 hl
      rw [List.orderedInsert_cons]
      split
      · next hab =>
          -- What is left of the list stays behind the new element.
          have hall : ∀ c ∈ (b :: l).filter p, r a c := by
            intro c hc
            rcases List.mem_cons.1 (List.mem_of_mem_filter hc) with rfl | hc
            · exact hab
            · exact IsTrans.trans a b c hab (hb c hc)
          rw [orderedInsert_of_forall hall, List.filter_cons]
      · next hab =>
          cases hpb : p b with
          | true =>
              rw [List.filter_cons_of_pos hpb, ih hl, List.filter_cons_of_pos hpb,
                List.orderedInsert_of_not_le r _ hab]
              split <;> rfl
          | false =>
              have hnot : ¬ p b = true := by rw [hpb]; exact Bool.false_ne_true
              rw [List.filter_cons_of_neg hnot, ih hl, List.filter_cons_of_neg hnot]

/-- Dropping rows commutes with sorting them. -/
theorem filter_insertionSort {r : α → α → Prop} [DecidableRel r] [Std.Total r] [IsTrans α r]
    (p : α → Bool) (l : List α) : (l.insertionSort r).filter p = (l.filter p).insertionSort r := by
  induction l with
  | nil => rfl
  | cons a l ih =>
      rw [List.insertionSort_cons, filter_orderedInsert p a (List.pairwise_insertionSort r l), ih]
      cases hp : p a with
      | true => simp [hp]
      | false => simp [hp]

theorem submissionsOf_filter (competition : ScoredCompetition) (participant : ParticipantRow)
    (executions : List ScoredRow) (p : ScoredRow → Bool) :
    (submissionsOf competition participant executions).filter p =
      submissionsOf competition participant (executions.filter p) := by
  rw [submissionsOf, filter_insertionSort, List.filter_filter, submissionsOf, List.filter_filter]
  simp only [Bool.and_comm]

/-! ### The leaderboard -/

section Leaderboard

variable {competition : ScoredCompetition} {executions executions' : List ScoredRow}
  {localeCompare : String → String → Int} {participants : List ParticipantRow}

/-- The entry of a participant depends on neutral submissions through the number
    of charged ones. -/
theorem leaderboardEntry_eq_iff (participant : ParticipantRow)
    (h : executions.filter (fun e => !e.neutral) = executions'.filter fun e => !e.neutral) :
    leaderboardEntry competition executions participant =
        leaderboardEntry competition executions' participant ↔
      charged competition executions participant = charged competition executions' participant := by
  have hsame : (submissionsOf competition participant executions).filter (fun e => !e.neutral) =
      (submissionsOf competition participant executions').filter fun e => !e.neutral := by
    rw [submissionsOf_filter, submissionsOf_filter, h]
  obtain ⟨hsolved, hwrong⟩ :=
    tally_neutral participant.joinedAt (submissionsOf competition participant executions)
  obtain ⟨hsolved', hwrong'⟩ :=
    tally_neutral participant.joinedAt (submissionsOf competition participant executions')
  rw [hsame] at hsolved hwrong
  simp only [leaderboardEntry, LeaderboardEntry.mk.injEq, hsolved, hsolved', hwrong, hwrong',
    true_and, and_true, charged]
  omega

theorem mem_buildLeaderboard {entry : LeaderboardEntry} :
    (∃ rank, (rank, entry) ∈ buildLeaderboard localeCompare competition participants executions) ↔
      ∃ participant ∈ participants, leaderboardEntry competition executions participant = entry := by
  simp only [buildLeaderboard, List.mem_mapIdx, Prod.mk.injEq]
  rw [← List.mem_map, ← List.mem_insertionSort (fun a b => ranksBefore localeCompare a b = true),
    List.mem_iff_getElem]
  constructor
  · rintro ⟨rank, i, hi, _, heq⟩
    exact ⟨i, hi, heq⟩
  · rintro ⟨i, hi, heq⟩
    exact ⟨i + 1, i, hi, rfl, heq⟩

/-- Leaderboards that are the same have the same entry for each participant. -/
theorem entries_eq_of_leaderboard_eq (hnames : (participants.map (·.username)).Nodup)
    (h : buildLeaderboard localeCompare competition participants executions =
      buildLeaderboard localeCompare competition participants executions')
    {participant : ParticipantRow} (hmem : participant ∈ participants) :
    leaderboardEntry competition executions participant =
      leaderboardEntry competition executions' participant := by
  obtain ⟨rank, hrank⟩ := mem_buildLeaderboard.2 ⟨participant, hmem, rfl⟩
  rw [h] at hrank
  obtain ⟨other, hother, hentry⟩ := mem_buildLeaderboard.1 ⟨rank, hrank⟩
  -- The entry with this name is that of the same participant.
  obtain rfl : other = participant :=
    List.inj_on_of_nodup_map hnames hother hmem (congrArg LeaderboardEntry.username hentry)
  exact hentry.symm

/-- Neutral submissions change nothing on the leaderboard exactly if they leave
    the number of charged ones of every participant alone. -/
theorem leaderboard_unchanged_iff {localeCompare : String → String → Int}
    {participants : List ParticipantRow} (hnames : (participants.map (·.username)).Nodup)
    (h : executions.filter (fun e => !e.neutral) = executions'.filter fun e => !e.neutral) :
    buildLeaderboard localeCompare competition participants executions =
        buildLeaderboard localeCompare competition participants executions' ↔
      ∀ participant ∈ participants,
        charged competition executions participant =
          charged competition executions' participant := by
  simp only [← leaderboardEntry_eq_iff _ h]
  constructor
  · exact fun heq participant => entries_eq_of_leaderboard_eq hnames heq
  · intro hall
    rw [buildLeaderboard, List.map_congr_left hall, buildLeaderboard]

end Leaderboard

namespace Sample

/-- A competition with one problem. -/
def contest : ScoredCompetition where
  id := token
  startsAt := 0
  rounds := [[⟨problem, 100⟩]]

def participant : ParticipantRow where
  joinedAt := 0
  userId := owner
  username := "ada"
  displayName := "Ada"

/-- A submission of the participant. -/
def scored (verdict : Option Verdict) (createdAt : Int) : ScoredRow where
  userId := owner
  mode := .submit
  competitionId := some token
  verdict := verdict
  createdAt := createdAt
  problemId := problem

end Sample

/-- A cancelled submission before the participant joined or after they solved the
    problem is not charged. -/
theorem leaderboard_unchanged_uncharged :
    buildLeaderboard (fun _ _ => 0) Sample.contest [Sample.participant]
        [Sample.scored (some .accepted) 60000] =
      buildLeaderboard (fun _ _ => 0) Sample.contest [Sample.participant]
        [Sample.scored (some .cancelled) (-1), Sample.scored (some .accepted) 60000,
          Sample.scored (some .cancelled) 60001] := by
  refine (leaderboard_unchanged_iff ?_ ?_).2 ?_
  · decide
  · rfl
  · decide +kernel

/-- A submission that met an infrastructure failure costs twenty minutes. -/
theorem internal_error_charged :
    [Sample.scored (some .internalError) 0, Sample.scored (some .accepted) 60000].filter
        (fun e => !e.neutral) =
      [Sample.scored (some .accepted) 60000].filter (fun e => !e.neutral) ∧
    (buildLeaderboard (fun _ _ => 0) Sample.contest [Sample.participant]
      [Sample.scored (some .accepted) 60000]).map (fun e => e.2.penalty) = [1] ∧
    (buildLeaderboard (fun _ _ => 0) Sample.contest [Sample.participant]
      [Sample.scored (some .internalError) 0,
        Sample.scored (some .accepted) 60000]).map (fun e => e.2.penalty) = [21] :=
  ⟨rfl, by decide +kernel, by decide +kernel⟩

end ArenaCore
