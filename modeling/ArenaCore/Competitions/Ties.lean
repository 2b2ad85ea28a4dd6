import Mathlib.Algebra.BigOperators.Group.List.Basic
import ArenaCore.Competitions.Leaderboard

/-!
# Ties

The leaderboard is computed from lists whose order the database chooses, except that
the submissions of a participant come in the order of their creation, to the
millisecond. Sums, maxima and the final sort forget the order. The loop over the
submissions does not: of two submissions of the same millisecond, one accepted and
one not, the other is a wrong attempt exactly if it is read first.

`Tied` is this situation at the first acceptance of a problem. Without it the wrong
attempts are counted by a condition on the whole list (`wrongAttempts_eq_countP`),
and with it two orders give penalties twenty minutes apart (`entry_ne_of_tied`).

## Main definitions

* `LocaleOrder`: What is assumed of the comparison of names.
* `Reordered`: A competition whose rounds and problems come in another order.
* `Tied`: The first acceptance of a problem is as old as a submission that failed.

## Theorems

* `mem_solved_iff`, `solved_perm`: The solved problems do not depend on the order.
* `wrongAttempts_eq_countP`: Nor do the wrong attempts, without a tie.
* `leaderboard_order_iff`: The leaderboard.
-/

namespace ArenaCore

/-- What is assumed of the comparison of names: a total order that tells the given
    names apart. -/
structure LocaleOrder (localeCompare : String → String → Int) (names : List String) : Prop where
  total : ∀ a b, localeCompare a b ≤ 0 ∨ localeCompare b a ≤ 0
  trans : ∀ a b c, localeCompare a b ≤ 0 → localeCompare b c ≤ 0 → localeCompare a c ≤ 0
  separates : ∀ a ∈ names, ∀ b ∈ names, localeCompare a b ≤ 0 → localeCompare b a ≤ 0 → a = b

/-- The same competition with its rounds, and the problems in each, in another
    order. -/
structure Reordered (competition competition' : ScoredCompetition) : Prop where
  id : competition'.id = competition.id
  startsAt : competition'.startsAt = competition.startsAt
  rounds : ∃ rounds, competition'.rounds.Perm rounds ∧
    List.Forall₂ List.Perm rounds competition.rounds

/-- An acceptance that counts. -/
def accepts (joinedAt : Int) (problemId : Uuid) (e : ScoredRow) : Bool :=
  decide (joinedAt ≤ e.createdAt) && decide (e.verdict = some .accepted) &&
    decide (e.problemId = problemId)

/-- The first acceptance of a problem has the same time as a submission that was not
    accepted. -/
def TiedIn (joinedAt : Int) (executions : List ScoredRow) : Prop :=
  ∃ a ∈ executions, ∃ r ∈ executions, accepts joinedAt a.problemId a = true ∧
    r.verdict ≠ some .accepted ∧ r.problemId = a.problemId ∧ r.createdAt = a.createdAt ∧
    ∀ b ∈ executions, accepts joinedAt a.problemId b = true → a.createdAt ≤ b.createdAt

/-- The submission is one of the participant in the competition. -/
def isOwn (competition : ScoredCompetition) (participant : ParticipantRow) (e : ScoredRow) : Bool :=
  decide (e.userId = participant.userId) && decide (e.mode = .submit) &&
    decide (e.competitionId = some competition.id)

def Tied (competition : ScoredCompetition) (executions : List ScoredRow)
    (participant : ParticipantRow) : Prop :=
  TiedIn participant.joinedAt (submissionsOf competition participant executions)

abbrev Oldest (executions : List ScoredRow) : Prop :=
  executions.Pairwise fun a b => a.createdAt ≤ b.createdAt

/-! ### What is solved -/

section Solved

variable {joinedAt : Int} {executions executions' : List ScoredRow} {problemId : Uuid}

theorem tally_concat (executions : List ScoredRow) (e : ScoredRow) :
    tally joinedAt (executions ++ [e]) = (tally joinedAt executions).next joinedAt e :=
  List.foldl_append

theorem solvedBy_eq (problemId : Uuid) :
    solvedBy joinedAt executions problemId = executions.any (accepts joinedAt problemId) := rfl

theorem accepts_iff {e : ScoredRow} :
    accepts joinedAt problemId e = true ↔
      joinedAt ≤ e.createdAt ∧ e.verdict = some .accepted ∧ e.problemId = problemId := by
  rw [accepts, Bool.and_eq_true, Bool.and_eq_true, decide_eq_true_eq, decide_eq_true_eq,
    decide_eq_true_eq, and_assoc]

/-- What a submission adds to the solved problems. -/
theorem solved_next (t : ScoreTally) (e : ScoredRow) : (t.next joinedAt e).solved =
    if accepts joinedAt e.problemId e = true ∧ t.hasSolved e.problemId = false then
      t.solved ++ [(e.problemId, e.createdAt)] else t.solved := by
  unfold ScoreTally.next
  split
  · next hearly => rw [if_neg fun h => absurd (accepts_iff.1 h.1).1 (not_le.2 hearly)]
  · next hjoined =>
      split
      · next hknown => rw [if_neg fun h => by rw [hknown] at h; cases h.2]
      · next hnew =>
          rw [Bool.not_eq_true] at hnew
          split
          · next haccepted =>
              rw [if_pos ⟨accepts_iff.2 ⟨not_lt.1 hjoined, haccepted, rfl⟩, hnew⟩]
          · next hfailed => rw [if_neg fun h => hfailed (accepts_iff.1 h.1).2.1]

/-- A problem is solved by its first acceptance in the list. -/
theorem mem_solved_iff {time : Int} :
    (problemId, time) ∈ (tally joinedAt executions).solved ↔
      ((executions.filter (accepts joinedAt problemId)).map ScoredRow.createdAt).head?
        = some time := by
  induction executions using List.reverseRecOn with
  | nil => simp [tally]
  | append_singleton executions e ih =>
      rw [tally_concat, solved_next, hasSolved_tally, solvedBy_eq, List.filter_append,
        List.map_append, List.head?_append]
      by_cases haccepts : accepts joinedAt problemId e = true
      · obtain ⟨_, _, rfl⟩ := accepts_iff.1 haccepts
        rw [List.filter_cons_of_pos haccepts, List.filter_nil]
        by_cases hknown : executions.any (accepts joinedAt e.problemId) = true
        · -- an earlier acceptance is first in both lists
          obtain ⟨b, hb, hb'⟩ := List.any_eq_true.1 hknown
          have hne : (executions.filter (accepts joinedAt e.problemId)).map ScoredRow.createdAt
              ≠ [] := by
            rw [ne_eq, List.map_eq_nil_iff, List.filter_eq_nil_iff]
            exact fun hnone => hnone b hb hb'
          have hold : ¬ (accepts joinedAt e.problemId e = true ∧
              executions.any (accepts joinedAt e.problemId) = false) := by
            rw [hknown]
            exact fun h => by cases h.2
          rw [if_neg hold, ih, List.head?_eq_some_head hne]
          rfl
        · rw [Bool.not_eq_true] at hknown
          have hnil : executions.filter (accepts joinedAt e.problemId) = [] := by
            rw [List.filter_eq_nil_iff]
            exact List.any_eq_false.1 hknown
          rw [hnil] at ih ⊢
          rw [if_pos ⟨haccepts, hknown⟩, List.mem_append, ih]
          simp [eq_comm]
      · rw [List.filter_cons_of_neg haccepts, List.filter_nil, List.map_nil, List.head?_nil,
          Option.or_none, ← ih]
        split
        · next hnew =>
            rw [List.mem_append, List.mem_singleton, or_iff_left]
            intro heq
            rw [(Prod.mk.inj heq).1] at haccepts
            exact haccepts hnew.1
        · exact Iff.rfl

/-- No problem is solved twice. -/
theorem solved_nodup : ((tally joinedAt executions).solved.map Prod.fst).Nodup := by
  induction executions using List.reverseRecOn with
  | nil => exact List.nodup_nil
  | append_singleton executions e ih =>
      rw [tally_concat, solved_next]
      split
      · next hnew =>
          rw [List.map_append, List.nodup_append]
          refine ⟨ih, List.nodup_singleton _, ?_⟩
          rintro p hp _ hq rfl
          rw [List.map_singleton, List.mem_singleton] at hq
          obtain ⟨s, hs, rfl⟩ := List.mem_map.1 hp
          have hknown : (tally joinedAt executions).hasSolved e.problemId = true :=
            List.any_eq_true.2 ⟨s, hs, decide_eq_true hq⟩
          rw [hknown] at hnew
          cases hnew.2
      · exact ih

/-- The order of submissions of the same time does not matter to what is solved. -/
theorem solved_perm (h : executions.Perm executions') (hsorted : Oldest executions)
    (hsorted' : Oldest executions') :
    (tally joinedAt executions).solved.Perm (tally joinedAt executions').solved := by
  have htimes : ∀ problemId,
      (executions.filter (accepts joinedAt problemId)).map ScoredRow.createdAt
        = (executions'.filter (accepts joinedAt problemId)).map ScoredRow.createdAt := by
    intro problemId
    refine ((h.filter _).map _).eq_of_pairwise (fun _ _ _ _ => le_antisymm) ?_ ?_
    · exact List.pairwise_map.2 (hsorted.sublist List.filter_sublist)
    · exact List.pairwise_map.2 (hsorted'.sublist List.filter_sublist)
  refine (List.perm_ext_iff_of_nodup solved_nodup.of_map solved_nodup.of_map).2 ?_
  rintro ⟨problemId, time⟩
  rw [mem_solved_iff, mem_solved_iff, htimes]

end Solved

/-! ### What is wrong -/

section Wrong

variable {joinedAt : Int} {executions executions' : List ScoredRow} {e : ScoredRow} {x : ScoredRow}

/-- A submission that fails before any acceptance of its problem in the list. -/
def isWrong (joinedAt : Int) (executions : List ScoredRow) (e : ScoredRow) : Bool :=
  decide (joinedAt ≤ e.createdAt) && !decide (e.verdict = some .accepted) &&
    !executions.any fun b => accepts joinedAt e.problemId b && decide (b.createdAt ≤ e.createdAt)

theorem isWrong_perm (h : executions.Perm executions') :
    isWrong joinedAt executions = isWrong joinedAt executions' := by
  funext e
  rw [isWrong, isWrong, h.any_eq]

/-- A front of a list without a tie has none. -/
theorem TiedIn.concat (hsorted : Oldest (executions ++ [e])) (h : TiedIn joinedAt executions) :
    TiedIn joinedAt (executions ++ [e]) := by
  obtain ⟨a, ha, r, hr, haccepts, hfailed, hproblem, htime, hfirst⟩ := h
  refine ⟨a, List.mem_append_left _ ha, r, List.mem_append_left _ hr, haccepts, hfailed, hproblem,
    htime, fun b hb hb' => ?_⟩
  rcases List.mem_append.1 hb with hb | hb
  · exact hfirst b hb hb'
  · rw [List.mem_singleton.1 hb]
    exact (List.pairwise_append.1 hsorted).2.2 a ha e (List.mem_singleton_self e)

/-- An acceptance at the end of a list without a tie comes too late for the failures
    before it: those of its own time have an earlier acceptance. -/
theorem any_of_accepts_last (hx : x ∈ executions) (hsorted : Oldest (executions ++ [e]))
    (huntied : ¬ TiedIn joinedAt (executions ++ [e])) (hfailed : x.verdict ≠ some .accepted)
    (haccepts : accepts joinedAt x.problemId e = true) (hle : e.createdAt ≤ x.createdAt) :
    (executions.any fun b => accepts joinedAt x.problemId b &&
      decide (b.createdAt ≤ x.createdAt)) = true := by
  have hlate := (List.pairwise_append.1 hsorted).2.2 x hx e (List.mem_singleton_self e)
  obtain ⟨_, _, hproblem⟩ := accepts_iff.1 haccepts
  by_contra hnone
  refine huntied ⟨e, List.mem_append_right _ (List.mem_singleton_self e), x,
    List.mem_append_left _ hx, hproblem ▸ haccepts, hfailed, hproblem.symm,
    le_antisymm hlate hle, fun b hb hb' => ?_⟩
  rcases List.mem_append.1 hb with hb | hb
  · by_contra hearlier
    refine hnone (List.any_eq_true.2 ⟨b, hb, ?_⟩)
    rw [Bool.and_eq_true, decide_eq_true_eq]
    exact ⟨hproblem ▸ hb', by omega⟩
  · rw [List.mem_singleton.1 hb]

theorem isWrong_concat_of_mem (hx : x ∈ executions) (hsorted : Oldest (executions ++ [e]))
    (huntied : ¬ TiedIn joinedAt (executions ++ [e])) :
    isWrong joinedAt (executions ++ [e]) x = isWrong joinedAt executions x := by
  simp only [isWrong, List.any_append, List.any_cons, List.any_nil, Bool.or_false]
  cases hfailed : decide (x.verdict = some .accepted) with
  | true => rw [Bool.not_true, Bool.and_false, Bool.false_and, Bool.false_and]
  | false =>
      cases htie : accepts joinedAt x.problemId e && decide (e.createdAt ≤ x.createdAt) with
      | false => rw [Bool.or_false]
      | true =>
          rw [Bool.and_eq_true, decide_eq_true_eq] at htie
          rw [any_of_accepts_last hx hsorted huntied (of_decide_eq_false hfailed) htie.1 htie.2,
            Bool.or_true]

theorem isWrong_concat_last (hsorted : Oldest (executions ++ [e])) :
    isWrong joinedAt (executions ++ [e]) e = (decide (joinedAt ≤ e.createdAt) &&
      !solvedBy joinedAt executions e.problemId && !decide (e.verdict = some .accepted)) := by
  have hfront : (executions.any fun b => accepts joinedAt e.problemId b &&
      decide (b.createdAt ≤ e.createdAt)) = solvedBy joinedAt executions e.problemId := by
    rw [solvedBy_eq, Bool.eq_iff_iff, List.any_eq_true, List.any_eq_true]
    refine exists_congr fun b => and_congr_right fun hb => ?_
    have hlate := (List.pairwise_append.1 hsorted).2.2 b hb e (List.mem_singleton_self e)
    rw [Bool.and_eq_true, decide_eq_true_eq, and_iff_left hlate]
  rw [isWrong, List.any_append, hfront]
  by_cases haccepted : e.verdict = some .accepted
  · simp [haccepted]
  · simp [accepts, haccepted, Bool.and_right_comm]

/-- Without a tie the wrong attempts are counted by a condition on the whole list. -/
theorem wrongAttempts_eq_countP (hsorted : Oldest executions)
    (huntied : ¬ TiedIn joinedAt executions) :
    (tally joinedAt executions).wrongAttempts
      = executions.countP (isWrong joinedAt executions) := by
  induction executions using List.reverseRecOn with
  | nil => rfl
  | append_singleton executions e ih =>
      have hfront := ih (List.pairwise_append.1 hsorted).1 fun h => huntied (h.concat hsorted)
      have hcount : executions.countP (isWrong joinedAt (executions ++ [e]))
          = executions.countP (isWrong joinedAt executions) :=
        List.countP_congr fun x hx => by rw [isWrong_concat_of_mem hx hsorted huntied]
      rw [tally_concat, wrongAttempts_next, hasSolved_tally, hfront, List.countP_append, hcount,
        List.countP_singleton, isWrong_concat_last hsorted]

end Wrong

/-! ### The entries -/

section Entries

variable {competition competition' : ScoredCompetition} {executions executions' : List ScoredRow}
  {participant : ParticipantRow}

/-- The most any round gives for a problem does not depend on the order. -/
theorem pointsOf_reordered (h : Reordered competition competition') :
    pointsOf competition' = pointsOf competition := by
  obtain ⟨rounds, hperm, hrounds⟩ := h.rounds
  have hflat : competition'.rounds.flatten.Perm competition.rounds.flatten :=
    hperm.flatten.trans (List.Perm.flatten_congr hrounds)
  refine hflat.foldl_eq' (fun x _ y _ points => ?_) _
  funext id
  by_cases hx : id = x.problemId
  · by_cases hy : id = y.problemId
    · simp only [← hx, ← hy, if_true, Option.getD_some, max_right_comm]
    · simp only [← hx, hy, if_true, if_false]
  · simp only [hx, if_false]

theorem submissionsOf_eq : submissionsOf competition participant executions
    = (executions.filter (isOwn competition participant)).insertionSort
      fun a b => a.createdAt ≤ b.createdAt := rfl

theorem submissionsOf_sorted : Oldest (submissionsOf competition participant executions) := by
  have : Std.Total fun a b : ScoredRow => a.createdAt ≤ b.createdAt :=
    ⟨fun a b => le_total a.createdAt b.createdAt⟩
  have : IsTrans ScoredRow fun a b => a.createdAt ≤ b.createdAt :=
    ⟨fun _ _ _ => le_trans⟩
  exact List.pairwise_insertionSort _ _

theorem submissionsOf_perm (hid : competition'.id = competition.id)
    (h : executions'.Perm executions) :
    (submissionsOf competition' participant executions').Perm
      (submissionsOf competition participant executions) := by
  rw [submissionsOf, submissionsOf, hid]
  exact (List.perm_insertionSort _ _).trans
    ((h.filter _).trans (List.perm_insertionSort _ _).symm)

/-- Without a tie the entry of a participant does not depend on the order. -/
theorem leaderboardEntry_reordered (hcompetition : Reordered competition competition')
    (hexecutions : executions'.Perm executions) (huntied : ¬ Tied competition executions participant) :
    leaderboardEntry competition' executions' participant
      = leaderboardEntry competition executions participant := by
  have hperm : (submissionsOf competition' participant executions').Perm
      (submissionsOf competition participant executions) :=
    submissionsOf_perm hcompetition.id hexecutions
  have hsolved : (tally participant.joinedAt (submissionsOf competition' participant
      executions')).solved.Perm (tally participant.joinedAt (submissionsOf competition participant
      executions)).solved :=
    solved_perm hperm submissionsOf_sorted submissionsOf_sorted
  have huntied' : ¬ TiedIn participant.joinedAt
      (submissionsOf competition' participant executions') := by
    rintro ⟨a, ha, r, hr, haccepts, hfailed, hproblem, htime, hfirst⟩
    exact huntied ⟨a, hperm.mem_iff.1 ha, r, hperm.mem_iff.1 hr, haccepts, hfailed, hproblem,
      htime, fun b hb => hfirst b (hperm.mem_iff.2 hb)⟩
  have hwrong := wrongAttempts_eq_countP submissionsOf_sorted huntied'
  rw [isWrong_perm hperm, hperm.countP_eq,
    ← wrongAttempts_eq_countP submissionsOf_sorted huntied] at hwrong
  simp only [leaderboardEntry, pointsOf_reordered hcompetition, hcompetition.startsAt,
    (hsolved.map _).sum_eq, hsolved.length_eq, hwrong]

/-! ### Two orders -/

/-- Wrong attempts only add up. -/
theorem foldl_next_wrongAttempts (joinedAt : Int) (executions : List ScoredRow) (t : ScoreTally)
    (k : Nat) :
    executions.foldl (ScoreTally.next joinedAt) { t with wrongAttempts := t.wrongAttempts + k }
      = { executions.foldl (ScoreTally.next joinedAt) t with
          wrongAttempts := (executions.foldl (ScoreTally.next joinedAt) t).wrongAttempts + k } := by
  induction executions generalizing t with
  | nil => rfl
  | cons e executions ih =>
      have hstep : ({ t with wrongAttempts := t.wrongAttempts + k } : ScoreTally).next joinedAt e
          = { t.next joinedAt e with
              wrongAttempts := (t.next joinedAt e).wrongAttempts + k } := by
        unfold ScoreTally.next ScoreTally.hasSolved
        split
        · rfl
        · split
          · rfl
          · split
            · rfl
            · simp only [ScoreTally.mk.injEq, true_and]
              omega
      rw [List.foldl_cons, List.foldl_cons, hstep, ih]

/-- The failure costs an attempt if it is read before the acceptance. -/
theorem tally_tie {joinedAt : Int} {front : List ScoredRow} (rest : List ScoredRow)
    {a r : ScoredRow} (haccepts : accepts joinedAt a.problemId a = true) (hfailed : r.verdict ≠ some .accepted)
    (hproblem : r.problemId = a.problemId) (htime : r.createdAt = a.createdAt)
    (hfirst : solvedBy joinedAt front a.problemId = false) :
    (tally joinedAt (front ++ r :: a :: rest)).solved
        = (tally joinedAt (front ++ a :: r :: rest)).solved ∧
      (tally joinedAt (front ++ r :: a :: rest)).wrongAttempts
        = (tally joinedAt (front ++ a :: r :: rest)).wrongAttempts + 1 := by
  obtain ⟨hjoined, haccepted, _⟩ := accepts_iff.1 haccepts
  generalize hfront : tally joinedAt front = t
  have hnew : t.hasSolved a.problemId = false := by rw [← hfront, hasSolved_tally, hfirst]
  have hsplit : ∀ x y, tally joinedAt (front ++ x :: y :: rest)
      = rest.foldl (ScoreTally.next joinedAt) ((t.next joinedAt x).next joinedAt y) := by
    intro x y
    rw [tally, List.foldl_append, List.foldl_cons, List.foldl_cons, ← hfront]
    rfl
  have hsolves : ∀ u : ScoreTally, u.hasSolved a.problemId = false →
      u.next joinedAt a = { u with solved := u.solved ++ [(a.problemId, a.createdAt)] } := by
    intro u hu
    rw [ScoreTally.next, if_neg (not_lt.2 hjoined), hu, if_neg Bool.false_ne_true,
      if_pos haccepted]
  have hfails : t.next joinedAt r = { t with wrongAttempts := t.wrongAttempts + 1 } := by
    rw [ScoreTally.next, htime, if_neg (not_lt.2 hjoined), hproblem, hnew,
      if_neg Bool.false_ne_true, if_neg hfailed]
  have hknown : ({ t with solved := t.solved ++ [(a.problemId, a.createdAt)] } :
      ScoreTally).hasSolved r.problemId = true := by
    rw [hproblem, ScoreTally.hasSolved]
    simp
  have hskips : (t.next joinedAt a).next joinedAt r = t.next joinedAt a := by
    rw [hsolves t hnew, ScoreTally.next, htime, if_neg (not_lt.2 hjoined), if_pos hknown]
  rw [hsplit, hsplit, hskips, hfails, hsolves t hnew,
    hsolves { t with wrongAttempts := t.wrongAttempts + 1 } hnew]
  have hadd := foldl_next_wrongAttempts joinedAt rest
    { t with solved := t.solved ++ [(a.problemId, a.createdAt)] } 1
  rw [hadd]
  exact ⟨rfl, rfl⟩

/-- Rows of the same time go to the same place, the later one first. -/
theorem orderedInsert_tie (time : Int) (l : List ScoredRow) :
    ∃ front rest, l = front ++ rest ∧ (∀ x ∈ front, x.createdAt < time) ∧
      ∀ a b : ScoredRow, a.createdAt = time → b.createdAt = time →
        (l.orderedInsert (fun x y => x.createdAt ≤ y.createdAt) b).orderedInsert
          (fun x y => x.createdAt ≤ y.createdAt) a = front ++ a :: b :: rest := by
  induction l with
  | nil =>
      refine ⟨[], [], rfl, fun x hx => absurd hx List.not_mem_nil, fun a b ha hb => ?_⟩
      rw [List.orderedInsert_nil, List.orderedInsert_cons, if_pos (ha.trans hb.symm).le]
      rfl
  | cons c l ih =>
      by_cases hc : time ≤ c.createdAt
      · refine ⟨[], c :: l, rfl, fun x hx => absurd hx List.not_mem_nil, fun a b ha hb => ?_⟩
        rw [List.orderedInsert_cons, if_pos (hb.symm ▸ hc), List.orderedInsert_cons,
          if_pos (ha.trans hb.symm).le]
        rfl
      · obtain ⟨front, rest, rfl, hfront, hinsert⟩ := ih
        refine ⟨c :: front, rest, rfl, ?_, fun a b ha hb => ?_⟩
        · exact List.forall_mem_cons.2 ⟨not_le.1 hc, hfront⟩
        · rw [List.orderedInsert_cons, if_neg (hb.symm ▸ hc), List.orderedInsert_cons,
            if_neg (ha.symm ▸ hc), hinsert a b ha hb]
          rfl

/-- With a tie there are two orders of the executions that give different entries. -/
theorem entry_ne_of_tied (h : Tied competition executions participant) :
    ∃ first second, first.Perm executions ∧ second.Perm executions ∧
      leaderboardEntry competition first participant
        ≠ leaderboardEntry competition second participant := by
  obtain ⟨a, ha, r, hr, haccepts, hfailed, hproblem, htime, hfirst⟩ := h
  have hsubmitted : ∀ e, e ∈ submissionsOf competition participant executions ↔
      e ∈ executions ∧ isOwn competition participant e = true := by
    intro e
    rw [submissionsOf_eq, List.mem_insertionSort, List.mem_filter]
  obtain ⟨ha, hown⟩ := (hsubmitted a).1 ha
  obtain ⟨hr, hown'⟩ := (hsubmitted r).1 hr
  have hne : r ≠ a := by
    rintro rfl
    exact hfailed (accepts_iff.1 haccepts).2.1
  obtain ⟨u, v, rfl⟩ := List.append_of_mem ha
  have hr' : r ∈ u ++ v := by
    rcases List.mem_append.1 hr with hr | hr
    · exact List.mem_append_left _ hr
    · exact List.mem_append_right _ ((List.mem_cons.1 hr).resolve_left hne)
  obtain ⟨u', v', huv⟩ := List.append_of_mem hr'
  have hperm : (r :: a :: (u' ++ v')).Perm (u ++ a :: v) := by
    refine (List.Perm.swap _ _ _).trans ((List.Perm.cons a ?_).trans List.perm_middle.symm)
    rw [huv]
    exact List.perm_middle.symm
  refine ⟨r :: a :: (u' ++ v'), a :: r :: (u' ++ v'), hperm, (List.Perm.swap _ _ _).trans hperm, ?_⟩
  -- both are read in the same place, one before the other
  obtain ⟨front, rest, hsorted, hearly, hinsert⟩ := orderedInsert_tie a.createdAt
    (submissionsOf competition participant (u' ++ v'))
  have hlists : ∀ x y, x.createdAt = a.createdAt → y.createdAt = a.createdAt →
      isOwn competition participant x = true → isOwn competition participant y = true →
      submissionsOf competition participant (x :: y :: (u' ++ v')) = front ++ x :: y :: rest := by
    intro x y hx hy hxown hyown
    rw [← hinsert x y hx hy, submissionsOf_eq, List.filter_cons_of_pos hxown,
      List.filter_cons_of_pos hyown]
    rfl
  have hunsolved : solvedBy participant.joinedAt front a.problemId = false := by
    rw [solvedBy_eq, List.any_eq_false]
    intro x hx hx'
    have hmem : x ∈ submissionsOf competition participant (u ++ a :: v) := by
      refine (submissionsOf_perm rfl hperm).mem_iff.1 ?_
      rw [hlists r a htime rfl hown' hown]
      exact List.mem_append_left _ hx
    exact absurd (hearly x hx) (not_lt.2 (hfirst x hmem hx'))
  obtain ⟨hsolved, hwrong⟩ := tally_tie rest haccepts hfailed hproblem htime hunsolved
  intro heq
  have hpenalty := congrArg LeaderboardEntry.penalty heq
  simp only [leaderboardEntry, hlists r a htime rfl hown' hown, hlists a r rfl htime hown hown',
    hsolved, hwrong] at hpenalty
  omega

end Entries

/-! ### The leaderboard -/

section Ranking

variable {localeCompare : String → String → Int} {names : List String} {a b : LeaderboardEntry}

theorem ranksBefore_iff : ranksBefore localeCompare a b = true ↔
    b.score < a.score ∨ b.score = a.score ∧ (b.solved < a.solved ∨ b.solved = a.solved ∧
      (a.penalty < b.penalty ∨ a.penalty = b.penalty ∧
        localeCompare a.username b.username ≤ 0)) := by
  unfold ranksBefore
  split
  · rw [decide_eq_true_eq]
    omega
  · split
    · rw [decide_eq_true_eq]
      omega
    · split
      · rw [decide_eq_true_eq]
        omega
      · rw [decide_eq_true_eq]
        omega

theorem LocaleOrder.ranks_total (h : LocaleOrder localeCompare names) :
    Std.Total fun a b => ranksBefore localeCompare a b = true := by
  refine ⟨fun a b => ?_⟩
  rw [ranksBefore_iff, ranksBefore_iff]
  have hnames := h.total a.username b.username
  omega

theorem LocaleOrder.ranks_trans (h : LocaleOrder localeCompare names) :
    IsTrans LeaderboardEntry fun a b => ranksBefore localeCompare a b = true := by
  refine ⟨fun a b c => ?_⟩
  rw [ranksBefore_iff, ranksBefore_iff, ranksBefore_iff]
  have hnames := h.trans a.username b.username c.username
  omega

theorem LocaleOrder.ranks_username (h : LocaleOrder localeCompare names) (ha : a.username ∈ names)
    (hb : b.username ∈ names) (hab : ranksBefore localeCompare a b = true)
    (hba : ranksBefore localeCompare b a = true) : a.username = b.username := by
  rw [ranksBefore_iff] at hab hba
  exact h.separates _ ha _ hb (by omega) (by omega)

/-- Entries of different names are ranked in one order only. -/
theorem sorted_entries_perm {entries entries' : List LeaderboardEntry}
    (horder : LocaleOrder localeCompare names)
    (hnames : ∀ e ∈ entries, e.username ∈ names) (hnodup : (entries.map (·.username)).Nodup)
    (h : entries'.Perm entries) :
    entries'.insertionSort (fun a b => ranksBefore localeCompare a b = true)
      = entries.insertionSort fun a b => ranksBefore localeCompare a b = true := by
  have := horder.ranks_total
  have := horder.ranks_trans
  refine ((List.perm_insertionSort _ _).trans
    (h.trans (List.perm_insertionSort _ _).symm)).eq_of_pairwise (fun a b ha hb hab hba => ?_)
    (List.pairwise_insertionSort _ _) (List.pairwise_insertionSort _ _)
  rw [List.mem_insertionSort, h.mem_iff] at ha
  rw [List.mem_insertionSort] at hb
  exact List.inj_on_of_nodup_map hnodup ha hb
    (horder.ranks_username (hnames a ha) (hnames b hb) hab hba)

end Ranking

/-- The leaderboard is the same for every order of rounds, problems, registrations
    and executions exactly if no participant has a tie at the first acceptance of a
    problem. -/
theorem leaderboard_order_iff (localeCompare : String → String → Int)
    (competition : ScoredCompetition) (participants : List ParticipantRow)
    (executions : List ScoredRow)
    (horder : LocaleOrder localeCompare (participants.map (·.username)))
    (hnames : (participants.map (·.username)).Nodup) :
    (∀ competition' participants' executions', Reordered competition competition' →
      participants'.Perm participants → executions'.Perm executions →
      buildLeaderboard localeCompare competition' participants' executions'
        = buildLeaderboard localeCompare competition participants executions) ↔
    ∀ participant ∈ participants, ¬ Tied competition executions participant := by
  constructor
  · intro hsame participant hmem htied
    obtain ⟨first, second, hfirst, hsecond, hne⟩ := entry_ne_of_tied htied
    have hcompetition : Reordered competition competition :=
      ⟨rfl, rfl, competition.rounds, .refl _, List.forall₂_same.2 fun _ _ => .refl _⟩
    have heq := (hsame competition participants first hcompetition (.refl _) hfirst).trans
      (hsame competition participants second hcompetition (.refl _) hsecond).symm
    exact hne (entries_eq_of_leaderboard_eq hnames heq hmem)
  · intro huntied competition' participants' executions' hcompetition hparticipants hexecutions
    have hentries : participants'.map (leaderboardEntry competition' executions')
        = participants'.map (leaderboardEntry competition executions) :=
      List.map_congr_left fun participant hmem => leaderboardEntry_reordered hcompetition
        hexecutions (huntied participant (hparticipants.mem_iff.1 hmem))
    have husernames : (participants.map (leaderboardEntry competition executions)).map
        (·.username) = participants.map (·.username) := by
      rw [List.map_map]
      rfl
    rw [buildLeaderboard, buildLeaderboard, hentries,
      sorted_entries_perm horder ?_ (husernames ▸ hnames) (hparticipants.map _)]
    intro e he
    rw [← husernames]
    exact List.mem_map_of_mem he

namespace Sample

/-- Two submissions of the same millisecond. -/
def simultaneous : List ScoredRow :=
  [scored (some .wrongAnswer) 60000, scored (some .accepted) 60000]

def rival : ParticipantRow := { participant with userId := token, username := "grace" }

/-- A wrong answer and an acceptance a minute later, of both participants. -/
def level : List ScoredRow :=
  [scored (some .wrongAnswer) 0, { scored (some .wrongAnswer) 0 with userId := token },
    scored (some .accepted) 60000, { scored (some .accepted) 60000 with userId := token }]

def shorterFirst (a b : String) : Int := a.length - b.length

end Sample

/-- Two participants that only their names rank. -/
theorem leaderboard_order_untied :
    (∀ participant ∈ [Sample.participant, Sample.rival],
      ¬ Tied Sample.contest Sample.level participant) ∧
    buildLeaderboard Sample.shorterFirst Sample.contest [Sample.rival, Sample.participant]
        Sample.level.reverse
      = buildLeaderboard Sample.shorterFirst Sample.contest [Sample.participant, Sample.rival]
        Sample.level := by
  have huntied : ∀ participant ∈ [Sample.participant, Sample.rival],
      ¬ Tied Sample.contest Sample.level participant := by
    unfold Tied TiedIn
    decide +kernel
  refine ⟨huntied, (leaderboard_order_iff Sample.shorterFirst Sample.contest
    [Sample.participant, Sample.rival] Sample.level ?_ (by decide)).2 huntied _ _ _ ?_
    (.swap _ _ _) (List.reverse_perm _)⟩
  · unfold Sample.shorterFirst
    exact ⟨fun _ _ => by omega, fun _ _ _ _ _ => by omega, by decide⟩
  · exact ⟨rfl, rfl, Sample.contest.rounds, .refl _, List.forall₂_same.2 fun _ _ => .refl _⟩

/-- A wrong answer of the same millisecond as the acceptance costs twenty minutes in
    one order and nothing in the other. -/
theorem simultaneous_submissions_differ :
    (buildLeaderboard (fun _ _ => 0) Sample.contest [Sample.participant]
      Sample.simultaneous).map (fun e => e.2.penalty) = [21] ∧
    (buildLeaderboard (fun _ _ => 0) Sample.contest [Sample.participant]
      Sample.simultaneous.reverse).map (fun e => e.2.penalty) = [1] :=
  ⟨by decide +kernel, by decide +kernel⟩

end ArenaCore
