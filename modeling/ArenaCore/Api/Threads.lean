import ArenaCore.Api.Checks

/-!
# Discussion Threads

The table `DiscussionPost` under arbitrary `INSERT`, `UPDATE` and `DELETE`
statements. A statement is rejected by a constraint of the table or by the trigger
`enforce_discussion_parent`, and then has no effect.

A statement goes through its rows one after the other, and the trigger reads the
rows as the statement has left them so far. The foreign keys are checked when it is
done. A changed identifier is passed on to the replies, whose own triggers fire, and
the replies of a deleted post are deleted with it. The time stamps are left out.

The trigger looks at the parent of the row that changes and never at its replies.
So a post with replies may be given a parent or moved to another problem. These are
the only updates of a single row that break a thread (`updateRow_threaded_iff`).

## Main definitions

* `enforceDiscussionParent`: The trigger.
* `PostStatement.execute`: A statement.
* `Threaded`: Replies belong to posts of the same problem that are not replies.
* `keepsPlace`: A post is moved with its replies or not at all.
* `ThreadedBut`: The threads within an `UPDATE`.

## Theorems

* `enforceDiscussionParent_eq_ok`: What the trigger accepts.
* `updateRow_threaded_iff`: The updates that keep the threads.
* `threads_one_level`: The threads, if no post is moved without its replies.
* `moved_parents`: Accepted updates that break them.
-/

namespace ArenaCore

open Sql Transaction

abbrev Posts := Rows PostRow.id

inductive Rejection where
  | raised (message : String)
  | violates (constraint : String)
deriving DecidableEq

/-! ### Statements -/

/-- The columns that an `UPDATE` sets. -/
structure PostChange where
  id : Option Uuid := none
  problemId : Option Uuid := none
  authorId : Option Uuid := none
  parentId : Option (Option Uuid) := none
  title : Option (Option String) := none
  body : Option String := none
  status : Option DiscussionStatus := none

def PostChange.apply (change : PostChange) (row : PostRow) : PostRow where
  id := change.id.getD row.id
  problemId := change.problemId.getD row.problemId
  authorId := change.authorId.getD row.authorId
  parentId := change.parentId.getD row.parentId
  title := change.title.getD row.title
  body := change.body.getD row.body
  status := change.status.getD row.status

/-- `UPDATE OF "parentId", "problemId"`. -/
def PostChange.fires (change : PostChange) : Bool :=
  change.parentId.isSome || change.problemId.isSome

/-- The rows that the other foreign keys refer to. -/
structure References where
  problems : List Uuid
  users : List Uuid

section Table

variable (posts : Posts)

def enforceDiscussionParent (new : PostRow) : Except Rejection Unit :=
  match new.parentId with
  | none => .ok ()
  | some parentId =>
      let parent := posts.find parentId
      let parentProblem := parent.map PostRow.problemId
      let grandparent := parent.bind PostRow.parentId
      if raises (Truth.any [isNull parentProblem, isNotNull grandparent,
          ne parentProblem (some new.problemId)]) then
        .error (.raised "invalid discussion parent")
      else .ok ()

/-- The constraint that `PostRow.constraints` leaves out. -/
def notSelfParent (row : PostRow) : String × Truth :=
  ("DiscussionPost_not_self_parent",
    Truth.or (isNull row.parentId) (ne row.parentId (some row.id)))

def checkRow (row : PostRow) : Except Rejection Unit :=
  match firstViolation (row.constraints ++ [notSelfParent row]) with
  | some constraint => .error (.violates constraint)
  | none => .ok ()

def isTaken (id : Uuid) : Bool :=
  (posts.find id).isSome

def insertRow (row : PostRow) : Except Rejection Posts := do
  enforceDiscussionParent posts row
  checkRow row
  if isTaken posts row.id then .error (.violates "DiscussionPost_pkey")
  else .ok (posts.insert row)

/-- The trigger before an `UPDATE`. -/
def parentGuard (row : PostRow) (change : PostChange) : Except Rejection Unit :=
  if change.fires then enforceDiscussionParent posts (change.apply row) else .ok ()

def setRow (row : PostRow) (change : PostChange) : Except Rejection Posts := do
  parentGuard posts row change
  checkRow (change.apply row)
  if (change.apply row).id ≠ row.id ∧ isTaken posts (change.apply row).id then
    .error (.violates "DiscussionPost_pkey")
  else .ok (posts.put row.id (change.apply row))

/-- A reply whose parent has got another identifier. -/
def PostRow.follow (old new : Uuid) (row : PostRow) : PostRow :=
  if row.parentId = some old then { row with parentId := some new } else row

theorem PostRow.follow_id (old new : Uuid) (row : PostRow) : (row.follow old new).id = row.id := by
  unfold PostRow.follow
  split <;> rfl

/-- `ON UPDATE CASCADE`. -/
def cascadeUpdate (old new : Uuid) : Except Rejection Posts :=
  if old = new then .ok posts
  else do
    (posts.rows.filter fun row => decide (row.parentId = some old)).forM fun row => do
      enforceDiscussionParent posts (row.follow old new)
      checkRow (row.follow old new)
    .ok (posts.update (PostRow.follow old new) (PostRow.follow_id old new))

/-- A changed identifier goes to the replies before the next row is changed; in
    PostgreSQL it goes to them when the statement ends. -/
def updateRow (id : Uuid) (change : PostChange) : Except Rejection Posts :=
  match posts.find id with
  | none => .ok posts
  | some row => do
      let updated ← setRow posts row change
      cascadeUpdate updated row.id (change.apply row).id

/-- The parent of the row is not in the table. -/
def isOrphan (row : PostRow) : Bool :=
  row.parentId.any fun parentId => !isTaken posts parentId

/-- `ON DELETE CASCADE`, one level at a time. -/
def cascadeDelete : Nat → Posts → Posts
  | 0, posts => posts
  | n + 1, posts => cascadeDelete n (posts.delete (isOrphan posts))

def deleteRows (ids : List Uuid) : Posts :=
  cascadeDelete posts.rows.length (posts.delete fun row => decide (row.id ∈ ids))

end Table

def checkReferences (references : References) (posts : Posts) : Except Rejection Posts :=
  if posts.rows.any fun row => decide (row.problemId ∉ references.problems) then
    .error (.violates "DiscussionPost_problemId_fkey")
  else if posts.rows.any fun row => decide (row.authorId ∉ references.users) then
    .error (.violates "DiscussionPost_authorId_fkey")
  else if posts.rows.any (isOrphan posts) then
    .error (.violates "DiscussionPost_parentId_fkey")
  else .ok posts

inductive PostStatement where
  | insert (rows : List PostRow)
  /-- The rows in the order in which they are updated, with what is set in each. -/
  | update (changes : List (Uuid × PostChange))
  | delete (ids : List Uuid)

def PostStatement.execute (references : References) (posts : Posts) :
    PostStatement → Except Rejection Posts
  | .insert rows => rows.foldlM insertRow posts >>= checkReferences references
  | .update changes =>
      changes.foldlM (fun posts change => updateRow posts change.1 change.2) posts >>=
        checkReferences references
  | .delete ids => .ok (deleteRows posts ids)

def PostStatement.step (references : References) (posts : Posts) (statement : PostStatement) :
    Posts × Except Rejection Unit :=
  settle posts ((statement.execute references posts).map fun posts => ((), posts))

/-! ### Threads -/

/-- The parent of a post is a post of the same problem and has no parent. -/
def Placed (posts : Posts) (row : PostRow) : Prop :=
  ∀ parentId ∈ row.parentId, ∃ parent ∈ posts.rows,
    parent.id = parentId ∧ parent.parentId = none ∧ parent.problemId = row.problemId

instance (posts : Posts) (row : PostRow) : Decidable (Placed posts row) :=
  inferInstanceAs (Decidable (∀ parentId ∈ row.parentId, ∃ parent ∈ posts.rows,
    parent.id = parentId ∧ parent.parentId = none ∧ parent.problemId = row.problemId))

def Threaded (posts : Posts) : Prop :=
  ∀ row ∈ posts.rows, Placed posts row

instance (posts : Posts) : Decidable (Threaded posts) :=
  inferInstanceAs (Decidable (∀ row ∈ posts.rows, Placed posts row))

/-- The next change of the post makes the trigger look at it. -/
def rechecked (changes : List (Uuid × PostChange)) (id : Uuid) : Bool :=
  (changes.find? fun change => decide (change.1 = id)).any fun change => change.2.fires

/-- A post keeps its parent and its problem, or its replies are looked at later in the
    statement. -/
def keepsPlace (posts : Posts) (rest : List (Uuid × PostChange)) (id : Uuid)
    (change : PostChange) : Bool :=
  (posts.find id).all fun row =>
    decide ((change.apply row).parentId = row.parentId ∧
      (change.apply row).problemId = row.problemId) ||
    posts.rows.all fun reply => !decide (reply.parentId = some id) || rechecked rest reply.id

def keepsPlaces : Posts → List (Uuid × PostChange) → Bool
  | _, [] => true
  | posts, change :: rest =>
      keepsPlace posts rest change.1 change.2 &&
        match updateRow posts change.1 change.2 with
        | .error _ => true
        | .ok posts => keepsPlaces posts rest

/-- A statement that is rejected, or that moves a post only with its replies. -/
def PostStatement.keeps (references : References) (posts : Posts) (statement : PostStatement) :
    Bool :=
  match statement.execute references posts, statement with
  | .ok _, .update changes => keepsPlaces posts changes
  | _, _ => true

/-! ### What is accepted -/

section Accepted

variable {posts posts' : Posts} {row new : PostRow} {change : PostChange}

theorem isTaken_iff {id : Uuid} : isTaken posts id = true ↔ ∃ row ∈ posts.rows, row.id = id := by
  rw [isTaken, Option.isSome_iff_exists]
  simp only [Rows.find_eq_some]

theorem enforceDiscussionParent_eq_ok :
    enforceDiscussionParent posts new = .ok () ↔ Placed posts new := by
  unfold enforceDiscussionParent Placed
  cases new.parentId with
  | none => exact iff_of_true rfl fun parentId h => nomatch h
  | some parentId =>
      cases hfind : posts.find parentId with
      | none =>
          simp only [hfind]
          refine iff_of_false (fun h => by cases h) fun h => ?_
          obtain ⟨parent, hparent, hid, -⟩ := h parentId rfl
          rw [Rows.find_eq_some.2 ⟨hparent, hid⟩] at hfind
          cases hfind
      | some parent =>
          obtain ⟨hparent, hid⟩ := Rows.mem_of_find hfind
          have hraises : raises (Truth.any [isNull (some parent.problemId),
              isNotNull parent.parentId, ne (some parent.problemId) (some new.problemId)])
              = (parent.parentId.isSome || decide (parent.problemId ≠ new.problemId)) := by
            simp only [Truth.any, raises_or, isNull, isNotNull, ne, lift, raises_some,
              Option.isNone_some, Bool.false_or, Bool.or_false]
          simp only [hfind, Option.map_some, Option.bind_some, hraises]
          constructor
          · intro h
            split at h
            · cases h
            · next hquiet =>
                rw [Bool.or_eq_true, not_or, Option.isSome_iff_ne_none, not_not,
                  decide_eq_true_iff, not_not] at hquiet
                rintro _ ⟨⟩
                exact ⟨parent, hparent, hid, hquiet⟩
          · intro h
            obtain ⟨other, hother, hotherId, hroot, hproblem⟩ := h parentId rfl
            obtain rfl := Rows.eq_of_key hother hparent (hotherId.trans hid.symm)
            rw [if_neg]
            rw [hroot, hproblem]
            simp only [Option.isSome_none, ne_eq, not_true_eq_false, decide_false, Bool.or_false,
              Bool.false_eq_true, not_false_eq_true]

theorem not_self_of_checkRow (h : checkRow row = .ok ()) : row.parentId ≠ some row.id := by
  intro hself
  unfold checkRow at h
  split at h
  · cases h
  · next hnone =>
      have hchecks := firstViolation_eq_none.1 hnone (notSelfParent row) (by simp)
      rw [notSelfParent, hself] at hchecks
      simp [isNull, ne, lift, Truth.or] at hchecks

/-- What is known of an accepted change of one row. -/
structure AcceptedRow (posts : Posts) (row new : PostRow) (fires : Bool) : Prop where
  placed : fires = true → Placed posts new
  notSelf : new.parentId ≠ some new.id
  free : new.id ∈ posts.rows.map PostRow.id → new.id = row.id

theorem accepted_of_setRow (h : setRow posts row change = .ok posts') :
    AcceptedRow posts row (change.apply row) change.fires ∧
      posts' = posts.put row.id (change.apply row) := by
  obtain ⟨_, hguard, h⟩ := bind_eq_ok.1 h
  obtain ⟨_, hcheck, h⟩ := bind_eq_ok.1 h
  split at h
  · cases h
  next hfree =>
    cases h
    refine ⟨⟨fun hfires => ?_, not_self_of_checkRow hcheck, fun hmem => ?_⟩, rfl⟩
    · rw [parentGuard, if_pos hfires] at hguard
      exact enforceDiscussionParent_eq_ok.1 hguard
    · by_contra hne
      exact hfree ⟨hne, isTaken_iff.2 (List.mem_map.1 hmem)⟩

theorem insertRow_eq_ok (h : insertRow posts new = .ok posts') :
    Placed posts new ∧ posts' = posts.insert new := by
  obtain ⟨_, hguard, h⟩ := bind_eq_ok.1 h
  obtain ⟨_, -, h⟩ := bind_eq_ok.1 h
  split at h
  · cases h
  · cases h
    exact ⟨enforceDiscussionParent_eq_ok.1 hguard, rfl⟩

/-- The replies of a post with a new identifier have passed the trigger. -/
theorem cascadeUpdate_eq_ok {old id : Uuid} (h : cascadeUpdate posts old id = .ok posts') :
    old = id ∧ posts' = posts ∨
      old ≠ id ∧ posts' = posts.update (PostRow.follow old id) (PostRow.follow_id old id) ∧
        ∀ row ∈ posts.rows, row.parentId = some old →
          Placed posts (row.follow old id) ∧ row.id ≠ id := by
  unfold cascadeUpdate at h
  split at h
  · next heq =>
      cases h
      exact .inl ⟨heq, rfl⟩
  · next hne =>
      obtain ⟨_, hloop, h⟩ := bind_eq_ok.1 h
      cases h
      refine .inr ⟨hne, rfl, fun row hrow hparent => ?_⟩
      have hround := forM_eq_ok.1 hloop row
        (List.mem_filter.2 ⟨hrow, decide_eq_true hparent⟩)
      obtain ⟨_, hguard, hcheck⟩ := bind_eq_ok.1 hround
      refine ⟨enforceDiscussionParent_eq_ok.1 hguard, fun hid => ?_⟩
      apply not_self_of_checkRow hcheck
      rw [PostRow.follow_id, PostRow.follow, if_pos hparent, hid]

end Accepted

/-! ### Rows with their parents -/

section Rows

variable {posts posts' : Posts} {row new reply : PostRow} {change : PostChange} {id : Uuid}

/-- It is enough to find the parent again. -/
theorem Placed.transfer (h : Placed posts row)
    (hfind : ∀ parent ∈ posts.rows, row.parentId = some parent.id → parent.parentId = none →
      parent ∈ posts'.rows) : Placed posts' row := by
  intro parentId hparent
  obtain ⟨parent, hmem, rfl, hroot, hproblem⟩ := h parentId hparent
  exact ⟨parent, hfind parent hmem hparent hroot, rfl, hroot, hproblem⟩

theorem keepsPlace_iff {rest : List (Uuid × PostChange)} :
    keepsPlace posts rest id change = true ↔ ∀ row, posts.find id = some row →
      ((change.apply row).parentId = row.parentId ∧
        (change.apply row).problemId = row.problemId) ∨
      ∀ reply ∈ posts.rows, reply.parentId = some id → rechecked rest reply.id = true := by
  unfold keepsPlace
  cases posts.find id with
  | none => exact iff_of_true rfl fun row h => by cases h
  | some row =>
      simp only [Option.all_some, Bool.or_eq_true, decide_eq_true_iff, Option.some.injEq,
        forall_eq', List.all_eq_true, Bool.not_eq_true', decide_eq_false_iff_not]
      exact or_congr_right (forall₂_congr fun _ _ => imp_iff_not_or.symm)

/-- A post with a reply in its place has no parent, and the problem of the reply. -/
theorem Placed.parent (h : Placed posts reply) (hrow : row ∈ posts.rows)
    (hparent : reply.parentId = some row.id) :
    row.parentId = none ∧ row.problemId = reply.problemId := by
  obtain ⟨parent, hmem, hid, hplace⟩ := h row.id hparent
  obtain rfl := Rows.eq_of_key hmem hrow hid
  exact hplace

theorem insertRow_threaded (hthreaded : Threaded posts) (h : insertRow posts new = .ok posts') :
    Threaded posts' := by
  obtain ⟨hplaced, rfl⟩ := insertRow_eq_ok h
  intro row hrow
  have hbefore : Placed posts row := by
    obtain rfl | hold := Rows.mem_insert hrow
    · exact hplaced
    · exact hthreaded row hold
  exact hbefore.transfer fun parent hparent _ _ => Rows.mem_insert_of_mem hparent

/-- A change that the trigger does not look at does not move the post. -/
theorem apply_of_not_fires (row : PostRow) (h : change.fires = false) :
    (change.apply row).parentId = row.parentId ∧
      (change.apply row).problemId = row.problemId := by
  rw [PostChange.fires, Bool.or_eq_false_iff, Option.isSome_eq_false_iff,
    Option.isSome_eq_false_iff, Option.isNone_iff_eq_none, Option.isNone_iff_eq_none] at h
  rw [PostChange.apply, h.1, h.2]
  exact ⟨rfl, rfl⟩

theorem AcceptedRow.placed_new (hold : Placed posts row ∨ change.fires = true)
    (h : AcceptedRow posts row (change.apply row) change.fires) :
    Placed posts (change.apply row) := by
  cases hfires : change.fires with
  | true => exact h.placed hfires
  | false =>
      obtain ⟨hparent, hproblem⟩ := apply_of_not_fires row hfires
      have hold := hold.resolve_right (by rw [hfires]; exact Bool.false_ne_true)
      unfold Placed at hold ⊢
      rw [hparent, hproblem]
      exact hold

/-! ### Statements that are not at their end -/

/-- Who is not in its place is looked at before the statement ends. -/
def ThreadedBut (posts : Posts) (changes : List (Uuid × PostChange)) : Prop :=
  ∀ row ∈ posts.rows, Placed posts row ∨ rechecked changes row.id = true

variable {rest : List (Uuid × PostChange)}

theorem threadedBut_of_threaded (h : Threaded posts) : ThreadedBut posts rest :=
  fun row hrow => .inl (h row hrow)

theorem ThreadedBut.threaded (h : ThreadedBut posts []) : Threaded posts :=
  fun row hrow => (h row hrow).resolve_right Bool.false_ne_true

theorem rechecked_cons_self : rechecked ((id, change) :: rest) id = change.fires := by
  simp [rechecked]

theorem ThreadedBut.of_ne (h : ThreadedBut posts ((id, change) :: rest)) (hrow : row ∈ posts.rows)
    (hne : row.id ≠ id) : Placed posts row ∨ rechecked rest row.id = true := by
  have hrow := h row hrow
  rwa [rechecked, List.find?_cons_of_neg (by simp [hne.symm])] at hrow

/-- After a change of one row, only those who refer to an identifier that it gave up can
    be misplaced for good. -/
theorem placed_of_put (hbut : ThreadedBut posts ((row.id, change) :: rest))
    (hrow : row ∈ posts.rows) (hplaced : Placed posts new) (hself : new.parentId ≠ some new.id)
    (hfree : new.id ∈ posts.rows.map PostRow.id → new.id = row.id)
    (hkeeps : (new.parentId = row.parentId ∧ new.problemId = row.problemId) ∨
      ∀ reply ∈ posts.rows, reply.parentId = some row.id → rechecked rest reply.id = true) :
    ∀ other ∈ (posts.put row.id new).rows,
      (Placed (posts.put row.id new) other ∨ rechecked rest other.id = true) ∨
        other.parentId = some row.id ∧ new.id ≠ row.id := by
  have hmem {other : PostRow} := Rows.mem_put (b := other) hfree (List.mem_map_of_mem hrow)
  -- whoever has another parent than the row finds it where it was
  have helse (other : PostRow) (hother : Placed posts other)
      (hne : other.parentId ≠ some row.id) : Placed (posts.put row.id new) other :=
    hother.transfer fun parent hparent hid _ =>
      hmem.2 (.inr ⟨hparent, fun h => hne (h ▸ hid)⟩)
  intro other hother
  rcases hmem.1 hother with rfl | ⟨hold, hid⟩
  · by_cases hparent : other.parentId = some row.id
    · exact .inr ⟨hparent, fun h => hself (h ▸ hparent)⟩
    · exact .inl (.inl (helse other hplaced hparent))
  · rcases hbut.of_ne hold hid with hbefore | hlater
    · by_cases hparent : other.parentId = some row.id
      · by_cases hsame : new.id = row.id
        · -- a reply, whose parent has kept its place, or which is looked at later
          refine .inl (hkeeps.imp (fun ⟨hroot', hproblem'⟩ => ?_) fun h => h other hold hparent)
          obtain ⟨hroot, hproblem⟩ := hbefore.parent hrow hparent
          refine fun parentId h => ⟨new, hmem.2 (.inl rfl), ?_, hroot'.trans hroot,
            hproblem'.trans hproblem⟩
          exact hsame.trans (Option.some.inj (hparent.symm.trans h))
        · exact .inr ⟨hparent, hsame⟩
      · exact .inl (.inl (helse other hbefore hparent))
    · exact .inl (.inr hlater)

/-- Passing on an identifier changes no post without a parent. -/
theorem Placed.follow {old : Uuid} (h : Placed posts row) :
    Placed (posts.update (PostRow.follow old id) (PostRow.follow_id old id)) row := by
  refine h.transfer fun parent hparent _ hroot => Rows.mem_update.2 ⟨parent, hparent, ?_⟩
  rw [PostRow.follow, if_neg]
  rw [hroot]
  exact nofun

theorem updateRow_threadedBut (hbut : ThreadedBut posts ((id, change) :: rest))
    (hkeeps : keepsPlace posts rest id change = true)
    (h : updateRow posts id change = .ok posts') : ThreadedBut posts' rest := by
  unfold updateRow at h
  split at h
  · next hfind =>
      cases h
      refine fun row hrow => hbut.of_ne hrow fun hid => ?_
      rw [Rows.find_eq_some.2 ⟨hrow, hid⟩] at hfind
      cases hfind
  next row hfind =>
  obtain ⟨hrow, rfl⟩ := Rows.mem_of_find hfind
  obtain ⟨updated, hset, hcascade⟩ := bind_eq_ok.1 h
  obtain ⟨haccepted, rfl⟩ := accepted_of_setRow hset
  have hold := hbut row hrow
  rw [rechecked_cons_self] at hold
  have hplaces := placed_of_put hbut hrow (haccepted.placed_new hold) haccepted.notSelf
    haccepted.free (keepsPlace_iff.1 hkeeps row hfind)
  -- the identifier is the same, or the replies have followed it through their triggers
  rcases cascadeUpdate_eq_ok hcascade with ⟨hid, rfl⟩ | ⟨-, rfl, hreplies⟩
  · intro other hother
    rcases hplaces other hother with hplaced | ⟨-, hne⟩
    · exact hplaced
    · exact absurd hid.symm hne
  · intro other hother
    obtain ⟨before, hbefore, rfl⟩ := Rows.mem_update.1 hother
    by_cases hparent : before.parentId = some row.id
    · exact .inl (hreplies before hbefore hparent).1.follow
    · rw [PostRow.follow, if_neg hparent]
      rcases hplaces before hbefore with hplaced | ⟨h, -⟩
      · exact hplaced.imp_left Placed.follow
      · exact absurd h hparent

/-- An update of one row keeps the threads exactly if it leaves a post with replies
    where it is. -/
theorem updateRow_threaded_iff (hthreaded : Threaded posts)
    (h : updateRow posts id change = .ok posts') :
    Threaded posts' ↔ keepsPlace posts [] id change = true := by
  refine ⟨fun hafter => keepsPlace_iff.2 fun row hfind => or_iff_not_imp_right.2 fun hreplies => ?_,
    fun hkeeps => (updateRow_threadedBut (threadedBut_of_threaded hthreaded) hkeeps h).threaded⟩
  push Not at hreplies
  obtain ⟨reply, hreply, hparent, -⟩ := hreplies
  rw [updateRow, hfind] at h
  obtain ⟨hrow, rfl⟩ := Rows.mem_of_find hfind
  obtain ⟨updated, hset, hcascade⟩ := bind_eq_ok.1 h
  obtain ⟨haccepted, rfl⟩ := accepted_of_setRow hset
  have hmem {other : PostRow} :=
    Rows.mem_put (b := other) haccepted.free (List.mem_map_of_mem hrow)
  obtain ⟨hroot, hproblem⟩ := (hthreaded reply hreply).parent hrow hparent
  have hstays : reply ∈ (posts.put row.id (change.apply row)).rows := by
    refine hmem.2 (.inr ⟨hreply, fun hid => ?_⟩)
    rw [Rows.eq_of_key hreply hrow hid, hroot] at hparent
    cases hparent
  rcases cascadeUpdate_eq_ok hcascade with ⟨hid, rfl⟩ | ⟨-, -, hguards⟩
  · have hnew := (hafter reply hstays).parent (hmem.2 (.inl rfl)) (hid ▸ hparent)
    exact ⟨hnew.1.trans hroot.symm, hnew.2.trans hproblem.symm⟩
  · -- the trigger of the reply has found the post under its new identifier
    obtain ⟨hplaced, -⟩ := hguards reply hstays hparent
    rw [PostRow.follow, if_pos hparent] at hplaced
    obtain ⟨parent, hmember, hid, hroot', hproblem'⟩ := hplaced _ rfl
    obtain rfl := Rows.eq_of_key hmember (hmem.2 (.inl rfl)) hid
    exact ⟨hroot'.trans hroot.symm, hproblem'.trans hproblem.symm⟩

/-! ### Deletions -/

theorem isOrphan_eq_false_iff : isOrphan posts row = false ↔
    ∀ parentId ∈ row.parentId, ∃ parent ∈ posts.rows, parent.id = parentId := by
  unfold isOrphan
  cases row.parentId with
  | none => exact iff_of_true rfl fun parentId h => by cases h
  | some parentId =>
      rw [Option.any_some, Bool.not_eq_false', isTaken_iff]
      exact ⟨fun h _ hmem => Option.mem_some.1 hmem ▸ h, fun h => h parentId rfl⟩

/-- The parents exist. -/
def Referenced (posts : Posts) : Prop :=
  ∀ row ∈ posts.rows, isOrphan posts row = false

theorem Threaded.referenced (h : Threaded posts) : Referenced posts := by
  intro row hrow
  refine isOrphan_eq_false_iff.2 fun parentId hparent => ?_
  obtain ⟨parent, hmem, hid, -⟩ := h row hrow parentId hparent
  exact ⟨parent, hmem, hid⟩

theorem cascadeDelete_of_referenced (h : Referenced posts) :
    ∀ n, cascadeDelete n posts = posts
  | 0 => rfl
  | n + 1 => by rw [cascadeDelete, Rows.delete_eq_self h, cascadeDelete_of_referenced h n]

/-- The parents that are left have no parents, so the first round leaves them. -/
theorem deleteRows_threaded (hthreaded : Threaded posts) (ids : List Uuid) :
    Threaded (deleteRows posts ids) := by
  unfold deleteRows
  generalize hkept : (posts.delete fun row => decide (row.id ∈ ids)) = kept
  have hsub {row : PostRow} (h : row ∈ kept.rows) : row ∈ posts.rows := by
    rw [← hkept] at h
    exact (Rows.mem_delete.1 h).1
  cases hlength : posts.rows.length with
  | zero =>
      intro row hrow
      have hmem := hsub hrow
      rw [List.length_eq_zero_iff.1 hlength] at hmem
      cases hmem
  | succ n =>
      have hfirst : Threaded (kept.delete (isOrphan kept)) := by
        intro row hrow parentId hparent
        obtain ⟨hrow, horphan⟩ := Rows.mem_delete.1 hrow
        obtain ⟨parent, hmem, rfl⟩ := isOrphan_eq_false_iff.1 horphan parentId hparent
        obtain ⟨hroot, hproblem⟩ := (hthreaded row (hsub hrow)).parent (hsub hmem) hparent
        refine ⟨parent, Rows.mem_delete.2 ⟨hmem, ?_⟩, rfl, hroot, hproblem⟩
        rw [isOrphan, hroot, Option.any_none]
      rw [cascadeDelete, cascadeDelete_of_referenced hfirst.referenced]
      exact hfirst

end Rows

/-! ### Runs -/

section Runs

variable {references : References} {posts posts' : Posts} {statement : PostStatement}

theorem checkReferences_eq_ok (h : checkReferences references posts = .ok posts') :
    posts' = posts := by
  unfold checkReferences at h
  split at h
  · cases h
  split at h
  · cases h
  split at h <;> cases h
  rfl

theorem update_threadedBut {changes : List (Uuid × PostChange)} (hbut : ThreadedBut posts changes)
    (hkeeps : keepsPlaces posts changes = true)
    (h : changes.foldlM (fun posts change => updateRow posts change.1 change.2) posts
      = .ok posts') : ThreadedBut posts' [] := by
  induction changes generalizing posts with
  | nil =>
      cases h
      exact hbut
  | cons change rest ih =>
      rw [List.foldlM_cons] at h
      obtain ⟨next, hnext, h⟩ := bind_eq_ok.1 h
      rw [keepsPlaces, Bool.and_eq_true, hnext] at hkeeps
      exact ih (updateRow_threadedBut hbut hkeeps.1 hnext) hkeeps.2 h

variable (references)

theorem execute_threaded (hthreaded : Threaded posts)
    (hkeeps : statement.keeps references posts = true)
    (h : statement.execute references posts = .ok posts') : Threaded posts' := by
  cases statement with
  | insert rows =>
      obtain ⟨written, hwritten, hchecked⟩ := bind_eq_ok.1 h
      obtain rfl := checkReferences_eq_ok hchecked
      exact foldlM_induction (fun _ _ _ => insertRow_threaded) hthreaded hwritten
  | update changes =>
      simp only [PostStatement.keeps, h] at hkeeps
      obtain ⟨written, hwritten, hchecked⟩ := bind_eq_ok.1 h
      obtain rfl := checkReferences_eq_ok hchecked
      exact (update_threadedBut (threadedBut_of_threaded hthreaded) hkeeps hwritten).threaded
  | delete ids =>
      cases h
      exact deleteRows_threaded hthreaded ids

/-- A rejected statement leaves the table alone. -/
theorem step_induction {P : Posts → Prop} (hposts : P posts)
    (h : ∀ posts', statement.execute references posts = .ok posts' → P posts') :
    P (statement.step references posts).1 := by
  unfold PostStatement.step
  cases hexecute : statement.execute references posts with
  | error rejection => exact hposts
  | ok posts' => exact h posts' hexecute

/-- The table after some statements. -/
def PostStatement.run (statements : List PostStatement) : Posts :=
  Runs.run (PostStatement.step references) {} statements

/-- As long as no accepted `UPDATE` gives a parent or another problem to a post with
    replies that it does not look at later, every reply is about the problem of its
    parent, and the parent is no reply. -/
theorem threads_one_level (statements : List PostStatement)
    (hkeeps : Runs.Along (PostStatement.step references)
      (fun posts statement => statement.keeps references posts = true) {} statements) :
    Threaded (PostStatement.run references statements) := by
  refine Runs.run_induction_along _ (fun posts statement hkeeps hposts => ?_) statements _ hkeeps
    (fun row h => ?_)
  · exact step_induction references hposts fun _ => execute_threaded references hposts hkeeps
  · cases h

end Runs

namespace Sample

def firstTopic : Uuid := execution

def secondTopic : Uuid := token

def topic (id : Uuid) : PostRow :=
  { id, problemId := problem, authorId := owner, title := some "Linear time", body := "How?" }

def reply : PostRow :=
  { id := hiddenCase, problemId := problem, authorId := owner, parentId := some firstTopic
    body := "With a map." }

def references : References := ⟨[problem, versionId], [owner]⟩

/-- Two topics, and an answer to the first. -/
def thread : PostStatement :=
  .insert [topic firstTopic, topic secondTopic, reply]

/-- The first topic becomes an answer to the second. -/
def demote : PostStatement :=
  .update [(firstTopic, { parentId := some (some secondTopic), title := some none })]

/-- The first topic is moved to another problem. -/
def move : PostStatement :=
  .update [(firstTopic, { problemId := some versionId })]

/-- The topic with the answer is hidden, the other one moved, and the first after it with
    its answer. -/
def housekeeping : List PostStatement :=
  [.update [(firstTopic, { status := some .hidden })],
    .update [(secondTopic, { problemId := some versionId })],
    .update [(firstTopic, { problemId := some versionId }),
      (hiddenCase, { problemId := some versionId })],
    .delete [secondTopic]]

end Sample

theorem threads_one_level_sample :
    Threaded (PostStatement.run Sample.references (Sample.thread :: Sample.housekeeping)) ∧
      (PostStatement.run Sample.references (Sample.thread :: Sample.housekeeping)).rows.map
        PostRow.problemId = [Sample.versionId, Sample.versionId] :=
  ⟨threads_one_level Sample.references _ (by decide +kernel), by decide +kernel⟩

/-- Both updates are accepted, and the answer then belongs to an answer, or to another
    problem than its parent. -/
theorem moved_parents :
    Runs.outputs (PostStatement.step Sample.references) {} [Sample.thread, Sample.demote]
        = [.ok (), .ok ()] ∧
      ¬ Threaded (PostStatement.run Sample.references [Sample.thread, Sample.demote]) ∧
      Runs.outputs (PostStatement.step Sample.references) {} [Sample.thread, Sample.move]
        = [.ok (), .ok ()] ∧
      ¬ Threaded (PostStatement.run Sample.references [Sample.thread, Sample.move]) := by
  decide +kernel

end ArenaCore
