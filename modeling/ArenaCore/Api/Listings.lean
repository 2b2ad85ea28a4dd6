import Mathlib.Data.Prod.Lex
import Mathlib.Data.String.Basic
import ArenaCore.Api.Users
import ArenaCore.Lib.Pages

/-!
# Listings of the API

`Executions.history`, `Notifications.list`, `AdminService.users` and
`AdminService.submissions`: the newest rows first, some on a page. A cursor is
the identifier of a row. It is looked up, and the page has the rows that are
older, or as old with a smaller identifier.

The four differ in the conditions on the rows, in what they ask of the row a
cursor names, in the page size and in what they show of a row. They are one
function with parameters, which is a listing of `Lib.Pages` with the position
`(createdAt, id)`.

## Main definitions

* `findPage`: The common function.
* `history`, `notificationsList`, `adminUsers`, `adminSubmissions`: The four.

## Theorems

* `findPage_eq`: The function as a listing.
* `pagination_covers`: A reader of any of the four sees every row once.
-/

namespace ArenaCore

open Pages

theorem Uuid.text_injective : Function.Injective Uuid.text := by
  rintro ⟨a, ha⟩ ⟨b, hb⟩ h
  cases h
  rfl

/-- Identifiers are compared by their bytes, as their hexadecimal texts are. -/
instance : LinearOrder Uuid :=
  LinearOrder.lift' Uuid.text Uuid.text_injective

/-! ### The common function -/

section Common

variable {Row Item : Type} (createdAt : Row → Int) (id : Row → Uuid)

/-- `pageBoundary`: older rows, or as old with a smaller identifier. -/
def pageBoundary (boundary : Option Row) (row : Row) : Bool :=
  boundary.all fun b => decide (createdAt row < createdAt b) ||
    (decide (createdAt row = createdAt b) && decide (id row < id b))

/-- `orderBy: [{createdAt: 'desc'}, {id: 'desc'}]`. -/
def newestFirst (a b : Row) : Prop :=
  createdAt b < createdAt a ∨ createdAt b = createdAt a ∧ id b ≤ id a

instance (a b : Row) : Decidable (newestFirst createdAt id a b) :=
  inferInstanceAs (Decidable (_ ∨ _))

/-- A page: look the cursor up, find one row more than the page has, and name the
    last row of the page if there is one more. -/
def findPage (itemId : Item → Uuid) (size : Nat) (message : String) (named matching : Row → Bool)
    (toItem : Row → Item) (rows : List Row) (cursor : Option Uuid) :
    Except ApiError (Page Item Uuid) := do
  let boundary ← match cursor with
    | none => pure none
    | some c =>
        match rows.find? fun r => decide (id r = c) && named r with
        | none => throw ⟨400, "INVALID_CURSOR", message, none⟩
        | some row => pure (some row)
  let found := ((rows.filter fun r =>
    matching r && pageBoundary createdAt id boundary r).insertionSort
      (newestFirst createdAt id)).take (size + 1)
  let items := (found.take size).map toItem
  pure ⟨items, if size < found.length then items.getLast?.map itemId else none⟩

/-- The position of a row. -/
def positionOf (row : Row) : Int ×ₗ Uuid :=
  toLex (createdAt row, id row)

variable {createdAt id}

theorem pageBoundary_eq (boundary : Option Row) (row : Row) :
    pageBoundary createdAt id boundary row =
      (boundary.map (positionOf createdAt id)).all fun k =>
        decide (positionOf createdAt id row < k) := by
  cases boundary with
  | none => rfl
  | some b =>
      simp only [pageBoundary, Option.all_some, Option.map_some, positionOf,
        Prod.Lex.toLex_lt_toLex, Bool.decide_or, Bool.decide_and]

theorem newestFirst_iff (a b : Row) :
    newestFirst createdAt id a b ↔ positionOf createdAt id b ≤ positionOf createdAt id a := by
  rw [positionOf, positionOf, Prod.Lex.toLex_le_toLex]
  exact Iff.rfl

theorem insertionSort_congr {α : Type} {r s : α → α → Prop} [DecidableRel r] [DecidableRel s]
    (h : ∀ a b, r a b ↔ s a b) (l : List α) : l.insertionSort r = l.insertionSort s := by
  obtain rfl : r = s := funext fun a => funext fun b => propext (h a b)
  congr

/-- The listing behind some parameters of the function. -/
def listingOf {Data : Type} (rows : Data → List Row) (createdAt : Row → Int) (id : Row → Uuid)
    (itemId : Item → Uuid) (itemCreatedAt : Item → Int) (size : Nat)
    (named matching : Data → Row → Bool) (toItem : Data → Row → Item)
    (hunique : ∀ data, ((rows data).map id).Nodup) (hsize : 0 < size)
    (hid : ∀ data row, itemId (toItem data row) = id row)
    (hcreatedAt : ∀ data row, itemCreatedAt (toItem data row) = createdAt row)
    (hnamed : ∀ {data row}, matching data row = true → named data row = true) :
    Listing Data Row Item Uuid (Int ×ₗ Uuid) where
  rows := rows
  matching := matching
  named := named
  id := id
  position := positionOf createdAt id
  item := toItem
  itemId := itemId
  itemPosition := positionOf itemCreatedAt itemId
  size := size
  size_pos := hsize
  itemId_item := hid
  itemPosition_item data row := by rw [positionOf, hid, hcreatedAt, positionOf]
  id_of_position h := (Prod.mk.inj (toLex.injective h)).2
  rows_nodup := hunique
  named_of_matching := hnamed

/-- A page of the function is a page of the listing. -/
theorem findPage_eq {Data : Type} (L : Listing Data Row Item Uuid (Int ×ₗ Uuid))
    (hposition : L.position = positionOf createdAt L.id) (message : String) (data : Data)
    (cursor : Option Uuid) :
    (findPage createdAt L.id L.itemId L.size message (L.named data) (L.matching data) (L.item data)
      (L.rows data) cursor).toOption = L.request data cursor := by
  have hbelow : ∀ boundary : Option Row, ((L.rows data).filter fun r =>
      L.matching data r && pageBoundary createdAt L.id boundary r).insertionSort
        (newestFirst createdAt L.id) = L.below data (boundary.map L.position) := by
    intro boundary
    rw [insertionSort_congr newestFirst_iff, Listing.below, hposition]
    simp only [pageBoundary_eq]
  cases cursor with
  | none =>
      change some (Page.mk _ _) = some (Page.mk _ _)
      rw [hbelow none]
      rfl
  | some c =>
      rw [Listing.request, Listing.boundary]
      cases hfind : (L.rows data).find? fun r => decide (L.id r = c) && L.named data r with
      | none =>
          simp only [findPage, hfind]
          rfl
      | some row =>
          simp only [findPage, hfind]
          change some (Page.mk _ _) = some (Page.mk _ _)
          rw [hbelow (some row)]
          rfl

end Common

/-- The rows of a table with their primary key. -/
structure Keyed (Row : Type) (id : Row → Uuid) where
  rows : List Row
  unique : (rows.map id).Nodup

/-! ### Submissions -/

/-- An execution with its owner and its problem version. -/
structure SubmissionRow where
  id : Uuid
  userId : Uuid
  username : String
  displayName : String
  mode : ExecutionMode
  problemId : Uuid
  problemSlug : String
  problemTitle : String
  language : Language
  state : ExecutionState
  verdict : Option Verdict
  createdAt : Int
  runtimeMs : Option Nat
  memoryKiB : Option Nat
  failureCode : Option ExecutionFailureCode

abbrev SubmissionTable := Keyed SubmissionRow SubmissionRow.id

structure HistoryItem where
  executionId : Uuid
  problemId : Uuid
  problemTitle : String
  language : Language
  state : ExecutionState
  createdAt : Int
  verdict : Option Verdict
  runtimeMs : Option Nat
  memoryKiB : Option Nat
  failureCode : Option ExecutionFailureCode

def SubmissionRow.historyItem (row : SubmissionRow) : HistoryItem where
  executionId := row.id
  problemId := row.problemId
  problemTitle := row.problemTitle
  language := row.language
  state := row.state
  createdAt := row.createdAt
  verdict := row.verdict
  runtimeMs := row.runtimeMs
  memoryKiB := row.memoryKiB
  failureCode := row.failureCode

/-- The submissions of a user, for one problem if one is given. -/
def SubmissionRow.isHistoryOf (userId : Uuid) (problemId : Option Uuid) (row : SubmissionRow) :
    Bool :=
  decide (row.userId = userId) && decide (row.mode = .submit) &&
    problemId.all fun p => decide (row.problemId = p)

/-- `Executions.history`. -/
def history (userId : Uuid) (problemId : Option Uuid) (table : SubmissionTable)
    (cursor : Option Uuid) : Except ApiError (Page HistoryItem Uuid) :=
  findPage SubmissionRow.createdAt SubmissionRow.id HistoryItem.executionId 20
    "Submission cursor is invalid." (SubmissionRow.isHistoryOf userId problemId)
    (SubmissionRow.isHistoryOf userId problemId) SubmissionRow.historyItem table.rows cursor

structure AdminSubmission where
  id : Uuid
  language : Language
  state : ExecutionState
  verdict : Option Verdict
  runtimeMs : Option Nat
  memoryKiB : Option Nat
  failureCode : Option ExecutionFailureCode
  createdAt : Int
  username : String
  displayName : String
  problemSlug : String
  problemTitle : String

def SubmissionRow.adminSubmission (row : SubmissionRow) : AdminSubmission where
  id := row.id
  language := row.language
  state := row.state
  verdict := row.verdict
  runtimeMs := row.runtimeMs
  memoryKiB := row.memoryKiB
  failureCode := row.failureCode
  createdAt := row.createdAt
  username := row.username
  displayName := row.displayName
  problemSlug := row.problemSlug
  problemTitle := row.problemTitle

/-- `AdminService.submissions`. A cursor may name any execution. -/
def adminSubmissions (table : SubmissionTable) (cursor : Option Uuid) :
    Except ApiError (Page AdminSubmission Uuid) :=
  findPage SubmissionRow.createdAt SubmissionRow.id AdminSubmission.id 50
    "Submission cursor is invalid." (fun _ => true) (fun row => decide (row.mode = .submit))
    SubmissionRow.adminSubmission table.rows cursor

/-! ### Notifications -/

structure NotificationRow where
  id : Uuid
  userId : Uuid
  kind : String
  title : String
  body : String
  href : Option String
  readAt : Option Int
  createdAt : Int

abbrev NotificationTable := Keyed NotificationRow NotificationRow.id

/-- `Notifications.list`, without the number of unread ones. The items are the
    rows without their owner. -/
def notificationsList (userId : Uuid) (table : NotificationTable) (cursor : Option Uuid) :
    Except ApiError (Page NotificationRow Uuid) :=
  findPage NotificationRow.createdAt NotificationRow.id NotificationRow.id 30
    "Notification cursor is invalid." (fun row => decide (row.userId = userId))
    (fun row => decide (row.userId = userId)) (fun row => row) table.rows cursor

/-! ### Users -/

/-- A user with the address of their credential and the number of their
    executions. -/
structure ListedUser where
  user : UserRow
  email : Option String
  executions : Nat

abbrev UserTable := Keyed ListedUser (fun row => row.user.id)

inductive RestrictionFilter where
  | active
  | suspended
  | banned

structure UserQuery where
  search : Option String := none
  role : Option Role := none
  restriction : Option RestrictionFilter := none

structure AdminUser where
  id : Uuid
  username : String
  displayName : String
  role : Role
  joinedAt : Int
  submissions : Nat
  restriction : Option Restriction

def ListedUser.adminUser (now : Int) (row : ListedUser) : AdminUser where
  id := row.user.id
  username := row.user.username
  displayName := row.user.displayName
  role := row.user.role
  joinedAt := row.user.createdAt
  submissions := row.executions
  restriction := row.user.restriction now

/-- `restrictionWhere`. -/
def RestrictionFilter.admits (filter : RestrictionFilter) (now : Int) (user : UserRow) : Bool :=
  match filter with
  | .banned => user.bannedAt.isSome
  | .suspended => user.bannedAt.isNone && user.suspended now
  | .active => user.bannedAt.isNone && (user.suspendedUntil.isNone ||
      user.suspendedUntil.any fun time => decide (time ≤ now))

section Users

/- `contains` with `mode: 'insensitive'`. -/
variable (containsInsensitive : String → String → Bool)

def UserQuery.admits (query : UserQuery) (now : Int) (row : ListedUser) : Bool :=
  (query.role.all fun role => decide (row.user.role = role)) &&
    (query.search.all fun text => containsInsensitive row.user.username text ||
      containsInsensitive row.user.displayName text ||
      row.email.any fun email => containsInsensitive email text) &&
    query.restriction.all fun filter => filter.admits now row.user

/-- `AdminService.users`, at a time. A cursor may name any user. -/
def adminUsers (query : UserQuery) (data : UserTable × Int) (cursor : Option Uuid) :
    Except ApiError (Page AdminUser Uuid) :=
  findPage (fun row => row.user.createdAt) (fun row => row.user.id) AdminUser.id 20
    "User cursor is invalid." (fun _ => true) (query.admits containsInsensitive data.2)
    (ListedUser.adminUser data.2) data.1.rows cursor

end Users

/-! ### What readers can rely on -/

def historyListing (userId : Uuid) (problemId : Option Uuid) :
    Listing SubmissionTable SubmissionRow HistoryItem Uuid (Int ×ₗ Uuid) :=
  listingOf Keyed.rows SubmissionRow.createdAt SubmissionRow.id HistoryItem.executionId
    HistoryItem.createdAt 20 (fun _ => SubmissionRow.isHistoryOf userId problemId)
    (fun _ => SubmissionRow.isHistoryOf userId problemId) (fun _ => SubmissionRow.historyItem)
    Keyed.unique (Nat.succ_pos 19) (fun _ _ => rfl) (fun _ _ => rfl) fun h => h

def notificationsListing (userId : Uuid) :
    Listing NotificationTable NotificationRow NotificationRow Uuid (Int ×ₗ Uuid) :=
  listingOf Keyed.rows NotificationRow.createdAt NotificationRow.id NotificationRow.id
    NotificationRow.createdAt 30 (fun _ row => decide (row.userId = userId))
    (fun _ row => decide (row.userId = userId)) (fun _ row => row) Keyed.unique (Nat.succ_pos 29)
    (fun _ _ => rfl) (fun _ _ => rfl) fun h => h

def adminUsersListing (containsInsensitive : String → String → Bool) (query : UserQuery) :
    Listing (UserTable × Int) ListedUser AdminUser Uuid (Int ×ₗ Uuid) :=
  listingOf (fun data => data.1.rows) (fun row => row.user.createdAt) (fun row => row.user.id)
    AdminUser.id AdminUser.joinedAt 20 (fun _ _ => true)
    (fun data => query.admits containsInsensitive data.2) (fun data => ListedUser.adminUser data.2)
    (fun data => data.1.unique) (Nat.succ_pos 19) (fun _ _ => rfl) (fun _ _ => rfl) fun _ => rfl

def adminSubmissionsListing :
    Listing SubmissionTable SubmissionRow AdminSubmission Uuid (Int ×ₗ Uuid) :=
  listingOf Keyed.rows SubmissionRow.createdAt SubmissionRow.id AdminSubmission.id
    AdminSubmission.createdAt 50 (fun _ _ => true) (fun _ row => decide (row.mode = .submit))
    (fun _ => SubmissionRow.adminSubmission) Keyed.unique (Nat.succ_pos 49) (fun _ _ => rfl)
    (fun _ _ => rfl) fun _ => rfl

/-- Who follows the cursors of a listing sees the rows from new to old, each that
    is there and meets the conditions all the time exactly once, and gets to the
    last page if nothing changes. -/
theorem pagination_covers :
    (∀ userId problemId, Covers (historyListing userId problemId)
      fun table cursor => (history userId problemId table cursor).toOption) ∧
    (∀ userId, Covers (notificationsListing userId)
      fun table cursor => (notificationsList userId table cursor).toOption) ∧
    (∀ containsInsensitive query, Covers (adminUsersListing containsInsensitive query)
      fun data cursor => (adminUsers containsInsensitive query data cursor).toOption) ∧
    Covers adminSubmissionsListing fun table cursor =>
      (adminSubmissions table cursor).toOption := by
  have hcovers : ∀ {Data Row Item : Type} (L : Listing Data Row Item Uuid (Int ×ₗ Uuid))
      (request : Data → Option Uuid → Option (Page Item Uuid)),
      (∀ data cursor, request data cursor = L.request data cursor) → Covers L request := by
    intro Data Row Item L request h
    obtain rfl : request = L.request := funext fun data => funext fun cursor => h data cursor
    exact L.covers
  refine ⟨fun userId problemId => hcovers _ _ fun table cursor => ?_,
    fun userId => hcovers _ _ fun table cursor => ?_,
    fun containsInsensitive query => hcovers _ _ fun data cursor => ?_,
    hcovers _ _ fun table cursor => ?_⟩
  · exact findPage_eq (historyListing userId problemId) rfl _ table cursor
  · exact findPage_eq (notificationsListing userId) rfl _ table cursor
  · exact findPage_eq (adminUsersListing containsInsensitive query) rfl _ data cursor
  · exact findPage_eq adminSubmissionsListing rfl _ table cursor

end ArenaCore
