import ArenaCore.Contracts

/-!
# Users

The rows of users and the errors of the API. A user may be banned or suspended
for some time, and may deactivate their account; the row stays.

## Main definitions

* `ApiError`: A classified failure of a request.
* `UserRow`: A user.
* `UserRow.restriction`: The restriction in force.
* `UserRow.usable`: An administrator who can sign in.
-/

namespace ArenaCore

structure ApiError where
  status : Nat
  code : String
  message : String
  retryAfterSeconds : Option Int := none
deriving DecidableEq

inductive Role where
  | user
  | moderator
  | admin
deriving DecidableEq

structure UserRow where
  id : Uuid
  issuer : String
  subject : String
  username : String
  displayName : String
  bio : Option String := none
  location : Option String := none
  website : Option String := none
  avatarUrl : Option String := none
  isPrivate : Bool := false
  productNotifications : Bool := true
  competitionNotifications : Bool := true
  role : Role := .user
  createdAt : Int
  deactivatedAt : Option Int := none
  suspendedUntil : Option Int := none
  bannedAt : Option Int := none
  restrictionReason : Option String := none
deriving DecidableEq

inductive RestrictionKind where
  | banned
  | suspended
deriving DecidableEq

structure Restriction where
  kind : RestrictionKind
  reason : Option String
  until_ : Option Int
deriving DecidableEq

/-- A suspension that has not ended. -/
def UserRow.suspended (user : UserRow) (now : Int) : Bool :=
  user.suspendedUntil.any fun time => decide (now < time)

/-- The restriction in force, a ban before a suspension. -/
def UserRow.restriction (user : UserRow) (now : Int) : Option Restriction :=
  if user.bannedAt.isSome then some ⟨.banned, user.restrictionReason, none⟩
  else if user.suspended now then some ⟨.suspended, user.restrictionReason, user.suspendedUntil⟩
  else none

/-- An administrator who is not deactivated, banned or suspended. -/
def UserRow.usable (user : UserRow) (now : Int) : Bool :=
  decide (user.role = .admin) && user.deactivatedAt.isNone && user.bannedAt.isNone &&
    !user.suspended now

end ArenaCore
