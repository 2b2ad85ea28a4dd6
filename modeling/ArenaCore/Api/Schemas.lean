import ArenaCore.Api.Accounts

/-!
# Schemas of Texts

The schemas of the texts that people write: `updateProfileSchema`,
`createDiscussionSchema`, `createDiscussionReplySchema`, `reportSchema`,
`resolveReportInput` and `restrictionInput`. A schema trims what it is given and
counts code points. What it returns is what the services store.

A text is a sequence of Unicode scalar values here, so it has no lone surrogates.
Whether a text is a URL, and of which protocol, is left to the library. The
refinement of a URL runs even where `z.url()` has found an issue: `new URL` then
throws, and the exception leaves the schema, whatever the other members are.

## Main definitions

* `TextLibrary`: Functions outside the repository.
* `urlThrows`: A member whose refinement throws.
* `updateProfileSchema`, `createDiscussionSchema`, `createDiscussionReplySchema`,
  `reportSchema`, `resolveReportInput`, `restrictionInput`: The schemas.

## Theorems

* `acceptedProfile`: What is known of an accepted profile.
-/

namespace ArenaCore

/-- Functions outside the repository. -/
structure TextLibrary where
  toLowerCase : String → String
  /-- `z.url()`, and the text that it passes on. -/
  url : String → Option String
  /-- `new URL(text).protocol`, where the constructor does not throw. -/
  protocol : String → Option String
  /-- `z.iso.datetime()`, and the time that is named. -/
  datetime : String → Option Int
  /-- The class `[[:cntrl:]]`. -/
  isControl : Char → Bool

/-! ### Parts of schemas -/

/-- A member that may be absent, or null. -/
def orAbsent {α β : Type} (schema : α → Option β) : Option α → Option (Option β)
  | none => some none
  | some a => (schema a).map some

/-- `z.union([schema, z.literal('')])`. -/
def orEmpty (schema : String → Option String) (s : String) : Option String :=
  match schema s with
  | some text => some text
  | none => if s = "" then some "" else none

/-- `z.string().trim().min(low).max(high)`. -/
def textBetween (low high : Nat) (s : String) : Option String :=
  if hasLength low high (trim s) then some (trim s) else none

/-- The pattern `^[a-z0-9][a-z0-9_]{1,38}[a-z0-9]$`. -/
def isUsername (s : String) : Bool :=
  decide (3 ≤ s.toList.length) && decide (s.toList.length ≤ 40) &&
    s.toList.head?.any isSlugChar && s.toList.getLast?.any isSlugChar &&
    s.toList.all fun c => isSlugChar c || c == '_'

def reservedUsernames : List String := ["admin", "api", "auth", "me", "system"]

theorem orAbsent_eq_some {α β : Type} {schema : α → Option β} {a : Option α} {b : Option β}
    (h : orAbsent schema a = some b) {y : β} (hy : b = some y) :
    ∃ x, a = some x ∧ schema x = some y := by
  cases a with
  | none => cases h; cases hy
  | some x =>
      obtain ⟨y', hx, heq⟩ := Option.map_eq_some_iff.1 h
      rw [hy] at heq
      exact ⟨x, rfl, Option.some.inj heq ▸ hx⟩

theorem textBetween_eq_some {low high : Nat} {s text : String}
    (h : textBetween low high s = some text) :
    hasLength low high text = true := by
  unfold textBetween at h
  split at h
  · next hlength =>
      cases h
      exact hlength
  · cases h

section Schemas

variable (lib : TextLibrary)

def usernameSchema (s : String) : Option String :=
  if isUsername (lib.toLowerCase (trim s)) = true ∧
      lib.toLowerCase (trim s) ∉ reservedUsernames then
    some (lib.toLowerCase (trim s))
  else none

/-- The refinement of a URL throws: it reads what `z.url()` passes on, which is the
    text itself where that has found an issue. -/
def urlThrows (s : String) : Bool :=
  (lib.protocol ((lib.url s).getD s)).isNone

/-- `z.url()` with one of some protocols and a bound, where nothing throws. -/
def urlSchema (protocols : List String) (maximum : Option Nat) (s : String) : Option String :=
  (lib.url s).bind fun text =>
    if (lib.protocol text).any protocols.contains = true ∧
        maximum.all (hasLength 0 · text) = true then some text
    else none

/-! ### Profiles -/

/-- A profile as it is sent. Members may be absent, and four of them null. -/
structure RawProfile where
  username : Option String := none
  displayName : Option String := none
  bio : Option (Option String) := none
  location : Option (Option String) := none
  website : Option (Option String) := none
  avatarUrl : Option (Option String) := none

structure UpdateProfile where
  username : Option String
  displayName : Option String
  bio : Option (Option String)
  location : Option (Option String)
  website : Option (Option String)
  avatarUrl : Option (Option String)
deriving DecidableEq

def optionalProfileText (maximum : Nat) : Option String → Option (Option String) :=
  orAbsent (textBetween 0 maximum)

def websiteSchema : Option String → Option (Option String) :=
  orAbsent (orEmpty (urlSchema lib ["http:", "https:"] none))

def avatarUrlSchema : Option String → Option (Option String) :=
  orAbsent (orEmpty (urlSchema lib ["https:"] (some 2048)))

/-- At least one member is there. -/
def UpdateProfile.nonempty (input : UpdateProfile) : Bool :=
  input.username.isSome || input.displayName.isSome || input.bio.isSome || input.location.isSome ||
    input.website.isSome || input.avatarUrl.isSome

/-- The members of a profile, where nothing throws. -/
def profileMembers (raw : RawProfile) : Option UpdateProfile := do
  let username ← orAbsent (usernameSchema lib) raw.username
  let displayName ← orAbsent (textBetween 1 100) raw.displayName
  let bio ← orAbsent (optionalProfileText 280) raw.bio
  let location ← orAbsent (optionalProfileText 100) raw.location
  let website ← orAbsent (websiteSchema lib) raw.website
  let avatarUrl ← orAbsent (avatarUrlSchema lib) raw.avatarUrl
  let input : UpdateProfile := ⟨username, displayName, bio, location, website, avatarUrl⟩
  if input.nonempty then some input else none

/-- What leaves a schema when `new URL` throws. -/
inductive UrlError where
  | typeError

-- Every member is looked at, so one that throws does so beside any issue.
def updateProfileSchema (raw : RawProfile) : Except UrlError (Option UpdateProfile) :=
  if raw.website.join.any (urlThrows lib) || raw.avatarUrl.join.any (urlThrows lib) then
    .error .typeError
  else .ok (profileMembers lib raw)

/-! ### Discussions and moderation -/

structure CreateDiscussion where
  title : String
  body : String
deriving DecidableEq

def createDiscussionSchema (raw : CreateDiscussion) : Option CreateDiscussion := do
  let title ← textBetween 5 120 raw.title
  let body ← textBetween 1 4000 raw.body
  pure ⟨title, body⟩

def createDiscussionReplySchema (body : String) : Option String :=
  textBetween 1 4000 body

inductive ReportReason where
  | spam
  | harassment
  | solutionLeak
  | offTopic
  | other
deriving DecidableEq

structure ReportInput where
  reason : ReportReason
  details : Option String := none
deriving DecidableEq

def reportSchema (raw : ReportInput) : Option ReportInput := do
  let details ← orAbsent (textBetween 3 1000) raw.details
  pure ⟨raw.reason, details⟩

inductive DiscussionStatus where
  | visible
  | hidden
  | deleted
deriving DecidableEq

inductive ReportDecision where
  | resolved
  | dismissed
deriving DecidableEq

structure ResolveReport where
  status : ReportDecision
  moderatorNote : String
  postStatus : Option DiscussionStatus := none
deriving DecidableEq

def resolveReportInput (raw : ResolveReport) : Option ResolveReport := do
  let moderatorNote ← textBetween 3 1000 raw.moderatorNote
  pure ⟨raw.status, moderatorNote, raw.postStatus⟩

inductive RawRestriction where
  | suspend (until_ reason : String)
  | ban (reason : String)
  | clear

def restrictionInput : RawRestriction → Option RestrictionInput
  | .suspend until_ reason => do
      let time ← lib.datetime until_
      let reason ← textBetween 3 500 reason
      pure (.suspend time reason)
  | .ban reason => (textBetween 3 500 reason).map .ban
  | .clear => some .clear

end Schemas

/-! ### What is known of an accepted profile -/

section Accepted

variable {lib : TextLibrary}

/-- The bounds of an accepted profile. The website has none. -/
structure AcceptedProfile (input : UpdateProfile) : Prop where
  username : ∀ name, input.username = some name → isUsername name = true
  bio : ∀ text, input.bio = some (some text) → hasLength 0 280 text = true
  location : ∀ text, input.location = some (some text) → hasLength 0 100 text = true
  avatarUrl : ∀ text, input.avatarUrl = some (some text) → hasLength 0 2048 text = true

theorem usernameSchema_eq_some {s name : String} (h : usernameSchema lib s = some name) :
    isUsername name = true := by
  unfold usernameSchema at h
  split at h
  · next hname =>
      cases h
      exact hname.1
  · cases h

theorem profileText_eq_some {maximum : Nat} {raw input : Option (Option String)}
    (h : orAbsent (optionalProfileText maximum) raw = some input) (text : String)
    (htext : input = some (some text)) : hasLength 0 maximum text = true := by
  obtain ⟨value, _, hvalue⟩ := orAbsent_eq_some h htext
  obtain ⟨s, _, hs⟩ := orAbsent_eq_some hvalue rfl
  exact textBetween_eq_some hs

theorem avatarUrlSchema_eq_some {value : Option String} {text : String}
    (h : avatarUrlSchema lib value = some (some text)) : hasLength 0 2048 text = true := by
  obtain ⟨s, _, hs⟩ := orAbsent_eq_some h rfl
  unfold orEmpty at hs
  split at hs
  · next url hurl =>
      cases hs
      obtain ⟨url, _, hurl⟩ := Option.bind_eq_some_iff.1 hurl
      split at hurl
      · next hbound =>
          cases hurl
          exact hbound.2
      · cases hurl
  · split at hs
    · cases hs
      decide
    · cases hs

theorem acceptedProfile {raw : RawProfile} {input : UpdateProfile}
    (h : profileMembers lib raw = some input) : AcceptedProfile input := by
  simp only [profileMembers, Option.bind_eq_bind, Option.bind_eq_some_iff] at h
  obtain ⟨username, husername, displayName, _, bio, hbio, location, hlocation, website, _,
    avatarUrl, havatar, h⟩ := h
  split at h
  · cases h
    refine ⟨fun name hname => ?_, profileText_eq_some hbio, profileText_eq_some hlocation,
      fun text htext => ?_⟩
    · obtain ⟨s, _, hs⟩ := orAbsent_eq_some husername hname
      exact usernameSchema_eq_some hs
    · obtain ⟨value, _, hvalue⟩ := orAbsent_eq_some havatar htext
      exact avatarUrlSchema_eq_some hvalue
  · cases h

end Accepted

end ArenaCore
