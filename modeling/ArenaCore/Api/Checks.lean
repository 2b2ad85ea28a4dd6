import ArenaCore.Api.Schemas
import ArenaCore.Store.System

/-!
# Constraints on Texts

The `CHECK` constraints of users, discussion posts and reports, and the services
that write those rows: `Profiles.update`, `Discussions.create`, `reply` and
`report`, and `AdminService.resolveReport` and `restrict`. A row that violates a
constraint is not classified, so the request fails with an internal error, and so
does one whose texts hold a NUL.

The rows of a `Community` satisfy the constraints, since the database has admitted
them. Requests come one at a time here, behind the guards of their routes; whether
the constraints hold depends on nothing that another request does meanwhile. Audit
events and constraints on identifiers are left out.

Constraints count characters, as the schemas do. But the website has no maximum,
and a URL may spell its scheme in ways that the constraint does not know.
`Request.fits` says that none of that happens, and then everything that the schemas
accept is stored, if it has no NUL.

## Main definitions

* `UserRow.constraints`, `PostRow.constraints`, `ReportRow.constraints`: The
  constraints.
* `Community`: Rows that satisfy them.
* `Request.prepare`, `Request.serve`: The services.
* `Request.fits`, `Request.storable`: Texts that the constraints know, and without
  NUL.

## Theorems

* `validated_request`: When a validated request fails.
* `unfit_requests_fail`: Accepted requests that fail.
-/

namespace ArenaCore

open Sql

variable {text : String}

/-! ### Tables -/

structure PostRow where
  id : Uuid
  problemId : Uuid
  authorId : Uuid
  parentId : Option Uuid := none
  title : Option String := none
  body : String
  status : DiscussionStatus := .visible
deriving DecidableEq

inductive ReportStatus where
  | pending
  | resolved
  | dismissed
deriving DecidableEq

def ReportDecision.reportStatus : ReportDecision → ReportStatus
  | .resolved => .resolved
  | .dismissed => .dismissed

structure ReportRow where
  id : Uuid
  postId : Uuid
  reporterId : Uuid
  reason : ReportReason
  details : Option String
  status : ReportStatus := .pending
  moderatorId : Option Uuid := none
  moderatorNote : Option String := none
  resolvedAt : Option Int := none
deriving DecidableEq

/-- `char_length(text) BETWEEN low AND high`. -/
def charsBetween (low high : Nat) (text : String) : Bool :=
  decide (low ≤ text.toList.length) && decide (text.toList.length ≤ high)

/-- The constraint on the spelling of an avatar. -/
def avatarShape (lib : TextLibrary) (text : String) : Bool :=
  "https://".toList.isPrefixOf text.toList && !text.toList.any lib.isControl

def UserRow.constraints (lib : TextLibrary) (row : UserRow) : List (String × Truth) :=
  [("User_username_format", some (isUsername row.username)),
    ("User_profile_bounds", Truth.all
      [Truth.or (isNull row.bio) (test (charsBetween 0 280) row.bio),
        Truth.or (isNull row.location) (test (charsBetween 0 100) row.location),
        Truth.or (isNull row.website) (test (charsBetween 0 2048) row.website)]),
    ("User_avatar_url_shape", Truth.or (isNull row.avatarUrl)
      (test (fun text => charsBetween 0 2048 text && avatarShape lib text) row.avatarUrl)),
    ("User_restrictionReason_length_check", Truth.or (isNull row.restrictionReason)
      (test (charsBetween 3 500) row.restrictionReason))]

def PostRow.constraints (row : PostRow) : List (String × Truth) :=
  [("DiscussionPost_shape", Truth.or
      (Truth.all [isNull row.parentId, isNotNull row.title, test (charsBetween 5 120) row.title])
      (Truth.and (isNotNull row.parentId) (isNull row.title))),
    ("DiscussionPost_body_bounds", some (charsBetween 1 4000 row.body))]

def ReportRow.constraints (row : ReportRow) : List (String × Truth) :=
  [("ContentReport_details_length_check", Truth.or (isNull row.details)
      (test (charsBetween 3 1000) row.details)),
    ("ContentReport_moderatorNote_length_check", Truth.or (isNull row.moderatorNote)
      (test (charsBetween 3 1000) row.moderatorNote)),
    ("ContentReport_resolution_check", Truth.or
      (Truth.all [some (decide (row.status = .pending)), isNull row.moderatorId,
        isNull row.resolvedAt])
      (Truth.and (some (decide (row.status ≠ .pending))) (isNotNull row.resolvedAt)))]

/-- No constraint is violated. -/
def passes (constraints : List (String × Truth)) : Bool :=
  constraints.all fun c => checks c.2

structure CatalogueEntry where
  id : Uuid
  slug : String
  /-- Whether the current version is published. -/
  published : Bool

structure WriteQuota where
  userId : Uuid
  count : Nat
  expiresAt : Int

structure Community (lib : TextLibrary) where
  users : Rows UserRow.id
  problems : List CatalogueEntry
  posts : Rows PostRow.id
  reports : Rows ReportRow.id
  quotas : Rows WriteQuota.userId
  usersPass : ∀ row ∈ users.rows, passes (row.constraints lib) = true
  postsPass : ∀ row ∈ posts.rows, passes row.constraints = true
  reportsPass : ∀ row ∈ reports.rows, passes row.constraints = true

/-! ### Services -/

/-- A request after validation, with the rows that its route names. -/
inductive Request where
  | updateProfile (input : UpdateProfile)
  | createDiscussion (slug : String) (input : CreateDiscussion)
  | reply (postId : Uuid) (body : String)
  | report (postId : Uuid) (input : ReportInput)
  | resolveReport (reportId : Uuid) (input : ResolveReport)
  | restrict (userId : Uuid) (input : RestrictionInput)
deriving DecidableEq

inductive RawRequest where
  | updateProfile (body : RawProfile)
  | createDiscussion (slug : String) (body : CreateDiscussion)
  | reply (postId : Uuid) (body : String)
  | report (postId : Uuid) (body : ReportInput)
  | resolveReport (reportId : Uuid) (body : ResolveReport)
  | restrict (userId : Uuid) (body : RawRestriction)

def RawRequest.parse (lib : TextLibrary) : RawRequest → Except UrlError (Option Request)
  | .updateProfile body => (updateProfileSchema lib body).map (·.map .updateProfile)
  | .createDiscussion slug body => .ok ((createDiscussionSchema body).map (.createDiscussion slug))
  | .reply postId body => .ok ((createDiscussionReplySchema body).map (.reply postId))
  | .report postId body => .ok ((reportSchema body).map (.report postId))
  | .resolveReport reportId body => .ok ((resolveReportInput body).map (.resolveReport reportId))
  | .restrict userId body => .ok ((restrictionInput lib body).map (.restrict userId))

def validate (lib : TextLibrary) (raw : RawRequest) : Except ApiError Request :=
  match raw.parse lib with
  | .error _ => .error internalError
  | .ok none => .error ⟨400, "INVALID_REQUEST", "Request fields are invalid.", none⟩
  | .ok (some request) => .ok request

/-- Who asks, when, and the identifier of a new row. -/
structure RequestContext where
  principal : Uuid
  now : Int
  newId : Uuid

/-- What a service is about to write. -/
inductive Write where
  | user (row : UserRow)
  | post (row : PostRow) (quota : WriteQuota)
  | newReport (row : ReportRow)
  | review (row : ReportRow) (postStatus : Option DiscussionStatus)

def Write.passes (lib : TextLibrary) : Write → Bool
  | .user row => ArenaCore.passes (row.constraints lib)
  | .post row _ => ArenaCore.passes row.constraints
  | .newReport row | .review row _ => ArenaCore.passes row.constraints

/-- `value || null`. -/
def orNull (value : Option String) : Option String :=
  value.filter fun text => decide (text ≠ "")

/-- The data of `Profiles.update`. -/
def UserRow.updated (user : UserRow) (input : UpdateProfile) : UserRow :=
  { user with
    username := input.username.getD user.username
    displayName := input.displayName.getD user.displayName
    bio := (input.bio.map orNull).getD user.bio
    location := (input.location.map orNull).getD user.location
    website := (input.website.map orNull).getD user.website
    avatarUrl := (input.avatarUrl.map orNull).getD user.avatarUrl }

def discussionNotFound : ApiError := ⟨404, "NOT_FOUND", "Discussion not found.", none⟩

/-- The texts that are written. -/
def Request.texts : Request → List String
  | .updateProfile input =>
      input.username.toList ++ input.displayName.toList ++
        [input.bio, input.location, input.website, input.avatarUrl].filterMap Option.join
  | .createDiscussion _ input => [input.title, input.body]
  | .reply _ body => [body]
  | .report _ input => input.details.toList
  | .resolveReport _ input => [input.moderatorNote]
  | .restrict _ (.suspend _ reason) | .restrict _ (.ban reason) => [reason]
  | .restrict _ .clear => []

def Request.storable (request : Request) : Bool :=
  request.texts.all Sql.storable

section Services

variable {lib : TextLibrary} (s : Community lib) (context : RequestContext)

def publishedProblem (slug : String) : Except ApiError Uuid :=
  match s.problems.find? fun problem => decide (problem.slug = slug) with
  | some problem =>
      if problem.published then .ok problem.id
      else .error ⟨404, "NOT_FOUND", "Problem not found.", none⟩
  | none => .error ⟨404, "NOT_FOUND", "Problem not found.", none⟩

/-- The problem of a post has a published version. -/
def isPublished (problemId : Uuid) : Bool :=
  s.problems.any fun problem => decide (problem.id = problemId) && problem.published

/-- The quota after one more post. -/
def nextQuota : WriteQuota :=
  match s.quotas.find context.principal with
  | none => ⟨context.principal, 1, context.now + 60000⟩
  | some quota =>
      if quota.expiresAt ≤ context.now then ⟨context.principal, 1, context.now + 60000⟩
      else ⟨context.principal, quota.count + 1, quota.expiresAt⟩

def consumeWriteQuota : Except ApiError WriteQuota :=
  if (nextQuota s context).count > 10 then
    .error ⟨429, "DISCUSSION_RATE_LIMITED", "Too many discussion posts. Try again shortly.",
      some 60⟩
  else .ok (nextQuota s context)

/-- The post that a reply or a report is about. -/
def visiblePost (postId : Uuid) (topLevel : Bool) : Except ApiError PostRow :=
  match s.posts.find postId with
  | none => .error discussionNotFound
  | some post =>
      if (topLevel = true → post.parentId = none) ∧ post.status = .visible ∧
          isPublished s post.problemId = true then .ok post
      else .error discussionNotFound

/-- A service up to what it writes. -/
def Request.prepare : Request → Except ApiError Write
  | .updateProfile input =>
      match s.users.find context.principal with
      | none => .error authenticationRequired
      | some user => .ok (.user (user.updated input))
  | .createDiscussion slug input => do
      let problemId ← publishedProblem s slug
      let quota ← consumeWriteQuota s context
      pure (.post { id := context.newId, problemId, authorId := context.principal
                    title := some input.title, body := input.body } quota)
  | .reply postId body => do
      let parent ← visiblePost s postId true
      let quota ← consumeWriteQuota s context
      pure (.post { id := context.newId, problemId := parent.problemId, parentId := some parent.id
                    authorId := context.principal, body } quota)
  | .report postId input => do
      let post ← visiblePost s postId false
      if post.authorId = context.principal then
        .error ⟨409, "SELF_REPORT_FORBIDDEN", "You cannot report your own discussion.", none⟩
      else pure (.newReport { id := context.newId, postId, reporterId := context.principal
                              reason := input.reason, details := input.details })
  | .resolveReport reportId input =>
      match s.reports.find reportId with
      | none => .error ⟨404, "NOT_FOUND", "One or more reports were not found.", none⟩
      | some row =>
          if row.status ≠ .pending then
            .error ⟨409, "REPORT_ALREADY_REVIEWED",
              "One or more reports have already been reviewed.", none⟩
          else .ok (.review { row with status := input.status.reportStatus
                                       moderatorId := some context.principal
                                       moderatorNote := some input.moderatorNote
                                       resolvedAt := some context.now } input.postStatus)
  | .restrict userId input =>
      if context.principal = userId then
        .error ⟨409, "SELF_RESTRICTION_FORBIDDEN", "You cannot restrict your own account.", none⟩
      else
        match s.users.find userId with
        | none => .error userNotFound
        | some user =>
            if user.role = .admin then
              .error ⟨409, "ADMIN_RESTRICTION_FORBIDDEN",
                "Remove administrator access before restricting this account.", none⟩
            else do
              let data ← input.data context.now
              pure (.user (data.apply user))

/-- A username that another user has. -/
def usernameTaken (row : UserRow) : Bool :=
  s.users.rows.any fun user => decide (user.username = row.username) && decide (user.id ≠ row.id)

def alreadyReported (row : ReportRow) : Bool :=
  s.reports.rows.any fun report =>
    decide (report.postId = row.postId) && decide (report.reporterId = row.reporterId)

/-- The status that a review gives to a post. -/
def PostRow.moderated (id : Uuid) (status : Option DiscussionStatus) (post : PostRow) : PostRow :=
  if post.id = id then { post with status := status.getD post.status } else post

theorem PostRow.moderated_id (id : Uuid) (status : Option DiscussionStatus) (post : PostRow) :
    (post.moderated id status).id = post.id := by
  unfold PostRow.moderated
  split <;> rfl

/-- The constraints do not mention the status. -/
theorem PostRow.moderated_constraints (id : Uuid) (status : Option DiscussionStatus)
    (post : PostRow) : (post.moderated id status).constraints = post.constraints := by
  unfold PostRow.moderated
  split <;> rfl

/-- The database first checks a row by itself, and then that it is unique. -/
def Write.commit : Write → Except ApiError (Community lib)
  | .user row =>
      if hpasses : ArenaCore.passes (row.constraints lib) = true then
        if usernameTaken s row then
          .error ⟨409, "USERNAME_TAKEN", "That username is already in use.", none⟩
        else .ok { s with
          users := s.users.replace row
          usersPass := fun user huser => by
            obtain rfl | huser := Rows.mem_replace huser
            · exact hpasses
            · exact s.usersPass user huser }
      else .error internalError
  | .post row quota =>
      if hpasses : ArenaCore.passes row.constraints = true then
        .ok { s with
          posts := s.posts.insert row
          quotas := (s.quotas.delete fun q => decide (q.userId = quota.userId)).insert quota
          postsPass := fun post hpost => by
            obtain rfl | hpost := Rows.mem_insert hpost
            · exact hpasses
            · exact s.postsPass post hpost }
      else .error internalError
  | .newReport row =>
      if hpasses : ArenaCore.passes row.constraints = true then
        if alreadyReported s row then
          .error ⟨409, "ALREADY_REPORTED", "You already reported this discussion.", none⟩
        else .ok { s with
          reports := s.reports.insert row
          reportsPass := fun report hreport => by
            obtain rfl | hreport := Rows.mem_insert hreport
            · exact hpasses
            · exact s.reportsPass report hreport }
      else .error internalError
  | .review row postStatus =>
      if hpasses : ArenaCore.passes row.constraints = true then
        .ok { s with
          reports := s.reports.replace row
          posts := s.posts.update (PostRow.moderated row.postId postStatus)
            (PostRow.moderated_id row.postId postStatus)
          postsPass := fun post hpost => by
            obtain ⟨old, hold, rfl⟩ := Rows.mem_update.1 hpost
            rw [PostRow.moderated_constraints]
            exact s.postsPass old hold
          reportsPass := fun report hreport => by
            obtain rfl | hreport := Rows.mem_replace hreport
            · exact hpasses
            · exact s.reportsPass report hreport }
      else .error internalError

def Request.serve (request : Request) : Except ApiError (Community lib) := do
  let write ← request.prepare s context
  if request.storable then write.commit s else .error internalError

/-- A request as it comes in. -/
def RawRequest.handle (raw : RawRequest) : Except ApiError (Community lib) := do
  let request ← validate lib raw
  request.serve s context

end Services

/-! ### Texts that fit -/

/-- The website is short enough, and the avatar is spelled with `https://` and has no
    control characters. -/
def Request.fits (lib : TextLibrary) : Request → Bool
  | .updateProfile input =>
      ((input.website.bind orNull).all fun text => decide (text.toList.length ≤ 2048)) &&
        (input.avatarUrl.bind orNull).all (avatarShape lib)
  | _ => true

/-- Constraints count what the schemas count. -/
theorem charsBetween_of_textBetween {low high : Nat} {s : String}
    (h : textBetween low high s = some text) : charsBetween low high text = true :=
  textBetween_eq_some h

section Passing

variable {lib : TextLibrary} {p : String → Bool} {value : Option (Option String)} {user : UserRow}
  {row : PostRow}

theorem passes_user {row : UserRow} : passes (row.constraints lib) =
    (isUsername row.username && (row.bio.all (charsBetween 0 280) &&
      (row.location.all (charsBetween 0 100) && row.website.all (charsBetween 0 2048))) &&
      row.avatarUrl.all (fun text => charsBetween 0 2048 text && avatarShape lib text) &&
      row.restrictionReason.all (charsBetween 3 500)) := by
  simp [passes, UserRow.constraints, Bool.and_assoc]

/-- A column that an input may leave as it is. -/
theorem all_getD {old : Option String} (hold : old.all p = true) (value : Option (Option String)) :
    ((value.map orNull).getD old).all p = (value.bind orNull).all p := by
  cases value with
  | none => exact hold
  | some value => rfl

theorem eq_of_bind_orNull {text : String} (h : value.bind orNull = some text) :
    value = some (some text) := by
  obtain ⟨inner, rfl, hinner⟩ := Option.bind_eq_some_iff.1 h
  rw [(Option.filter_eq_some_iff.1 hinner).1]

/-- A column whose test an accepted input always passes. -/
theorem all_of_accepted (h : ∀ text, value = some (some text) → p text = true) :
    (value.bind orNull).all p = true := by
  cases htext : value.bind orNull with
  | none => rfl
  | some text => exact h text (eq_of_bind_orNull htext)

theorem all_congr {p' : String → Bool} (h : ∀ text, value = some (some text) → p text = p' text) :
    (value.bind orNull).all p = (value.bind orNull).all p' := by
  cases htext : value.bind orNull with
  | none => rfl
  | some text => exact h text (eq_of_bind_orNull htext)

/-- A profile that has been accepted passes where its URLs fit. -/
theorem updated_passes (huser : passes (user.constraints lib) = true) {input : UpdateProfile}
    (h : AcceptedProfile input) :
    passes ((user.updated input).constraints lib) =
      (((input.website.bind orNull).all fun text => decide (text.toList.length ≤ 2048)) &&
        (input.avatarUrl.bind orNull).all (avatarShape lib)) := by
  rw [passes_user] at huser
  simp only [Bool.and_eq_true] at huser
  obtain ⟨⟨⟨husername, hbio, hlocation, hwebsite⟩, havatar⟩, hreason⟩ := huser
  have husername' : isUsername (user.updated input).username = true := by
    cases hname : input.username with
    | none => simpa only [UserRow.updated, hname, Option.getD_none] using husername
    | some name => simpa only [UserRow.updated, hname, Option.getD_some] using h.username name hname
  rw [passes_user, husername', Bool.true_and]
  have hbio' : (input.bio.bind orNull).all (charsBetween 0 280) = true :=
    all_of_accepted h.bio
  have hlocation' : (input.location.bind orNull).all (charsBetween 0 100) = true :=
    all_of_accepted h.location
  have havatar' : (input.avatarUrl.bind orNull).all
      (fun text => charsBetween 0 2048 text && avatarShape lib text) =
        (input.avatarUrl.bind orNull).all (avatarShape lib) :=
    all_congr fun text htext => by
      rw [show charsBetween 0 2048 text = true from h.avatarUrl text htext, Bool.true_and]
  simp only [UserRow.updated, all_getD hbio, all_getD hlocation, all_getD hwebsite,
    all_getD havatar, hbio', hlocation', havatar', hreason, Bool.true_and, Bool.and_true]
  rfl

theorem passes_discussion {title : String} (hparent : row.parentId = none)
    (htitle : row.title = some title) :
    passes row.constraints = (charsBetween 5 120 title && charsBetween 1 4000 row.body) := by
  simp [passes, PostRow.constraints, hparent, htitle, isNull, isNotNull, test, Truth.all,
    Truth.and_some, Truth.or_some]

theorem passes_reply {parentId : Uuid} (hparent : row.parentId = some parentId)
    (htitle : row.title = none) : passes row.constraints = charsBetween 1 4000 row.body := by
  have hshape : checks (Truth.or
      (Truth.all [isNull (some parentId), isNotNull (none : Option String),
        test (charsBetween 5 120) none])
      (Truth.and (isNotNull (some parentId)) (isNull (none : Option String)))) = true := rfl
  simp only [passes, PostRow.constraints, hparent, htitle, List.all_cons, List.all_nil, hshape,
    checks_some, Bool.true_and, Bool.and_true]

theorem restricted_passes (huser : passes (user.constraints lib) = true)
    (bannedAt suspendedUntil : Option Int) (reason : Option String) :
    passes (((UserChange.restriction bannedAt suspendedUntil reason).apply user).constraints lib) =
      reason.all (charsBetween 3 500) := by
  rw [passes_user] at huser ⊢
  simp only [Bool.and_eq_true] at huser
  obtain ⟨⟨⟨husername, hbio, hlocation, hwebsite⟩, havatar⟩, _⟩ := huser
  simp only [UserChange.apply, husername, hbio, hlocation, hwebsite, havatar, Bool.true_and]

theorem passes_report {row : ReportRow} : passes row.constraints =
    (row.details.all (charsBetween 3 1000) && row.moderatorNote.all (charsBetween 3 1000) &&
      (decide (row.status = .pending) && row.moderatorId.isNone && row.resolvedAt.isNone ||
        decide (row.status ≠ .pending) && row.resolvedAt.isSome)) := by
  have hresolution : ∀ a b c d e : Bool,
      checks (Truth.or (Truth.all [some a, some b, some c]) (Truth.and (some d) (some e))) =
        (a && b && c || d && e) := by
    decide
  simp only [passes, ReportRow.constraints, List.all_cons, List.all_nil, checks_isNull_or_test]
  simp only [isNull, isNotNull, hresolution, Bool.and_true, Bool.and_assoc]

end Passing

/-! ### Requests -/

section Requests

variable {lib : TextLibrary} (s : Community lib) (context : RequestContext) {write : Write}
  {postId : Uuid} {e : ApiError} {slug : String} {input : RestrictionInput} {request : Request}

theorem updateProfile_passes {body : RawProfile} {input : UpdateProfile}
    (h : profileMembers lib body = some input)
    (hwrite : (Request.updateProfile input).prepare s context = .ok write) :
    write.passes lib = (Request.updateProfile input).fits lib := by
  simp only [Request.prepare] at hwrite
  split at hwrite
  · cases hwrite
  · next user hfind =>
      cases hwrite
      exact updated_passes (s.usersPass user (Rows.mem_of_find hfind).1) (acceptedProfile h)

theorem createDiscussion_passes {body input : CreateDiscussion}
    (h : createDiscussionSchema body = some input)
    (hwrite : (Request.createDiscussion slug input).prepare s context = .ok write) :
    write.passes lib = (Request.createDiscussion slug input).fits lib := by
  obtain ⟨problemId, _, hwrite⟩ := Transaction.bind_eq_ok.1 hwrite
  obtain ⟨quota, _, hwrite⟩ := Transaction.bind_eq_ok.1 hwrite
  cases hwrite
  obtain ⟨title, htitle, h⟩ := Option.bind_eq_some_iff.1 h
  obtain ⟨text, htext, h⟩ := Option.bind_eq_some_iff.1 h
  cases h
  rw [Write.passes, passes_discussion rfl rfl, charsBetween_of_textBetween htitle,
    charsBetween_of_textBetween htext]
  rfl

theorem reply_passes {raw body : String} (h : createDiscussionReplySchema raw = some body)
    (hwrite : (Request.reply postId body).prepare s context = .ok write) :
    write.passes lib = (Request.reply postId body).fits lib := by
  obtain ⟨parent, _, hwrite⟩ := Transaction.bind_eq_ok.1 hwrite
  obtain ⟨quota, _, hwrite⟩ := Transaction.bind_eq_ok.1 hwrite
  cases hwrite
  rw [Write.passes, passes_reply rfl rfl, charsBetween_of_textBetween h]
  rfl

theorem report_passes {body input : ReportInput} (h : reportSchema body = some input)
    (hwrite : (Request.report postId input).prepare s context = .ok write) :
    write.passes lib = (Request.report postId input).fits lib := by
  obtain ⟨post, _, hwrite⟩ := Transaction.bind_eq_ok.1 hwrite
  split at hwrite
  · cases hwrite
  · cases hwrite
    obtain ⟨details, hdetails, h⟩ := Option.bind_eq_some_iff.1 h
    cases h
    rw [Write.passes, passes_report]
    cases details with
    | none => rfl
    | some text =>
        obtain ⟨_, _, htext⟩ := orAbsent_eq_some hdetails rfl
        simp [Request.fits, charsBetween_of_textBetween htext]

theorem resolveReport_passes {reportId : Uuid} {body input : ResolveReport}
    (h : resolveReportInput body = some input)
    (hwrite : (Request.resolveReport reportId input).prepare s context = .ok write) :
    write.passes lib = (Request.resolveReport reportId input).fits lib := by
  simp only [Request.prepare] at hwrite
  split at hwrite
  · cases hwrite
  · next row hfind =>
      split at hwrite
      · cases hwrite
      · cases hwrite
        obtain ⟨note, hnote, h⟩ := Option.bind_eq_some_iff.1 h
        cases h
        have hrow := s.reportsPass row (Rows.mem_of_find hfind).1
        rw [passes_report] at hrow
        simp only [Bool.and_eq_true] at hrow
        have hstatus : body.status.reportStatus ≠ .pending := by cases body.status <;> decide
        rw [Write.passes, passes_report]
        simp [Request.fits, hrow.1.1, hstatus, charsBetween_of_textBetween hnote]

theorem restrict_passes {userId : Uuid} {body : RawRestriction}
    (h : restrictionInput lib body = some input)
    (hwrite : (Request.restrict userId input).prepare s context = .ok write) :
    write.passes lib = (Request.restrict userId input).fits lib := by
  simp only [Request.prepare] at hwrite
  split at hwrite
  · cases hwrite
  · split at hwrite
    · cases hwrite
    · next user hfind =>
        split at hwrite
        · cases hwrite
        · obtain ⟨data, hdata, hwrite⟩ := Transaction.bind_eq_ok.1 hwrite
          cases hwrite
          have huser := s.usersPass user (Rows.mem_of_find hfind).1
          cases body with
          | clear =>
              cases h
              cases hdata
              exact restricted_passes huser none none none
          | ban reason =>
              obtain ⟨text, htext, rfl⟩ := Option.map_eq_some_iff.1 h
              cases hdata
              rw [Write.passes, restricted_passes huser]
              exact charsBetween_of_textBetween htext
          | suspend until_ reason =>
              obtain ⟨time, _, h⟩ := Option.bind_eq_some_iff.1 h
              obtain ⟨text, htext, h⟩ := Option.bind_eq_some_iff.1 h
              cases h
              simp only [RestrictionInput.data] at hdata
              split at hdata
              · cases hdata
              · cases hdata
                rw [Write.passes, restricted_passes huser]
                exact charsBetween_of_textBetween htext

/-- What is written from an accepted request passes the constraints where its texts
    fit. -/
theorem passes_eq_fits {raw : RawRequest} (h : raw.parse lib = .ok (some request))
    (hwrite : request.prepare s context = .ok write) : write.passes lib = request.fits lib := by
  cases raw with
  | updateProfile body =>
      rw [RawRequest.parse, updateProfileSchema] at h
      split at h
      · cases h
      · obtain ⟨input, hinput, rfl⟩ := Option.map_eq_some_iff.1 (Except.ok.inj h)
        exact updateProfile_passes s context hinput hwrite
  | createDiscussion slug body =>
      obtain ⟨input, hinput, rfl⟩ := Option.map_eq_some_iff.1 (Except.ok.inj h)
      exact createDiscussion_passes s context hinput hwrite
  | reply postId body =>
      obtain ⟨input, hinput, rfl⟩ := Option.map_eq_some_iff.1 (Except.ok.inj h)
      exact reply_passes s context hinput hwrite
  | report postId body =>
      obtain ⟨input, hinput, rfl⟩ := Option.map_eq_some_iff.1 (Except.ok.inj h)
      exact report_passes s context hinput hwrite
  | resolveReport reportId body =>
      obtain ⟨input, hinput, rfl⟩ := Option.map_eq_some_iff.1 (Except.ok.inj h)
      exact resolveReport_passes s context hinput hwrite
  | restrict userId body =>
      obtain ⟨input, hinput, rfl⟩ := Option.map_eq_some_iff.1 (Except.ok.inj h)
      exact restrict_passes s context hinput hwrite

/-! ### Failures -/

theorem publishedProblem_error (h : publishedProblem s slug = .error e) : e ≠ internalError := by
  unfold publishedProblem at h
  split at h
  · split at h
    · cases h
    · cases h
      decide
  · cases h
    decide

theorem consumeWriteQuota_error (h : consumeWriteQuota s context = .error e) :
    e ≠ internalError := by
  unfold consumeWriteQuota at h
  split at h
  · cases h
    decide
  · cases h

theorem visiblePost_error {topLevel : Bool} (h : visiblePost s postId topLevel = .error e) :
    e ≠ internalError := by
  unfold visiblePost at h
  split at h
  · cases h
    decide
  · split at h
    · cases h
    · cases h
      decide

theorem restriction_error {now : Int} (h : input.data now = .error e) : e ≠ internalError := by
  cases input with
  | clear | ban => cases h
  | suspend until_ reason =>
      simp only [RestrictionInput.data] at h
      split at h
      · cases h
        decide
      · cases h

/-- What a service refuses is classified. -/
theorem prepare_error (h : request.prepare s context = .error e) : e ≠ internalError := by
  cases request with
  | updateProfile input =>
      simp only [Request.prepare] at h
      split at h
      · cases h
        decide
      · cases h
  | createDiscussion slug input =>
      obtain h | ⟨_, _, h⟩ := Transaction.bind_eq_error.1 h
      · exact publishedProblem_error s h
      · obtain h | ⟨_, _, h⟩ := Transaction.bind_eq_error.1 h
        · exact consumeWriteQuota_error s context h
        · cases h
  | reply postId body =>
      obtain h | ⟨_, _, h⟩ := Transaction.bind_eq_error.1 h
      · exact visiblePost_error s h
      · obtain h | ⟨_, _, h⟩ := Transaction.bind_eq_error.1 h
        · exact consumeWriteQuota_error s context h
        · cases h
  | report postId input =>
      obtain h | ⟨_, _, h⟩ := Transaction.bind_eq_error.1 h
      · exact visiblePost_error s h
      · split at h
        · cases h
          decide
        · cases h
  | resolveReport reportId input =>
      simp only [Request.prepare] at h
      split at h
      · cases h
        decide
      · split at h
        · cases h
          decide
        · cases h
  | restrict userId input =>
      simp only [Request.prepare] at h
      split at h
      · cases h
        decide
      · split at h
        · cases h
          decide
        · split at h
          · cases h
            decide
          · obtain h | ⟨_, _, h⟩ := Transaction.bind_eq_error.1 h
            · exact restriction_error h
            · cases h

/-- A row that violates a constraint, and nothing else, is an internal error. -/
theorem commit_fails_iff : write.commit s = .error internalError ↔ write.passes lib = false := by
  have hneq : ∀ {status : Nat} {code message : String}, code ≠ internalError.code →
      (Except.error (⟨status, code, message, none⟩ : ApiError) : Except ApiError (Community lib)) ≠
        .error internalError := by
    rintro status code message hcode ⟨⟩
    exact hcode rfl
  cases write with
  | user row | newReport row =>
      rw [Write.commit, Write.passes]
      split
      · next hpasses =>
          rw [hpasses]
          split
          · exact iff_of_false (hneq (by decide)) (by decide)
          · exact iff_of_false (by rintro ⟨⟩) (by decide)
      · next hpasses => exact iff_of_true rfl (Bool.not_eq_true _ ▸ hpasses)
  | post row quota | review row postStatus =>
      rw [Write.commit, Write.passes]
      split
      · next hpasses =>
          rw [hpasses]
          exact iff_of_false (by rintro ⟨⟩) (by decide)
      · next hpasses => exact iff_of_true rfl (Bool.not_eq_true _ ▸ hpasses)

end Requests

/-- A request that has been validated writes a row that satisfies the constraints
    where its texts fit, and fails without a class where they do not, or hold a NUL. -/
theorem validated_request (lib : TextLibrary) (s : Community lib) (context : RequestContext)
    (raw : RawRequest) (request : Request) (h : validate lib raw = .ok request) :
    (∀ write, request.prepare s context = .ok write →
      (write.passes lib = true ↔ request.fits lib = true)) ∧
    (request.serve s context = .error internalError ↔
      (∃ write, request.prepare s context = .ok write) ∧
        (request.fits lib && request.storable) = false) := by
  have hparse : raw.parse lib = .ok (some request) := by
    unfold validate at h
    split at h
    · cases h
    · cases h
    · next request' hparse =>
        cases h
        exact hparse
  refine ⟨fun write hwrite => by rw [passes_eq_fits s context hparse hwrite], ?_, ?_⟩
  · intro hserve
    obtain herror | ⟨write, hwrite, hcommit⟩ := Transaction.bind_eq_error.1 hserve
    · exact absurd rfl (prepare_error s context herror)
    · refine ⟨⟨write, hwrite⟩, ?_⟩
      rw [← passes_eq_fits s context hparse hwrite]
      split at hcommit
      · rw [(commit_fails_iff s).1 hcommit, Bool.false_and]
      · next hnul => rw [Bool.eq_false_of_not_eq_true hnul, Bool.and_false]
  · rintro ⟨⟨write, hwrite⟩, hfits⟩
    rw [← passes_eq_fits s context hparse hwrite] at hfits
    rw [Request.serve, hwrite]
    change (if request.storable = true then write.commit s else .error internalError) = _
    split
    · next hstorable =>
        rw [hstorable, Bool.and_true] at hfits
        exact (commit_fails_iff s).2 hfits
    · rfl

/-! ### Samples -/

def failsInternally {α : Type} : Except ApiError α → Bool
  | .error e => decide (e = internalError)
  | .ok _ => false

namespace Sample

/-- A text without tabs and line breaks. -/
def stripped (text : String) : String :=
  String.ofList (text.toList.filter fun c => !(['\t', '\n', '\r'].contains c))

/-- As `new URL` does, the two schemes are taken in any case, with slashes or without,
    and something has to follow. -/
def protocol (text : String) : Option String :=
  let chars := (stripped text).toList.map Char.toLower
  ["http:", "https:"].find? fun scheme =>
    scheme.toList.isPrefixOf chars && (chars.drop scheme.toList.length).any (· != '/')

def textLibrary : TextLibrary where
  toLowerCase := id
  url text := (protocol (trim text)).map fun _ => stripped (trim text)
  protocol := protocol
  datetime _ := none
  isControl c := decide (c.toNat < 32)

def writer : UserRow :=
  { id := owner, issuer := "arenacore:password", subject := "ada@example.com", username := "ada"
    displayName := "Ada", createdAt := 0 }

def troll : UserRow :=
  { id := execution, issuer := "arenacore:password", subject := "eve@example.com"
    username := "eve", displayName := "Eve", createdAt := 0 }

def trollPost : PostRow :=
  { id := versionId, problemId := problem, authorId := execution, title := some "First post"
    body := "First" }

def pendingReport : ReportRow :=
  { id := token, postId := versionId, reporterId := execution, reason := .spam, details := none }

theorem users_pass : ∀ row ∈ [writer, troll], passes (row.constraints textLibrary) = true := by
  decide +kernel

theorem posts_pass : ∀ row ∈ [trollPost], passes row.constraints = true := by
  decide +kernel

theorem reports_pass : ∀ row ∈ [pendingReport], passes row.constraints = true := by
  decide +kernel

theorem writer_ne_troll : ([writer, troll].map UserRow.id).Nodup := by
  decide +kernel

def community : Community textLibrary where
  users := ⟨[writer, troll], writer_ne_troll⟩
  problems := [⟨problem, "two-sum", true⟩]
  posts := ⟨[trollPost], List.nodup_singleton _⟩
  reports := ⟨[pendingReport], List.nodup_singleton _⟩
  quotas := {}
  usersPass := users_pass
  postsPass := posts_pass
  reportsPass := reports_pass

def asWriter : RequestContext := ⟨owner, 0, hiddenCase⟩

/-- Avatars whose scheme is in upper case or has no slashes. -/
def unfit : List RawRequest :=
  [.updateProfile { avatarUrl := some (some "HTTPS://example.com/ada.png") },
    .updateProfile { avatarUrl := some (some "https:example.com/ada.png") }]

def fit : RawRequest :=
  .updateProfile { bio := some (some "  😀  ")
                   avatarUrl := some (some " https://example.com/ada.png ") }

end Sample

theorem validated_request_fit :
    ∃ request, validate Sample.textLibrary Sample.fit = .ok request ∧
      (request.fits Sample.textLibrary && request.storable) = true ∧
      ¬ request.serve Sample.community Sample.asWriter = .error internalError := by
  refine ⟨.updateProfile ⟨none, none, some (some "😀"), none, none,
      some (some "https://example.com/ada.png")⟩,
    by decide +kernel, by decide +kernel, fun h => ?_⟩
  have hfits := ((validated_request Sample.textLibrary Sample.community Sample.asWriter Sample.fit _
    (by decide +kernel)).2.1 h).2
  exact absurd hfits (by decide +kernel)

/-- Every one of these is accepted and fails without a class. -/
theorem unfit_requests_fail :
    (Sample.unfit.all fun raw => (validate Sample.textLibrary raw).isOk &&
      failsInternally (raw.handle Sample.community Sample.asWriter)) = true := by
  decide +kernel

-- An empty website never gets as far: `new URL` throws.
example : failsInternally (validate Sample.textLibrary
    (.updateProfile { website := some (some "") })) = true := by
  decide +kernel

end ArenaCore
