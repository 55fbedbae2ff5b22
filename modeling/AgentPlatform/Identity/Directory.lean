import Mathlib.Logic.Function.Basic
import AgentPlatform.Base
import AgentPlatform.Lib.Runs
import AgentPlatform.Lib.Table

/-!
# The identity directory

`identity_store.py`: users, workspaces, memberships, invitations and sessions. Every function is one
transaction, with two exceptions: `validate_session` reads three tables one after the other, and
`register_with_invitation` looks at the invitation once before its transaction, which looks again.

What `uuid4` and `token_urlsafe` draw and what `time.time()` reads are arguments of the operation; the
keys of the tables refuse an identifier or a hash that is there already.
-/

namespace AgentPlatform.Identity

open Outcome

/-- The hash of the tokens and the case folding of the e-mail addresses. -/
structure Host where
  sha256 : String → String
  casefold : String → String

def identityError (message : String) : Err := .other "IdentityError" message

def authenticationError (message : String) : Err := .other "AuthenticationError" message

/-- The exception of a violated key. -/
def integrityError (message : String) : Err := .other "IntegrityError" message

/-- `ROLES`. -/
inductive Role
  | owner
  | operator
  | integrator
  | viewer
  deriving DecidableEq, Repr

/-- `ACCOUNT`: the workspace of a session that has none. -/
def account : String := "__account__"

inductive MembershipStatus
  | active
  | revoked
  deriving DecidableEq, Repr

/-- A row of `p_users`. -/
structure UserRow where
  id : String
  email : String
  displayName : String
  active : Bool := true

/-- A row of `p_workspaces`. -/
structure WorkspaceRow where
  id : String
  name : String
  plan : String
  active : Bool := true
  region : String

/-- A row of `p_memberships`. -/
structure MembershipRow where
  workspace : String
  user : String
  role : Role
  status : MembershipStatus
  version : ℕ

/-- The primary key of a membership. -/
def MembershipRow.key (m : MembershipRow) : String × String := (m.workspace, m.user)

/-- A row of `p_invitations`. A time of zero is `none`. -/
structure InvitationRow where
  id : String
  workspace : String
  email : String
  role : Role
  tokenHash : String
  expires : Time
  acceptedAt : Option Time := none
  revokedAt : Option Time := none
  createdBy : String

/-- A row of `p_sessions`. A `revoked_at` of zero is `none`, an empty `rotated_from` too. -/
structure SessionRow where
  id : String
  user : String
  workspace : String
  refreshHash : String
  expires : Time
  revokedAt : Option Time := none
  rotatedFrom : Option String
  family : String
  membershipVersion : ℕ

/-- Who a session speaks for; the role is `none` for an account. -/
structure Principal where
  workspace : String
  user : String
  role : Option Role
  version : ℕ

/-- Where a call of `validate_session` stands. -/
inductive Stage
  | idle
  /-- The session is read; the user is read next. -/
  | session (row : SessionRow)
  /-- The user is read; the membership is read next. -/
  | user (row : SessionRow)
  | done (result : Except Err Principal)

/-- The tables of the directory, and where every validation stands. -/
structure State where
  users : List UserRow := []
  workspaces : List WorkspaceRow := []
  memberships : List MembershipRow := []
  invitations : List InvitationRow := []
  sessions : List SessionRow := []
  validators : ℕ → Stage := fun _ => .idle

/-! ### Checks of arguments -/

def maxSessionTtl : ℤ := 30 * 86400

def minSessionTtl : ℤ := 60

def invitationTtlSeconds : ℤ := 86400

def minInvitationTtlSeconds : ℤ := 300

def maxInvitationTtlSeconds : ℤ := 604800

def lastOwnerGuard : ℕ := 1

/-- One side of an address. -/
def isAddressPart (maximum : ℕ) (part : List Char) : Bool :=
  decide (1 ≤ part.length) && decide (part.length ≤ maximum) && part.all fun c => c != '@' && !isSpace c

/-- `EMAIL_RE`. -/
def isEmail (text : String) : Bool :=
  let sides := text.toList.span fun c => c != '@'
  isAddressPart 128 sides.1 && !sides.2.isEmpty && isAddressPart 255 sides.2.tail

/-- `_email`. -/
def checkEmail (H : Host) (value : String) : Except Err String := do
  ensure (isEmail (strip value) = true ∧ value.length ≤ 320) (identityError "Invalid email")
  pure (H.casefold (strip value))

/-- `_name`. -/
def checkName (value field : String) (maximum : ℕ := 256) : Except Err String := do
  ensure (1 ≤ (strip value).length ∧ (strip value).length ≤ maximum)
    (identityError ("Invalid " ++ field))
  pure (strip value)

def isLetterOrDigit (c : Char) : Bool :=
  ('a' ≤ c && c ≤ 'z') || ('A' ≤ c && c ≤ 'Z') || ('0' ≤ c && c ≤ '9')

/-- `SLUG_RE`. -/
def isSlug (text : String) : Bool :=
  match text.toList with
  | [] => false
  | c :: rest =>
    isLetterOrDigit c && decide (1 ≤ rest.length) && decide (rest.length ≤ 63) &&
      rest.all fun c => isLetterOrDigit c || c == '_' || c == '-'

/-- `_workspace_id`. -/
def checkWorkspaceId (value : String) : Except Err String := do
  let value ← checkName value "workspace_id" 64
  ensure (2 ≤ value.length ∧ isSlug value = true) (identityError "Invalid workspace_id")
  pure value

/-- The check `_password_hash` makes. -/
def checkPassword (password : String) : Except Err Unit :=
  ensure (12 ≤ password.length ∧ password.length ≤ 256)
    (identityError "Password must have 12..256 characters")

/-- `_token_hash`. -/
def tokenHash (H : Host) (value : String) : Except Err String := do
  ensure (20 ≤ value.length ∧ value.length ≤ 256) (authenticationError "Invalid token")
  pure (H.sha256 value)

/-! ### Users, workspaces and memberships -/

/-- `_user`. -/
def activeUser (s : State) (uid : String) : Except Err UserRow :=
  match s.users.find? fun u => decide (u.id = uid) with
  | some u => if u.active then pure u else throw (authenticationError "Inactive user")
  | none => throw (authenticationError "Inactive user")

/-- `_register`. -/
def register (s : State) (hex email name : String) : Except Err (State × UserRow) := do
  let row : UserRow := ⟨"usr_" ++ hex, email, name, true⟩
  ensure (∀ u ∈ s.users, u.id ≠ row.id ∧ u.email ≠ row.email) (identityError "Account unavailable")
  pure ({ s with users := s.users ++ [row] }, row)

/-- `register_user`. -/
def registerUser (H : Host) (s : State) (hex email password name : String) :
    Except Err (State × UserRow) := do
  let email ← checkEmail H email
  let name ← checkName name "display_name"
  checkPassword password
  register s hex email name

/-- `_workspace`. -/
def workspace (s : State) (uid wid name plan region : String) :
    Except Err (State × WorkspaceRow) := do
  let _ ← activeUser s uid
  let row : WorkspaceRow := ⟨wid, name, plan, true, region⟩
  ensure ((∀ w ∈ s.workspaces, w.id ≠ wid) ∧ ∀ m ∈ s.memberships, m.key ≠ (wid, uid))
    (identityError "Workspace unavailable")
  pure ({ s with
    workspaces := s.workspaces ++ [row]
    memberships := s.memberships ++ [⟨wid, uid, .owner, .active, 1⟩] }, row)

/-- `create_workspace`. -/
def createWorkspace (s : State) (uid wid name : String) (plan : String := "starter")
    (region : String := "uz") : Except Err (State × WorkspaceRow) := do
  let wid ← checkWorkspaceId wid
  let name ← checkName name "name"
  let plan ← checkName plan "plan" 64
  let region ← checkName region "region" 32
  workspace s uid wid name plan region

/-- `bootstrap_identity`. -/
def bootstrapIdentity (H : Host) (s : State) (hex email password name wid workspaceName : String) :
    Except Err (State × UserRow) := do
  let email ← checkEmail H email
  checkPassword password
  let name ← checkName name "display_name"
  let wid ← checkWorkspaceId wid
  let workspaceName ← checkName workspaceName "workspace_name"
  ensure (s.users = []) (identityError "Already initialized")
  let (s, me) ← register s hex email name
  let (s, _) ← workspace s me.id wid workspaceName "starter" "uz"
  pure (s, me)

/-- `_membership`: an active membership of an active user in an active workspace. -/
def membership (s : State) (uid wid : String) : Option MembershipRow :=
  (Table.get MembershipRow.key (wid, uid) s.memberships).bind fun m =>
    (s.workspaces.find? fun w => decide (w.id = wid)).bind fun w =>
      (s.users.find? fun u => decide (u.id = uid)).bind fun u =>
        if m.status = .active ∧ w.active = true ∧ u.active = true then some m else none

/-- `_owner`. -/
def owner (s : State) (actor wid : String) : Except Err MembershipRow := do
  let m ← need (membership s actor wid) (authenticationError "Owner required")
  ensure (m.role = .owner) (authenticationError "Owner required")
  pure m

/-! ### Invitations -/

/-- `role in ROLES - {'owner'}`. -/
def inviteRole (role : String) : Option Role :=
  if role = "operator" then some .operator
  else if role = "integrator" then some .integrator
  else if role = "viewer" then some .viewer
  else none

/-- `create_invitation`. -/
def createInvitation (H : Host) (s : State) (now : Time) (hex raw actor wid email role : String)
    (ttlSeconds : ℤ := invitationTtlSeconds) : Except Err (State × InvitationRow) := do
  let wid ← checkWorkspaceId wid
  let email ← checkEmail H email
  let role ← need (inviteRole role) (identityError "Invalid invitation role")
  ensure (minInvitationTtlSeconds ≤ ttlSeconds ∧ ttlSeconds ≤ maxInvitationTtlSeconds)
    (identityError "Invalid expiry")
  let _ ← owner s actor wid
  let hash ← tokenHash H raw
  let row : InvitationRow :=
    { id := "inv_" ++ hex, workspace := wid, email := email, role := role, tokenHash := hash
      expires := now + seconds ttlSeconds, createdBy := actor }
  ensure (∀ i ∈ s.invitations, i.id ≠ row.id ∧ i.tokenHash ≠ row.tokenHash)
    (integrityError "UNIQUE constraint failed: p_invitations")
  pure ({ s with invitations := s.invitations ++ [row] }, row)

/-- `_invitation`. -/
def invitation (H : Host) (s : State) (now : Time) (raw email : String) :
    Except Err InvitationRow := do
  let hash ← tokenHash H raw
  let i ← need (s.invitations.find? fun i => decide (i.tokenHash = hash))
    (authenticationError "Invalid invitation")
  ensure (i.acceptedAt = none ∧ i.revokedAt = none ∧ now < i.expires ∧ i.email = email)
    (authenticationError "Invalid invitation")
  let _ ← owner s i.createdBy i.workspace
  pure i

/-- The upsert of `_accept`. -/
def grant (memberships : List MembershipRow) (wid uid : String) (role : Role) : List MembershipRow :=
  match Table.get MembershipRow.key (wid, uid) memberships with
  | none => memberships ++ [⟨wid, uid, role, .active, 1⟩]
  | some _ =>
    Table.update (fun m => decide (m.key = (wid, uid)))
      (fun m => { m with role := role, status := .active, version := m.version + 1 }) memberships

/-- `_accept`: an active membership is left alone. -/
def accept (s : State) (now : Time) (uid : String) (i : InvitationRow) : State :=
  { s with
    memberships :=
      match membership s uid i.workspace with
      | some _ => s.memberships
      | none => grant s.memberships i.workspace uid i.role
    invitations :=
      Table.update (fun x => decide (x.id = i.id)) (fun x => { x with acceptedAt := some now })
        s.invitations }

/-- `accept_invitation`. -/
def acceptInvitation (H : Host) (s : State) (now : Time) (uid raw : String) :
    Except Err (State × Option MembershipRow) := do
  let me ← activeUser s uid
  let i ← invitation H s now raw me.email
  let s := accept s now uid i
  pure (s, membership s uid i.workspace)

/-- The transaction of `register_with_invitation`. -/
def registerWithInvitation (H : Host) (s : State) (now : Time) (hex email password name raw : String) :
    Except Err (State × UserRow) := do
  let email ← checkEmail H email
  let name ← checkName name "display_name"
  checkPassword password
  let i ← invitation H s now raw email
  let (s, me) ← register s hex email name
  pure (accept s now me.id i, me)

/-- `UPDATE p_sessions SET revoked_at=now WHERE p AND revoked_at=0`. -/
def revokeSessions (now : Time) (p : SessionRow → Bool) (sessions : List SessionRow) :
    List SessionRow :=
  Table.update (fun r => p r && decide (r.revokedAt = none)) (fun r => { r with revokedAt := some now })
    sessions

/-- `revoke_membership`. -/
def revokeMembership (s : State) (now : Time) (actor wid target : String) :
    Except Err (State × Unit) := do
  let wid ← checkWorkspaceId wid
  let _ ← owner s actor wid
  let m ← need (Table.get MembershipRow.key (wid, target) s.memberships)
    (identityError "Membership not found")
  ensure (m.status = .active) (identityError "Membership not found")
  ensure (¬ (m.role = .owner ∧ s.memberships.countP (fun x =>
      decide (x.workspace = wid) && decide (x.role = .owner) && decide (x.status = .active)) ≤
        lastOwnerGuard))
    (identityError "Last owner cannot be revoked")
  pure ({ s with
    memberships := Table.update (fun x => decide (x.key = (wid, target)))
      (fun x => { x with status := .revoked, version := x.version + 1 }) s.memberships
    sessions := revokeSessions now
      (fun r => decide (r.user = target) && decide (r.workspace = wid)) s.sessions }, ())

/-! ### Sessions -/

/-- `_session_identity`. -/
def sessionIdentity (s : State) (uid wid : String) : Except Err Principal := do
  let _ ← activeUser s uid
  if wid = account then pure ⟨account, uid, none, 0⟩
  else do
    let m ← need (membership s uid wid) (authenticationError "Active membership required")
    pure ⟨m.workspace, m.user, some m.role, m.version⟩

/-- `_new_session`, with the family and the session it comes from. -/
def newSession (H : Host) (s : State) (hex raw uid wid : String) (expires : Time)
    (from? : Option SessionRow) : Except Err (State × SessionRow) := do
  let m ← sessionIdentity s uid wid
  let hash ← tokenHash H raw
  let row : SessionRow :=
    { id := "ses_" ++ hex, user := uid, workspace := wid, refreshHash := hash, expires := expires
      rotatedFrom := from?.map SessionRow.id
      family := (from?.map SessionRow.family).getD ("ses_" ++ hex), membershipVersion := m.version }
  ensure (∀ r ∈ s.sessions, r.id ≠ row.id ∧ r.refreshHash ≠ row.refreshHash)
    (integrityError "UNIQUE constraint failed: p_sessions")
  pure ({ s with sessions := s.sessions ++ [row] }, row)

/-- The check `create_session` makes of the workspace. -/
def checkSessionWorkspace (wid : String) : Except Err Unit :=
  if wid = account then pure () else (checkWorkspaceId wid).map fun _ => ()

/-- `create_session`. -/
def createSession (H : Host) (s : State) (now : Time) (hex raw uid : String) (wid : String := account)
    (ttlSeconds : ℤ := maxSessionTtl) : Except Err (State × SessionRow) := do
  ensure (minSessionTtl ≤ ttlSeconds ∧ ttlSeconds ≤ maxSessionTtl) (identityError "Invalid session TTL")
  checkSessionWorkspace wid
  newSession H s hex raw uid wid (now + seconds ttlSeconds) none

/-- What `rotate_session` does with an unrevoked row; `none` is a denial after the commit. -/
def rotateLive (H : Host) (s : State) (now : Time) (hex raw : String) (row : SessionRow) :
    Except Err (State × Option SessionRow) :=
  match (sessionIdentity s row.user row.workspace).bind fun m =>
      ensure (row.membershipVersion = m.version) (authenticationError "Membership changed") with
  | .error _ =>
    .ok ({ s with
      sessions := Table.update (fun r => decide (r.family = row.family))
        (fun r => { r with revokedAt := some now }) s.sessions }, none)
  | .ok _ => do
    let (s, new) ← newSession H
      { s with
        sessions := Table.update (fun r => decide (r.id = row.id))
          (fun r => { r with revokedAt := some now }) s.sessions }
      hex raw row.user row.workspace row.expires (some row)
    pure (s, some new)

/-- `rotate_session`: the transaction, with the new session; `none` is a denial after the commit. -/
def rotateSession (H : Host) (s : State) (now : Time) (hex raw token : String) :
    Except Err (State × Option SessionRow) := do
  let hash ← tokenHash H token
  match s.sessions.find? fun r => decide (r.refreshHash = hash) with
  | none => pure (s, none)
  | some row =>
    if row.revokedAt ≠ none ∨ row.expires ≤ now then
      pure ({ s with
        sessions := revokeSessions now (fun r => decide (r.family = row.family)) s.sessions }, none)
    else rotateLive H s now hex raw row

/-- `revoke_session`. -/
def revokeSession (H : Host) (s : State) (now : Time) (token : String) :
    Except Err (State × Unit) := do
  let hash ← tokenHash H token
  match s.sessions.find? fun r => decide (r.refreshHash = hash) with
  | none => pure (s, ())
  | some row =>
    pure ({ s with
      sessions := revokeSessions now (fun r => decide (r.family = row.family)) s.sessions }, ())

/-- `revoke_all_sessions`. -/
def revokeAllSessions (s : State) (now : Time) (uid : String) : Except Err (State × Unit) := do
  let _ ← activeUser s uid
  pure ({ s with sessions := revokeSessions now (fun r => decide (r.user = uid)) s.sessions }, ())

/-! ### Operations in any order -/

/-- One transaction, one read of `validate_session`, or a statement of an administrator. -/
inductive Label
  | registerUser (hex email password name : String)
  | createWorkspace (uid wid name plan region : String)
  | bootstrapIdentity (hex email password name wid workspaceName : String)
  | createInvitation (now : Time) (hex raw actor wid email role : String) (ttlSeconds : ℤ)
  | acceptInvitation (now : Time) (uid raw : String)
  | registerWithInvitation (now : Time) (hex email password name raw : String)
  | revokeMembership (now : Time) (actor wid target : String)
  | createSession (now : Time) (hex raw uid wid : String) (ttlSeconds : ℤ)
  | rotateSession (now : Time) (hex raw token : String)
  | revokeSession (now : Time) (token : String)
  | revokeAllSessions (now : Time) (uid : String)
  | validateSession (validator : ℕ) (now : Time) (sid uid wid : String)
  | readUser (validator : ℕ)
  | readMembership (validator : ℕ)
  /-- The status columns of a user and of a workspace, which no function here writes. -/
  | setUser (uid : String) (active : Bool)
  | setWorkspace (wid : String) (active : Bool)

namespace State

/-- Moves a validation. -/
def goto (s : State) (v : ℕ) (stage : Stage) : State :=
  { s with validators := Function.update s.validators v stage }

/-- The session a validation starts from. -/
def openSession (s : State) (now : Time) (sid uid wid : String) : Except Err SessionRow := do
  let row ← need (s.sessions.find? fun r => decide (r.id = sid) && decide (r.user = uid) &&
    decide (r.workspace = wid)) (authenticationError "Invalid session")
  ensure (row.revokedAt = none ∧ now < row.expires) (authenticationError "Invalid session")
  pure row

/-- The end of a validation. -/
def compareVersion (row : SessionRow) (m : Principal) : Except Err Principal := do
  ensure (row.membershipVersion = m.version) (authenticationError "Membership changed")
  pure m

/-- The state after a label. -/
def after (H : Host) (s : State) : Label → State
  | .registerUser hex email password name => commit s (registerUser H s hex email password name)
  | .createWorkspace uid wid name plan region => commit s (createWorkspace s uid wid name plan region)
  | .bootstrapIdentity hex email password name wid workspaceName =>
    commit s (bootstrapIdentity H s hex email password name wid workspaceName)
  | .createInvitation now hex raw actor wid email role ttlSeconds =>
    commit s (createInvitation H s now hex raw actor wid email role ttlSeconds)
  | .acceptInvitation now uid raw => commit s (acceptInvitation H s now uid raw)
  | .registerWithInvitation now hex email password name raw =>
    commit s (registerWithInvitation H s now hex email password name raw)
  | .revokeMembership now actor wid target => commit s (revokeMembership s now actor wid target)
  | .createSession now hex raw uid wid ttlSeconds =>
    commit s (createSession H s now hex raw uid wid ttlSeconds)
  | .rotateSession now hex raw token => commit s (rotateSession H s now hex raw token)
  | .revokeSession now token => commit s (revokeSession H s now token)
  | .revokeAllSessions now uid => commit s (revokeAllSessions s now uid)
  | .validateSession v now sid uid wid =>
    s.goto v (match s.openSession now sid uid wid with
      | .ok row => .session row
      | .error e => .done (.error e))
  | .readUser v =>
    match s.validators v with
    | .session row =>
      s.goto v (match activeUser s row.user with
        | .error e => .done (.error e)
        | .ok _ =>
          if row.workspace = account then .done (compareVersion row ⟨account, row.user, none, 0⟩)
          else .user row)
    | _ => s
  | .readMembership v =>
    match s.validators v with
    | .user row =>
      s.goto v (match membership s row.user row.workspace with
        | none => .done (.error (authenticationError "Active membership required"))
        | some m => .done (compareVersion row ⟨m.workspace, m.user, some m.role, m.version⟩))
    | _ => s
  | .setUser uid active =>
    { s with
      users := Table.update (fun u => decide (u.id = uid)) (fun u => { u with active := active })
        s.users }
  | .setWorkspace wid active =>
    { s with
      workspaces := Table.update (fun w => decide (w.id = wid)) (fun w => { w with active := active })
        s.workspaces }

end State

/-- One label. -/
def Step (H : Host) (s : State) (l : Label) (t : State) : Prop := t = s.after H l

end AgentPlatform.Identity
