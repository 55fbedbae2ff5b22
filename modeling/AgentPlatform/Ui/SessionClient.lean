import Mathlib.Algebra.Order.Field.Rat
import AgentPlatform.Lib.Runs

/-!
# The session client of the UI

`SessionClient` of `session-client.mjs`. Calls interleave where the code awaits: a sign-in its answer, a refresh its
answer, a request the token, then its answer, and a selection the answer of its request. One label is what runs between
two of these points; the answers come in any order, and a continuation that is ready runs whenever it does.

A token carries the session and the workspace the server issued it for. The client does not read them; they tell what
each use of a token was for.
-/

namespace AgentPlatform.Ui

/-- What the server issued tokens for: a session, and the workspace that was selected in it. -/
structure Scope where
  session : ℕ
  workspace : Option String
  deriving DecidableEq

structure Tokens where
  access : String
  refresh : String
  expiresIn : ℚ
  scope : Scope

structure Session where
  tokens : Tokens
  expiresAt : ℚ

/-- A sign-in that waits for its answer. -/
structure SignIn where
  epoch : ℕ
  register : Bool

/-- A refresh that waits for its answer. -/
structure Job where
  id : ℕ
  epoch : ℕ
  raw : Tokens

/-- The promise in `pending`: of a refresh under way, or of one that succeeded just now. -/
inductive Pending
  | flying (job : ℕ)
  | settled (tokens : Tokens)

/-- Why a request is made; a selection keeps the refresh token it replaces. -/
inductive Purpose
  | plain
  | select (workspace : String) (old : Option Tokens)

/-- Where a request stands. -/
inductive Stage
  /-- `access` returned a token. -/
  | holding (tokens : Tokens)
  | awaiting (job : ℕ)
  | sent (tokens : Tokens)
  /-- The answer to a selection was returned; `none` is no token pair. -/
  | answered (tokens : Option Tokens)

structure Task where
  id : ℕ
  epoch : ℕ
  purpose : Purpose
  stage : Stage

/-- What a token is used for. -/
inductive Kind
  | installed
  | authorised
  | refreshed
  | selected (workspace : String)
  | revoked
  deriving DecidableEq

/-- A use of a token, with what the last login, selection or logout left in effect. -/
structure Use where
  kind : Kind
  scope : Scope
  current : Option Scope
  deriving DecidableEq

/-- The client, the calls under way, and what the server issued so far. `current` and `uses` say what happened. -/
structure State where
  epoch : ℕ := 0
  session : Option Session := none
  pending : Option Pending := none
  signIns : List SignIn := []
  jobs : List Job := []
  tasks : List Task := []
  minted : ℕ := 0
  sessions : ℕ := 0
  current : Option Scope := none
  uses : List Use := []

/-- An answer of the server. -/
inductive Reply
  | tokens (access refresh : String) (expiresIn : ℚ)
  | malformed
  | failed (status : Option ℕ)

/-- A token pair that `install` takes, with what it is issued for. -/
def Reply.issue (scope : Scope) : Reply → Option Tokens
  | tokens access refresh expiresIn => if 0 < expiresIn then some ⟨access, refresh, expiresIn, scope⟩ else none
  | _ => none

namespace State

/-- `clear`. -/
def clear (s : State) : State := { s with epoch := s.epoch + 1, session := none, pending := none }

/-- `expire`. -/
def expire (s : State) (epoch : ℕ) : State := if epoch = s.epoch then s.clear else s

def use (s : State) (kind : Kind) (scope : Scope) : State :=
  { s with uses := s.uses ++ [⟨kind, scope, s.current⟩] }

/-- A refresh token is revoked, where there is one. -/
def revoke (s : State) : Option Tokens → State
  | none => s
  | some tokens => s.use .revoked tokens.scope

/-- The end of `install`, in the epoch of the tokens. -/
def install (s : State) (now : ℚ) (tokens : Tokens) : State :=
  { s with session := some ⟨tokens, now + tokens.expiresIn * 1000⟩ }

/-- A request is under way. -/
def start (s : State) (purpose : Purpose) (stage : Stage) : State :=
  { s with tasks := s.tasks ++ [⟨s.minted, s.epoch, purpose, stage⟩], minted := s.minted + 1 }

/-- A refresh begins. -/
def launch (s : State) (tokens : Tokens) : State :=
  { s.use .refreshed tokens.scope with
    jobs := s.jobs ++ [⟨s.minted, s.epoch, tokens⟩]
    pending := some (.flying s.minted)
    minted := s.minted + 1 }

/-- `request`, up to where it awaits the token: what `access` does. -/
def request (s : State) (now : ℚ) (purpose : Purpose) : State :=
  match s.session with
  | none => s
  | some session =>
    if now + 30000 < session.expiresAt then s.start purpose (.holding session.tokens)
    else
      match s.pending with
      | some (.flying job) => s.start purpose (.awaiting job)
      | some (.settled tokens) => s.start purpose (.holding tokens)
      | none => (s.launch session.tokens).start purpose (.awaiting s.minted)

/-- A task that ends. -/
def close (s : State) (id : ℕ) : State := { s with tasks := s.tasks.filter fun t => t.id ≠ id }

/-- A task that goes on. -/
def put (s : State) (task : Task) : State :=
  { s with tasks := s.tasks.map fun t => if t.id = task.id then task else t }

/-- `login` and `register`, up to their answer. -/
def signIn (s : State) (register : Bool) : State :=
  let s := s.clear
  { s with signIns := s.signIns ++ [⟨s.epoch, register⟩] }

/-- The answer to the sign-in of an epoch; a registration then asks for the workspaces. -/
def signedIn (s : State) (epoch : ℕ) (now : ℚ) (reply : Reply) : State :=
  match s.signIns.find? fun op => op.epoch = epoch with
  | none => s
  | some op =>
    let s := { s with signIns := s.signIns.filter fun op => op.epoch ≠ epoch, sessions := s.sessions + 1 }
    match reply.issue ⟨s.sessions, none⟩ with
    | some tokens =>
      if epoch = s.epoch then
        let s := { s.install now tokens with current := some tokens.scope }
        if op.register then s.request now .plain else s
      else s
    | none => s

/-- `select`, up to the answer of its request. -/
def select (s : State) (now : ℚ) (workspace : String) : State :=
  s.request now (.select workspace (s.session.map Session.tokens))

/-- `logout`. -/
def logout (s : State) : State := { s.clear with current := none }.revoke (s.session.map Session.tokens)

/-- The requests that wait for a refresh get its token. -/
def share (s : State) (id : ℕ) (tokens : Tokens) : State :=
  { s with tasks := s.tasks.map fun t =>
      match t.stage with
      | .awaiting job => if job = id then { t with stage := .holding tokens } else t
      | _ => t }

/-- The requests that wait for a refresh fail with it. -/
def abandon (s : State) (id : ℕ) : State :=
  { s with tasks := s.tasks.filter fun t => match t.stage with | .awaiting job => job ≠ id | _ => true }

/-- The promise of a refresh that succeeds. -/
def settle (s : State) (id : ℕ) (tokens : Tokens) : State :=
  match s.pending with
  | some (.flying job) => if job = id then { s with pending := some (.settled tokens) } else s
  | _ => s

/-- The answer to a refresh. -/
def refreshed (s : State) (id : ℕ) (now : ℚ) (reply : Reply) : State :=
  match s.jobs.find? fun job => job.id = id with
  | none => s
  | some job =>
    let s := { s with jobs := s.jobs.filter fun job => job.id ≠ id }
    match reply.issue job.raw.scope with
    | some tokens =>
      if job.epoch = s.epoch then
        (((s.use .installed tokens.scope).install now tokens).settle id tokens).share id tokens
      else s.abandon id
    | none => (s.expire job.epoch).abandon id

/-- `job.finally`. -/
def released (s : State) : State :=
  match s.pending with
  | some (.settled _) => { s with pending := none }
  | _ => s

/-- A request goes on with its token; `valid` says whether `send` takes its path, method and headers. -/
def resumed (s : State) (id : ℕ) (valid : Bool) : State :=
  match s.tasks.find? fun t => t.id = id with
  | some ⟨id, epoch, purpose, .holding tokens⟩ =>
    if epoch = s.epoch ∧ valid = true then (s.put ⟨id, epoch, purpose, .sent tokens⟩).use .authorised tokens.scope
    else s.close id
  | _ => s

/-- The answer to a request. -/
def answered (s : State) (id : ℕ) (reply : Reply) : State :=
  match s.tasks.find? fun t => t.id = id with
  | some ⟨id, epoch, purpose, .sent tokens⟩ =>
    match reply with
    | .failed status => (if status = some 401 then s.expire epoch else s).close id
    | reply =>
      if epoch = s.epoch then
        match purpose with
        | .plain => s.close id
        | .select workspace _ =>
          s.put ⟨id, epoch, purpose, .answered (reply.issue ⟨tokens.scope.session, some workspace⟩)⟩
      else s.close id
  | _ => s

/-- A selection goes on with its answer. -/
def selected (s : State) (id : ℕ) (now : ℚ) : State :=
  match s.tasks.find? fun t => t.id = id with
  | some ⟨_, epoch, .select workspace old, .answered (some tokens)⟩ =>
    if epoch = s.epoch then
      { ((s.use (.selected workspace) tokens.scope).install now tokens).close id with
        current := some tokens.scope }.revoke old
    else s.close id
  | some ⟨_, _, _, .answered _⟩ => s.close id
  | _ => s

end State

/-- What happens between two awaits. -/
inductive Label
  | signIn (register : Bool)
  | signedIn (epoch : ℕ) (now : ℚ) (reply : Reply)
  | request (now : ℚ)
  | select (now : ℚ) (workspace : String)
  | logout
  | refreshed (job : ℕ) (now : ℚ) (reply : Reply)
  | released
  | resumed (task : ℕ) (valid : Bool)
  | answered (task : ℕ) (reply : Reply)
  | selected (task : ℕ) (now : ℚ)

def State.after (s : State) : Label → State
  | .signIn register => s.signIn register
  | .signedIn epoch now reply => s.signedIn epoch now reply
  | .request now => s.request now .plain
  | .select now workspace => s.select now workspace
  | .logout => s.logout
  | .refreshed job now reply => s.refreshed job now reply
  | .released => s.released
  | .resumed task valid => s.resumed task valid
  | .answered task reply => s.answered task reply
  | .selected task now => s.selected task now

/-- One label. -/
def Step (s : State) (l : Label) (t : State) : Prop := t = s.after l

end AgentPlatform.Ui
