import AgentPlatform.Identity.Directory

/-!
# What an operation of the directory can do

Every label has one of the effects below (`Step.effect`): the tables it changes, with the facts its
checks established.
-/

namespace AgentPlatform.Identity

open Outcome Table

/-- The labels that make a workspace. -/
def Label.founds : Label → Bool
  | .createWorkspace .. | .bootstrapIdentity .. => true
  | _ => false

/-- The sessions after those that `p` selects are revoked. -/
def close (now : Time) (p : SessionRow → Bool) (sessions : List SessionRow) : List SessionRow :=
  Table.update p (fun r => { r with revokedAt := some now }) sessions

/-- What a label can do. -/
inductive Effect (H : Host) (s : State) : Label → State → Prop
  | users {l : Label} (users : List UserRow) : Effect H s l { s with users := users }
  | workspaces {l : Label} {workspaces : List WorkspaceRow}
      (hids : workspaces.map WorkspaceRow.id = s.workspaces.map WorkspaceRow.id) :
      Effect H s l { s with workspaces := workspaces }
  | founded {l : Label} {users : List UserRow} {w : WorkspaceRow} {uid : String} (hl : l.founds = true)
      (hw : ∀ x ∈ s.workspaces, x.id ≠ w.id) (hm : ∀ m ∈ s.memberships, m.key ≠ (w.id, uid)) :
      Effect H s l { s with
        users := users
        workspaces := s.workspaces ++ [w]
        memberships := s.memberships ++ [⟨w.id, uid, .owner, .active, 1⟩] }
  | invited {l : Label} {i : InvitationRow} (hrole : i.role ≠ .owner) :
      Effect H s l { s with invitations := s.invitations ++ [i] }
  | accepted {l : Label} {users : List UserRow} {invitations : List InvitationRow} {i : InvitationRow}
      {uid : String} {memberships : List MembershipRow} (hi : i ∈ s.invitations)
      (hroles : invitations.map InvitationRow.role = s.invitations.map InvitationRow.role)
      (hmemberships : memberships = s.memberships ∨
        (∀ m ∈ s.memberships, m.key = (i.workspace, uid) → m.status ≠ .active) ∧
          memberships = grant s.memberships i.workspace uid i.role) :
      Effect H s l { s with
        users := users, memberships := memberships, invitations := invitations }
  | revoked {now : Time} {actor id wid uid : String} {m : MembershipRow} (hm : m ∈ s.memberships)
      (hkey : m.key = (wid, uid))
      (howners : m.role = .owner → 1 < s.memberships.countP fun x =>
        decide (x.workspace = wid) && decide (x.role = .owner) && decide (x.status = .active))
      (p : SessionRow → Bool) :
      Effect H s (.revokeMembership now actor id uid) { s with
        memberships := Table.update (fun x => decide (x.key = (wid, uid)))
          (fun x => { x with status := .revoked, version := x.version + 1 }) s.memberships
        sessions := close now p s.sessions }
  | opened {l : Label} {row : SessionRow} {m : Principal}
      (hidentity : sessionIdentity s row.user row.workspace = .ok m)
      (hversion : row.membershipVersion = m.version)
      (hfresh : ∀ r ∈ s.sessions, r.id ≠ row.id ∧ r.refreshHash ≠ row.refreshHash)
      (hfamily : row.family = row.id) (hfrom : row.rotatedFrom = none) :
      Effect H s l { s with sessions := s.sessions ++ [row] }
  | rotated {l : Label} {now : Time} {row new : SessionRow} {m : Principal} (hrow : row ∈ s.sessions)
      (hlive : row.revokedAt = none) (hidentity : sessionIdentity s new.user new.workspace = .ok m)
      (hversion : new.membershipVersion = m.version)
      (hfresh : ∀ r ∈ s.sessions, r.id ≠ new.id ∧ r.refreshHash ≠ new.refreshHash)
      (hfamily : new.family = row.family) (hfrom : new.rotatedFrom = some row.id) :
      Effect H s l { s with
        sessions := close now (fun r => decide (r.id = row.id)) s.sessions ++ [new] }
  | closed {l : Label} (now : Time) (p : SessionRow → Bool) :
      Effect H s l { s with sessions := close now p s.sessions }
  | read {l : Label} (v : ℕ) {stage : Stage}
      (hsession : ∀ row, stage = .session row → row ∈ s.sessions)
      (huser : ∀ row, stage = .user row → row.workspace ≠ account ∧ s.validators v = .session row) :
      Effect H s l (s.goto v stage)

section Operations

variable {H : Host} {s t : State} {l : Label} {now : Time} {uid wid : String}

theorem Effect.same : Effect H s l s := .users s.users

variable {u : UserRow}

theorem activeUser_eq_ok (h : activeUser s uid = .ok u) :
    s.users.find? (fun u => decide (u.id = uid)) = some u ∧ u.active = true := by
  unfold activeUser at h
  split at h
  · rename_i u' hu
    split at h
    · rename_i hactive
      obtain rfl := pure_eq_ok.1 h
      exact ⟨hu, hactive⟩
    · simp at h
  · simp at h

variable {m : MembershipRow}

theorem membership_eq_some (h : membership s uid wid = some m) :
    Table.get MembershipRow.key (wid, uid) s.memberships = some m ∧ m.status = .active ∧
      ∃ w, s.workspaces.find? (fun w => decide (w.id = wid)) = some w ∧ w.active = true := by
  simp only [membership, Option.bind_eq_some_iff] at h
  obtain ⟨m', hm, w, hw, u, hu, h⟩ := h
  split at h
  · rename_i hactive
    obtain rfl := Option.some.inj h
    exact ⟨hm, hactive.1, w, hw, hactive.2.1⟩
  · cases h

theorem not_active_of_membership_eq_none {w : WorkspaceRow} (hk : Keyed MembershipRow.key s.memberships)
    (h : membership s uid wid = none)
    (hu : s.users.find? (fun u => decide (u.id = uid)) = some u ∧ u.active = true)
    (hw : s.workspaces.find? (fun w => decide (w.id = wid)) = some w ∧ w.active = true)
    (hm : m ∈ s.memberships) (hkey : m.key = (wid, uid)) : m.status ≠ .active := by
  intro hactive
  have hget := hk.get_eq hm hkey
  simp [membership, hget, hu.1, hw.1, hactive, hu.2, hw.2] at h

variable {hex : String}

theorem register_eq_ok {email name : String} {me : UserRow} (h : register s hex email name = .ok (t, me)) :
    t = { s with users := s.users ++ [me] } ∧ me.active = true ∧ ∀ u ∈ s.users, u.id ≠ me.id := by
  simp only [register, bind_eq_ok, exists_unit, ensure_eq_ok, pure_eq_ok, Prod.mk.injEq] at h
  obtain ⟨hfresh, rfl, rfl⟩ := h
  exact ⟨rfl, rfl, fun u hu => (hfresh u hu).1⟩

theorem find_registered {users : List UserRow} {me : UserRow} (hfresh : ∀ u ∈ users, u.id ≠ me.id) :
    (users ++ [me]).find? (fun u => decide (u.id = me.id)) = some me := by
  rw [List.find?_append, List.find?_eq_none.2 fun u hu => by simpa using hfresh u hu]
  simp

theorem workspace_eq_ok {name plan region : String} {w : WorkspaceRow}
    (h : workspace s uid wid name plan region = .ok (t, w)) :
    t = { s with
      workspaces := s.workspaces ++ [w]
      memberships := s.memberships ++ [⟨w.id, uid, .owner, .active, 1⟩] } ∧
    (∀ x ∈ s.workspaces, x.id ≠ w.id) ∧ ∀ m ∈ s.memberships, m.key ≠ (w.id, uid) := by
  simp only [workspace, bind_eq_ok, exists_unit, ensure_eq_ok, pure_eq_ok, Prod.mk.injEq] at h
  obtain ⟨u, -, hfresh, rfl, rfl⟩ := h
  exact ⟨rfl, hfresh.1, hfresh.2⟩

theorem owner_eq_ok (h : owner s uid wid = .ok m) : membership s uid wid = some m ∧ m.role = .owner := by
  simp only [owner, bind_eq_ok, exists_unit, need_eq_ok, ensure_eq_ok, pure_eq_ok] at h
  obtain ⟨m', hm, hrole, rfl⟩ := h
  exact ⟨hm, hrole⟩

theorem inviteRole_ne_owner {text : String} {role : Role} (h : inviteRole text = some role) :
    role ≠ .owner := by
  unfold inviteRole at h
  split_ifs at h <;> cases h <;> simp

variable {raw : String}

theorem invitation_eq_ok {email : String} {i : InvitationRow} (h : invitation H s now raw email = .ok i) :
    i ∈ s.invitations ∧
      ∃ w, s.workspaces.find? (fun w => decide (w.id = i.workspace)) = some w ∧ w.active = true := by
  simp only [invitation, bind_eq_ok, exists_unit, need_eq_ok, ensure_eq_ok, pure_eq_ok] at h
  obtain ⟨hash, -, i', hi, -, m, hm, rfl⟩ := h
  exact ⟨List.mem_of_find?_eq_some hi, (membership_eq_some (owner_eq_ok hm).1).2.2⟩

/-- The effect of `_accept` of an active user. -/
theorem Effect.accept {users : List UserRow} {i : InvitationRow} (hk : Keyed MembershipRow.key s.memberships)
    (hi : i ∈ s.invitations)
    (hw : ∃ w, s.workspaces.find? (fun w => decide (w.id = i.workspace)) = some w ∧ w.active = true)
    (hu : users.find? (fun u => decide (u.id = uid)) = some u ∧ u.active = true) :
    Effect H s l (Identity.accept { s with users := users } now uid i) := by
  obtain ⟨w, hw⟩ := hw
  refine @Effect.accepted _ _ _ _ _ _ uid _ hi (map_update fun _ _ _ => rfl) ?_
  split
  · exact .inl rfl
  · rename_i hnone
    exact .inr ⟨fun m hm hkey => not_active_of_membership_eq_none (s := { s with users := users }) hk
      hnone hu hw hm hkey, rfl⟩

theorem newSession_eq_ok {expires : Time} {from? : Option SessionRow} {row : SessionRow}
    (h : newSession H s hex raw uid wid expires from? = .ok (t, row)) :
    t = { s with sessions := s.sessions ++ [row] } ∧
      (∃ m, sessionIdentity s row.user row.workspace = .ok m ∧ row.membershipVersion = m.version) ∧
      (∀ r ∈ s.sessions, r.id ≠ row.id ∧ r.refreshHash ≠ row.refreshHash) ∧
      row.family = (from?.map SessionRow.family).getD row.id ∧
      row.rotatedFrom = from?.map SessionRow.id := by
  simp only [newSession, bind_eq_ok, exists_unit, ensure_eq_ok, pure_eq_ok, Prod.mk.injEq] at h
  obtain ⟨m, hm, hash, -, hfresh, rfl, rfl⟩ := h
  exact ⟨rfl, ⟨m, hm, rfl⟩, hfresh, rfl, rfl⟩

theorem forall_mem_close {p : SessionRow → Bool} {q : SessionRow → Prop} {sessions : List SessionRow}
    (hq : ∀ r : SessionRow, q { r with revokedAt := some now } → q r)
    (h : ∀ r ∈ close now p sessions, q r) : ∀ r ∈ sessions, q r := by
  intro r hr
  by_cases hp : p r = true
  · exact hq r (h _ (mem_update_of_pos hr hp))
  · exact h r (mem_update_of_not hr (by simpa using hp))

theorem rotateLive_effect {row : SessionRow} {new? : Option SessionRow} (hrow : row ∈ s.sessions)
    (hlive : row.revokedAt = none) (h : rotateLive H s now hex raw row = .ok (t, new?)) : Effect H s l t := by
  unfold rotateLive at h
  split at h
  · cases h
    exact .closed now fun r => decide (r.family = row.family)
  · simp only [bind_eq_ok, pure_eq_ok, Prod.mk.injEq] at h
    obtain ⟨⟨t', new⟩, hnew, rfl, -⟩ := h
    obtain ⟨rfl, ⟨m, hm, hversion⟩, hfresh, hfamily, hfrom⟩ := newSession_eq_ok hnew
    refine .rotated hrow hlive hm hversion ?_ hfamily hfrom
    exact forall_mem_close (fun _ h => h) hfresh

/-- **What a step can do.** -/
theorem Step.effect (hk : Keyed MembershipRow.key s.memberships) (h : Step H s l t) : Effect H s l t := by
  obtain rfl := h
  have hsame : Effect H s l s := .same
  delta State.after
  cases l with
  | registerUser hex email password name =>
    dsimp only
    refine commit_keeps (p := Effect H s _) hsame fun t me hx => ?_
    simp only [registerUser, bind_eq_ok, exists_unit] at hx
    obtain ⟨email', -, name', -, -, hx⟩ := hx
    obtain ⟨rfl, -⟩ := register_eq_ok hx
    exact .users _
  | createWorkspace uid wid name plan region =>
    dsimp only
    refine commit_keeps (p := Effect H s _) hsame fun t w hx => ?_
    simp only [createWorkspace, bind_eq_ok] at hx
    obtain ⟨wid', -, name', -, plan', -, region', -, hx⟩ := hx
    obtain ⟨rfl, hw, hm⟩ := workspace_eq_ok hx
    exact .founded rfl hw hm
  | bootstrapIdentity hex email password name wid workspaceName =>
    dsimp only
    refine commit_keeps (p := Effect H s _) hsame fun t me hx => ?_
    simp only [bootstrapIdentity, bind_eq_ok, exists_unit, pure_eq_ok, Prod.mk.injEq] at hx
    obtain ⟨email', -, -, name', -, wid', -, workspaceName', -, -, ⟨s₁, me₁⟩, hregister, ⟨s₂, w⟩,
      hworkspace, rfl, -⟩ := hx
    obtain ⟨rfl, -⟩ := register_eq_ok hregister
    obtain ⟨rfl, hw, hm⟩ := workspace_eq_ok hworkspace
    exact .founded rfl hw hm
  | createInvitation now hex raw actor wid email role ttlSeconds =>
    dsimp only
    refine commit_keeps (p := Effect H s _) hsame fun t i hx => ?_
    simp only [createInvitation, bind_eq_ok, exists_unit, need_eq_ok, ensure_eq_ok, pure_eq_ok,
      Prod.mk.injEq] at hx
    obtain ⟨wid', -, email', -, role', hrole, -, m, -, hash, -, -, rfl, -⟩ := hx
    exact .invited (inviteRole_ne_owner hrole)
  | acceptInvitation now uid raw =>
    dsimp only
    refine commit_keeps (p := Effect H s _) hsame fun t m hx => ?_
    simp only [acceptInvitation, bind_eq_ok, pure_eq_ok, Prod.mk.injEq] at hx
    obtain ⟨me, hme, i, hi, rfl, -⟩ := hx
    obtain ⟨hmem, hw⟩ := invitation_eq_ok hi
    exact .accept hk hmem hw (activeUser_eq_ok hme)
  | registerWithInvitation now hex email password name raw =>
    dsimp only
    refine commit_keeps (p := Effect H s _) hsame fun t me hx => ?_
    simp only [registerWithInvitation, bind_eq_ok, exists_unit, pure_eq_ok, Prod.mk.injEq] at hx
    obtain ⟨email', -, name', -, -, i, hi, ⟨s₁, me₁⟩, hregister, rfl, -⟩ := hx
    obtain ⟨hmem, hw⟩ := invitation_eq_ok hi
    obtain ⟨rfl, hactive, hfresh⟩ := register_eq_ok hregister
    exact .accept hk hmem hw ⟨find_registered hfresh, hactive⟩
  | revokeMembership now actor wid target =>
    dsimp only
    refine commit_keeps (p := Effect H s _) hsame fun t u hx => ?_
    simp only [revokeMembership, bind_eq_ok, exists_unit, need_eq_ok, ensure_eq_ok, pure_eq_ok,
      Prod.mk.injEq] at hx
    obtain ⟨wid', -, o, -, m, hm, -, howners, rfl, -⟩ := hx
    refine .revoked (mem_of_get hm) (key_of_get hm) (fun hrole => ?_) _
    exact not_le.1 fun hle => howners ⟨hrole, hle⟩
  | createSession now hex raw uid wid ttlSeconds =>
    dsimp only
    refine commit_keeps (p := Effect H s _) hsame fun t row hx => ?_
    simp only [createSession, bind_eq_ok, exists_unit] at hx
    obtain ⟨-, -, hx⟩ := hx
    obtain ⟨rfl, ⟨m, hm, hversion⟩, hfresh, hfamily, hfrom⟩ := newSession_eq_ok hx
    exact .opened hm hversion hfresh hfamily hfrom
  | rotateSession now hex raw token =>
    dsimp only
    refine commit_keeps (p := Effect H s _) hsame fun t new? hx => ?_
    simp only [rotateSession, bind_eq_ok] at hx
    obtain ⟨hash, -, hx⟩ := hx
    split at hx
    · obtain ⟨rfl, -⟩ := Prod.mk.inj (pure_eq_ok.1 hx)
      exact hsame
    · rename_i row hrow
      split at hx
      · obtain ⟨rfl, -⟩ := Prod.mk.inj (pure_eq_ok.1 hx)
        exact .closed now _
      · rename_i hlive
        exact rotateLive_effect (List.mem_of_find?_eq_some hrow) (by tauto) hx
  | revokeSession now token =>
    dsimp only
    refine commit_keeps (p := Effect H s _) hsame fun t u hx => ?_
    simp only [revokeSession, bind_eq_ok] at hx
    obtain ⟨hash, -, hx⟩ := hx
    split at hx
    · obtain ⟨rfl, -⟩ := Prod.mk.inj (pure_eq_ok.1 hx)
      exact hsame
    · obtain ⟨rfl, -⟩ := Prod.mk.inj (pure_eq_ok.1 hx)
      exact .closed now _
  | revokeAllSessions now uid =>
    dsimp only
    refine commit_keeps (p := Effect H s _) hsame fun t u hx => ?_
    simp only [revokeAllSessions, bind_eq_ok, pure_eq_ok, Prod.mk.injEq] at hx
    obtain ⟨u', -, rfl, -⟩ := hx
    exact .closed now _
  | validateSession v now sid uid wid =>
    refine .read v ?_ ?_
    · intro row hrow
      split at hrow
      · rename_i row' hopen
        obtain rfl := Stage.session.inj hrow
        simp only [State.openSession, bind_eq_ok, exists_unit, need_eq_ok, pure_eq_ok] at hopen
        obtain ⟨row'', hfind, -, rfl⟩ := hopen
        exact List.mem_of_find?_eq_some hfind
      · cases hrow
    · intro row hrow
      split at hrow <;> cases hrow
  | readUser v =>
    dsimp only
    split
    · rename_i row hv
      refine .read v ?_ ?_
      · intro row' hrow
        split at hrow
        · cases hrow
        · split at hrow <;> cases hrow
      · intro row' hrow
        split at hrow
        · cases hrow
        · split at hrow
          · cases hrow
          · rename_i hne
            obtain rfl := Stage.user.inj hrow
            exact ⟨hne, hv⟩
    · exact hsame
  | readMembership v =>
    dsimp only
    split
    · refine .read v ?_ ?_
      · intro row' hrow
        split at hrow <;> cases hrow
      · intro row' hrow
        split at hrow <;> cases hrow
    · exact hsame
  | setUser uid active => exact .users _
  | setWorkspace wid active => exact .workspaces (map_update fun _ _ _ => rfl)

end Operations

end AgentPlatform.Identity
