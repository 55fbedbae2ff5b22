import AgentPlatform.Identity.Effects

/-!
# Who owns a workspace

A workspace starts with its owner, an invitation never names an owner, and the last owner cannot be
revoked: every workspace has an active owner, whatever the operations and their order
(`workspace_owned`).
-/

namespace AgentPlatform.Identity

open Outcome Table Runs

/-- The workspace has an active owner membership. -/
def Owned (memberships : List MembershipRow) (wid : String) : Prop :=
  ∃ m ∈ memberships, m.workspace = wid ∧ m.role = .owner ∧ m.status = .active

/-- The label accepts an invitation. -/
def Label.accepts : Label → Bool
  | .acceptInvitation .. | .registerWithInvitation .. => true
  | _ => false

theorem not_founds_of_accepts {l : Label} (hl : l.accepts = true) : l.founds = false := by
  cases l <;> first | rfl | cases hl

/-- Every workspace is owned, and no invitation makes an owner. -/
structure Governed (s : State) : Prop where
  keyed : Keyed MembershipRow.key s.memberships
  owned : ∀ w ∈ s.workspaces, Owned s.memberships w.id
  invited : ∀ i ∈ s.invitations, i.role ≠ .owner

theorem governed_empty : Governed {} where
  keyed := keyed_nil _
  owned _ hw := absurd hw List.not_mem_nil
  invited _ hi := absurd hi List.not_mem_nil

section Steps

variable {H : Host} {s t : State} {l : Label} {wid uid : String}

variable {memberships : List MembershipRow}

theorem Owned.mono {memberships' : List MembershipRow} (h : Owned memberships wid)
    (hsub : ∀ m ∈ memberships, m.role = .owner → m.status = .active → m ∈ memberships') :
    Owned memberships' wid := by
  obtain ⟨m, hm, hworkspace, hrole, hactive⟩ := h
  exact ⟨m, hsub m hm hrole hactive, hworkspace, hrole, hactive⟩

variable {role : Role} {m : MembershipRow}

theorem grant_cases (hm : m ∈ grant memberships wid uid role) :
    m ∈ memberships ∧ m.key ≠ (wid, uid) ∨ m.key = (wid, uid) ∧ m.role = role := by
  unfold grant at hm
  split at hm
  · rename_i hnone
    rcases List.mem_append.1 hm with hm | hm
    · exact .inl ⟨hm, get_eq_none.1 hnone m hm⟩
    · obtain rfl := List.mem_singleton.1 hm
      exact .inr ⟨rfl, rfl⟩
  · obtain ⟨x, hx, rfl⟩ := mem_update.1 hm
    split
    · rename_i hkey
      exact .inr ⟨of_decide_eq_true hkey, rfl⟩
    · rename_i hkey
      exact .inl ⟨hx, fun h => hkey (decide_eq_true h)⟩

theorem mem_grant_of_ne (hm : m ∈ memberships) (hne : m.key ≠ (wid, uid)) :
    m ∈ grant memberships wid uid role := by
  unfold grant
  split
  · exact List.mem_append_left _ hm
  · exact mem_update_of_not hm (decide_eq_false hne)

theorem grant_keyed (h : Keyed MembershipRow.key memberships) :
    Keyed MembershipRow.key (grant memberships wid uid role) := by
  unfold grant
  split
  · rename_i hnone
    exact h.insert (get_eq_none.1 hnone)
  · exact h.update fun _ => rfl

theorem exists_other_owner (uid : String) (h : Keyed MembershipRow.key memberships)
    (howners : 1 < memberships.countP fun x =>
      decide (x.workspace = wid) && decide (x.role = .owner) && decide (x.status = .active)) :
    ∃ m ∈ memberships, m.key ≠ (wid, uid) ∧ m.workspace = wid ∧ m.role = .owner ∧
      m.status = .active := by
  by_contra hnone
  refine absurd (h.countP_le (k := (wid, uid)) fun m hm hq => ?_) (not_le.2 howners)
  simp only [Bool.and_eq_true, decide_eq_true_eq] at hq
  by_contra hne
  exact hnone ⟨m, hm, hne, hq.1.1, hq.1.2, hq.2⟩

theorem Effect.keyed (h : Effect H s l t) (hk : Keyed MembershipRow.key s.memberships) :
    Keyed MembershipRow.key t.memberships := by
  cases h with
  | users | workspaces | invited | opened | rotated | closed | read => exact hk
  | founded _ _ hm => exact hk.insert hm
  | accepted _ _ hmemberships =>
    rcases hmemberships with rfl | ⟨-, rfl⟩
    · exact hk
    · exact grant_keyed hk
  | revoked => exact hk.update fun _ => rfl

/-- An active owner membership is lost to a revocation only. -/
theorem Effect.owned (h : Effect H s l t) (hk : Keyed MembershipRow.key s.memberships)
    (ho : Owned s.memberships wid) : Owned t.memberships wid := by
  cases h with
  | users | workspaces | invited | opened | rotated | closed | read => exact ho
  | founded => exact ho.mono fun m hm _ _ => List.mem_append_left _ hm
  | accepted _ _ hmemberships =>
    rcases hmemberships with rfl | ⟨hinactive, rfl⟩
    · exact ho
    · exact ho.mono fun m hm _ hactive => mem_grant_of_ne hm fun hkey => hinactive m hm hkey hactive
  | @revoked now actor id wid' uid' m hm hkey howners p =>
    obtain ⟨x, hx, hworkspace, hrole, hactive⟩ := ho
    by_cases hxkey : x.key = (wid', uid')
    · -- the revoked membership is this owner's, so there is another owner
      obtain rfl := hk.eq_of_key hx hm (hxkey.trans hkey.symm)
      obtain ⟨y, hy, hne, hyworkspace, hyrole, hyactive⟩ :=
        exists_other_owner uid' hk (howners hrole)
      have hwid : wid' = wid := (Prod.mk.inj hxkey).1.symm.trans hworkspace
      exact ⟨y, mem_update_of_not hy (decide_eq_false hne), hyworkspace.trans hwid, hyrole, hyactive⟩
    · exact ⟨x, mem_update_of_not hx (decide_eq_false hxkey), hworkspace, hrole, hactive⟩

/-- **Every step keeps the ownership.** -/
theorem Step.governed (h : Governed s) (hs : Step H s l t) : Governed t := by
  have heffect := hs.effect h.keyed
  have hkeyed := heffect.keyed h.keyed
  have howned : ∀ {wid}, Owned s.memberships wid → Owned t.memberships wid :=
    fun ho => heffect.owned h.keyed ho
  refine ⟨hkeyed, ?_, ?_⟩
  · intro w hw
    cases heffect with
    | users | invited | accepted | revoked | opened | rotated | closed | read =>
      exact howned (h.owned w hw)
    | workspaces hids =>
      have hid := hids ▸ List.mem_map_of_mem (f := WorkspaceRow.id) hw
      obtain ⟨w', hw', hid'⟩ := List.mem_map.1 hid
      exact hid' ▸ howned (h.owned w' hw')
    | founded =>
      rcases List.mem_append.1 hw with hw | hw
      · exact howned (h.owned w hw)
      · obtain rfl := List.mem_singleton.1 hw
        exact ⟨_, List.mem_append_right _ List.mem_cons_self, rfl, rfl, rfl⟩
  · intro i hi
    cases heffect with
    | users | workspaces | founded | revoked | opened | rotated | closed | read =>
      exact h.invited i hi
    | invited hrole =>
      rcases List.mem_append.1 hi with hi | hi
      · exact h.invited i hi
      · obtain rfl := List.mem_singleton.1 hi
        exact hrole
    | accepted _ hroles =>
      have hrole := hroles ▸ List.mem_map_of_mem (f := InvitationRow.role) hi
      obtain ⟨i', hi', hrole'⟩ := List.mem_map.1 hrole
      exact hrole' ▸ h.invited i' hi'

theorem Step.owner_mem (h : Governed s) (hs : Step H s l t) (hl : l.accepts = true) (hm : m ∈ t.memberships)
    (hrole : m.role = .owner) : m ∈ s.memberships := by
  cases hs.effect h.keyed with
  | users | workspaces | invited | opened | rotated | closed | read => exact hm
  | founded hfounds =>
    rw [not_founds_of_accepts hl] at hfounds
    cases hfounds
  | accepted hi _ hmemberships =>
    rcases hmemberships with rfl | ⟨-, rfl⟩
    · exact hm
    · rcases grant_cases hm with ⟨hm, -⟩ | ⟨-, hgranted⟩
      · exact hm
      · exact absurd (hgranted.symm.trans hrole) (h.invited _ hi)
  | revoked => cases hl

end Steps

/-! ### Runs -/

section Runs

variable {H : Host} {τs : List (Transition State Label)} {s : State}

/-- **Workspaces stay owned.** In every state of every run of the directory every workspace, active or
not, has an active owner membership; and after the acceptance of an invitation every owner membership is
one there was, with the version it had. -/
theorem workspace_owned (h : Run (Step H) {} τs s) :
    (∀ w ∈ s.workspaces, Owned s.memberships w.id) ∧
    ∀ τ ∈ τs, τ.label.accepts = true → ∀ m ∈ τ.dst.memberships, m.role = .owner →
      m ∈ τ.src.memberships := by
  refine ⟨(h.invariant governed_empty fun _ _ _ => Step.governed).owned, fun τ hτ hl m hm hrole => ?_⟩
  obtain ⟨hstep, hgoverned⟩ := h.always governed_empty (fun _ _ _ => Step.governed) hτ
  exact hstep.owner_mem hgoverned hl hm hrole

/-! One workspace, whose owner invites a second user. -/

def sampleHost : Host := ⟨id, id⟩

def sampleLabels : List Label :=
  [.bootstrapIdentity "0" "dana@acme.uz" "correct horse" "Dana" "acme" "Acme",
    .createInvitation 1 "0" "invitation-token-0000" "usr_0" "acme" "lola@acme.uz" "operator" 86400,
    .registerWithInvitation 2 "1" "lola@acme.uz" "battery staple" "Lola" "invitation-token-0000"]

def sampleState (ls : List Label) : State := ls.foldl (State.after sampleHost) {}

def sampleTrace (ls : List Label) : List (Transition State Label) :=
  trace (State.after sampleHost) {} ls

theorem sample_run (ls : List Label) : Run (Step sampleHost) {} (sampleTrace ls) (sampleState ls) :=
  Run.nil.calls ls

theorem workspace_owned_sample :
    (sampleState sampleLabels).memberships.map MembershipRow.role = [.owner, .operator] ∧
    ∀ w ∈ (sampleState sampleLabels).workspaces, Owned (sampleState sampleLabels).memberships w.id :=
  ⟨by decide +kernel, (workspace_owned (sample_run sampleLabels)).1⟩

end Runs

end AgentPlatform.Identity
