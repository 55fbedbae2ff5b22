import AgentPlatform.Identity.Ownership

/-!
# Session families

A session family is fenced three ways: a rotation revokes the session it replaces, a replayed token
revokes the family, and a session carries the version its membership had when it was issued.
`Fenced` is the invariant, and `sessions_fenced` what follows for runs: at most one live session in a
family, no live session in a family whose token was replayed, and no validation of a session issued
before its membership was revoked.
-/

namespace AgentPlatform.Identity

open Outcome Table Runs

/-- What no operation changes of a session. -/
def SessionRow.origin (r : SessionRow) :
    String × String × String × String × String × Option String × ℕ :=
  (r.id, r.user, r.workspace, r.refreshHash, r.family, r.rotatedFrom, r.membershipVersion)

/-- The session a validation has read. -/
def Stage.row? : Stage → Option SessionRow
  | .session row | .user row => some row
  | _ => none

/-- A session came from this one. -/
def Rotated (s : State) (row : SessionRow) : Prop := ∃ r ∈ s.sessions, r.rotatedFrom = some row.id

/-- No session of the family is live, now or later: the family is not a new one. -/
def Closed (s : State) (family : String) : Prop :=
  (∃ r ∈ s.sessions, r.id = family) ∧ ∀ r ∈ s.sessions, r.family = family → r.revokedAt ≠ none

/-- The session is in the table, and its membership has gone on to a later version. -/
def Stale (s : State) (r : SessionRow) : Prop :=
  (∃ x ∈ s.sessions, x.origin = r.origin) ∧
    ∃ m ∈ s.memberships, m.key = (r.workspace, r.user) ∧ r.membershipVersion < m.version

/-- The membership is revoked in the step. -/
def Revokes (τ : Transition State Label) (wid uid : String) : Prop :=
  ∃ now actor id, τ.label = .revokeMembership now actor id uid ∧ checkWorkspaceId id = .ok wid ∧
    revokeMembership τ.src now actor id uid = .ok (τ.dst, ())

/-- A validation of the session ends well in the step. -/
def Validates (τ : Transition State Label) (sid : String) : Prop :=
  ∃ v row m, row.id = sid ∧
    (τ.label = .readUser v ∧ τ.src.validators v = .session row ∨
      τ.label = .readMembership v ∧ τ.src.validators v = .user row) ∧
    τ.dst.validators v = .done (.ok m)

/-! ### The sessions after a step -/

/-- What a step makes of the sessions. -/
inductive Change (s : State) : List SessionRow → Prop
  | close (now : Time) (p : SessionRow → Bool) :
      Change s (Identity.close now p s.sessions)
  | opened {row : SessionRow} {m : Principal}
      (hidentity : sessionIdentity s row.user row.workspace = .ok m)
      (hversion : row.membershipVersion = m.version)
      (hfresh : ∀ r ∈ s.sessions, r.id ≠ row.id ∧ r.refreshHash ≠ row.refreshHash)
      (hfamily : row.family = row.id) (hfrom : row.rotatedFrom = none) :
      Change s (s.sessions ++ [row])
  | rotated {now : Time} {row new : SessionRow} {m : Principal} (hrow : row ∈ s.sessions)
      (hlive : row.revokedAt = none) (hidentity : sessionIdentity s new.user new.workspace = .ok m)
      (hversion : new.membershipVersion = m.version)
      (hfresh : ∀ r ∈ s.sessions, r.id ≠ new.id ∧ r.refreshHash ≠ new.refreshHash)
      (hfamily : new.family = row.family) (hfrom : new.rotatedFrom = some row.id) :
      Change s (Identity.close now (fun r => decide (r.id = row.id)) s.sessions ++ [new])

section Changes

variable {H : Host} {s t : State} {l : Label} {sessions : List SessionRow}

theorem Change.same : Change s s.sessions := by
  have heq : Identity.close 0 (fun _ => false) s.sessions = s.sessions :=
    update_of_none fun _ _ => rfl
  exact heq ▸ .close 0 fun _ => false

theorem Effect.change (h : Effect H s l t) : Change s t.sessions := by
  cases h with
  | users | workspaces | founded | invited | accepted | read => exact .same
  | revoked _ _ _ p => exact .close _ p
  | closed now p => exact .close now p
  | opened hidentity hversion hfresh hfamily hfrom =>
    exact .opened hidentity hversion hfresh hfamily hfrom
  | rotated hrow hlive hidentity hversion hfresh hfamily hfrom =>
    exact .rotated hrow hlive hidentity hversion hfresh hfamily hfrom

variable {r : SessionRow}

theorem mem_close {now : Time} {p : SessionRow → Bool} (hr : r ∈ close now p sessions) :
    ∃ r₀ ∈ sessions, r.origin = r₀.origin ∧ (r.revokedAt = none → r = r₀ ∧ p r₀ = false) := by
  obtain ⟨r₀, hr₀, rfl⟩ := mem_update.1 hr
  refine ⟨r₀, hr₀, ?_⟩
  by_cases hp : p r₀ = true
  · rw [if_pos hp]
    exact ⟨rfl, fun h => by cases h⟩
  · rw [if_neg hp]
    exact ⟨rfl, fun _ => ⟨rfl, by simpa using hp⟩⟩

theorem close_keyed {κ : Type} {key : SessionRow → κ} (now : Time) (p : SessionRow → Bool)
    (h : Keyed key sessions) (hkey : ∀ r : SessionRow, key { r with revokedAt := some now } = key r) :
    Keyed key (close now p sessions) :=
  h.update hkey

theorem close_mem (now : Time) (p : SessionRow → Bool) (hr : r ∈ sessions) :
    ∃ r' ∈ close now p sessions,
      r'.origin = r.origin ∧ (r.revokedAt ≠ none ∨ p r = true → r'.revokedAt ≠ none) := by
  by_cases hp : p r = true
  · exact ⟨_, mem_update_of_pos hr hp, rfl, fun _ => by simp⟩
  · refine ⟨r, mem_update_of_not hr (by simpa using hp), rfl, fun h => ?_⟩
    exact h.resolve_right hp

theorem Change.mem (h : Change s sessions) (hr : r ∈ s.sessions) :
    ∃ r' ∈ sessions, r'.origin = r.origin ∧ (r.revokedAt ≠ none → r'.revokedAt ≠ none) := by
  cases h with
  | close now p =>
    obtain ⟨r', hr', horigin, hrevoked⟩ := close_mem now p hr
    exact ⟨r', hr', horigin, fun h => hrevoked (.inl h)⟩
  | opened => exact ⟨r, List.mem_append_left _ hr, rfl, id⟩
  | @rotated now row =>
    obtain ⟨r', hr', horigin, hrevoked⟩ := close_mem now (fun r => decide (r.id = row.id)) hr
    exact ⟨r', List.mem_append_left _ hr', horigin, fun h => hrevoked (.inl h)⟩

end Changes

/-! ### The invariant -/

/-- Every family has one live session at most, the rotated ones are revoked, and no session is ahead of
its membership. -/
structure Fenced (s : State) : Prop where
  members : Keyed MembershipRow.key s.memberships
  keyed : Keyed SessionRow.id s.sessions
  hashes : Keyed SessionRow.refreshHash s.sessions
  founder : ∀ r ∈ s.sessions, ∃ r' ∈ s.sessions, r'.id = r.family
  single : ∀ r ∈ s.sessions, ∀ r' ∈ s.sessions, r.family = r'.family → r.revokedAt = none →
    r'.revokedAt = none → r = r'
  spent : ∀ r ∈ s.sessions, ∀ id, r.rotatedFrom = some id → ∃ r' ∈ s.sessions, r'.id = id ∧
    r'.revokedAt ≠ none
  issued : ∀ r ∈ s.sessions, r.workspace ≠ account →
    ∃ m ∈ s.memberships, m.key = (r.workspace, r.user) ∧ r.membershipVersion ≤ m.version
  reading : ∀ v row, (s.validators v).row? = some row → ∃ r ∈ s.sessions, r.origin = row.origin

theorem fenced_empty : Fenced {} where
  members := keyed_nil _
  keyed := keyed_nil _
  hashes := keyed_nil _
  founder _ hr := absurd hr List.not_mem_nil
  single _ hr := absurd hr List.not_mem_nil
  spent _ hr := absurd hr List.not_mem_nil
  issued _ hr := absurd hr List.not_mem_nil
  reading _ _ h := by cases h

section Steps

variable {H : Host} {s t : State} {l : Label} {sessions : List SessionRow}

variable {wid : String}

theorem sessionIdentity_eq_ok {uid : String} {m : Principal} (h : sessionIdentity s uid wid = .ok m)
    (hwid : wid ≠ account) : ∃ x ∈ s.memberships, x.key = (wid, uid) ∧ x.version = m.version := by
  simp only [sessionIdentity, bind_eq_ok] at h
  obtain ⟨u, -, h⟩ := h
  rw [if_neg hwid] at h
  simp only [bind_eq_ok, need_eq_ok, pure_eq_ok] at h
  obtain ⟨x, hx, rfl⟩ := h
  obtain ⟨hget, -⟩ := membership_eq_some hx
  exact ⟨x, mem_of_get hget, key_of_get hget, rfl⟩

theorem Change.keyed (h : Change s sessions) (hs : Fenced s) : Keyed SessionRow.id sessions := by
  cases h with
  | close now p => exact hs.keyed.update fun _ => rfl
  | opened _ _ hfresh => exact hs.keyed.insert fun r hr => (hfresh r hr).1
  | rotated _ _ _ _ hfresh =>
    refine (close_keyed _ _ hs.keyed fun _ => rfl).insert fun r hr => ?_
    obtain ⟨r₀, hr₀, horigin, -⟩ := mem_close hr
    exact (Prod.mk.inj horigin).1 ▸ (hfresh r₀ hr₀).1

theorem Change.hashes (h : Change s sessions) (hs : Fenced s) : Keyed SessionRow.refreshHash sessions := by
  cases h with
  | close now p => exact hs.hashes.update fun _ => rfl
  | opened _ _ hfresh => exact hs.hashes.insert fun r hr => (hfresh r hr).2
  | rotated _ _ _ _ hfresh =>
    refine (close_keyed _ _ hs.hashes fun _ => rfl).insert fun r hr => ?_
    obtain ⟨r₀, hr₀, horigin, -⟩ := mem_close hr
    have hhash : r.refreshHash = r₀.refreshHash := congrArg (fun o => o.2.2.2.1) horigin
    exact hhash ▸ (hfresh r₀ hr₀).2

theorem Change.founder (h : Change s sessions) (hs : Fenced s) :
    ∀ r ∈ sessions, ∃ r' ∈ sessions, r'.id = r.family := by
  have hkept : ∀ {id}, (∃ r' ∈ s.sessions, r'.id = id) → ∃ r' ∈ sessions, r'.id = id := by
    rintro id ⟨r', hr', rfl⟩
    obtain ⟨r'', hr'', horigin, -⟩ := h.mem hr'
    exact ⟨r'', hr'', (Prod.mk.inj horigin).1⟩
  intro r hr
  cases h with
  | close now p =>
    obtain ⟨r₀, hr₀, horigin, -⟩ := mem_close hr
    have hfamily : r.family = r₀.family := congrArg (fun o => o.2.2.2.2.1) horigin
    exact hfamily ▸ hkept (hs.founder r₀ hr₀)
  | opened _ _ _ hfamily =>
    rcases List.mem_append.1 hr with hr' | hr'
    · exact hkept (hs.founder r hr')
    · obtain rfl := List.mem_singleton.1 hr'
      exact ⟨r, hr, hfamily.symm⟩
  | rotated hrow _ _ _ _ hfamily =>
    rcases List.mem_append.1 hr with hr' | hr'
    · obtain ⟨r₀, hr₀, horigin, -⟩ := mem_close hr'
      have heq : r.family = r₀.family := congrArg (fun o => o.2.2.2.2.1) horigin
      exact heq ▸ hkept (hs.founder r₀ hr₀)
    · obtain rfl := List.mem_singleton.1 hr'
      exact hfamily ▸ hkept (hs.founder _ hrow)

/-- **A family keeps one live session at most.** -/
theorem Change.single (h : Change s sessions) (hs : Fenced s) :
    ∀ r ∈ sessions, ∀ r' ∈ sessions, r.family = r'.family → r.revokedAt = none → r'.revokedAt = none →
      r = r' := by
  cases h with
  | close now p =>
    intro r hr r' hr' hfamily hlive hlive'
    obtain ⟨r₀, hr₀, -, heq⟩ := mem_close hr
    obtain ⟨r₀', hr₀', -, heq'⟩ := mem_close hr'
    obtain rfl := (heq hlive).1
    obtain rfl := (heq' hlive').1
    exact hs.single r hr₀ r' hr₀' hfamily hlive hlive'
  | @opened row _ _ _ hfresh hfamily =>
    -- the family of a new session is its own
    have hother : ∀ r ∈ s.sessions, r.family ≠ row.family := by
      intro r hr heq
      obtain ⟨r', hr', hid⟩ := hs.founder r hr
      exact (hfresh r' hr').1 (hid.trans (heq.trans hfamily))
    intro r hr r' hr' hsame hlive hlive'
    rcases List.mem_append.1 hr with hmem | hmem <;> rcases List.mem_append.1 hr' with hmem' | hmem'
    · exact hs.single r hmem r' hmem' hsame hlive hlive'
    · obtain rfl := List.mem_singleton.1 hmem'
      exact absurd hsame (hother r hmem)
    · obtain rfl := List.mem_singleton.1 hmem
      exact absurd hsame.symm (hother r' hmem')
    · rw [List.mem_singleton.1 hmem, List.mem_singleton.1 hmem']
  | @rotated now row new _ hrow hlive₀ _ _ _ hfamily =>
    -- the only live session of the family was the one that is rotated
    have hother : ∀ r ∈ Identity.close now (fun r => decide (r.id = row.id)) s.sessions,
        r.revokedAt = none → r.family ≠ new.family := by
      intro r hr hlive heq
      obtain ⟨r₀, hr₀, -, hkept⟩ := mem_close hr
      obtain ⟨rfl, hne⟩ := hkept hlive
      obtain rfl := hs.single r hr₀ row hrow (heq.trans hfamily) hlive hlive₀
      simp at hne
    intro r hr r' hr' hsame hlive hlive'
    rcases List.mem_append.1 hr with hmem | hmem <;> rcases List.mem_append.1 hr' with hmem' | hmem'
    · obtain ⟨r₀, hr₀, -, heq⟩ := mem_close hmem
      obtain ⟨r₀', hr₀', -, heq'⟩ := mem_close hmem'
      obtain rfl := (heq hlive).1
      obtain rfl := (heq' hlive').1
      exact hs.single r hr₀ r' hr₀' hsame hlive hlive'
    · obtain rfl := List.mem_singleton.1 hmem'
      exact absurd hsame (hother r hmem hlive)
    · obtain rfl := List.mem_singleton.1 hmem
      exact absurd hsame.symm (hother r' hmem' hlive')
    · rw [List.mem_singleton.1 hmem, List.mem_singleton.1 hmem']

/-- **A rotated session is revoked.** -/
theorem Change.spent (h : Change s sessions) (hs : Fenced s) :
    ∀ r ∈ sessions, ∀ id, r.rotatedFrom = some id → ∃ r' ∈ sessions, r'.id = id ∧ r'.revokedAt ≠ none := by
  have hkept : ∀ r ∈ s.sessions, ∀ id, r.rotatedFrom = some id →
      ∃ r' ∈ sessions, r'.id = id ∧ r'.revokedAt ≠ none := by
    intro r hr id hfrom
    obtain ⟨r', hr', rfl, hrevoked⟩ := hs.spent r hr id hfrom
    obtain ⟨r'', hr'', horigin, hstays⟩ := h.mem hr'
    exact ⟨r'', hr'', (Prod.mk.inj horigin).1, hstays hrevoked⟩
  intro r hr id hfrom
  cases h with
  | close now p =>
    obtain ⟨r₀, hr₀, horigin, -⟩ := mem_close hr
    have heq : r.rotatedFrom = r₀.rotatedFrom := congrArg (fun o => o.2.2.2.2.2.1) horigin
    exact hkept r₀ hr₀ id (heq.symm.trans hfrom)
  | opened _ _ _ _ hnone =>
    rcases List.mem_append.1 hr with hr | hr
    · exact hkept r hr id hfrom
    · obtain rfl := List.mem_singleton.1 hr
      rw [hnone] at hfrom
      cases hfrom
  | @rotated now row new _ hrow _ _ _ _ _ hnew =>
    rcases List.mem_append.1 hr with hr | hr
    · obtain ⟨r₀, hr₀, horigin, -⟩ := mem_close hr
      have heq : r.rotatedFrom = r₀.rotatedFrom := congrArg (fun o => o.2.2.2.2.2.1) horigin
      exact hkept r₀ hr₀ id (heq.symm.trans hfrom)
    · obtain rfl := List.mem_singleton.1 hr
      obtain rfl := Option.some.inj (hnew.symm.trans hfrom)
      obtain ⟨r', hr', horigin, hrevoked⟩ := close_mem now (fun r => decide (r.id = row.id)) hrow
      exact ⟨r', List.mem_append_left _ hr', (Prod.mk.inj horigin).1, hrevoked (.inr (by simp))⟩

/-- A membership goes on to later versions only. -/
theorem Effect.advances (h : Effect H s l t) {m : MembershipRow} (hm : m ∈ s.memberships) :
    ∃ m' ∈ t.memberships, m'.key = m.key ∧ m.version ≤ m'.version := by
  have hupdate : ∀ {p : MembershipRow → Bool} {f : MembershipRow → MembershipRow},
      (∀ x, (f x).key = x.key ∧ x.version ≤ (f x).version) →
      ∃ m' ∈ Table.update p f s.memberships, m'.key = m.key ∧ m.version ≤ m'.version := by
    intro p f hf
    by_cases hp : p m = true
    · exact ⟨f m, mem_update_of_pos hm hp, hf m⟩
    · exact ⟨m, mem_update_of_not hm (by simpa using hp), rfl, le_refl _⟩
  cases h with
  | users | workspaces | invited | opened | rotated | closed | read => exact ⟨m, hm, rfl, le_refl _⟩
  | founded => exact ⟨m, List.mem_append_left _ hm, rfl, le_refl _⟩
  | accepted _ _ hmemberships =>
    rcases hmemberships with rfl | ⟨-, rfl⟩
    · exact ⟨m, hm, rfl, le_refl _⟩
    · unfold grant
      split
      · exact ⟨m, List.mem_append_left _ hm, rfl, le_refl _⟩
      · exact hupdate fun x => ⟨rfl, Nat.le_succ _⟩
  | revoked => exact hupdate fun x => ⟨rfl, Nat.le_succ _⟩

variable {r : SessionRow}

/-- A session is one there was, or carries the version its membership has. -/
theorem Change.origin (h : Change s sessions) (hr : r ∈ sessions) :
    (∃ r₀ ∈ s.sessions, r.origin = r₀.origin) ∨
      ∃ m, sessionIdentity s r.user r.workspace = .ok m ∧ r.membershipVersion = m.version := by
  cases h with
  | close now p =>
    obtain ⟨r₀, hr₀, horigin, -⟩ := mem_close hr
    exact .inl ⟨r₀, hr₀, horigin⟩
  | opened hidentity hversion =>
    rcases List.mem_append.1 hr with hr | hr
    · exact .inl ⟨r, hr, rfl⟩
    · obtain rfl := List.mem_singleton.1 hr
      exact .inr ⟨_, hidentity, hversion⟩
  | rotated _ _ hidentity hversion =>
    rcases List.mem_append.1 hr with hr | hr
    · obtain ⟨r₀, hr₀, horigin, -⟩ := mem_close hr
      exact .inl ⟨r₀, hr₀, horigin⟩
    · obtain rfl := List.mem_singleton.1 hr
      exact .inr ⟨_, hidentity, hversion⟩

/-- No session is ahead of its membership. -/
theorem Effect.issued (h : Effect H s l t) (hs : Fenced s) :
    ∀ r ∈ t.sessions, r.workspace ≠ account →
      ∃ m ∈ t.memberships, m.key = (r.workspace, r.user) ∧ r.membershipVersion ≤ m.version := by
  intro r hr hwid
  obtain ⟨m, hm, hkey, hle⟩ : ∃ m ∈ s.memberships, m.key = (r.workspace, r.user) ∧
      r.membershipVersion ≤ m.version := by
    rcases h.change.origin hr with ⟨r₀, hr₀, horigin⟩ | ⟨m, hidentity, hversion⟩
    · have huser : r.user = r₀.user := congrArg (fun o => o.2.1) horigin
      have hworkspace : r.workspace = r₀.workspace := congrArg (fun o => o.2.2.1) horigin
      have hversion : r.membershipVersion = r₀.membershipVersion :=
        congrArg (fun o => o.2.2.2.2.2.2) horigin
      rw [huser, hworkspace, hversion]
      exact hs.issued r₀ hr₀ (hworkspace ▸ hwid)
    · obtain ⟨m', hm', hkey, heq⟩ := sessionIdentity_eq_ok hidentity hwid
      exact ⟨m', hm', hkey, by omega⟩
  obtain ⟨m', hm', hkey', hle'⟩ := h.advances hm
  exact ⟨m', hm', hkey'.trans hkey, hle.trans hle'⟩

/-- A validation reads what is, or was, in the table. -/
theorem Effect.reading (h : Effect H s l t) (hs : Fenced s) {v : ℕ} {row : SessionRow}
    (hv : (t.validators v).row? = some row) : ∃ r ∈ t.sessions, r.origin = row.origin := by
  have hkept : (∃ r ∈ s.sessions, r.origin = row.origin) → ∃ r ∈ t.sessions, r.origin = row.origin := by
    rintro ⟨r, hr, horigin⟩
    obtain ⟨r', hr', horigin', -⟩ := h.change.mem hr
    exact ⟨r', hr', horigin'.trans horigin⟩
  cases h with
  | users | workspaces | founded | invited | accepted | revoked | opened | rotated | closed =>
    exact hkept (hs.reading v row hv)
  | @read l v' stage hsession huser =>
    refine hkept ?_
    have hstep : (Function.update s.validators v' stage v).row? = some row := hv
    by_cases hvv : v = v'
    · subst hvv
      rw [Function.update_self] at hstep
      cases stage with
      | session row' =>
        obtain rfl := Option.some.inj hstep
        exact ⟨row', hsession row' rfl, rfl⟩
      | user row' =>
        obtain rfl := Option.some.inj hstep
        refine hs.reading v row' ?_
        rw [(huser row' rfl).2]
        rfl
      | idle => cases hstep
      | done => cases hstep
    · rw [Function.update_of_ne hvv] at hstep
      exact hs.reading v row hstep

theorem Step.fenced (hs : Fenced s) (h : Step H s l t) : Fenced t := by
  have heffect := h.effect hs.members
  exact
    { members := heffect.keyed hs.members
      keyed := heffect.change.keyed hs
      hashes := heffect.change.hashes hs
      founder := heffect.change.founder hs
      single := heffect.change.single hs
      spent := heffect.change.spent hs
      issued := heffect.issued hs
      reading := fun _ _ => heffect.reading hs }

/-! ### What later steps keep -/

/-- A closed family stays closed. -/
theorem Step.closed (hs : Fenced s) (h : Step H s l t) {family : String} (hc : Closed s family) :
    Closed t family := by
  have hchange := (h.effect hs.members).change
  obtain ⟨⟨f, hf, hid⟩, hrevoked⟩ := hc
  refine ⟨?_, fun r hr hfamily hlive => ?_⟩
  · obtain ⟨f', hf', horigin, -⟩ := hchange.mem hf
    exact ⟨f', hf', (Prod.mk.inj horigin).1.trans hid⟩
  · -- a live session of the family would be an old one, or continue one
    have hold : ∀ {now p}, r ∈ Identity.close now p s.sessions → False := by
      intro now p hr
      obtain ⟨r₀, hr₀, -, heq⟩ := mem_close hr
      obtain rfl := (heq hlive).1
      exact hrevoked r hr₀ hfamily hlive
    generalize t.sessions = sessions at hchange hr
    cases hchange with
    | close => exact hold hr
    | opened _ _ hfresh hown =>
      rcases List.mem_append.1 hr with hr | hr
      · exact hrevoked r hr hfamily hlive
      · obtain rfl := List.mem_singleton.1 hr
        exact (hfresh f hf).1 (hid.trans (hfamily.symm.trans hown))
    | rotated hrow hlive' _ _ _ hown =>
      rcases List.mem_append.1 hr with hr | hr
      · exact hold hr
      · obtain rfl := List.mem_singleton.1 hr
        exact hrevoked _ hrow (hown.symm.trans hfamily) hlive'

theorem Step.stale (hs : Fenced s) (h : Step H s l t) (hr : Stale s r) : Stale t r := by
  have heffect := h.effect hs.members
  obtain ⟨⟨x, hx, hxo⟩, m, hm, hkey, hlt⟩ := hr
  obtain ⟨y, hy, hyo, -⟩ := heffect.change.mem hx
  obtain ⟨m', hm', hkey', hle⟩ := heffect.advances hm
  exact ⟨⟨y, hy, hyo.trans hxo⟩, m', hm', hkey'.trans hkey, hlt.trans_le hle⟩

/-- **Replaying a rotated token** revokes its family. -/
theorem Step.replay (hs : Fenced s) {now : Time} {hex raw token : String} {row : SessionRow}
    (hrow : row ∈ s.sessions) (htoken : tokenHash H token = .ok row.refreshHash) (hrotated : Rotated s row)
    (h : Step H s (.rotateSession now hex raw token) t) : Closed t row.family := by
  obtain ⟨r', hr', hfrom⟩ := hrotated
  obtain ⟨x, hx, hid, hrevoked⟩ := hs.spent r' hr' row.id hfrom
  obtain rfl := hs.keyed.eq_of_key hx hrow hid
  have hfind : s.sessions.find? (fun r => decide (r.refreshHash = x.refreshHash)) = some x :=
    hs.hashes.get_eq hx rfl
  have hrotate : rotateSession H s now hex raw token = .ok ({ s with
      sessions := revokeSessions now (fun r => decide (r.family = x.family)) s.sessions }, none) := by
    simp only [rotateSession, htoken, bind, Except.bind, hfind, pure, Except.pure]
    rw [if_pos (.inl hrevoked)]
  have hdst : t = { s with
      sessions := revokeSessions now (fun r => decide (r.family = x.family)) s.sessions } := by
    rw [h]
    dsimp only [State.after]
    rw [hrotate, commit_ok]
  subst hdst
  have hkept := (h.effect hs.members).change
  refine ⟨?_, fun r hr hfamily hlive => ?_⟩
  · obtain ⟨f, hf, hfid⟩ := hs.founder x hx
    obtain ⟨f', hf', horigin, -⟩ := hkept.mem hf
    exact ⟨f', hf', (Prod.mk.inj horigin).1.trans hfid⟩
  · obtain ⟨r₀, hr₀, -, heq⟩ := mem_close hr
    obtain ⟨rfl, hp⟩ := heq hlive
    simp [hfamily, hlive] at hp

theorem ne_account_of_check {id : String} (h : checkWorkspaceId id = .ok wid) : wid ≠ account := by
  simp only [checkWorkspaceId, bind_eq_ok, exists_unit, ensure_eq_ok, pure_eq_ok] at h
  obtain ⟨value, -, hslug, rfl⟩ := h
  rintro rfl
  exact absurd hslug.2 (by decide)

/-- The sessions of a revoked membership are stale. -/
theorem Revokes.stale {τ : Transition State Label} {uid : String} (hs : Fenced τ.src)
    (hstep : Step H τ.src τ.label τ.dst) (h : Revokes τ wid uid) (hr : r ∈ τ.src.sessions)
    (hworkspace : r.workspace = wid) (huser : r.user = uid) : r.workspace ≠ account ∧ Stale τ.dst r := by
  obtain ⟨x, hx, hxo, -⟩ := (hstep.effect hs.members).change.mem hr
  obtain ⟨now, actor, id, -, hid, hrevoke⟩ := h
  have hwid : r.workspace ≠ account := hworkspace ▸ ne_account_of_check hid
  obtain ⟨m, hm, hkey, hle⟩ := hs.issued r hr hwid
  simp only [revokeMembership, bind_eq_ok, exists_unit, need_eq_ok, ensure_eq_ok, pure_eq_ok,
    Prod.mk.injEq] at hrevoke
  obtain ⟨wid', hwid', o, -, m', -, -, -, hdst, -⟩ := hrevoke
  obtain rfl : wid' = wid := Except.ok.inj (hwid'.symm.trans hid)
  refine ⟨hwid, ⟨x, hx, hxo⟩, { m with status := .revoked, version := m.version + 1 }, ?_, hkey,
    Nat.lt_succ_of_le hle⟩
  rw [← hdst]
  refine mem_update_of_pos (f := fun x : MembershipRow => { x with
    status := .revoked, version := x.version + 1 }) hm (decide_eq_true ?_)
  rw [hkey, hworkspace, huser]

/-- A stale session does not validate. -/
theorem not_validates {τ : Transition State Label} (hs : Fenced τ.src) (h : Step H τ.src τ.label τ.dst)
    (hwid : r.workspace ≠ account) (hr : Stale τ.src r) : ¬ Validates τ r.id := by
  rintro ⟨v, row, m, hid, hlabel, hdone⟩
  obtain ⟨⟨x, hx, hxo⟩, y, hy, hkey, hlt⟩ := hr
  -- the session that was read is the stale one
  obtain ⟨x', hx', horigin⟩ : ∃ r' ∈ τ.src.sessions, r'.origin = row.origin := by
    refine hs.reading v row ?_
    rcases hlabel with ⟨-, hv⟩ | ⟨-, hv⟩ <;> rw [hv] <;> rfl
  have hids : x'.id = x.id := (Prod.mk.inj horigin).1.trans (hid.trans (Prod.mk.inj hxo).1.symm)
  obtain rfl := hs.keyed.eq_of_key hx' hx hids
  have heq := horigin.symm.trans hxo
  have huser : row.user = r.user := congrArg (fun o => o.2.1) heq
  have hworkspace : row.workspace = r.workspace := congrArg (fun o => o.2.2.1) heq
  have hversion : row.membershipVersion = r.membershipVersion := congrArg (fun o => o.2.2.2.2.2.2) heq
  rw [← hworkspace] at hwid
  rw [h] at hdone
  rcases hlabel with ⟨hl, hv⟩ | ⟨hl, hv⟩
  · -- only an account is done without its membership
    rw [hl] at hdone
    simp only [State.after, hv, State.goto, Function.update_self] at hdone
    split at hdone
    · cases hdone
    · rw [if_neg hwid] at hdone
      cases hdone
  · rw [hl] at hdone
    simp only [State.after, hv, State.goto, Function.update_self] at hdone
    split at hdone
    · cases hdone
    · rename_i z hz
      obtain ⟨hget, -⟩ := membership_eq_some hz
      have hzkey : z.key = y.key := by rw [key_of_get hget, hkey, hworkspace, huser]
      obtain rfl := hs.members.eq_of_key (mem_of_get hget) hy hzkey
      have hsame := Stage.done.inj hdone
      simp only [State.compareVersion, bind_eq_ok, exists_unit, ensure_eq_ok] at hsame
      omega

end Steps

/-! ### Runs -/

section Runs

variable {H : Host} {τs : List (Transition State Label)} {s : State}

theorem reachable_fenced (h : Run (Step H) {} τs s) : Fenced s :=
  h.invariant fenced_empty fun _ _ _ => Step.fenced

/-- **Sessions are fenced.** In every run of the directory: a family has at most one unrevoked session; once
the token of a rotated session is presented, every session of its family is revoked, then and later; and a
session issued before its membership was revoked never validates after that. -/
theorem sessions_fenced (h : Run (Step H) {} τs s) :
    (∀ r ∈ s.sessions, ∀ r' ∈ s.sessions, r.family = r'.family → r.revokedAt = none →
      r'.revokedAt = none → r = r') ∧
    (∀ pre τ post, τs = pre ++ τ :: post → ∀ now hex raw token, τ.label = .rotateSession now hex raw token →
      ∀ row ∈ τ.src.sessions, tokenHash H token = .ok row.refreshHash → Rotated τ.src row →
        (∀ r ∈ τ.dst.sessions, r.family = row.family → r.revokedAt ≠ none) ∧
          ∀ r ∈ s.sessions, r.family = row.family → r.revokedAt ≠ none) ∧
    ∀ pre τ post, τs = pre ++ τ :: post → ∀ wid uid, Revokes τ wid uid → ∀ r ∈ τ.src.sessions,
      r.workspace = wid → r.user = uid → ∀ σ ∈ post, ¬ Validates σ r.id := by
  refine ⟨(reachable_fenced h).single, ?_, ?_⟩
  · rintro pre τ post rfl now hex raw token hl row hrow htoken hrotated
    obtain ⟨hpre, hstep⟩ := h.split
    have hsrc := reachable_fenced hpre
    have hdst := hstep.fenced hsrc
    rw [hl] at hstep
    have hclosed := hstep.replay hsrc hrow htoken hrotated
    refine ⟨hclosed.2, ?_⟩
    exact (h.rest.invariant (I := fun s => Fenced s ∧ Closed s row.family) ⟨hdst, hclosed⟩
      fun _ _ _ hi hs => ⟨hs.fenced hi.1, hs.closed hi.1 hi.2⟩).2.2
  · rintro pre τ post rfl wid uid hrevokes r hr hworkspace huser σ hσ
    obtain ⟨hpre, hstep⟩ := h.split
    have hsrc := reachable_fenced hpre
    obtain ⟨hwid, hstale⟩ := hrevokes.stale hsrc hstep hr hworkspace huser
    obtain ⟨hσstep, hσfenced, hσstale⟩ := h.rest.always (I := fun s => Fenced s ∧ Stale s r)
      ⟨hstep.fenced hsrc, hstale⟩ (fun _ _ _ hi hs => ⟨hs.fenced hi.1, hs.stale hi.1 hi.2⟩) hσ
    exact not_validates hσfenced hσstep hwid hσstale

/-- The second user signs in and rotates her session. -/
def rotatedLabels : List Label :=
  sampleLabels ++
    [.createSession 3 "0" "refresh-token-000000" "usr_1" "acme" 3600,
      .rotateSession 4 "1" "refresh-token-000001" "refresh-token-000000"]

theorem sessions_fenced_sample :
    (sampleState rotatedLabels).sessions.map (fun r => (r.family, r.revokedAt)) =
      [("ses_0", some 4), ("ses_0", none)] ∧
    ∀ r ∈ (sampleState rotatedLabels).sessions, ∀ r' ∈ (sampleState rotatedLabels).sessions,
      r.family = r'.family → r.revokedAt = none → r'.revokedAt = none → r = r' :=
  ⟨by decide +kernel, (sessions_fenced (sample_run rotatedLabels)).1⟩

end Runs

end AgentPlatform.Identity
