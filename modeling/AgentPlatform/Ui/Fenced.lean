import AgentPlatform.Ui.SessionClient

/-!
# Tokens of another workspace

A login and a logout begin a new epoch, and what was started in an older one is fenced. A selection installs its tokens
in the epoch it began in, so a refresh that is still under way, or a request that holds a token it has not sent, goes on
with the tokens of the workspace that was left. Where no such token is outstanding when a selection is installed, every
token is used for the session and the workspace in effect (`uses_right`).
-/

namespace AgentPlatform.Ui

open Runs

/-- A token is used for what is in effect; a selection stays in the session and is of its workspace. A refresh token
may be revoked at any time. -/
def Use.Right (u : Use) : Prop :=
  match u.kind with
  | .revoked => True
  | .selected workspace => ∃ scope, u.current = some scope ∧ u.scope = ⟨scope.session, some workspace⟩
  | _ => u.current = some u.scope

/-- Tokens of the epoch that will be installed, shared or sent. -/
def State.Outstanding (s : State) (scope : Scope) : Prop :=
  (∃ job ∈ s.jobs, job.epoch = s.epoch ∧ job.raw.scope = scope) ∨
    (∃ tokens, s.pending = some (.settled tokens) ∧ tokens.scope = scope) ∨
    ∃ task ∈ s.tasks, task.epoch = s.epoch ∧ ∃ tokens, task.stage = .holding tokens ∧ tokens.scope = scope

/-- When a selection is installed, the outstanding tokens are of the workspace that is selected. -/
def Quiet (s : State) : Label → Prop
  | .selected id _ => ∀ task ∈ s.tasks, task.id = id → task.epoch = s.epoch →
      ∀ tokens, task.stage = .answered (some tokens) → ∀ scope, s.Outstanding scope → scope = tokens.scope
  | _ => True

/-! ### The invariant -/

/-- A task of the epoch goes on with tokens of what is in effect. -/
def Task.Agrees (current : Option Scope) (task : Task) : Prop :=
  match task.stage, task.purpose with
  | .holding tokens, _ => current = some tokens.scope
  | .awaiting _, _ => True
  | .sent tokens, _ => ∃ scope, current = some scope ∧ tokens.scope.session = scope.session
  | .answered (some tokens), .select workspace _ =>
    ∃ scope, current = some scope ∧ tokens.scope = ⟨scope.session, some workspace⟩
  | .answered _, _ => True

/-- The invariant of a run. -/
structure Inv (s : State) : Prop where
  uses : ∀ u ∈ s.uses, u.Right
  session : ∀ session, s.session = some session → s.current = some session.tokens.scope
  jobs : ∀ job ∈ s.jobs, job.epoch = s.epoch → s.current = some job.raw.scope
  settled : ∀ tokens, s.pending = some (.settled tokens) → s.current = some tokens.scope
  tasks : ∀ task ∈ s.tasks, task.epoch = s.epoch → task.Agrees s.current
  jobsPast : ∀ job ∈ s.jobs, job.epoch ≤ s.epoch
  tasksPast : ∀ task ∈ s.tasks, task.epoch ≤ s.epoch
  /-- Without a session nothing of the epoch is under way but a sign-in. -/
  signedOut : s.session = none → (∀ job ∈ s.jobs, job.epoch ≠ s.epoch) ∧ (∀ task ∈ s.tasks, task.epoch ≠ s.epoch) ∧
    s.pending = none
  signIns : ∀ op ∈ s.signIns, op.epoch ≤ s.epoch ∧ (op.epoch = s.epoch → s.session = none)

theorem inv_empty : Inv {} where
  uses := by simp
  session := nofun
  jobs := by simp
  settled := nofun
  tasks := by simp
  jobsPast := by simp
  tasksPast := by simp
  signedOut := by simp
  signIns := by simp

section Steps

variable {s : State}

/-- Nothing under way is of the epoch that begins. -/
theorem Inv.clear (h : Inv s) (current : Option Scope) : Inv { s.clear with current := current } where
  uses := h.uses
  session := nofun
  jobs := fun job hjob hepoch => absurd hepoch (Nat.lt_succ_of_le (h.jobsPast job hjob)).ne
  settled := nofun
  tasks := fun task htask hepoch => absurd hepoch (Nat.lt_succ_of_le (h.tasksPast task htask)).ne
  jobsPast := fun job hjob => (h.jobsPast job hjob).trans (Nat.le_succ _)
  tasksPast := fun task htask => (h.tasksPast task htask).trans (Nat.le_succ _)
  signedOut := fun _ => ⟨fun job hjob => (Nat.lt_succ_of_le (h.jobsPast job hjob)).ne,
    fun task htask => (Nat.lt_succ_of_le (h.tasksPast task htask)).ne, rfl⟩
  signIns := fun op hop => ⟨(h.signIns op hop).1.trans (Nat.le_succ _), fun _ => rfl⟩

theorem Inv.expire (h : Inv s) (epoch : ℕ) : Inv (s.expire epoch) := by
  unfold State.expire
  split_ifs
  · exact h.clear s.current
  · exact h

theorem Inv.use (h : Inv s) {kind : Kind} {scope : Scope} (hright : Use.Right ⟨kind, scope, s.current⟩) :
    Inv (s.use kind scope) :=
  { h with
    uses := by
      intro u hu
      rcases List.mem_append.1 hu with hu | hu
      · exact h.uses u hu
      · rw [List.mem_singleton.1 hu]
        exact hright }

theorem Inv.revoke (h : Inv s) (tokens : Option Tokens) : Inv (s.revoke tokens) := by
  cases tokens with
  | none => exact h
  | some tokens => exact h.use trivial

/-- Tasks may end, or go on in agreement. -/
theorem Inv.setTasks (h : Inv s) {tasks : List Task}
    (htasks : ∀ task ∈ tasks, task ∈ s.tasks ∨
      (∃ old ∈ s.tasks, task.epoch = old.epoch) ∧ (task.epoch = s.epoch → task.Agrees s.current)) :
    Inv { s with tasks := tasks } :=
  { h with
    tasks := by
      intro task htask hepoch
      rcases htasks task htask with hold | ⟨-, hagrees⟩
      · exact h.tasks task hold hepoch
      · exact hagrees hepoch
    tasksPast := by
      intro task htask
      rcases htasks task htask with hold | ⟨⟨old, hold, heq⟩, -⟩
      · exact h.tasksPast task hold
      · exact heq ▸ h.tasksPast old hold
    signedOut := by
      intro hnone
      obtain ⟨hjobs, holds, hpending⟩ := h.signedOut hnone
      refine ⟨hjobs, ?_, hpending⟩
      intro task htask
      rcases htasks task htask with hold | ⟨⟨old, hold, heq⟩, -⟩
      · exact holds task hold
      · exact heq ▸ holds old hold }

theorem Inv.filterTasks (h : Inv s) (p : Task → Bool) : Inv { s with tasks := s.tasks.filter p } :=
  h.setTasks fun _ htask => .inl (List.mem_of_mem_filter htask)

theorem Inv.close (h : Inv s) (id : ℕ) : Inv (s.close id) := h.filterTasks _

theorem Inv.put (h : Inv s) {task : Task} (hold : ∃ old ∈ s.tasks, task.epoch = old.epoch)
    (hagrees : task.epoch = s.epoch → task.Agrees s.current) : Inv (s.put task) := by
  refine h.setTasks fun t ht => ?_
  obtain ⟨old, hmem, rfl⟩ := List.mem_map.1 ht
  split_ifs
  · exact .inr ⟨hold, hagrees⟩
  · exact .inl hmem

/-- A request begins in a session. -/
theorem Inv.start (h : Inv s) (hsession : s.session ≠ none) {purpose : Purpose} {stage : Stage}
    (hagrees : Task.Agrees s.current ⟨s.minted, s.epoch, purpose, stage⟩) : Inv (s.start purpose stage) :=
  { h with
    tasks := by
      intro task htask hepoch
      rcases List.mem_append.1 htask with htask | htask
      · exact h.tasks task htask hepoch
      · rw [List.mem_singleton.1 htask]
        exact hagrees
    tasksPast := by
      intro task htask
      rcases List.mem_append.1 htask with htask | htask
      · exact h.tasksPast task htask
      · rw [List.mem_singleton.1 htask]
        exact le_rfl
    signedOut := fun hnone => absurd hnone hsession }

variable {tokens : Tokens}

theorem Inv.launch (h : Inv s) (hcurrent : s.current = some tokens.scope) (hsession : s.session ≠ none) :
    Inv (s.launch tokens) := by
  have huse : Inv (s.use .refreshed tokens.scope) := h.use hcurrent
  exact
    { uses := huse.uses
      session := huse.session
      jobs := by
        intro job hjob hepoch
        rcases List.mem_append.1 hjob with hjob | hjob
        · exact h.jobs job hjob hepoch
        · rw [List.mem_singleton.1 hjob]
          exact hcurrent
      settled := nofun
      tasks := huse.tasks
      jobsPast := by
        intro job hjob
        rcases List.mem_append.1 hjob with hjob | hjob
        · exact h.jobsPast job hjob
        · rw [List.mem_singleton.1 hjob]
          exact le_rfl
      tasksPast := huse.tasksPast
      signedOut := fun hnone => absurd hnone hsession
      signIns := huse.signIns }

theorem Inv.request (h : Inv s) (now : ℚ) (purpose : Purpose) : Inv (s.request now purpose) := by
  unfold State.request
  cases hsession : s.session with
  | none => exact h
  | some session =>
    have hcurrent := h.session session hsession
    have hsome : s.session ≠ none := by simp [hsession]
    dsimp only
    split_ifs
    · exact h.start hsome hcurrent
    · cases hpending : s.pending with
      | some pending =>
        cases pending with
        | flying job => exact h.start hsome (by trivial)
        | settled tokens => exact h.start hsome (h.settled tokens hpending)
      | none =>
        have hlaunch := h.launch hcurrent hsome
        exact hlaunch.start hsome (by trivial)

theorem Inv.signIn (h : Inv s) (register : Bool) : Inv (s.signIn register) :=
  { h.clear s.current with
    uses := h.uses
    session := nofun
    settled := nofun
    signIns := by
      intro op hop
      rcases List.mem_append.1 hop with hop | hop
      · exact (h.clear s.current).signIns op hop
      · rw [List.mem_singleton.1 hop]
        exact ⟨le_rfl, fun _ => rfl⟩ }

/-- A sign-in of the epoch is over; nothing else of the epoch is under way. -/
theorem Inv.signedIn (h : Inv s) (epoch : ℕ) (now : ℚ) (reply : Reply) : Inv (s.signedIn epoch now reply) := by
  have hwaiting : ∀ sessions, Inv { s with signIns := s.signIns.filter (fun op => op.epoch ≠ epoch), sessions := sessions } :=
    fun _ => { h with signIns := fun op hop => h.signIns op (List.mem_of_mem_filter hop) }
  unfold State.signedIn
  split
  · exact h
  · rename_i op hop
    have hepoch : op.epoch = epoch := by simpa using List.find?_some hop
    dsimp only
    split
    · rename_i tokens htokens
      have hin : epoch = s.epoch → Inv { { s with
          signIns := s.signIns.filter (fun op => op.epoch ≠ epoch)
          sessions := s.sessions + 1 }.install now tokens with current := some tokens.scope } := by
        intro hcurrent
        obtain ⟨hjobs, htasks, hpending⟩ :=
          h.signedOut ((h.signIns op (List.mem_of_find?_eq_some hop)).2 (hepoch.trans hcurrent))
        exact
          { h with
            session := by
              intro session hsession
              obtain rfl := Option.some.inj hsession
              rfl
            jobs := fun job hjob heq => absurd heq (hjobs job hjob)
            settled := fun tokens heq => by cases hpending.symm.trans heq
            tasks := fun task htask heq => absurd heq (htasks task htask)
            signedOut := nofun
            signIns := by
              intro op' hop'
              obtain ⟨hmem, hne⟩ := List.mem_filter.1 hop'
              refine ⟨(h.signIns op' hmem).1, fun heq => absurd (heq.trans hcurrent.symm) ?_⟩
              simpa using hne }
      split_ifs with hcurrent hregister
      · exact (hin hcurrent).request now .plain
      · exact hin hcurrent
      · exact hwaiting _
    · exact hwaiting _

theorem scope_of_issue {reply : Reply} {scope : Scope} (h : reply.issue scope = some tokens) :
    tokens.scope = scope := by
  cases reply with
  | tokens access refresh expiresIn =>
    simp only [Reply.issue] at h
    split_ifs at h
    obtain rfl := Option.some.inj h
    rfl
  | _ => cases h

theorem Inv.install (h : Inv s) (now : ℚ) (hcurrent : s.current = some tokens.scope)
    (hsession : s.session ≠ none) : Inv (s.install now tokens) :=
  { h with
    session := by
      intro session hsome
      obtain rfl := Option.some.inj hsome
      exact hcurrent
    signedOut := nofun
    signIns := fun op hop => ⟨(h.signIns op hop).1, fun heq => absurd ((h.signIns op hop).2 heq) hsession⟩ }

theorem Inv.setPending (h : Inv s) {pending : Option Pending}
    (hsettled : ∀ tokens, pending = some (.settled tokens) → s.current = some tokens.scope)
    (hnone : s.session = none → pending = none) : Inv { s with pending := pending } :=
  { h with
    settled := hsettled
    signedOut := fun hout => ⟨(h.signedOut hout).1, (h.signedOut hout).2.1, hnone hout⟩ }

theorem Inv.settle (h : Inv s) (id : ℕ) (hcurrent : s.current = some tokens.scope) :
    Inv (s.settle id tokens) := by
  unfold State.settle
  split
  · rename_i job hpending
    split_ifs
    · refine h.setPending ?_ ?_
      · rintro _ heq
        obtain rfl := Pending.settled.inj (Option.some.inj heq)
        exact hcurrent
      · intro hnone
        cases hpending.symm.trans (h.signedOut hnone).2.2
    · exact h
  · exact h

theorem State.settle_current (s : State) (id : ℕ) (tokens : Tokens) : (s.settle id tokens).current = s.current := by
  unfold State.settle
  split
  · split_ifs <;> rfl
  · rfl

theorem Inv.share (h : Inv s) (id : ℕ) (hcurrent : s.current = some tokens.scope) :
    Inv (s.share id tokens) := by
  refine h.setTasks fun task htask => ?_
  obtain ⟨old, hold, rfl⟩ := List.mem_map.1 htask
  split
  · split_ifs
    · exact .inr ⟨⟨old, hold, rfl⟩, fun _ => hcurrent⟩
    · exact .inl hold
  · exact .inl hold

theorem Inv.refreshed (h : Inv s) (id : ℕ) (now : ℚ) (reply : Reply) : Inv (s.refreshed id now reply) := by
  have hrest : Inv { s with jobs := s.jobs.filter fun job => job.id ≠ id } :=
    { h with
      jobs := fun job hjob => h.jobs job (List.mem_of_mem_filter hjob)
      jobsPast := fun job hjob => h.jobsPast job (List.mem_of_mem_filter hjob)
      signedOut := by
        intro hnone
        obtain ⟨hjobs, htasks, hpending⟩ := h.signedOut hnone
        exact ⟨fun job hjob => hjobs job (List.mem_of_mem_filter hjob), htasks, hpending⟩ }
  unfold State.refreshed
  split
  · exact h
  · rename_i job hjob
    have hmem := List.mem_of_find?_eq_some hjob
    dsimp only
    split
    · rename_i tokens htokens
      have hscope := scope_of_issue htokens
      split_ifs with hepoch
      · have hcurrent : s.current = some tokens.scope := hscope ▸ h.jobs job hmem hepoch
        have hsession : s.session ≠ none := fun hnone => (h.signedOut hnone).1 job hmem hepoch
        have huse : Inv (State.use { s with jobs := s.jobs.filter fun job => job.id ≠ id } .installed tokens.scope) :=
          hrest.use hcurrent
        have hsettle := (huse.install now hcurrent hsession).settle id hcurrent
        refine hsettle.share id ?_
        rw [State.settle_current]
        exact hcurrent
      · exact hrest.filterTasks _
    · exact (hrest.expire _).filterTasks _

theorem Inv.released (h : Inv s) : Inv s.released := by
  unfold State.released
  split
  · exact h.setPending nofun fun _ => rfl
  · exact h

theorem Inv.resumed (h : Inv s) (id : ℕ) (valid : Bool) : Inv (s.resumed id valid) := by
  unfold State.resumed
  split
  · rename_i taskId epoch purpose tokens htask
    split_ifs with hgoes
    · have hmem := List.mem_of_find?_eq_some htask
      have hcurrent : s.current = some tokens.scope := h.tasks _ hmem hgoes.1
      have hput : Inv (s.put ⟨taskId, epoch, purpose, .sent tokens⟩) :=
        h.put ⟨_, hmem, rfl⟩ fun _ => ⟨tokens.scope, hcurrent, rfl⟩
      exact hput.use hcurrent
    · exact h.close _
  · exact h

theorem Inv.answered (h : Inv s) (id : ℕ) (reply : Reply) : Inv (s.answered id reply) := by
  unfold State.answered
  split
  · rename_i taskId epoch purpose tokens htask
    split
    · split_ifs
      · exact (h.expire epoch).close _
      · exact h.close _
    · split_ifs with hepoch
      · split
        · exact h.close _
        · rename_i workspace old
          have hmem := List.mem_of_find?_eq_some htask
          obtain ⟨scope, hcurrent, hsession⟩ := h.tasks _ hmem hepoch
          refine h.put ⟨_, hmem, rfl⟩ fun _ => ?_
          cases hissue : reply.issue ⟨tokens.scope.session, some workspace⟩ with
          | none => trivial
          | some issued =>
            refine ⟨scope, hcurrent, ?_⟩
            rw [scope_of_issue hissue, hsession]
      · exact h.close _
  · exact h

/-- What is outstanding is of the workspace that is selected; the rest of the epoch is of its session. -/
theorem Inv.selected (h : Inv s) (id : ℕ) (now : ℚ) (hquiet : Quiet s (.selected id now)) :
    Inv (s.selected id now) := by
  unfold State.selected
  split
  · rename_i taskId epoch workspace old tokens htask
    have hmem := List.mem_of_find?_eq_some htask
    split_ifs with hepoch
    · obtain ⟨scope, hcurrent, hscope⟩ := h.tasks _ hmem hepoch
      have hid : taskId = id := by simpa using List.find?_some htask
      have hsame := hquiet _ hmem hid hepoch tokens rfl
      have hsession : s.session ≠ none := fun hnone => (h.signedOut hnone).2.1 _ hmem hepoch
      refine Inv.revoke ?_ old
      exact
        { uses := by
            intro u hu
            rcases List.mem_append.1 hu with hu | hu
            · exact h.uses u hu
            · rw [List.mem_singleton.1 hu]
              exact ⟨scope, hcurrent, hscope⟩
          session := by
            intro session hsome
            obtain rfl := Option.some.inj hsome
            rfl
          jobs := fun job hjob heq => congrArg some (hsame _ (.inl ⟨job, hjob, heq, rfl⟩)).symm
          settled := fun settled heq => congrArg some (hsame _ (.inr (.inl ⟨settled, heq, rfl⟩))).symm
          tasks := by
            intro task htask heq
            have hmem' := List.mem_of_mem_filter htask
            have hagrees := h.tasks task hmem' heq
            obtain ⟨taskId', epoch', purpose, stage⟩ := task
            cases stage with
            | holding held => exact congrArg some (hsame _ (.inr (.inr ⟨_, hmem', heq, held, rfl, rfl⟩))).symm
            | awaiting job => trivial
            | sent sent =>
              obtain ⟨scope', hcurrent', hsent⟩ := hagrees
              obtain rfl := Option.some.inj (hcurrent.symm.trans hcurrent')
              exact ⟨tokens.scope, rfl, by rw [hsent, hscope]⟩
            | answered answer =>
              cases answer with
              | none => trivial
              | some answer =>
                cases purpose with
                | plain => trivial
                | select workspace' old' =>
                  obtain ⟨scope', hcurrent', hanswer⟩ := hagrees
                  obtain rfl := Option.some.inj (hcurrent.symm.trans hcurrent')
                  exact ⟨tokens.scope, rfl, by rw [hanswer, hscope]⟩
          jobsPast := h.jobsPast
          tasksPast := fun task htask => h.tasksPast task (List.mem_of_mem_filter htask)
          signedOut := nofun
          signIns := fun op hop => ⟨(h.signIns op hop).1, fun heq => absurd ((h.signIns op hop).2 heq) hsession⟩ }
    · exact h.close _
  · exact h.close _
  · exact h

theorem Inv.step {l : Label} {t : State} (h : Inv s) (hstep : Step s l t) (hquiet : Quiet s l) : Inv t := by
  rw [hstep]
  cases l with
  | signIn register => exact h.signIn register
  | signedIn epoch now reply => exact h.signedIn epoch now reply
  | request now => exact h.request now .plain
  | select now workspace => exact h.request now _
  | logout => exact (h.clear none).revoke _
  | refreshed job now reply => exact h.refreshed job now reply
  | released => exact h.released
  | resumed task valid => exact h.resumed task valid
  | answered task reply => exact h.answered task reply
  | selected task now => exact h.selected task now hquiet

end Steps

/-- In every run whose selections are installed while no token of another workspace is outstanding, every token is
installed, sent and refreshed for the session and the workspace in effect. -/
theorem uses_right {τs : List (Transition State Label)} {s : State} (h : Run Step {} τs s)
    (hquiet : ∀ τ ∈ τs, Quiet τ.src τ.label) : ∀ u ∈ s.uses, u.Right := by
  have hguarded : Run (guarded Quiet Step) {} τs s := h.guard hquiet
  exact (hguarded.invariant inv_empty fun _ _ _ hinv hstep => hinv.step hstep.1 hstep.2).uses

/-- Nothing is outstanding. -/
def State.still (s : State) : Bool :=
  s.jobs.isEmpty && s.pending.isNone && s.tasks.all fun t => match t.stage with | .holding _ => false | _ => true

theorem quiet_of_still {s : State} (h : s.still = true) (l : Label) : Quiet s l := by
  cases l with
  | selected id now =>
    intro task _ _ _ tokens _ scope houtstanding
    simp only [State.still, Bool.and_eq_true, List.isEmpty_iff, Option.isNone_iff_eq_none, List.all_eq_true] at h
    obtain ⟨⟨hjobs, hpending⟩, htasks⟩ := h
    rcases houtstanding with ⟨job, hjob, -⟩ | ⟨settled, hsettled, -⟩ | ⟨held, hheld, -, tokens, hstage, -⟩
    · rw [hjobs] at hjob
      cases hjob
    · cases hpending.symm.trans hsettled
    · have hfalse := htasks held hheld
      rw [hstage] at hfalse
      cases hfalse
  | _ => trivial

/-- A selection, and a request once it is installed. -/
def quietLabels : List Label :=
  [.signIn false, .signedIn 1 0 (.tokens "a0" "r0" 60), .select 0 "w1", .resumed 0 true,
    .answered 0 (.tokens "a1" "r1" 60), .selected 0 1000, .request 2000, .resumed 1 true]

theorem uses_right_quiet : (quietLabels.foldl State.after {}).uses ≠ [] ∧
    ∀ u ∈ (quietLabels.foldl State.after {}).uses, u.Right := by
  have hrun : Run Step {} (trace State.after {} quietLabels) (quietLabels.foldl State.after {}) :=
    Run.nil.calls quietLabels
  refine ⟨by decide +kernel, uses_right hrun ?_⟩
  simp only [quietLabels, trace, List.forall_mem_cons]
  exact ⟨trivial, trivial, trivial, trivial, trivial, quiet_of_still (by decide +kernel) _, trivial, trivial,
    List.forall_mem_nil _⟩

/-! ### A refresh that outlives the selection -/

/-- A selection is sent; a request then finds the token too old and begins a refresh; the selection is installed, and
then the tokens of the refresh. -/
def overtaken : List Label :=
  [.signIn false, .signedIn 1 0 (.tokens "a0" "r0" 60), .select 0 "w1", .resumed 0 true, .request 40000,
    .answered 0 (.tokens "a1" "r1" 60), .selected 0 41000, .refreshed 1 42000 (.tokens "a2" "r2" 60)]

/-- The tokens of the workspace that was left replace those of the selected one. -/
theorem not_right_overtaken :
    ¬ ∀ (τs : List (Transition State Label)) (s : State), Run Step {} τs s → ∀ u ∈ s.uses, u.Right := by
  intro h
  have hrun : Run Step {} (trace State.after {} overtaken) (overtaken.foldl State.after {}) := Run.nil.calls overtaken
  have hmem : ⟨.installed, ⟨1, none⟩, some ⟨1, some "w1"⟩⟩ ∈ (overtaken.foldl State.after {}).uses := by decide +kernel
  have hright : (some ⟨1, some "w1"⟩ : Option Scope) = some ⟨1, none⟩ := h _ _ hrun _ hmem
  exact absurd hright (by decide)

end AgentPlatform.Ui
