import AgentPlatform.Lib.Runs
import AgentPlatform.Runner.Loop

/-!
# A task runs at most once

A record goes from `started` to `done` and never back. The invariant `Sound` ties the journal to what
happened: a tool was started only for a task whose record is flushed, with the payload the record names, and
a record that says done holds what the tool returned. `Ready` says what the process has done so far with the
task it works on.

* `Sound.step`: one label;
* `executes_once`: every run.
-/

namespace AgentPlatform.Runner

open Runs

variable {lib : Library} {s t : State} {l : Label} {τs : List (Transition State Label)}

/-! ### Records -/

/-- A record stays, or goes from started to done with the same fingerprint. -/
def Record.Later (r r' : Record) : Prop :=
  r' = r ∨ ∃ claim ok result, r = .started claim r'.fingerprint ∧ r' = .done ok result r'.fingerprint

theorem Record.Later.refl (r : Record) : r.Later r := .inl rfl

variable {r : Record}

theorem Record.Later.fingerprint_eq {r' : Record} (h : r.Later r') : r'.fingerprint = r.fingerprint := by
  rcases h with rfl | ⟨claim, ok, result, hr, -⟩
  · rfl
  · rw [hr]
    rfl

theorem Record.Later.trans (r₁ r₂ r₃ : Record) (h : r₁.Later r₂) (h' : r₂.Later r₃) : r₁.Later r₃ := by
  rcases h with rfl | ⟨claim, ok, result, hstarted, hdone⟩
  · exact h'
  · rcases h' with rfl | ⟨claim', ok', result', hstarted', -⟩
    · exact .inr ⟨claim, ok, result, hstarted, hdone⟩
    · rw [hstarted'] at hdone
      cases hdone

variable {ok : Bool} {result : Json} {fingerprint : String}

theorem Record.Later.of_done (h : (Record.done ok result fingerprint).Later r) :
    r = .done ok result fingerprint := by
  rcases h with rfl | ⟨claim, ok', result', hstarted, -⟩
  · rfl
  · cases hstarted

/-! ### The journal and what happened -/

/-- The invariant of a run. -/
structure Sound (s : State) : Prop where
  forward : s.disk.Forward Record.Later
  /-- The record of a task whose tool was started is flushed, with its payload. -/
  started : ∀ p ∈ s.starts, ∃ r, s.disk.kept p.1 = some r ∧ r.fingerprint = p.2
  once : (s.starts.map Prod.fst).Nodup
  ran : ∀ o ∈ s.outcomes, o.1 ∈ s.starts.map Prod.fst
  returned : (s.outcomes.map Prod.fst).Nodup
  truthy : ∀ o ∈ s.outcomes, isTruthy o.2.2 = true
  done : ∀ id ok result fingerprint,
    s.disk.seen id = some (.done ok result fingerprint) → (id, ok, result) ∈ s.outcomes
  answered : ∀ a ∈ s.answers, a.uncertain = false → (a.id, a.ok, a.result) ∈ s.outcomes

/-- A task is journaled as started: every reader sees the record, and it is flushed. -/
def Marked (lib : Library) (s : State) (t : Task) : Prop :=
  ∃ claim, s.disk.kept t.id = some (.started claim (t.fingerprint lib)) ∧
    s.disk.seen t.id = some (.started claim (t.fingerprint lib))

/-- What is done so far for the task the process works on. -/
def Ready (lib : Library) (s : State) : Prop :=
  match s.stage with
  | .down | .idle | .next _ => True
  | .renaming t _ (.started _ fingerprint) => fingerprint = t.fingerprint lib ∧ s.disk.seen t.id = none
  | .renaming t _ (.done ok result fingerprint) =>
    fingerprint = t.fingerprint lib ∧ Marked lib s t ∧ (t.id, ok, result) ∈ s.outcomes
  | .syncing t _ (.started claim fingerprint) =>
    fingerprint = t.fingerprint lib ∧ s.disk.seen t.id = some (.started claim fingerprint) ∧
      t.id ∉ s.starts.map Prod.fst
  | .syncing t _ (.done ok result _) => (t.id, ok, result) ∈ s.outcomes
  | .launching t _ => Marked lib s t ∧ t.id ∉ s.starts.map Prod.fst
  | .running t _ =>
    Marked lib s t ∧ t.id ∈ s.starts.map Prod.fst ∧ t.id ∉ s.outcomes.map Prod.fst
  | .replying t _ ok result => (t.id, ok, result) ∈ s.outcomes

/-- The invariant. -/
def Inv (lib : Library) (s : State) : Prop := Sound s ∧ Ready lib s

theorem inv_empty : Inv lib {} where
  left :=
    { forward := Disk.forward_empty
      started := by simp
      once := List.nodup_nil
      ran := by simp
      returned := List.nodup_nil
      truthy := by simp
      done := fun _ _ _ _ h => by cases h
      answered := by simp }
  right := trivial

/-! ### What each statement keeps -/

theorem Sound.move (h : Sound s) (stage : Stage) : Sound { s with stage := stage } :=
  ⟨h.forward, h.started, h.once, h.ran, h.returned, h.truthy, h.done, h.answered⟩

variable {id : String}

theorem Sound.not_started (h : Sound s) (hnone : s.disk.seen id = none) : id ∉ s.starts.map Prod.fst := by
  intro hid
  obtain ⟨p, hp, rfl⟩ := List.mem_map.1 hid
  obtain ⟨r, hkept, -⟩ := h.started p hp
  obtain ⟨r', hseen, -⟩ := h.forward _ r hkept
  rw [hnone] at hseen
  cases hseen

theorem Sound.kept_done (h : Sound s) (hkept : s.disk.kept id = some (.done ok result fingerprint)) :
    (id, ok, result) ∈ s.outcomes := by
  obtain ⟨r, hseen, hlater⟩ := h.forward id _ hkept
  rw [hlater.of_done] at hseen
  exact h.done id ok result fingerprint hseen

theorem Sound.send (h : Sound s) (x : World) {a : Answer}
    (ha : a.uncertain = false → (a.id, a.ok, a.result) ∈ s.outcomes) : Sound (s.send x a) := by
  unfold State.send
  split
  · refine ⟨h.forward, h.started, h.once, h.ran, h.returned, h.truthy, h.done, ?_⟩
    intro b hb hcertain
    rcases List.mem_append.1 hb with hb | hb
    · exact h.answered b hb hcertain
    · obtain rfl := List.mem_singleton.1 hb
      exact ha hcertain
  · exact h

theorem Sound.rename (h : Sound s) (hnew : ∀ old, s.disk.seen id = some old → old.Later r)
    (hdone : ∀ ok result fingerprint, r = .done ok result fingerprint → (id, ok, result) ∈ s.outcomes) :
    Sound { s with disk := s.disk.rename id r } := by
  refine ⟨h.forward.rename Record.Later.trans hnew, h.started, h.once, h.ran, h.returned, h.truthy, ?_,
    h.answered⟩
  intro id' ok result fingerprint hseen
  by_cases hid : id' = id
  · subst hid
    exact hdone ok result fingerprint (Option.some.inj (Disk.rename_seen_self.symm.trans hseen))
  · exact h.done id' ok result fingerprint ((Disk.rename_seen_of_ne hid).symm.trans hseen)

/-- What is on the disk moves forward. -/
theorem Sound.settle (h : Sound s) {disk : Disk String Record} (hforward : disk.Forward Record.Later)
    (hkeeps : s.disk.Keeps Record.Later disk)
    (hseen : ∀ id, disk.seen id = s.disk.seen id ∨ disk.seen id = s.disk.kept id) :
    Sound { s with disk := disk } := by
  refine ⟨hforward, ?_, h.once, h.ran, h.returned, h.truthy, ?_, h.answered⟩
  · intro p hp
    obtain ⟨r, hkept, hprint⟩ := h.started p hp
    obtain ⟨r', hkept', hlater⟩ := hkeeps _ r hkept
    exact ⟨r', hkept', hlater.fingerprint_eq.trans hprint⟩
  · intro id ok result fingerprint hdone
    rcases hseen id with hold | hold
    · exact h.done id ok result fingerprint (hold ▸ hdone)
    · exact h.kept_done (hold ▸ hdone)

variable {task : Task}

/-- The tool of a task that is marked is started, for the first time. -/
theorem Sound.start (h : Sound s) (hmarked : Marked lib s task) (hfirst : task.id ∉ s.starts.map Prod.fst) :
    Sound { s with starts := s.starts ++ [(task.id, task.fingerprint lib)] } := by
  obtain ⟨claim, hkept, -⟩ := hmarked
  refine ⟨h.forward, ?_, ?_, ?_, h.returned, h.truthy, h.done, h.answered⟩
  · intro p hp
    rcases List.mem_append.1 hp with hp | hp
    · exact h.started p hp
    · obtain rfl := List.mem_singleton.1 hp
      exact ⟨_, hkept, rfl⟩
  · show ((s.starts ++ [_]).map Prod.fst).Nodup
    rw [List.map_append]
    exact List.nodup_append'.2 ⟨h.once, List.nodup_singleton _,
      List.disjoint_singleton.2 hfirst⟩
  · intro o ho
    show o.1 ∈ (s.starts ++ [_]).map Prod.fst
    rw [List.map_append]
    exact List.mem_append_left _ (h.ran o ho)

/-- The tool of a task that was started returns, for the first time. -/
theorem Sound.finish (h : Sound s) (hstarted : id ∈ s.starts.map Prod.fst)
    (hfirst : id ∉ s.outcomes.map Prod.fst) (htruthy : isTruthy result = true) :
    Sound { s with outcomes := s.outcomes ++ [(id, ok, result)] } := by
  refine ⟨h.forward, h.started, h.once, ?_, ?_, ?_, ?_, ?_⟩
  · intro o ho
    rcases List.mem_append.1 ho with ho | ho
    · exact h.ran o ho
    · obtain rfl := List.mem_singleton.1 ho
      exact hstarted
  · show ((s.outcomes ++ [_]).map Prod.fst).Nodup
    rw [List.map_append]
    exact List.nodup_append'.2 ⟨h.returned, List.nodup_singleton _,
      List.disjoint_singleton.2 hfirst⟩
  · intro o ho
    rcases List.mem_append.1 ho with ho | ho
    · exact h.truthy o ho
    · obtain rfl := List.mem_singleton.1 ho
      exact htruthy
  · intro id' ok' result' fingerprint hseen
    exact List.mem_append_left _ (h.done id' ok' result' fingerprint hseen)
  · intro a ha hcertain
    exact List.mem_append_left _ (h.answered a ha hcertain)

theorem isTruthy_outcome (x : World) : isTruthy (State.outcome x).2 = true := by
  unfold State.outcome
  cases x.returned with
  | none => rfl
  | some result =>
    show isTruthy (if isTruthy result then (true, result) else (false, failedResult)).2 = true
    by_cases hresult : isTruthy result = true
    · rw [if_pos hresult]
      exact hresult
    · rw [if_neg hresult]
      rfl

theorem Sound.answer_done (h : Sound s) (hseen : s.disk.seen task.id = some (.done ok result fingerprint)) :
    (Record.done ok result fingerprint).answer task = ⟨task.id, task.claim, false, ok, result⟩ := by
  have htruthy : isTruthy result = true := h.truthy _ (h.done _ _ _ _ hseen)
  show Answer.mk _ _ _ _ (if isTruthy result then result else uncertainResult) = _
  rw [if_pos htruthy]

theorem Sound.answer_certain (h : Sound s) (hseen : s.disk.seen task.id = some r)
    (hcertain : (r.answer task).uncertain = false) :
    ((r.answer task).id, (r.answer task).ok, (r.answer task).result) ∈ s.outcomes := by
  cases r with
  | started claim fingerprint => cases hcertain
  | done ok result fingerprint =>
    rw [h.answer_done hseen]
    exact h.done _ _ _ _ hseen

/-! ### One label -/

theorem Sound.rest (h : Sound s) {stage : Stage}
    (hstage : stage = .down ∨ stage = .idle ∨ ∃ tasks, stage = .next tasks) :
    Inv lib { s with stage := stage } := by
  refine ⟨h.move stage, ?_⟩
  rcases hstage with rfl | rfl | ⟨tasks, rfl⟩ <;> exact trivial

variable {record : Record}

theorem Sound.store (h : Sound s) (x : World) (rest : List Json)
    (hready : Ready lib { s with stage := .renaming task rest record }) :
    Inv lib (s.store lib x task rest record) := by
  unfold State.store
  cases record.fits lib && x.writable with
  | true => exact ⟨h.move _, hready⟩
  | false => exact h.rest (.inr (.inl rfl))

theorem Sound.receive (h : Sound s) (hidle : s.stage = .idle) (x : World) (msg : Json) (size : ℕ) :
    Inv lib (s.receive x msg size) := by
  have hsame : Inv lib s := ⟨h, by rw [Ready, hidle]; trivial⟩
  unfold State.receive
  split
  · exact h.rest (.inl rfl)
  split
  · exact hsame
  split
  · dsimp only
    split
    · exact h.rest (.inl rfl)
    · exact h.rest (.inr (.inr ⟨_, rfl⟩))
    · split
      · exact hsame
      · exact h.rest (.inr (.inr ⟨_, rfl⟩))
    · exact hsame
  · exact hsame

theorem Sound.look (h : Sound s) (x : World) (task : Json) (rest : List Json) :
    Inv lib (s.look lib x task rest) := by
  unfold State.look
  split
  · exact h.rest (.inl rfl)
  split
  · exact h.rest (.inr (.inl rfl))
  next valid hvalid =>
    split
    · exact h.rest (.inr (.inl rfl))
    split
    next old hold =>
      split
      · exact h.rest (.inr (.inl rfl))
      · exact (h.send x (h.answer_certain hold)).rest (.inr (.inr ⟨rest, rfl⟩))
    next hnone => exact h.store x rest ⟨rfl, hnone⟩

variable {rest : List Json} {old : Record}

theorem Inv.replaces (h : Inv lib s) (hstage : s.stage = .renaming task rest record)
    (hold : s.disk.seen task.id = some old) : old.Later record := by
  have hready := h.2
  rw [Ready, hstage] at hready
  cases record with
  | started claim fingerprint =>
    rw [hready.2] at hold
    cases hold
  | done ok result fingerprint =>
    obtain ⟨hprint, ⟨claim, -, hseen⟩, -⟩ := hready
    obtain rfl := Option.some.inj (hseen.symm.trans hold)
    exact .inr ⟨claim, ok, result, by rw [hprint]; rfl, rfl⟩

/-- The temporary file of a record becomes the record. -/
theorem Inv.renaming (h : Inv lib s) (hstage : s.stage = .renaming task rest record) :
    Inv lib { s with disk := s.disk.rename task.id record, stage := .syncing task rest record } := by
  have hreplaces : ∀ old, s.disk.seen task.id = some old → old.Later record :=
    fun old hold => h.replaces hstage hold
  obtain ⟨hsound, hready⟩ := h
  rw [Ready, hstage] at hready
  cases record with
  | started claim fingerprint =>
    obtain ⟨hprint, hnone⟩ := hready
    have hnew := hsound.rename hreplaces fun ok result f hdone => by cases hdone
    exact ⟨hnew.move _, hprint, Disk.rename_seen_self, hsound.not_started hnone⟩
  | done ok result fingerprint =>
    obtain ⟨-, -, hout⟩ := hready
    have hnew := hsound.rename hreplaces fun ok' result' f hdone => by
      cases hdone
      exact hout
    exact ⟨hnew.move _, hout⟩

theorem Inv.syncing (h : Inv lib s) (hstage : s.stage = .syncing task rest record) :
    Inv lib { s with disk := s.disk.sync, stage := record.resume task rest } := by
  obtain ⟨hsound, hready⟩ := h
  rw [Ready, hstage] at hready
  have hsync : Sound { s with disk := s.disk.sync } :=
    hsound.settle (.sync Record.Later.refl) hsound.forward.keeps_sync fun _ => .inl rfl
  cases record with
  | started claim fingerprint =>
    obtain ⟨rfl, hseen, hfirst⟩ := hready
    exact ⟨hsync.move _, ⟨claim, hseen, hseen⟩, hfirst⟩
  | done ok result fingerprint => exact ⟨hsync.move _, hready⟩

theorem Inv.launching (h : Inv lib s) (hstage : s.stage = .launching task rest) :
    Inv lib { s with
      stage := .running task rest
      starts := s.starts ++ [(task.id, task.fingerprint lib)] } := by
  obtain ⟨hsound, hready⟩ := h
  rw [Ready, hstage] at hready
  obtain ⟨hmarked, hfirst⟩ := hready
  refine ⟨(hsound.start hmarked hfirst).move _, hmarked, ?_, ?_⟩
  · show task.id ∈ (s.starts ++ [_]).map Prod.fst
    simp
  · intro hout
    obtain ⟨o, ho, hid⟩ := List.mem_map.1 hout
    exact hfirst (hid ▸ hsound.ran o ho)

theorem Inv.running (h : Inv lib s) (hstage : s.stage = .running task rest) (x : World)
    (hresult : isTruthy result = true) :
    Inv lib ({ s with outcomes := s.outcomes ++ [(task.id, ok, result)] }.store lib x task rest
      (.done ok result (task.fingerprint lib))) := by
  obtain ⟨hsound, hready⟩ := h
  rw [Ready, hstage] at hready
  obtain ⟨hmarked, hstarted, hfirst⟩ := hready
  refine (hsound.finish hstarted hfirst hresult).store x rest ⟨rfl, hmarked, ?_⟩
  show _ ∈ s.outcomes ++ [_]
  simp

theorem Inv.work (h : Inv lib s) (x : World) : Inv lib (s.work lib x) := by
  unfold State.work
  split
  next => exact h
  next => exact h
  next => exact h.1.rest (.inr (.inl rfl))
  next task rest _ => exact h.1.look x task rest
  next task rest record hstage =>
    split
    · exact h.renaming hstage
    · exact h.1.rest (.inr (.inl rfl))
  next task rest record hstage =>
    split
    · exact h.syncing hstage
    · exact h.1.rest (.inr (.inl rfl))
  next task rest hstage => exact h.launching hstage
  next task rest hstage => exact h.running hstage x (isTruthy_outcome x)
  next task rest ok result hstage =>
    have hout : (task.id, ok, result) ∈ s.outcomes := by
      have hready := h.2
      rwa [Ready, hstage] at hready
    exact (h.1.send x fun _ => hout).rest (.inr (.inr ⟨rest, rfl⟩))

theorem Inv.step (h : Inv lib s) (hstep : Step lib s l t) : Inv lib t := by
  obtain rfl := hstep
  cases l with
  | boot =>
    unfold State.after
    dsimp only
    split
    · exact h.1.rest (.inr (.inl rfl))
    · exact h
  | message x msg size =>
    unfold State.after
    dsimp only
    split
    next hidle => exact h.1.receive hidle x msg size
    next => exact h
  | work x => exact h.work x
  | kill => exact h.1.rest (.inl rfl)
  | power survives =>
    have hlose : Sound { s with disk := s.disk.lose survives } :=
      h.1.settle (.lose Record.Later.refl survives) (h.1.forward.keeps_lose Record.Later.refl survives)
        fun id => (s.disk.lose_eq survives id).2
    exact hlose.rest (.inl rfl)

/-! ### The journal along a run -/

@[simp] theorem send_disk (x : World) (a : Answer) : (s.send x a).disk = s.disk := by
  unfold State.send
  split <;> rfl

@[simp] theorem send_starts (x : World) (a : Answer) : (s.send x a).starts = s.starts := by
  unfold State.send
  split <;> rfl

theorem send_answers (x : World) (a : Answer) :
    (s.send x a).answers = s.answers ++ if x.connected then [a] else [] := by
  unfold State.send
  split <;> simp_all

theorem receive_same (x : World) (msg : Json) (size : ℕ) :
    (s.receive x msg size).disk = s.disk ∧ (s.receive x msg size).starts = s.starts := by
  unfold State.receive
  dsimp only
  repeat' split
  all_goals exact ⟨rfl, rfl⟩

theorem look_same (x : World) (task : Json) (rest : List Json) :
    (s.look lib x task rest).disk = s.disk ∧ (s.look lib x task rest).starts = s.starts := by
  unfold State.look
  repeat' split
  all_goals first | exact ⟨rfl, rfl⟩ | exact ⟨send_disk .., send_starts ..⟩

theorem work_disk (x : World) :
    (s.work lib x).disk = s.disk ∨ (s.work lib x).disk = s.disk.sync ∨
      ∃ task rest record, s.stage = .renaming task rest record ∧
        (s.work lib x).disk = s.disk.rename task.id record := by
  unfold State.work
  split
  next => exact .inl rfl
  next => exact .inl rfl
  next => exact .inl rfl
  next task rest _ => exact .inl (look_same x task rest).1
  next task rest record hstage =>
    split
    · exact .inr (.inr ⟨task, rest, record, hstage, rfl⟩)
    · exact .inl rfl
  next =>
    split
    · exact .inr (.inl rfl)
    · exact .inl rfl
  next => exact .inl rfl
  next => exact .inl rfl
  next => exact .inl (send_disk ..)

/-- What one label does to the journal. -/
theorem step_disk (hstep : Step lib s l t) :
    t.disk = s.disk ∨ t.disk = s.disk.sync ∨
      (∃ task rest record, s.stage = .renaming task rest record ∧ t.disk = s.disk.rename task.id record) ∨
        ∃ survives, l = .power survives ∧ t.disk = s.disk.lose survives := by
  obtain rfl := hstep
  cases l with
  | boot =>
    unfold State.after
    dsimp only
    split <;> exact .inl rfl
  | message x msg size =>
    unfold State.after
    dsimp only
    split
    · exact .inl (receive_same x msg size).1
    · exact .inl rfl
  | work x =>
    have hdisk : (s.work lib x).disk = s.disk ∨ _ := work_disk x
    rcases hdisk with h | h | h
    · exact .inl h
    · exact .inr (.inl h)
    · exact .inr (.inr (.inl h))
  | kill => exact .inl rfl
  | power survives => exact .inr (.inr (.inr ⟨survives, rfl, rfl⟩))

theorem Inv.keeps (h : Inv lib s) (hstep : Step lib s l t) : s.disk.Keeps Record.Later t.disk := by
  rcases step_disk hstep with hd | hd | ⟨task, rest, record, -, hd⟩ | ⟨survives, -, hd⟩ <;> rw [hd]
  · exact Disk.keeps_of_eq Record.Later.refl rfl
  · exact h.1.forward.keeps_sync
  · exact Disk.keeps_of_eq Record.Later.refl rfl
  · exact h.1.forward.keeps_lose Record.Later.refl survives

theorem Inv.shows (h : Inv lib s) (hstep : Step lib s l t) (hpower : ∀ survives, l ≠ .power survives) :
    s.disk.Shows Record.Later t.disk := by
  rcases step_disk hstep with hd | hd | ⟨task, rest, record, hstage, hd⟩ | ⟨survives, hl, -⟩
  · rw [hd]
    exact Disk.shows_of_eq Record.Later.refl rfl
  · rw [hd]
    exact Disk.shows_of_eq Record.Later.refl rfl
  · rw [hd]
    exact Disk.shows_rename Record.Later.refl fun old hold => h.replaces hstage hold
  · exact absurd hl (hpower survives)

/-- A tool is started only for a task that is marked. -/
theorem Inv.starts (h : Inv lib s) (hstep : Step lib s l t) :
    t.starts = s.starts ∨
      ∃ task, Marked lib s task ∧ t.starts = s.starts ++ [(task.id, task.fingerprint lib)] := by
  obtain rfl := hstep
  cases l with
  | boot =>
    unfold State.after
    dsimp only
    split <;> exact .inl rfl
  | message x msg size =>
    unfold State.after
    dsimp only
    split
    · exact .inl (receive_same x msg size).2
    · exact .inl rfl
  | work x =>
    show (s.work lib x).starts = _ ∨ ∃ task, _ ∧ (s.work lib x).starts = _
    unfold State.work
    split
    next => exact .inl rfl
    next => exact .inl rfl
    next => exact .inl rfl
    next task rest _ => exact .inl (look_same x task rest).2
    next => split <;> exact .inl rfl
    next => split <;> exact .inl rfl
    next task rest hstage =>
      have hready := h.2
      rw [Ready, hstage] at hready
      exact .inr ⟨task, hready.1, rfl⟩
    next => exact .inl rfl
    next => exact .inl (send_starts ..)
  | kill => exact .inl rfl
  | power survives => exact .inl rfl

theorem Sound.starts_eq (h : Sound s) (hstart : (id, fingerprint) ∈ s.starts) :
    (∀ r, s.disk.kept id = some r → fingerprint = r.fingerprint) ∧
      ∀ r, s.disk.seen id = some r → fingerprint = r.fingerprint := by
  obtain ⟨r₀, hkept, hprint⟩ := h.started _ hstart
  obtain ⟨r₁, hseen, hlater⟩ := h.forward _ r₀ hkept
  refine ⟨fun r hr => ?_, fun r hr => ?_⟩
  · obtain rfl := Option.some.inj (hkept.symm.trans hr)
    exact hprint.symm
  · obtain rfl := Option.some.inj (hseen.symm.trans hr)
    exact (hlater.fingerprint_eq.trans hprint).symm

/-! ### Every run -/

/-- The power failed. -/
def Label.CutsPower (l : Label) : Prop := ∃ survives, l = .power survives

variable {τ : Transition State Label}

/-- A record stands as long as it is flushed or the power stays on: the tool of its task is started, before
or after, with its payload or not at all. -/
theorem Inv.payload {post : List (Transition State Label)} (h : Inv lib τ.src)
    (hstep : Step lib τ.src τ.label τ.dst) (hrun : Run (Step lib) τ.dst post s)
    (hseen : τ.src.disk.seen id = some r)
    (hstands : τ.src.disk.kept id = some r ∨ ∀ τ' ∈ τ :: post, ¬ τ'.label.CutsPower)
    (hstart : (id, fingerprint) ∈ s.starts) : fingerprint = r.fingerprint := by
  rcases hstands with hkept | hpower
  · have hkeeps : Inv lib s ∧ τ.src.disk.Keeps Record.Later s.disk := by
      refine hrun.invariant (I := fun u => Inv lib u ∧ τ.src.disk.Keeps Record.Later u.disk)
        ⟨h.step hstep, h.keeps hstep⟩ ?_
      intro u l v ⟨hu, hold⟩ huv
      exact ⟨hu.step huv, hold.trans Record.Later.trans (hu.keeps huv)⟩
    obtain ⟨hs, hkeeps⟩ := hkeeps
    obtain ⟨r', hkept', hlater⟩ := hkeeps id r hkept
    exact ((hs.1.starts_eq hstart).1 r' hkept').trans hlater.fingerprint_eq
  · obtain ⟨hfirst, hlast⟩ := List.forall_mem_cons.1 hpower
    have hshows : Inv lib s ∧ τ.src.disk.Shows Record.Later s.disk := by
      have hguarded : Run (guarded (fun _ l => ¬ l.CutsPower) (Step lib)) τ.dst post s :=
        hrun.guard hlast
      refine hguarded.invariant
        (I := fun u => Inv lib u ∧ τ.src.disk.Shows Record.Later u.disk)
        ⟨h.step hstep, h.shows hstep fun survives hl => hfirst ⟨survives, hl⟩⟩ ?_
      intro u l v ⟨hu, hold⟩ ⟨huv, hl⟩
      exact ⟨hu.step huv,
        hold.trans Record.Later.trans (hu.shows huv fun survives hcut => hl ⟨survives, hcut⟩)⟩
    obtain ⟨hs, hshows⟩ := hshows
    obtain ⟨r', hseen', hlater⟩ := hshows id r hseen
    exact ((hs.1.starts_eq hstart).2 r' hseen').trans hlater.fingerprint_eq

/-- The loop comes to a valid task that has a record. -/
structure Redelivery (lib : Library) (τ : Transition State Label) (x : World) (task : Task) (rest : List Json)
    (old : Record) : Prop where
  label : τ.label = .work x
  stage : ∃ json, τ.src.stage = .next (json :: rest) ∧ validateTask lib x.now json = some task
  going : x.stop = false
  readable : x.readable = true
  journaled : τ.src.disk.seen task.id = some old

variable {x : World}

theorem Redelivery.dst_eq (h : Redelivery lib τ x task rest old) (hstep : Step lib τ.src τ.label τ.dst) :
    τ.dst =
      if old.fingerprint ≠ task.fingerprint lib then { τ.src with stage := .idle }
      else { τ.src.send x (old.answer task) with stage := .next rest } := by
  obtain ⟨json, hstage, hvalid⟩ := h.stage
  rw [hstep, h.label]
  show τ.src.work lib x = _
  rw [State.work, hstage]
  show τ.src.look lib x json rest = _
  simp [State.look, h.going, hvalid, h.readable, h.journaled]

theorem Redelivery.refused (h : Redelivery lib τ x task rest old) (hstep : Step lib τ.src τ.label τ.dst)
    (hother : old.fingerprint ≠ task.fingerprint lib) : τ.dst = { τ.src with stage := .idle } := by
  rw [h.dst_eq hstep, if_pos hother]

theorem Redelivery.answered (h : Redelivery lib τ x task rest old) (hstep : Step lib τ.src τ.label τ.dst)
    (hsame : old.fingerprint = task.fingerprint lib) :
    τ.dst.stage = .next rest ∧ τ.dst.starts = τ.src.starts ∧
      τ.dst.answers = τ.src.answers ++ if x.connected then [old.answer task] else [] := by
  rw [h.dst_eq hstep, if_neg (not_not.2 hsame)]
  exact ⟨rfl, send_starts .., send_answers ..⟩

/-- **A task runs at most once.** Whatever is delivered, in whatever order and how often, and wherever the
process is killed, restarted or loses power: no task's tool is started twice, and none is started unless the
task is on the disk as started with that payload. A task journaled with one payload is not started with
another one. A re-delivery of a task journaled as done is answered with what its tool returned, one of a task
journaled as started is answered uncertain, and one with another payload is refused. -/
theorem executes_once (h : Run (Step lib) {} τs s) :
    (s.starts.map Prod.fst).Nodup ∧
      (∀ τ ∈ τs, τ.dst.starts = τ.src.starts ∨
        ∃ task, Marked lib τ.src task ∧
          τ.dst.starts = τ.src.starts ++ [(task.id, task.fingerprint lib)]) ∧
      (∀ pre τ post, τs = pre ++ τ :: post → ∀ id r, τ.src.disk.seen id = some r →
        (τ.src.disk.kept id = some r ∨ ∀ τ' ∈ τ :: post, ¬ τ'.label.CutsPower) →
        ∀ fingerprint, (id, fingerprint) ∈ s.starts → fingerprint = r.fingerprint) ∧
      (∀ τ ∈ τs, ∀ x task rest old, Redelivery lib τ x task rest old →
        τ.dst.starts = τ.src.starts ∧
        (old.fingerprint ≠ task.fingerprint lib →
          τ.dst.answers = τ.src.answers ∧ τ.dst.stage = .idle) ∧
        (∀ claim, old = .started claim (task.fingerprint lib) →
          τ.dst.answers = τ.src.answers ++
            if x.connected then [⟨task.id, task.claim, true, false, uncertainResult⟩] else []) ∧
        ∀ ok result, old = .done ok result (task.fingerprint lib) →
          (task.id, ok, result) ∈ τ.src.outcomes ∧
          τ.dst.answers = τ.src.answers ++
            if x.connected then [⟨task.id, task.claim, false, ok, result⟩] else []) ∧
      (s.outcomes.map Prod.fst).Nodup ∧
      ∀ a ∈ s.answers, a.uncertain = false → (a.id, a.ok, a.result) ∈ s.outcomes := by
  have hstep : ∀ u l v, Inv lib u → Step lib u l v → Inv lib v := fun u l v hu huv => hu.step huv
  have hend : Inv lib s := h.invariant inv_empty hstep
  refine ⟨hend.1.once, ?_, ?_, ?_, hend.1.returned, hend.1.answered⟩
  · intro τ hτ
    obtain ⟨hτstep, hsrc⟩ := h.always inv_empty hstep hτ
    exact hsrc.starts hτstep
  · rintro pre τ post rfl id r hseen hstands fingerprint hstart
    obtain ⟨hpre, hτstep⟩ := h.split
    exact (hpre.invariant inv_empty hstep).payload hτstep h.rest hseen hstands hstart
  · intro τ hτ x task rest old hre
    obtain ⟨hτstep, hsrc⟩ := h.always inv_empty hstep hτ
    refine ⟨?_, ?_, ?_, ?_⟩
    · rw [hre.dst_eq hτstep]
      split
      · rfl
      · exact send_starts ..
    · intro hother
      rw [hre.refused hτstep hother]
      exact ⟨rfl, rfl⟩
    · rintro claim rfl
      exact (hre.answered hτstep rfl).2.2
    · rintro ok result rfl
      refine ⟨hsrc.1.done _ _ _ _ hre.journaled, ?_⟩
      rw [← hsrc.1.answer_done hre.journaled]
      exact (hre.answered hτstep rfl).2.2

/-! ### A run -/

/-- The text of an object, for members that are not objects with several members themselves. -/
def sampleText : Json → String
  | .obj members =>
    "\x7b" ++ ",".intercalate (members.map fun m => Json.quote m.1 ++ ":" ++ m.2.encode) ++ "\x7d"
  | json => json.encode

def sampleLibrary : Library where
  sha256 text :=
    if text = "\x7b\"tool\":\"fs.list\",\"args\":\x7b\"dir\":\"/srv/docs\"\x7d\x7d" then
      "3050f79c8905d723bdbc4b4d142fa5206dbb1f84139845c905de7885e183680f"
    else "51854e90574af3a6d17fa22f7212cdd20f4b2a6bc6c8f66bb664e82323904481"
  stringify := sampleText
  number := fun _ => none

/-- A message with one listing task. -/
def sampleMessage (id dir : String) : Json :=
  .obj [("tasks", .arr [.obj [("id", .str id), ("claim", .str "0123456789abcdef0123456789abcdef"),
    ("lease", .int 1000), ("tool", .str "fs.list"), ("params", .obj [("dir", .str dir)])]])]

def sampleWorld : World where
  now := 900000
  returned := some (.obj [("entries", .arr []), ("truncated", .bool false)])

def firstTask : String := "aaaaaaaaaaaaaaaaaaaaaaaaaaaaaaaa"

def secondTask : String := "bbbbbbbbbbbbbbbbbbbbbbbbbbbbbbbb"

/-- The first task is delivered again after a crash that came while its tool ran, the second one after it was
done, once with the same and once with another payload. -/
def sampleLabels : List Label :=
  .boot :: .message sampleWorld (sampleMessage firstTask "/srv/docs") 200 ::
    List.replicate 4 (.work sampleWorld) ++ .kill :: .boot ::
    .message sampleWorld (sampleMessage firstTask "/srv/docs") 200 ::
    List.replicate 2 (.work sampleWorld) ++
    .message sampleWorld (sampleMessage secondTask "/srv/docs") 200 ::
    List.replicate 9 (.work sampleWorld) ++
    .message sampleWorld (sampleMessage secondTask "/srv/docs") 200 ::
    List.replicate 2 (.work sampleWorld) ++
    .message sampleWorld (sampleMessage secondTask "/srv/logs") 200 :: [.work sampleWorld]

def sampleState : State := sampleLabels.foldl (State.after sampleLibrary) {}

theorem executes_once_sample :
    sampleState.starts.map Prod.fst = [firstTask, secondTask] ∧
      sampleState.answers.map (fun a => (a.id, a.uncertain, a.ok)) =
        [(firstTask, true, false), (secondTask, false, true), (secondTask, false, true)] ∧
      (sampleState.outcomes.map Prod.fst).Nodup ∧
      ∀ a ∈ sampleState.answers, a.uncertain = false → (a.id, a.ok, a.result) ∈ sampleState.outcomes := by
  have hrun : Run (Step sampleLibrary) {} (trace (State.after sampleLibrary) {} sampleLabels) sampleState :=
    Run.nil.calls sampleLabels
  obtain ⟨-, -, -, -, hreturned, hanswered⟩ := executes_once hrun
  exact ⟨by decide +kernel, by decide +kernel, hreturned, hanswered⟩

end AgentPlatform.Runner
