import AgentPlatform.Conversation.Effects
import AgentPlatform.Engine.Destinations

/-!
# One live turn per conversation

Where the clock never goes back between recordings, the turns lie in the table in the order of their
arrival. The invariant `Ordered` says that in a conversation every turn before a busy one, and before one
some worker is about to open, is over; so at most one turn is busy, and turns are opened in the order of
their arrival.
-/

namespace AgentPlatform.Conversation

open Outcome Engine Table Runs

/-- Some worker is about to open the turn with this key. -/
def Held (s : State) (k : String × String × String) : Prop :=
  ∃ w u, (s.workers w).candidate? = some u ∧ u.key = k

/-- A turn `v` that is busy or about to be opened finds the earlier turn `u` of its conversation over. -/
def Clears (s : State) (u v : TurnRow) : Prop :=
  u.conversation = v.conversation → v.status.busy = true ∨ Held s v.key → 3 ≤ u.status.rank

/-- The invariant of the turns. -/
structure Ordered (s : State) : Prop where
  keyed : Keyed TurnRow.key s.turns
  sorted : s.turns.Pairwise fun u v => u.created ≤ v.created
  clear : s.turns.Pairwise (Clears s)
  held : ∀ k, Held s k → ∃ v ∈ s.turns, v.key = k
  room : ∀ tenant, inFlight s.turns tenant ≤ maxOpenTurns

/-- The reading of the clock a recording stamps its turn with. -/
def Label.recordedAt? : Label → Option Time
  | .record env .. => some env.now
  | _ => none

/-- A recording does not read an earlier time than any turn carries. -/
def Forward (s : State) (l : Label) : Prop :=
  ∀ now, l.recordedAt? = some now → ∀ u ∈ s.turns, u.created ≤ now

/-- A transition opens a turn. -/
def Opens (τ : Transition State Label) (u : TurnRow) : Prop :=
  u ∈ τ.src.turns ∧ u.status = .queued ∧ ∃ v ∈ τ.dst.turns, v.key = u.key ∧ v.status = .opened

theorem ordered_empty : Ordered {} where
  keyed := keyed_nil _
  sorted := .nil
  clear := .nil
  held k hk := by
    obtain ⟨w, u, hu, -⟩ := hk
    cases hu
  room tenant := Nat.zero_le _

section Step

variable {P : Platform} {s t : State} {w : ℕ} {env : Env} {l : Label} {u : TurnRow}
  {p : TurnRow → Bool} {f : TurnRow → TurnRow}

theorem held_goto {stage : Stage} {k : String × String × String} (h : Held (s.goto w stage) k) :
    (∃ u, stage.candidate? = some u ∧ u.key = k) ∨ Held s k := by
  obtain ⟨v, u, hu, hk⟩ := h
  rw [goto_workers] at hu
  split at hu
  · exact .inl ⟨u, hu, hk⟩
  · exact .inr ⟨v, u, hu, hk⟩

theorem held_goto_none {stage : Stage} {k : String × String × String}
    (h : Held (s.goto w stage) k) (hstage : stage.candidate? = none) : Held s k := by
  refine (held_goto h).resolve_left ?_
  rintro ⟨u, hu, -⟩
  rw [hstage] at hu
  cases hu

theorem rank_of_over {status : TurnStatus} (hqueued : status ≠ .queued)
    (hbusy : status.busy = false) : 3 ≤ status.rank := by
  cases status <;> simp_all [TurnStatus.busy, TurnStatus.rank]

theorem not_busy_of_rank {status : TurnStatus} (h : 3 ≤ status.rank) : status.busy = false := by
  cases status <;> simp_all [TurnStatus.busy, TurnStatus.rank]

theorem Ordered.congr (h : Ordered s) (hturns : t.turns = s.turns)
    (hheld : ∀ k, Held t k → Held s k) : Ordered t where
  keyed := hturns ▸ h.keyed
  sorted := hturns ▸ h.sorted
  clear := by
    rw [hturns]
    refine h.clear.imp fun {u v} hclear hsame hv => hclear hsame ?_
    exact hv.imp_right (hheld v.key)
  held k hk := hturns ▸ h.held k (hheld k hk)
  room := hturns ▸ h.room

/-- The first queued turn of a conversation without a busy one finds all earlier turns of the
conversation over. -/
theorem Ordered.first_clear (h : Ordered s) {tenant : String}
    (hfirst : (sortedTurns (openable s.turns tenant) s.turns).head? = some u) :
    s.turns.Pairwise fun a b => b.key = u.key → a.conversation = b.conversation →
      3 ≤ a.status.rank := by
  have hsorted : sortedTurns (openable s.turns tenant) s.turns =
      s.turns.filter (openable s.turns tenant) := (h.sorted.filter _).insertionSort_eq
  rw [hsorted, List.head?_filter, List.find?_eq_some_iff_append] at hfirst
  obtain ⟨hopen, pre, post, hsplit, hpre⟩ := hfirst
  have hkeyed := h.keyed
  rw [hsplit] at hkeyed
  have hbefore := hkeyed.before (q := fun a => openable s.turns tenant a = false)
    fun a ha => by simpa using hpre a ha
  rw [← hsplit] at hbefore
  refine hbefore.imp_of_mem fun {a b} ha hb hq hkey hsame => ?_
  obtain rfl : b = u := h.keyed.eq_of_key hb (hsplit ▸ List.mem_append_right _ List.mem_cons_self) hkey
  simp only [openable, Bool.and_eq_true, decide_eq_true_eq, Bool.not_eq_true'] at hopen
  obtain ⟨⟨htenant, -⟩, hnone⟩ := hopen
  rw [List.any_eq_false] at hnone
  have hbusy : a.status.busy = false := by
    have hn := hnone a ha
    simpa [hsame] using hn
  refine rank_of_over (fun hqueued => ?_) hbusy
  -- the earlier turn would have been found instead
  have hopen : openable s.turns tenant a = true := by
    have hatenant : a.tenant = tenant := (congrArg Prod.fst hsame).trans htenant
    unfold openable
    rw [hsame, List.any_eq_false.2 hnone]
    simp [hatenant, hqueued]
  rw [hq hkey] at hopen
  cases hopen

/-- A worker that goes on with its turn, drops it, or takes up the first turn that may be opened. -/
theorem Ordered.moved (h : Ordered s) {stage : Stage}
    (hcandidate : stage.candidate? = none ∨ stage.candidate? = (s.workers w).candidate? ∨
      ∃ tenant u, (sortedTurns (openable s.turns tenant) s.turns).head? = some u ∧
        stage.candidate? = some u) : Ordered (s.goto w stage) := by
  rcases hcandidate with hnone | hsame | ⟨tenant, u, hfirst, hstage⟩
  · exact h.congr rfl fun k hk => held_goto_none hk hnone
  · refine h.congr rfl fun k hk => ?_
    rcases held_goto hk with ⟨u, hu, hk⟩ | hk
    · exact ⟨w, u, hsame ▸ hu, hk⟩
    · exact hk
  · refine ⟨h.keyed, h.sorted, ?_, fun k hk => ?_, h.room⟩
    · refine (h.clear.and (h.first_clear hfirst)).imp fun {a b} hab hsame hb => ?_
      rcases hb with hbusy | hk
      · exact hab.1 hsame (.inl hbusy)
      · rcases held_goto hk with ⟨u', hu', hkey⟩ | hk
        · obtain rfl := Option.some.inj (hstage.symm.trans hu')
          exact hab.2 hkey.symm hsame
        · exact hab.1 hsame (.inr hk)
    · rcases held_goto hk with ⟨u', hu', hkey⟩ | hk
      · obtain rfl := Option.some.inj (hstage.symm.trans hu')
        exact ⟨u, (mem_of_first hfirst).1, hkey⟩
      · exact h.held k hk

/-- A new turn waits or is throttled; it comes last. -/
theorem Ordered.recorded (h : Ordered s) {history : List LineRow} (hfresh : ∀ v ∈ s.turns, v.key ≠ u.key)
    (hstatus : u.status = .queued ∨ u.status = .throttled)
    (hnow : ∀ v ∈ s.turns, v.created ≤ u.created) :
    Ordered { s with turns := s.turns ++ [u], history := history } where
  keyed := h.keyed.insert hfresh
  sorted := by
    rw [List.pairwise_append]
    refine ⟨h.sorted, List.pairwise_singleton _ _, fun v hv x hx => ?_⟩
    obtain rfl := List.mem_singleton.1 hx
    exact hnow v hv
  clear := by
    rw [List.pairwise_append]
    refine ⟨h.clear, List.pairwise_singleton _ _, fun v hv x hx _ hbusy => ?_⟩
    obtain rfl := List.mem_singleton.1 hx
    rcases hbusy with hbusy | hk
    · rcases hstatus with hs | hs <;> rw [hs] at hbusy <;> cases hbusy
    · obtain ⟨y, hy, hkey⟩ := h.held x.key hk
      exact absurd hkey (hfresh y hy)
  held k hk := by
    obtain ⟨v, hv, hkey⟩ := h.held k hk
    exact ⟨v, List.mem_append_left _ hv, hkey⟩
  room tenant := by
    have hnew : ([u].countP fun x => decide (x.tenant = tenant) && decide (x.status = .opened)) = 0 := by
      rcases hstatus with hs | hs <;> simp [hs]
    show inFlight (s.turns ++ [u]) tenant ≤ _
    unfold inFlight
    rw [List.countP_append, hnew]
    exact h.room tenant

/-- A write to one turn that makes nothing busy but what was busy or about to be opened. -/
theorem Ordered.setTurn (h : Ordered s) (hkey : ∀ x, (f x).key = x.key)
    (hkept : ∀ x, p x = true → Kept x (f x))
    (hbusy : ∀ x ∈ s.turns, x.key = u.key → p x = true → (f x).status.busy = true →
      x.status.busy = true ∨ Held s x.key)
    (hroom : ∀ tenant, inFlight (s.setTurn u p f).turns tenant ≤ maxOpenTurns) :
    Ordered ((s.setTurn u p f).goto w .idle) := by
  have hrows : ∀ x ∈ s.turns, (decide (x.key = u.key) && p x) = true → Kept x (f x) := by
    intro x hx hp
    simp only [Bool.and_eq_true, decide_eq_true_eq] at hp
    exact hkept x hp.2
  have hg : ∀ x ∈ s.turns, Kept x (if (decide (x.key = u.key) && p x) = true then f x else x) := by
    intro x hx
    split
    · exact hrows x hx ‹_›
    · exact .refl x
  have hheld : ∀ k, Held ((s.setTurn u p f).goto w .idle) k → Held s k := by
    intro k hk
    have hgoto : Held (s.goto w .idle) k := hk
    exact held_goto_none hgoto rfl
  have hturns : ((s.setTurn u p f).goto w .idle).turns =
      s.turns.map fun x => if (decide (x.key = u.key) && p x) = true then f x else x := rfl
  refine ⟨h.keyed.update hkey, ?_, ?_, fun k hk => ?_, hroom⟩
  · rw [hturns, List.pairwise_map]
    refine h.sorted.imp_of_mem fun {a b} ha hb hle => ?_
    rw [(hg a ha).created, (hg b hb).created]
    exact hle
  · rw [hturns, List.pairwise_map]
    refine h.clear.imp_of_mem fun {a b} ha hb hclear hsame hb' => ?_
    rw [(hg a ha).conversation, (hg b hb).conversation] at hsame
    refine Nat.le_trans (hclear hsame ?_) (hg a ha).rank_le
    rcases hb' with hbusy' | hk
    · split at hbusy'
      · rename_i hp
        simp only [Bool.and_eq_true, decide_eq_true_eq] at hp
        exact hbusy b hb hp.1 hp.2 hbusy'
      · exact .inl hbusy'
    · rw [(hg b hb).key] at hk
      exact .inr (hheld _ hk)
  · obtain ⟨v, hv, hkey'⟩ := h.held k (hheld k hk)
    obtain ⟨v', hv', hk'⟩ := (grown_update hrows).kept v hv
    exact ⟨v', hv', hk'.key.trans hkey'⟩

theorem Ordered.write (h : Ordered s) (hkey : ∀ x, (f x).key = x.key)
    (hkept : ∀ x, p x = true → Kept x (f x))
    (hbusy : ∀ x, p x = true → (f x).status.busy = true → x.status.busy = true)
    (hopen : ∀ x, p x = true → (f x).status ≠ .opened) :
    Ordered ((s.setTurn u p f).goto w .idle) := by
  refine h.setTurn hkey hkept (fun x _ _ hp hb => .inl (hbusy x hp hb)) fun tenant => ?_
  refine Nat.le_trans (countP_update_le fun x _ hp hq => ?_) (h.room tenant)
  simp only [Bool.and_eq_true, decide_eq_true_eq] at hp hq
  exact absurd hq.2 (hopen x hp.2)

/-- The turn a worker holds is opened. -/
theorem Ordered.opened (h : Ordered s) (hheld : Held s u.key) (hkey : ∀ x, (f x).key = x.key)
    (hkept : ∀ x, decide (x.status = .queued) = true → Kept x (f x))
    (hroom : inFlight s.turns u.tenant < maxOpenTurns) :
    Ordered ((s.setTurn u (fun x => x.status = .queued) f).goto w .idle) := by
  refine h.setTurn hkey hkept ?_ fun tenant => ?_
  · intro x _ hkey _ _
    exact .inr (hkey ▸ hheld)
  · have hone : s.turns.Pairwise fun x y =>
        (decide (x.key = u.key) && decide (x.status = .queued)) = true →
          (decide (y.key = u.key) && decide (y.status = .queued)) = false := by
      refine (List.pairwise_map.1 h.keyed).imp fun {x y} hne hx => ?_
      simp only [Bool.and_eq_true, decide_eq_true_eq] at hx
      have hy : y.key ≠ u.key := fun hy => hne (hx.1.trans hy.symm)
      simp [hy]
    by_cases htenant : tenant = u.tenant
    · subst htenant
      exact Nat.le_trans (countP_update_le_succ hone) hroom
    · -- the turns of another tenant are not touched
      refine Nat.le_trans (countP_update_le fun x _ hp hq => ?_) (h.room tenant)
      simp only [Bool.and_eq_true, decide_eq_true_eq] at hp hq
      have hx : x.tenant = tenant := (congrArg Prod.fst (hkey x)).symm.trans hq.1
      exact absurd (hx.symm.trans (congrArg Prod.fst hp.1)) htenant

theorem Ordered.wrote (h : Ordered s) (hsound : Sound s.turns (s.workers w))
    (hwrite : Write s (s.workers w) env u p f) : Ordered ((s.setTurn u p f).goto w .idle) := by
  have hkept : ∀ x, p x = true → Kept x (f x) := fun x hp => hwrite.kept hsound hp
  generalize hw : s.workers w = stage at hwrite hsound
  cases hwrite with
  | opened hroom => exact h.opened ⟨w, u, by rw [hw]; rfl, rfl⟩ (fun _ => rfl) hkept hroom
  | left =>
    exact h.write (fun _ => rfl) hkept (fun _ _ hb => by cases hb) fun _ _ ho => by cases ho
  | settled =>
    refine h.write (fun _ => rfl) hkept (fun x hp _ => ?_) fun _ _ ho => by cases ho
    rw [of_decide_eq_true hp]
    rfl
  | retired =>
    exact h.write (fun _ => rfl) hkept (fun _ _ hb => by cases hb) fun _ _ ho => by cases ho
  | noted =>
    refine h.write (fun _ => rfl) hkept (fun _ _ hb => hb) fun x hp ho => ?_
    simp only [Bool.and_eq_true, decide_eq_true_eq] at hp
    rw [show x.status = .opened from ho] at hp
    cases hp.1
  | finished =>
    refine h.write (fun _ => rfl) hkept (fun x hp _ => ?_) fun x hp ho => ?_
    · rw [of_decide_eq_true hp]
      rfl
    · rcases hsound.ends _ _ _ rfl with rfl | rfl <;> cases ho

/-- **A label keeps the turns in order**, given that a recording reads no earlier time. -/
theorem Step.ordered (h : Ordered s) (hsound : ∀ w, Sound s.turns (s.workers w)) (hs : Step P s l t)
    (hforward : Forward s l) : Ordered t := by
  cases hs.effect with
  | same => exact h
  | looped => exact h.congr rfl fun _ hk => hk
  | taken => exact h.congr rfl fun _ hk => hk
  | recorded hfresh hstatus hcreated =>
    exact h.recorded hfresh hstatus (hcreated ▸ hforward _ rfl)
  | replied hsettled =>
    obtain ⟨hturns, hworkers, -⟩ := settleReplies_frame hsettled
    refine h.congr hturns fun k hk => ?_
    unfold Held at hk ⊢
    rwa [hworkers] at hk
  | crashed w => exact h.moved (.inl rfl)
  | begun => exact h.moved (.inl rfl)
  | moved hpasses => exact h.moved hpasses.candidate
  | @created w env reads u prompt maxSteps maxSeconds agent run hw hcreate =>
    have hmoved : Ordered (s.goto w (.ready u (some run) "")) :=
      h.moved (.inr (.inl (by rw [hw]; rfl)))
    exact hmoved.congr rfl fun _ hk => hk
  | @submitted w env reads u db id hw hsubmit =>
    have hmoved : Ordered (s.goto w (.submitted u id)) := h.moved (.inl rfl)
    exact hmoved.congr rfl fun _ hk => hk
  | wrote hwrite => exact h.wrote (hsound _) hwrite
  | @delivered w env reads u x hw hx hkey hstatus =>
    have hwrote : Ordered ((s.setTurn u (fun x => x.status = .delivering)
        fun x => { x with status := .delivered }).goto w .idle) := by
      refine h.write (fun _ => rfl) (fun x hp => kept_delivered (of_decide_eq_true hp)) ?_ ?_
      · exact fun _ _ hb => by cases hb
      · exact fun _ _ ho => by cases ho
    exact hwrote.congr rfl fun _ hk => hk

end Step

/-! ### Runs -/

section Runs

variable {P : Platform} {τs : List (Transition State Label)} {s t : State} {l : Label}
  {u v : TurnRow}

/-- What the turns and the workers meet in every state of a run. -/
structure Arranged (s : State) : Prop where
  ordered : Ordered s
  sound : ∀ w, Sound s.turns (s.workers w)

theorem arranged_empty : Arranged {} := ⟨ordered_empty, fun _ => sound_of_none rfl⟩

theorem Step.arranged (h : Arranged s) (hs : Step P s l t) (hforward : Forward s l) : Arranged t :=
  ⟨hs.ordered h.ordered h.sound hforward, hs.effect.sound h.sound⟩

/-- A turn carries the reading of its recording. -/
theorem Effect.stamped (he : Effect P s l t) (hu : u ∈ t.turns) :
    (∃ v ∈ s.turns, v.created = u.created) ∨ l.recordedAt? = some u.created := by
  have hupdate : ∀ {q : TurnRow → Bool} {f : TurnRow → TurnRow}, (∀ x, (f x).created = x.created) →
      u ∈ update q f s.turns → ∃ v ∈ s.turns, v.created = u.created := by
    intro q f hf hu
    obtain ⟨v, hv, rfl⟩ := mem_update.1 hu
    refine ⟨v, hv, ?_⟩
    split
    · exact (hf v).symm
    · rfl
  cases he with
  | same | looped | taken | crashed | begun | moved | created | submitted => exact .inl ⟨u, hu, rfl⟩
  | recorded _ _ hcreated =>
    rcases List.mem_append.1 hu with hu | hu
    · exact .inl ⟨u, hu, rfl⟩
    · obtain rfl := List.mem_singleton.1 hu
      exact .inr (congrArg some hcreated.symm)
  | replied hsettled =>
    rw [(settleReplies_frame hsettled).1] at hu
    exact .inl ⟨u, hu, rfl⟩
  | wrote hwrite => exact .inl (hupdate hwrite.created hu)
  | delivered =>
    exact .inl (hupdate (f := fun x => { x with status := .delivered }) (fun _ => rfl) hu)

/-- A run whose recordings read the clock in order is a run of steps that go forward, since every turn
carries the reading of a recording. -/
theorem forward_of_clock (h : Run (Step P) {} τs s)
    (hclock : (τs.filterMap fun τ => τ.label.recordedAt?).Pairwise (· ≤ ·)) :
    Run (guarded Forward (Step P)) {} τs s ∧
      ∀ u ∈ s.turns, u.created ∈ τs.filterMap fun τ => τ.label.recordedAt? := by
  induction h with
  | nil => exact ⟨.nil, fun u hu => absurd hu List.not_mem_nil⟩
  | @snoc τs s t l hr hs ih =>
    rw [List.filterMap_append, List.pairwise_append] at hclock
    obtain ⟨hrun, hstamped⟩ := ih hclock.1
    have hforward : Forward s l := by
      intro now hnow u hu
      refine hclock.2.2 u.created (hstamped u hu) now ?_
      simp [hnow]
    refine ⟨hrun.snoc ⟨hs, hforward⟩, fun u hu => ?_⟩
    rw [List.filterMap_append, List.mem_append]
    rcases hs.effect.stamped hu with ⟨v, hv, hcreated⟩ | hnow
    · exact .inl (hcreated ▸ hstamped v hv)
    · exact .inr (List.mem_filterMap.2 ⟨_, List.mem_singleton_self _, hnow⟩)

theorem sublist_of_not_before {α : Type} {x y : α} {xs : List α} (hx : x ∈ xs) (hy : y ∈ xs)
    (hne : x ≠ y) (hnot : ¬ [y, x].Sublist xs) : [x, y].Sublist xs := by
  obtain ⟨pre, post, rfl⟩ := List.append_of_mem hx
  rcases List.mem_append.1 hy with hpre | hpost
  · refine absurd ?_ hnot
    exact (List.singleton_sublist.2 hpre).append (List.singleton_sublist.2 List.mem_cons_self)
  · rcases List.mem_cons.1 hpost with rfl | hpost
    · exact absurd rfl hne
    · exact ((List.singleton_sublist.2 hpost).cons_cons x).trans (List.sublist_append_right pre _)

/-- A turn that was opened, as later states know it: it is past the queue, and the turns before it in its
conversation are over. -/
def Past (s : State) (u : TurnRow) : Prop :=
  ∃ v ∈ s.turns, Kept u v ∧ 0 < v.status.rank ∧
    s.turns.Pairwise fun a b => b.key = u.key → a.conversation = b.conversation → 3 ≤ a.status.rank

theorem Past.grown (h : Past s u) (hgrown : Grown s.turns t.turns) : Past t u := by
  obtain ⟨v, hv, hkept, hrank, hbefore⟩ := h
  obtain ⟨g, new, hturns, hg, hfresh⟩ := hgrown.rows
  have hnew : ∀ x ∈ new, x.key ≠ u.key := fun x hx hkey =>
    hfresh x hx v hv (hkept.key.trans hkey.symm)
  refine ⟨g v, ?_, hkept.trans (hg v hv), Nat.lt_of_lt_of_le hrank (hg v hv).rank_le, ?_⟩
  · rw [hturns]
    exact List.mem_append_left _ (List.mem_map_of_mem hv)
  · rw [hturns, List.pairwise_append, List.pairwise_map]
    refine ⟨?_, ?_, fun a _ b hb hkey => absurd hkey (hnew b hb)⟩
    · refine hbefore.imp_of_mem fun {a b} ha hb hab hkey hsame => ?_
      rw [(hg b hb).key] at hkey
      rw [(hg a ha).conversation, (hg b hb).conversation] at hsame
      exact Nat.le_trans (hab hkey hsame) (hg a ha).rank_le
    · exact List.pairwise_of_forall_mem_list fun a _ b hb hkey => absurd hkey (hnew b hb)

theorem Arranged.opens (ht : Arranged t) (hgrown : Grown s.turns t.turns)
    (h : Opens ⟨s, l, t⟩ u) : Past t u := by
  obtain ⟨hu, hqueued, v, hv, hkey, hopened⟩ := h
  obtain ⟨v', hv', hkept⟩ := hgrown.kept u hu
  obtain rfl := ht.ordered.keyed.eq_of_key hv hv' (hkey.trans hkept.key.symm)
  refine ⟨v, hv, hkept, by rw [hopened]; decide, ?_⟩
  refine ht.ordered.clear.imp_of_mem fun {a b} _ hb hclear hbkey hsame => hclear hsame (.inl ?_)
  obtain rfl := ht.ordered.keyed.eq_of_key hb hv (hbkey.trans hkey.symm)
  rw [hopened]
  rfl

theorem Past.before (h : Past s u) (hv : v ∈ s.turns) (hqueued : v.status = .queued)
    (hsame : u.conversation = v.conversation) : ∃ x, Kept u x ∧ [x, v].Sublist s.turns := by
  obtain ⟨x, hx, hkept, hrank, hbefore⟩ := h
  have hne : x ≠ v := by
    rintro rfl
    rw [hqueued] at hrank
    exact absurd hrank (Nat.lt_irrefl _)
  refine ⟨x, hkept, sublist_of_not_before hx hv hne fun hsub => ?_⟩
  have hover := hbefore.forall_sublist hsub hkept.key (hsame.symm.trans hkept.conversation.symm)
  rw [hqueued] at hover
  exact absurd hover (by decide)

/-- **One live turn.** Where the readings of the clock by the recordings do not go back: at most one turn
of a conversation is open or in delivery, no tenant has more than `MAX_OPEN_TURNS` open turns, and of two
turns of a conversation the one opened first was recorded first. -/
theorem one_live_turn (h : Run (Step P) {} τs s)
    (hclock : (τs.filterMap fun τ => τ.label.recordedAt?).Pairwise (· ≤ ·)) :
    (∀ u ∈ s.turns, ∀ v ∈ s.turns, u.conversation = v.conversation → u.status.busy = true →
      v.status.busy = true → u = v) ∧
    (∀ tenant, inFlight s.turns tenant ≤ maxOpenTurns) ∧
    τs.Pairwise fun τ τ' => ∀ u v, Opens τ u → Opens τ' v → u.conversation = v.conversation →
      [u.key, v.key].Sublist (τ'.src.turns.map TurnRow.key) ∧ u.created ≤ v.created := by
  have hrun := (forward_of_clock h hclock).1
  have hstep : ∀ s l t, Arranged s → guarded Forward (Step P) s l t → Arranged t :=
    fun _ _ _ h hs => hs.1.arranged h hs.2
  have harranged : Arranged s := hrun.invariant arranged_empty hstep
  refine ⟨fun u hu v hv hsame hbusy hbusy' => ?_, harranged.ordered.room, ?_⟩
  · by_contra hne
    by_cases hsub : [v, u].Sublist s.turns
    · have hover := harranged.ordered.clear.forall_sublist hsub hsame.symm (.inl hbusy)
      rw [not_busy_of_rank hover] at hbusy'
      cases hbusy'
    · have hover := harranged.ordered.clear.forall_sublist (sublist_of_not_before hu hv hne hsub)
        hsame (.inl hbusy')
      rw [not_busy_of_rank hover] at hbusy
      cases hbusy
  · refine hrun.pairwise (q := fun τ s => ∀ u, Opens τ u → Past s u) arranged_empty hstep ?_ ?_ ?_
    · exact fun τ s l t hs hst hq u hu => (hq u hu).grown (hst.1.effect.grown hs.sound)
    · intro s l t hs hst u hu
      exact (hstep _ _ _ hs hst).opens (hst.1.effect.grown hs.sound) hu
    · intro τ s l t hs _ hq u v hu hv hsame
      obtain ⟨x, hkept, hsub⟩ := (hq u hu).before hv.1 hv.2.1 hsame
      refine ⟨?_, ?_⟩
      · rw [← hkept.key]
        exact hsub.map TurnRow.key
      · rw [← hkept.created]
        exact hs.ordered.sorted.forall_sublist hsub

/-! A chat whose agent has no model: its turns are answered with the fallback text. -/

def sampleReads : Reads := ⟨false, "", false⟩

def customerEvent (second : ℕ) (eventKey text : String) : Label :=
  .record (replyEnv second) "acme" "telegram" eventKey "clerk"
    (.obj [("conversation_id", .str "42"), ("sender", .str "dana"), ("text", .str text)])

/-- A worker begins a `tick` and makes `n` statements of it. -/
def ticked (w second n : ℕ) : List Label :=
  .tick w "acme" :: List.replicate n (.work w (replyEnv second) sampleReads)

def sampleState (ls : List Label) : State := ls.foldl (State.after replyPlatform) {}

theorem sampleState_run (ls : List Label) :
    Run (Step replyPlatform) {} (trace (State.after replyPlatform) {} ls) (sampleState ls) :=
  Run.nil.calls ls

/-- Two messages arrive; two workers find the first, and one of them opens it. -/
def openedLabels : List Label :=
  [customerEvent 1 "e1" "salom", customerEvent 2 "e2" "narxi?"] ++ ticked 0 3 4 ++ ticked 1 3 6 ++
    List.replicate 2 (.work 0 (replyEnv 3) sampleReads)

theorem one_live_turn_sample :
    (sampleState openedLabels).turns.map TurnRow.status = [.opened, .queued] ∧
      ∀ u ∈ (sampleState openedLabels).turns, ∀ v ∈ (sampleState openedLabels).turns,
        u.conversation = v.conversation → u.status.busy = true → v.status.busy = true → u = v := by
  refine ⟨by decide +kernel, ?_⟩
  exact (one_live_turn (sampleState_run openedLabels) (by decide +kernel)).1

end Runs

end AgentPlatform.Conversation
