import AgentPlatform.Conversation.OneLive
import AgentPlatform.Conversation.OperatorReplies

/-!
# The history of a conversation

`ledger` lists, along a run, one entry for each event that is recorded, each turn that becomes delivered
and each operator reply that gets its marker. `Logged` says that the table holds of each conversation the
last `MAX_HISTORY_ROWS` of these entries, numbered in their order, and what the sources of the entries
are; every label keeps it (`Step.logged`), the passes of `settle_operator_replies` included.
-/

namespace AgentPlatform.Conversation

open Outcome Engine Table Runs Window

/-- The text of the event a label records. -/
def Label.text : Label → String
  | .record _ _ _ _ _ payload => payloadText payload "text"
  | _ => ""

/-- The entries of a transition: the event it records, the turns it delivers, the replies it marks. -/
def entries (τ : Transition State Label) : List Entry :=
  (τ.dst.turns.drop τ.src.turns.length).map (fun u => ⟨.event u.key, u.conversation, τ.label.text⟩) ++
    (τ.src.turns.filter fun u => decide (u.status ≠ .delivered) && τ.dst.turns.any fun v =>
      decide (v.key = u.key) && decide (v.status = .delivered)).map
        (fun u => ⟨.reply u.key, u.conversation, u.reply⟩) ++
    (τ.dst.markers.drop τ.src.markers.length).map (replyEntry τ.src.db)

/-- All entries of a run, in the order of their appending. -/
def ledger (τs : List (Transition State Label)) : List Entry := τs.flatMap entries

/-- The source is there: the event has its turn, the turn is delivered, the reply has its marker. -/
def Source.Holds (s : State) : Source → Prop
  | event k => ∃ u ∈ s.turns, u.key = k
  | reply k => ∃ u ∈ s.turns, u.key = k ∧ u.status = .delivered
  | operatorReply tenant task => (tenant, task) ∈ s.markers

/-- An entry says what its source says. -/
def Genuine (s : State) (e : Entry) : Prop :=
  match e.source with
  | .event k => ∃ u ∈ s.turns, u.key = k ∧ u.conversation = e.conversation
  | .reply k => ∃ u ∈ s.turns, u.key = k ∧ u.status = .delivered ∧ u.conversation = e.conversation ∧
      u.reply = e.text
  | .operatorReply tenant task => (∃ t ∈ s.db.tasks, t.id = task ∧ t.tenant = tenant ∧
      t.channel = operatorChannel ∧ t.status = .succeeded) ∧
        ∃ spec ∈ s.db.specs, spec.task = task ∧ ∃ channel conversationId text,
          IsReply spec channel conversationId text ∧
            e.conversation = (tenant, channel, conversationId) ∧ e.text = text

/-- The invariant of the history. -/
structure Logged (es : List Entry) (s : State) : Prop where
  windowed : Windowed es s.history
  nodup : (es.map Entry.source).Nodup
  sources : ∀ x, x ∈ es.map Entry.source ↔ x.Holds s
  genuine : ∀ e ∈ es, Genuine s e

/-- The keys of the turns, with those that are delivered. -/
def deliveries (turns : List TurnRow) : List ((String × String × String) × Bool) :=
  turns.map fun u => (u.key, decide (u.status = .delivered))

theorem mem_deliveries {turns : List TurnRow} {k : String × String × String} :
    (k, true) ∈ deliveries turns ↔ ∃ u ∈ turns, u.key = k ∧ u.status = .delivered := by
  simp [deliveries]

/-- The sources are read off the deliveries and the markers. -/
theorem holds_congr {s t : State} (hturns : deliveries t.turns = deliveries s.turns)
    (hmarkers : t.markers = s.markers) {x : Source} : x.Holds t ↔ x.Holds s := by
  cases x with
  | event k =>
    have hfst : ∀ turns : List TurnRow, (deliveries turns).map Prod.fst = turns.map TurnRow.key := by
      intro turns
      unfold deliveries
      rw [List.map_map]
      rfl
    have hkeys : t.turns.map TurnRow.key = s.turns.map TurnRow.key := by
      rw [← hfst, ← hfst, hturns]
    have hiff : k ∈ t.turns.map TurnRow.key ↔ k ∈ s.turns.map TurnRow.key := by rw [hkeys]
    simpa [Source.Holds] using hiff
  | reply k =>
    show (∃ u ∈ t.turns, _) ↔ ∃ u ∈ s.turns, _
    rw [← mem_deliveries, ← mem_deliveries, hturns]
  | operatorReply tenant task =>
    show (tenant, task) ∈ t.markers ↔ (tenant, task) ∈ s.markers
    rw [hmarkers]

/-- What the entries of a label rest on. -/
structure Grounded (s : State) : Prop where
  keyed : Keyed TurnRow.key s.turns
  sound : ∀ w, Sound s.turns (s.workers w)
  regular : Regular s.db

theorem grounded_empty : Grounded {} :=
  ⟨keyed_nil _, fun _ => sound_of_none rfl, regular_empty⟩

section Steps

variable {P : Platform} {s t : State} {l : Label} {es : List Entry} {e : Entry}

theorem Effect.grounded (h : Grounded s) (he : Effect P s l t) : Grounded t := by
  obtain ⟨τs, hrun⟩ := he.engine
  refine ⟨he.keyed h.keyed, he.sound h.sound, ?_⟩
  exact hrun.invariant h.regular fun _ _ _ => Engine.Step.regular

/-- What an entry says stays true. -/
theorem Effect.genuine (h : Grounded s) (he : Effect P s l t) (hgenuine : Genuine s e) :
    Genuine t e := by
  obtain ⟨source, conversation, text⟩ := e
  have hkept := (he.grown h.sound).kept
  cases source with
  | event k =>
    obtain ⟨u, hu, hkey, hconversation⟩ := hgenuine
    obtain ⟨v, hv, hk⟩ := hkept u hu
    exact ⟨v, hv, hk.key.trans hkey, hk.conversation.trans hconversation⟩
  | reply k =>
    obtain ⟨u, hu, hkey, hstatus, hconversation, hreply⟩ := hgenuine
    obtain ⟨v, hv, hk⟩ := hkept u hu
    refine ⟨v, hv, hk.key.trans hkey, hk.delivered hstatus, hk.conversation.trans hconversation, ?_⟩
    refine (hk.reply ?_).trans hreply
    rw [hstatus]
    decide
  | operatorReply tenant task =>
    obtain ⟨⟨x, hx, hid, htenant, hchannel, hsucceeded⟩, spec, hspec, htask, hreply⟩ := hgenuine
    obtain ⟨τs, hrun⟩ := he.engine
    refine ⟨⟨x, ?_, hid, htenant, hchannel, hsucceeded⟩, spec, ?_, htask, hreply⟩
    · exact (h.regular.reply_kept hrun hx hchannel (by rw [hsucceeded]; rfl)).2
    · exact h.regular.specs_kept hrun hspec

/-- The ledger goes on with the entries of a label. -/
theorem Effect.logged_append (hg : Grounded s) (h : Logged es s) (he : Effect P s l t)
    (new : List Entry) (hwindowed : Windowed (es ++ new) t.history)
    (hnodup : (new.map Entry.source).Nodup) (hfresh : ∀ e ∈ new, ¬ e.source.Holds s)
    (hsources : ∀ x : Source, x.Holds t ↔ x.Holds s ∨ x ∈ new.map Entry.source)
    (hgenuine : ∀ e ∈ new, Genuine t e) : Logged (es ++ new) t where
  windowed := hwindowed
  nodup := by
    rw [List.map_append]
    refine h.nodup.append hnodup ?_
    intro x hold hnew
    obtain ⟨e, he, rfl⟩ := List.mem_map.1 hnew
    exact hfresh e he ((h.sources _).1 hold)
  sources x := by
    rw [List.map_append, List.mem_append, h.sources x, hsources x]
  genuine e hmem := by
    rcases List.mem_append.1 hmem with hold | hnew
    · exact he.genuine hg (h.genuine e hold)
    · exact hgenuine e hnew

/-- Where no turn is added or delivered, only markers make entries. -/
theorem entries_of_deliveries (hkeyed : Keyed TurnRow.key s.turns)
    (h : deliveries t.turns = deliveries s.turns) :
    entries ⟨s, l, t⟩ = (t.markers.drop s.markers.length).map (replyEntry s.db) := by
  have hnone : (s.turns.filter fun u => decide (u.status ≠ .delivered) && t.turns.any fun v =>
      decide (v.key = u.key) && decide (v.status = .delivered)) = [] := by
    refine List.filter_eq_nil_iff.2 fun u hu hp => ?_
    simp only [Bool.and_eq_true, decide_eq_true_eq, List.any_eq_true] at hp
    obtain ⟨hstatus, v, hv, hkey, hdelivered⟩ := hp
    have hmem := mem_deliveries.2 ⟨v, hv, hkey, hdelivered⟩
    rw [h, mem_deliveries] at hmem
    obtain ⟨u', hu', hkey', hdelivered'⟩ := hmem
    exact hstatus (hkeyed.eq_of_key hu' hu hkey' ▸ hdelivered')
  have hlength : t.turns.length = s.turns.length := by
    simpa [deliveries] using congrArg List.length h
  unfold entries
  dsimp only
  rw [List.drop_eq_nil_of_le (Nat.le_of_eq hlength), hnone]
  rfl

theorem Effect.logged_same (hg : Grounded s) (h : Logged es s) (he : Effect P s l t)
    (hturns : deliveries t.turns = deliveries s.turns) (hmarkers : t.markers = s.markers)
    (hhistory : t.history = s.history) : Logged (es ++ entries ⟨s, l, t⟩) t := by
  have hentries : entries ⟨s, l, t⟩ = [] := by
    rw [entries_of_deliveries hg.keyed hturns, hmarkers, List.drop_length]
    rfl
  rw [hentries]
  refine he.logged_append hg h [] ?_ List.nodup_nil (by simp) (fun x => ?_) (by simp)
  · rw [List.append_nil, hhistory]
    exact h.windowed
  · rw [holds_congr hturns hmarkers]
    simp

/-- The entries of a label that records an event. -/
theorem entries_recorded (hkeyed : Keyed TurnRow.key s.turns) {u : TurnRow}
    (hfresh : ∀ v ∈ s.turns, v.key ≠ u.key) (hturns : t.turns = s.turns ++ [u])
    (hmarkers : t.markers = s.markers) :
    entries ⟨s, l, t⟩ = [⟨.event u.key, u.conversation, l.text⟩] := by
  have hnone : (s.turns.filter fun u => decide (u.status ≠ .delivered) && t.turns.any fun v =>
      decide (v.key = u.key) && decide (v.status = .delivered)) = [] := by
    refine List.filter_eq_nil_iff.2 fun x hx hp => ?_
    simp only [Bool.and_eq_true, decide_eq_true_eq, List.any_eq_true] at hp
    obtain ⟨hstatus, v, hv, hkey, hdelivered⟩ := hp
    rw [hturns] at hv
    rcases List.mem_append.1 hv with hv | hv
    · exact hstatus (hkeyed.eq_of_key hv hx hkey ▸ hdelivered)
    · obtain rfl := List.mem_singleton.1 hv
      exact hfresh x hx hkey.symm
  unfold entries
  dsimp only
  rw [hnone, hturns, hmarkers, List.drop_left, List.drop_length]
  rfl

theorem mem_delivered {u x : TurnRow} (hx : x ∈ s.turns) (hkey : x.key = u.key)
    (hstatus : x.status = .delivering)
    (hturns : t.turns = update (fun x => decide (x.key = u.key) && decide (x.status = .delivering))
      (fun x => { x with status := .delivered }) s.turns) :
    { x with status := .delivered } ∈ t.turns := by
  rw [hturns]
  refine mem_update_of_pos (p := fun x => decide (x.key = u.key) && decide (x.status = .delivering))
    (f := fun x => { x with status := .delivered }) hx ?_
  simp [hkey, hstatus]

/-- The entries of a label that delivers a turn. -/
theorem entries_delivered (hkeyed : Keyed TurnRow.key s.turns) {u x : TurnRow} (hx : x ∈ s.turns)
    (hkey : x.key = u.key) (hstatus : x.status = .delivering)
    (hturns : t.turns = update (fun x => decide (x.key = u.key) && decide (x.status = .delivering))
      (fun x => { x with status := .delivered }) s.turns) (hmarkers : t.markers = s.markers) :
    entries ⟨s, l, t⟩ = [⟨.reply x.key, x.conversation, x.reply⟩] := by
  have hone : (s.turns.filter fun u => decide (u.status ≠ .delivered) && t.turns.any fun v =>
      decide (v.key = u.key) && decide (v.status = .delivered)) = [x] := by
    refine hkeyed.filter_eq hx fun y hy => ?_
    simp only [Bool.and_eq_true, decide_eq_true_eq, List.any_eq_true]
    constructor
    · rintro ⟨hnot, v, hv, hsame, hdelivered⟩
      rw [hturns] at hv
      obtain ⟨z, hz, rfl⟩ := mem_update.1 hv
      by_cases hp : (decide (z.key = u.key) && decide (z.status = .delivering)) = true
      · rw [if_pos hp] at hsame
        simp only [Bool.and_eq_true, decide_eq_true_eq] at hp
        exact hsame.symm.trans (hp.1.trans hkey.symm)
      · rw [if_neg hp] at hsame hdelivered
        exact absurd (hkeyed.eq_of_key hz hy hsame ▸ hdelivered) hnot
    · intro hsame
      obtain rfl := hkeyed.eq_of_key hy hx hsame
      exact ⟨by rw [hstatus]; decide, _, mem_delivered hx hkey hstatus hturns, rfl, rfl⟩
  unfold entries
  dsimp only
  rw [hone, hmarkers, List.drop_length, hturns, update, List.drop_eq_nil_of_le (by simp)]
  rfl

/-- Recording an event appends its line. -/
theorem Effect.logged_recorded (hg : Grounded s) (h : Logged es s) (he : Effect P s l t) {u : TurnRow}
    (hfresh : ∀ v ∈ s.turns, v.key ≠ u.key) (hstatus : u.status = .queued ∨ u.status = .throttled)
    (hturns : t.turns = s.turns ++ [u]) (hmarkers : t.markers = s.markers)
    (hhistory : t.history = appendLine s.history u.tenant u.channel u.conversationId .customer l.text) :
    Logged (es ++ entries ⟨s, l, t⟩) t := by
  rw [entries_recorded hg.keyed hfresh hturns hmarkers]
  refine he.logged_append hg h _ ?_ (List.nodup_singleton _) ?_ ?_ ?_
  · rw [hhistory]
    exact h.windowed.append rfl rfl
  · intro e hmem
    obtain rfl := List.mem_singleton.1 hmem
    rintro ⟨v, hv, hkey⟩
    exact hfresh v hv hkey
  · rintro (k | k | ⟨tenant, task⟩)
    · simp only [Source.Holds, hturns, List.mem_append, List.mem_singleton, List.map_cons,
        List.map_nil, Source.event.injEq]
      constructor
      · rintro ⟨v, hv | rfl, rfl⟩
        · exact .inl ⟨v, hv, rfl⟩
        · exact .inr rfl
      · rintro (⟨v, hv, rfl⟩ | rfl)
        · exact ⟨v, .inl hv, rfl⟩
        · exact ⟨u, .inr rfl, rfl⟩
    · simp only [Source.Holds, hturns, List.mem_append, List.mem_singleton, List.map_cons,
        List.map_nil, reduceCtorEq, or_false]
      constructor
      · rintro ⟨v, hv | rfl, hkey, hdelivered⟩
        · exact ⟨v, hv, hkey, hdelivered⟩
        · rcases hstatus with hstatus | hstatus <;> rw [hstatus] at hdelivered <;> cases hdelivered
      · rintro ⟨v, hv, hkey, hdelivered⟩
        exact ⟨v, .inl hv, hkey, hdelivered⟩
    · simp [Source.Holds, hmarkers]
  · intro e hmem
    obtain rfl := List.mem_singleton.1 hmem
    refine ⟨u, ?_, rfl, rfl⟩
    rw [hturns]
    exact List.mem_append_right _ List.mem_cons_self

/-- A delivery appends its line. -/
theorem Effect.logged_delivered (hg : Grounded s) (h : Logged es s) (he : Effect P s l t)
    {u x : TurnRow} (hx : x ∈ s.turns) (hkey : x.key = u.key) (hstatus : x.status = .delivering)
    (hconversation : x.conversation = u.conversation) (hreply : x.reply = u.reply)
    (hturns : t.turns = update (fun x => decide (x.key = u.key) && decide (x.status = .delivering))
      (fun x => { x with status := .delivered }) s.turns) (hmarkers : t.markers = s.markers)
    (hhistory : t.history =
      appendLine s.history u.tenant u.channel u.conversationId .agent u.reply) :
    Logged (es ++ entries ⟨s, l, t⟩) t := by
  have hsent := mem_delivered hx hkey hstatus hturns
  rw [entries_delivered hg.keyed hx hkey hstatus hturns hmarkers]
  refine he.logged_append hg h _ ?_ (List.nodup_singleton _) ?_ ?_ ?_
  · rw [hhistory, ← hreply]
    exact h.windowed.append hconversation rfl
  · intro e hmem
    obtain rfl := List.mem_singleton.1 hmem
    rintro ⟨v, hv, hv', hdelivered⟩
    obtain rfl := hg.keyed.eq_of_key hv hx hv'
    rw [hstatus] at hdelivered
    cases hdelivered
  · rintro (k | k | ⟨tenant, task⟩)
    · have hkeys : t.turns.map TurnRow.key = s.turns.map TurnRow.key := by
        rw [hturns]
        exact map_update fun _ _ _ => rfl
      have hiff : k ∈ t.turns.map TurnRow.key ↔ k ∈ s.turns.map TurnRow.key := by rw [hkeys]
      simpa [Source.Holds] using hiff
    · simp only [Source.Holds, List.map_cons, List.map_nil, List.mem_singleton,
        Source.reply.injEq]
      constructor
      · rintro ⟨v, hv, rfl, hdelivered⟩
        rw [hturns] at hv
        obtain ⟨y, hy, rfl⟩ := mem_update.1 hv
        by_cases hp : (decide (y.key = u.key) && decide (y.status = .delivering)) = true
        · rw [if_pos hp]
          simp only [Bool.and_eq_true, decide_eq_true_eq] at hp
          exact .inr (hp.1.trans hkey.symm)
        · rw [if_neg hp] at hdelivered ⊢
          exact .inl ⟨y, hy, rfl, hdelivered⟩
      · rintro (⟨v, hv, rfl, hdelivered⟩ | rfl)
        · refine ⟨v, ?_, rfl, hdelivered⟩
          rw [hturns]
          exact mem_update_of_not hv (by simp [hdelivered])
        · exact ⟨_, hsent, rfl, rfl⟩
    · simp [Source.Holds, hmarkers]
  · intro e hmem
    obtain rfl := List.mem_singleton.1 hmem
    exact ⟨_, hsent, rfl, rfl, rfl, rfl⟩

theorem replyEntry_source (db : Db) (m : String × Uuid) :
    (replyEntry db m).source = .operatorReply m.1 m.2 := by
  unfold replyEntry
  split <;> rfl

/-- A pass over the operators' replies appends their lines. -/
theorem Effect.logged_replied (hg : Grounded s) (h : Logged es s) (he : Effect P s l t) {env : Env}
    {tenant : String} {updated : Uuid → Time}
    (hsettled : settleReplies env s tenant updated = .ok t) :
    Logged (es ++ entries ⟨s, l, t⟩) t := by
  have hkeyed := hg.regular.orderly.wf.tasks
  obtain ⟨hturns, -, hagent⟩ := settleReplies_frame hsettled
  have hdb : t.db = s.db := congrArg Agent.State.view hagent
  have hmarkers := settleReplies_markers hkeyed hsettled
  have hpending : ∀ m ∈ (pendingReplies s.db s.markers tenant updated).map marker,
      ∃ x, Pending s.db s.markers tenant x ∧ marker x = m := by
    intro m hm
    obtain ⟨x, hx, rfl⟩ := List.mem_map.1 hm
    exact ⟨x, mem_pendingReplies hx, rfl⟩
  have hwindowed := settleReplies_lines hkeyed hsettled h.windowed
  have hnodup : ((pendingReplies s.db s.markers tenant updated).map marker).Nodup :=
    pendingReplies_nodup hkeyed
  rw [entries_of_deliveries hg.keyed (by rw [hturns]), hmarkers, List.drop_left]
  generalize (pendingReplies s.db s.markers tenant updated).map marker = new
    at hmarkers hpending hwindowed hnodup ⊢
  have hsources : (new.map (replyEntry s.db)).map Entry.source =
      new.map fun m => .operatorReply m.1 m.2 := by
    rw [List.map_map]
    exact List.map_congr_left fun m _ => replyEntry_source s.db m
  refine he.logged_append hg h _ hwindowed ?_ ?_ ?_ ?_
  · rw [hsources]
    exact hnodup.map fun m m' heq => Prod.ext (Source.operatorReply.inj heq).1
      (Source.operatorReply.inj heq).2
  · intro e hmem
    obtain ⟨m, hm, rfl⟩ := List.mem_map.1 hmem
    obtain ⟨x, hx, rfl⟩ := hpending m hm
    rw [replyEntry_source]
    exact hx.unmarked
  · rw [hsources]
    rintro (k | k | ⟨tenant, task⟩)
    · simp [Source.Holds, hturns]
    · simp [Source.Holds, hturns]
    · simp [Source.Holds, hmarkers]
  · intro e hmem
    obtain ⟨m, hm, rfl⟩ := List.mem_map.1 hmem
    obtain ⟨x, hx, rfl⟩ := hpending m hm
    obtain ⟨-, hsends⟩ := hg.regular.sends hx.task hx.channel
    obtain ⟨r, hr, hfind, htask, channel, conversationId, text, hreply⟩ := replyStep?_of_sends hsends
    unfold Genuine
    rw [replyEntry_source, hdb]
    refine ⟨⟨x.1, hx.task, rfl, rfl, hx.channel, hx.succeeded⟩, r.spec, List.mem_map_of_mem hr, htask,
      channel, conversationId, text, hreply, ?_⟩
    have hentry : replyEntry s.db (marker x) = stepEntry (marker x) r.spec := by
      unfold replyEntry
      rw [show replyStep? s.db (marker x) = some r from hfind]
    rw [hentry, stepEntry_of_isReply hreply]
    exact ⟨rfl, rfl⟩

/-- **Every label keeps the history.** -/
theorem Step.logged (hg : Grounded s) (h : Logged es s) (hs : Step P s l t) :
    Logged (es ++ entries ⟨s, l, t⟩) t := by
  have he := hs.effect
  have he' := he
  cases he with
  | same | looped | taken | crashed | begun | moved | created | submitted =>
    exact he'.logged_same hg h rfl rfl rfl
  | recorded hfresh hstatus => exact he'.logged_recorded hg h hfresh hstatus rfl rfl rfl
  | replied hsettled => exact he'.logged_replied hg h hsettled
  | @wrote w env reads u p f hwrite =>
    refine he'.logged_same hg h (map_update fun x hx hp => ?_) rfl rfl
    simp only [Bool.and_eq_true, decide_eq_true_eq] at hp
    have hafter := hwrite.not_delivered (hg.sound w) hp.2
    have hbefore : x.status ≠ .delivered :=
      fun hstatus => hafter ((hwrite.kept (hg.sound w) hp.2).delivered hstatus)
    rw [hwrite.key, decide_eq_false hafter, decide_eq_false hbefore]
  | @delivered w env reads u x hw hx hkey hstatus =>
    obtain ⟨v, hv, hkey', hconversation, hreply, -⟩ :=
      (hg.sound w).delivers u (by rw [hw]; rfl)
    obtain rfl := hg.keyed.eq_of_key hv hx (hkey'.trans hkey.symm)
    have hsame : v.conversation = u.conversation := by
      simp only [TurnRow.key, Prod.mk.injEq] at hkey
      simp only [TurnRow.conversation, hkey.1, hkey.2.1, hconversation]
    exact he'.logged_delivered hg h hx hkey hstatus hsame hreply rfl rfl rfl

end Steps

/-! ### Along a run -/

section Runs

variable {P : Platform} {s : State} {τs : List (Transition State Label)}

theorem reachable_logged (h : Run (Step P) {} τs s) : Logged (ledger τs) s := by
  have hgrounded : ∀ s l t, Grounded s → Step P s l t → Grounded t :=
    fun _ _ _ hg hs => hs.effect.grounded hg
  induction h with
  | nil =>
    refine ⟨fun c => rfl, List.nodup_nil, fun x => ?_, by simp [ledger]⟩
    cases x <;> simp [ledger, Source.Holds]
  | @snoc τs s t l hr hs ih =>
    have hledger : ledger (τs ++ [⟨s, l, t⟩]) = ledger τs ++ entries ⟨s, l, t⟩ := by
      simp [ledger]
    rw [hledger]
    exact hs.logged (hr.invariant grounded_empty hgrounded) ih

/-- **The history is an exactly-once ledger.** Along any run, the table of a conversation holds the last
`MAX_HISTORY_ROWS` entries of its ledger under growing numbers, so only the oldest lines are ever gone. No
two entries go back to one source: the sources are the events with a turn, the delivered turns and the
marked operator replies, and every entry has the conversation and the text of its source, where a marked
reply is a succeeded task of an operator. A pass that commits marks every succeeded reply of its tenant or
a whole batch, and a pass commits unless the policy cannot be read. -/
theorem exactly_once (h : Run (Step P) {} τs s) :
    (∀ c, lines s.history c = window maxHistoryRows (linesOf (ledger τs) c) ∧
      (lines s.history c).Pairwise fun r r' => r.2 < r'.2) ∧
    ((ledger τs).map Entry.source).Nodup ∧
    (∀ x : Source, x ∈ (ledger τs).map Entry.source ↔ x.Holds s) ∧
    (∀ e ∈ ledger τs, Genuine s e) ∧
    (∀ env tenant updated t, settleReplies env s tenant updated = .ok t →
      (∀ x ∈ s.db.tasks, x.tenant = tenant → x.channel = operatorChannel → x.status = .succeeded →
        (tenant, x.id) ∈ t.markers) ∨ t.markers.length = s.markers.length + maxSettleBatch) ∧
    ∀ env tenant updated, isIdentity tenant = true →
      (∀ agent, ∃ policy, policyOr env tenant agent = .ok policy) →
        ∃ t, settleReplies env s tenant updated = .ok t := by
  have hlogged := reachable_logged h
  obtain ⟨τs', hengine⟩ := reachable_engine h
  have hregular := reachable_regular hengine
  refine ⟨fun c => ⟨hlogged.windowed c, ?_⟩, hlogged.nodup, hlogged.sources, hlogged.genuine, ?_, ?_⟩
  · rw [hlogged.windowed c]
    exact window_pairwise _ _
  · exact fun env tenant updated t => settleReplies_all hregular
  · exact fun env tenant updated => settleReplies_commits hregular

/-- The first event is delivered to the platform twice. -/
def repeatedLabels : List Label := openedLabels ++ [customerEvent 5 "e1" "salom"]

theorem exactly_once_sample :
    lines (sampleState repeatedLabels).history ("acme", "telegram", "42") =
        [((.customer, "salom"), 1), ((.customer, "narxi?"), 2)] ∧
      lines (sampleState repeatedLabels).history ("acme", "telegram", "42") = window maxHistoryRows
        (linesOf (ledger (trace (State.after replyPlatform) {} repeatedLabels))
          ("acme", "telegram", "42")) :=
  ⟨by decide +kernel, ((exactly_once (sampleState_run repeatedLabels)).1 _).1⟩

end Runs

end AgentPlatform.Conversation
