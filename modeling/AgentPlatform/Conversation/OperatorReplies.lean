import AgentPlatform.Conversation.Lines
import AgentPlatform.Engine.Replies

/-!
# Delivered operator replies

`settle_operator_replies` takes succeeded replies without a marker, oldest first and at most
`MAX_SETTLE_BATCH` of them, and appends a line and a marker for each (`settleReplies_lines`). A pass only
fails where the policy cannot be read (`settleReplies_commits`), and what it leaves out is left to the next
one because it took a whole batch (`settleReplies_all`).
-/

namespace AgentPlatform.Conversation

open Outcome Engine Table Window

/-- The marker of a reply. -/
def marker (x : TaskRow × StepSpec) : String × Uuid := (x.1.tenant, x.1.id)

/-- The entry of a reply: its conversation and its text are those of its step. -/
def stepEntry (m : String × Uuid) (spec : StepSpec) : Entry :=
  ⟨.operatorReply m.1 m.2,
    (m.1, sendChannel spec.tool,
      payloadText spec.args ((directDestinationField spec.tool).getD "")),
    payloadText spec.args "text"⟩

/-- The first step of a reply. -/
def replyStep? (db : Db) (m : String × Uuid) : Option StepRow :=
  db.steps.find? fun r => decide (r.tenant = m.1) && decide (r.task = m.2) &&
    decide (r.spec.position = 0)

/-- The entry of a marker. -/
def replyEntry (db : Db) (m : String × Uuid) : Entry :=
  match replyStep? db m with
  | some r => stepEntry m r.spec
  | none => ⟨.operatorReply m.1 m.2, ("", "", ""), ""⟩

/-- A reply a pass takes. -/
structure Pending (db : Db) (markers : List (String × Uuid)) (tenant : String)
    (x : TaskRow × StepSpec) : Prop where
  task : x.1 ∈ db.tasks
  tenant : x.1.tenant = tenant
  channel : x.1.channel = operatorChannel
  succeeded : x.1.status = .succeeded
  unmarked : marker x ∉ markers
  step : ∃ r, replyStep? db (marker x) = some r ∧ r.spec = x.2

section Arguments

variable {db : Db} {tenant channel conversationId text key : String} {task : Uuid} {spec : StepSpec}
  {args : Json}

theorem payloadText_of_argText (h : argText args key = .ok text) : payloadText args key = text := by
  unfold argText at h
  unfold payloadText Json.getD
  split at h
  · rename_i hget
    rw [hget]
    exact Except.ok.inj h
  · cases h
  · cases h

/-- The arguments of a reply can be read back. -/
theorem argText_of_isReply (h : IsReply spec channel conversationId text) :
    ∃ field, directDestinationField spec.tool = some field ∧
      argText spec.args field = .ok conversationId ∧
        argText spec.args "text" = .ok text := by
  have hfields : ∀ channel ∈ outboundChannels,
      (directDestinationField (channel ++ ".send")).any (fun field => field ≠ "text") = true := by decide
  obtain ⟨field, hfield, hne⟩ := (Option.any_eq_true _ _).1 (hfields channel h.outbound)
  have hne : field ≠ "text" := of_decide_eq_true hne
  refine ⟨field, h.tool ▸ hfield, ?_, ?_⟩
  · rw [h.args]
    simp [argText, replyArgs, hfield, Json.get?]
  · rw [h.args]
    simp [argText, replyArgs, hfield, Json.get?, hne]

theorem sendChannel_of_isReply (h : IsReply spec channel conversationId text) :
    sendChannel spec.tool = channel := by
  rw [h.tool, sendChannel_send]

theorem stepEntry_of_isReply (h : IsReply spec channel conversationId text) (m : String × Uuid) :
    stepEntry m spec = ⟨.operatorReply m.1 m.2, (m.1, channel, conversationId), text⟩ := by
  obtain ⟨field, hfield, hconversation, htext⟩ := argText_of_isReply h
  unfold stepEntry
  rw [hfield, sendChannel_of_isReply h, payloadText_of_argText htext]
  exact congrArg (fun c => Entry.mk _ (m.1, channel, c) text) (payloadText_of_argText hconversation)

/-- The step of a task that sends a text. -/
theorem replyStep?_of_sends (h : Sends db tenant task) :
    ∃ r ∈ db.steps, replyStep? db (tenant, task) = some r ∧ r.task = task ∧
      ∃ channel conversationId text, IsReply r.spec channel conversationId text := by
  obtain ⟨spec, hspec, htask, htenant, honly, channel, conversationId, text, hreply⟩ := h
  obtain ⟨r, hr, rfl⟩ := List.mem_map.1 hspec
  cases hfind : replyStep? db (tenant, task) with
  | none =>
    have hnot := List.find?_eq_none.1 hfind r hr
    refine absurd ?_ hnot
    simp only [Bool.and_eq_true, decide_eq_true_eq]
    exact ⟨⟨htenant, htask⟩, hreply.position⟩
  | some r' =>
    have hr' := List.mem_of_find?_eq_some hfind
    have hp := List.find?_some hfind
    simp only [Bool.and_eq_true, decide_eq_true_eq] at hp
    have hsame := honly r'.spec (List.mem_map_of_mem hr') hp.1.2
    exact ⟨r', hr', rfl, hp.1.2, channel, conversationId, text, hsame ▸ hreply⟩

end Arguments

section Pending

variable {db : Db} {markers : List (String × Uuid)} {tenant : String} {updated : Uuid → Time}
  {x : TaskRow × StepSpec}

theorem mem_pendingReplies (h : x ∈ pendingReplies db markers tenant updated) :
    Pending db markers tenant x := by
  obtain ⟨t, ht, hstep⟩ := List.mem_filterMap.1 (List.mem_of_mem_take h)
  obtain ⟨r, hr, rfl⟩ := Option.map_eq_some_iff.1 hstep
  rw [List.mem_insertionSort, List.mem_filter] at ht
  obtain ⟨hmem, hp⟩ := ht
  simp only [Bool.and_eq_true, decide_eq_true_eq, Bool.not_eq_true', ← Bool.not_eq_true,
    List.contains_iff_mem] at hp
  obtain ⟨⟨⟨rfl, hchannel⟩, hsucceeded⟩, hunmarked⟩ := hp
  exact ⟨hmem, rfl, hchannel, hsucceeded, hunmarked, r, hr, rfl⟩

theorem sublist_filterMap (ts : List TaskRow) (g : TaskRow → Option StepRow) :
    ((ts.filterMap fun t => (g t).map fun r => (t, r.spec)).map Prod.fst).Sublist ts := by
  induction ts with
  | nil => exact .slnil
  | cons t ts ih =>
    cases hg : g t with
    | none =>
      rw [List.filterMap_cons_none (by rw [hg]; rfl)]
      exact ih.cons t
    | some r =>
      rw [List.filterMap_cons_some (by rw [hg]; rfl)]
      exact ih.cons_cons t

theorem pendingReplies_nodup (hkeyed : Keyed TaskRow.id db.tasks) :
    ((pendingReplies db markers tenant updated).map marker).Nodup := by
  refine List.Nodup.of_map Prod.snd ?_
  have hid : ((pendingReplies db markers tenant updated).map marker).map Prod.snd =
      ((pendingReplies db markers tenant updated).map Prod.fst).map TaskRow.id := by
    rw [List.map_map, List.map_map]
    rfl
  rw [hid]
  unfold pendingReplies
  rw [List.map_take]
  refine List.Nodup.sublist (((List.take_sublist _ _).trans (sublist_filterMap _ _)).map _) ?_
  refine ((List.perm_insertionSort _ _).map TaskRow.id).nodup_iff.2 ?_
  exact List.Nodup.sublist ((List.filter_sublist).map _) hkeyed

/-- A pass takes every succeeded reply that has no marker, or a whole batch. -/
theorem pendingReplies_all (h : Regular db) {t : TaskRow} (ht : t ∈ db.tasks)
    (htenant : t.tenant = tenant) (hchannel : t.channel = operatorChannel)
    (hsucceeded : t.status = .succeeded) (hunmarked : (tenant, t.id) ∉ markers) :
    (tenant, t.id) ∈ (pendingReplies db markers tenant updated).map marker ∨
      (pendingReplies db markers tenant updated).length = maxSettleBatch := by
  obtain ⟨r, -, hr, -⟩ := replyStep?_of_sends (h.sends ht hchannel).2
  unfold pendingReplies
  generalize hfull : List.filterMap _ _ = full
  have hmem : (t, r.spec) ∈ full := by
    rw [← hfull, List.mem_filterMap]
    refine ⟨t, ?_, ?_⟩
    · rw [List.mem_insertionSort, List.mem_filter]
      refine ⟨ht, ?_⟩
      simp only [Bool.and_eq_true, decide_eq_true_eq, Bool.not_eq_true', ← Bool.not_eq_true,
        List.contains_iff_mem]
      exact ⟨⟨⟨htenant, hchannel⟩, hsucceeded⟩, hunmarked⟩
    · unfold replyStep? at hr
      rw [htenant] at hr
      rw [hr]
      rfl
  by_cases hle : full.length ≤ maxSettleBatch
  · refine .inl (List.mem_map.2 ⟨(t, r.spec), ?_, ?_⟩)
    · rw [List.take_of_length_le hle]
      exact hmem
    · rw [marker, htenant]
  · refine .inr ?_
    rw [List.length_take]
    omega

end Pending

section Pass

variable {env : Env} {s t : State} {es : List Entry} {tenant : String} {updated : Uuid → Time}
  {x : TaskRow × StepSpec}

/-- A reply without a marker gets its marker and its line. -/
theorem settleReply_eq (h : settleReply env s x = .ok t) (hnew : marker x ∉ s.markers) :
    ∃ takeovers, t = { s with
      markers := s.markers ++ [marker x]
      history := appendLine s.history x.1.tenant (sendChannel x.2.tool)
        (payloadText x.2.args ((directDestinationField x.2.tool).getD "")) .operator
        (payloadText x.2.args "text")
      takeovers := takeovers } := by
  simp only [settleReply, bind_eq_ok, need_eq_ok] at h
  obtain ⟨field, hfield, conversationId, hconversation, h⟩ := h
  unfold marker at hnew
  rw [if_neg hnew] at h
  simp only [bind_eq_ok, pure_eq_ok] at h
  obtain ⟨text, htext, policy, -, takeovers, -, rfl⟩ := h
  refine ⟨takeovers, ?_⟩
  rw [hfield, payloadText_of_argText htext, Option.getD_some, payloadText_of_argText hconversation]
  rfl

/-- Replies settled one after the other append their lines in order. -/
theorem foldlM_lines {xs : List (TaskRow × StepSpec)} (h : xs.foldlM (settleReply env) s = .ok t)
    (hnodup : (xs.map marker).Nodup) (hnew : ∀ x ∈ xs, marker x ∉ s.markers) :
    t.markers = s.markers ++ xs.map marker ∧ ∀ es, Windowed es s.history →
      Windowed (es ++ xs.map fun x => stepEntry (marker x) x.2) t.history := by
  induction xs generalizing s with
  | nil =>
    obtain rfl := pure_eq_ok.1 h
    simp
  | cons x xs ih =>
    rw [List.foldlM_cons, bind_eq_ok] at h
    obtain ⟨s₁, hfirst, h⟩ := h
    rw [List.map_cons, List.nodup_cons] at hnodup
    obtain ⟨takeovers, rfl⟩ := settleReply_eq hfirst (hnew x List.mem_cons_self)
    have hnext : ∀ y ∈ xs, marker y ∉ s.markers ++ [marker x] := by
      intro y hy hmem
      rcases List.mem_append.1 hmem with hold | hsame
      · exact hnew y (List.mem_cons_of_mem _ hy) hold
      · exact hnodup.1 (List.mem_singleton.1 hsame ▸ List.mem_map_of_mem hy)
    obtain ⟨hmarkers, hwindowed⟩ := ih h hnodup.2 hnext
    refine ⟨?_, fun es hw => ?_⟩
    · rw [hmarkers, List.map_cons]
      exact List.append_assoc _ _ _
    · rw [List.map_cons, ← List.singleton_append, ← List.append_assoc]
      exact hwindowed _ (hw.append (e := stepEntry (marker x) x.2) rfl rfl)

theorem settleReplies_markers (hkeyed : Keyed TaskRow.id s.db.tasks)
    (h : settleReplies env s tenant updated = .ok t) :
    t.markers = s.markers ++ (pendingReplies s.db s.markers tenant updated).map marker :=
  (foldlM_lines h (pendingReplies_nodup hkeyed) fun _ hx => (mem_pendingReplies hx).unmarked).1

/-- **A pass appends the entry of every reply it marks.** -/
theorem settleReplies_lines (hkeyed : Keyed TaskRow.id s.db.tasks)
    (h : settleReplies env s tenant updated = .ok t) (hw : Windowed es s.history) :
    Windowed (es ++ ((pendingReplies s.db s.markers tenant updated).map marker).map
      (replyEntry s.db)) t.history := by
  have hwindowed := (foldlM_lines h (pendingReplies_nodup hkeyed) fun _ hx =>
    (mem_pendingReplies hx).unmarked).2 es hw
  rw [List.map_map]
  have hentries : (pendingReplies s.db s.markers tenant updated).map (replyEntry s.db ∘ marker) =
      (pendingReplies s.db s.markers tenant updated).map fun x => stepEntry (marker x) x.2 := by
    refine List.map_congr_left fun x hx => ?_
    obtain ⟨r, hr, hspec⟩ := (mem_pendingReplies hx).step
    show replyEntry s.db (marker x) = _
    unfold replyEntry
    rw [hr, ← hspec]
  rw [hentries]
  exact hwindowed

theorem takeoverIn_commits (takeovers : List TakeoverRow) {channel conversationId actor : String}
    (minutes : ℤ) (now : Time)
    (h : [tenant, channel, conversationId, actor].all isIdentity = true) :
    ∃ takeovers', takeoverIn takeovers tenant channel conversationId actor minutes now =
      .ok takeovers' := by
  unfold takeoverIn
  simp only [ensure, h, if_true, bind, Except.bind]
  split <;> exact ⟨_, rfl⟩

/-- A reply a pass takes can be settled. -/
theorem settleReply_commits (hregular : Regular s.db) (hx : Pending s.db s.markers tenant x)
    (htenant : isIdentity tenant = true)
    (hpolicy : ∀ agent, ∃ policy, policyOr env tenant agent = .ok policy) (s' : State) :
    ∃ t, settleReply env s' x = .ok t := by
  obtain ⟨hactor, hsends⟩ := hregular.sends hx.task hx.channel
  obtain ⟨r, -, hr, -, channel, conversationId, text, hreply⟩ := replyStep?_of_sends hsends
  obtain ⟨r', hr', hspec⟩ := hx.step
  obtain rfl : r = r' := Option.some.inj (hr.symm.trans hr')
  rw [hspec] at hreply
  obtain ⟨field, hfield, hconversation, htext⟩ := argText_of_isReply hreply
  obtain ⟨policy, hpolicy⟩ := hpolicy x.1.agent
  have hchannels : ∀ channel ∈ outboundChannels, isIdentity channel = true := by decide
  have hidentities : [x.1.tenant, channel, conversationId, x.1.actor].all isIdentity = true := by
    simp [hx.tenant, htenant, hchannels channel hreply.outbound, hreply.identity, hactor]
  unfold settleReply
  rw [hfield, sendChannel_of_isReply hreply]
  simp only [need, bind, Except.bind, hconversation]
  split
  · exact ⟨_, rfl⟩
  · obtain ⟨takeovers, htakeovers⟩ :=
      takeoverIn_commits s'.takeovers (policyMinutes policy) env.now hidentities
    rw [htext, hx.tenant, hpolicy]
    rw [hx.tenant] at htakeovers
    simp only [htakeovers]
    exact ⟨_, rfl⟩

/-- **A pass only fails where the policy cannot be read.** -/
theorem settleReplies_commits (hregular : Regular s.db) (htenant : isIdentity tenant = true)
    (hpolicy : ∀ agent, ∃ policy, policyOr env tenant agent = .ok policy) :
    ∃ t, settleReplies env s tenant updated = .ok t := by
  have hloop : ∀ xs : List (TaskRow × StepSpec), (∀ x ∈ xs, Pending s.db s.markers tenant x) →
      ∀ s', ∃ t, xs.foldlM (settleReply env) s' = .ok t := by
    intro xs
    induction xs with
    | nil => exact fun _ s' => ⟨s', rfl⟩
    | cons x xs ih =>
      intro hxs s'
      obtain ⟨s₁, hfirst⟩ := settleReply_commits hregular (hxs x List.mem_cons_self) htenant hpolicy s'
      obtain ⟨t, ht⟩ := ih (fun y hy => hxs y (List.mem_cons_of_mem _ hy)) s₁
      refine ⟨t, ?_⟩
      rw [List.foldlM_cons, hfirst]
      exact ht
  exact hloop _ (fun _ hx => mem_pendingReplies hx) s

/-- **A pass leaves out no succeeded reply**, or it took a whole batch. -/
theorem settleReplies_all (hregular : Regular s.db)
    (h : settleReplies env s tenant updated = .ok t) :
    (∀ x ∈ s.db.tasks, x.tenant = tenant → x.channel = operatorChannel → x.status = .succeeded →
      (tenant, x.id) ∈ t.markers) ∨ t.markers.length = s.markers.length + maxSettleBatch := by
  have hmarkers := settleReplies_markers hregular.orderly.wf.tasks h
  by_cases hbatch : (pendingReplies s.db s.markers tenant updated).length = maxSettleBatch
  · refine .inr ?_
    rw [hmarkers, List.length_append, List.length_map, hbatch]
  · refine .inl fun x hx htenant hchannel hsucceeded => ?_
    rw [hmarkers, List.mem_append]
    by_cases hmarked : (tenant, x.id) ∈ s.markers
    · exact .inl hmarked
    · refine .inr ?_
      exact (pendingReplies_all hregular hx htenant hchannel hsucceeded hmarked).resolve_right hbatch

end Pass

end AgentPlatform.Conversation
