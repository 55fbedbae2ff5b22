import AgentPlatform.Engine.Idempotency

/-!
# Conversation turns and takeovers

The rows of `p_conversation_turns` and `p_conversation_takeover`, with the transactions on them that
need no worker: `record_turn`, `takeover_in` and `release_takeover`.

A turn goes `queued`, `open`, `delivering`, and then to one of its ends; `throttled` turns are only
recorded. It never returns to an earlier status.
-/

namespace AgentPlatform.Conversation

open Outcome Engine

/-- The status column of `p_conversation_turns`; `opened` is `open`. -/
inductive TurnStatus
  | queued
  | throttled
  | opened
  | delivering
  | delivered
  | failed
  | uncertain
  | operator
  deriving DecidableEq, Repr

/-- A row of `p_conversation_turns`. An empty `run_id` or `task` is `none`. -/
structure TurnRow where
  tenant : String
  channel : String
  eventKey : String
  conversationId : String
  sender : String
  agent : String
  run : Option Uuid
  status : TurnStatus
  reply : String
  task : Option Uuid
  error : String
  created : Time

/-- The primary key of a turn. -/
def TurnRow.key (u : TurnRow) : String × String × String := (u.tenant, u.channel, u.eventKey)

/-- A row of `p_conversation_takeover`. -/
structure TakeoverRow where
  tenant : String
  channel : String
  conversationId : String
  actor : String
  expires : Time

/-- The primary key of a takeover. -/
def TakeoverRow.key (k : TakeoverRow) : String × String × String :=
  (k.tenant, k.channel, k.conversationId)

/-- `MAX_QUEUED_TURNS_PER_SENDER`. -/
def maxQueuedTurnsPerSender : ℕ := 3

/-! ### `record_turn` -/

/-- An identity of `record_turn`: a nonempty text of at most 256 characters. -/
def identity? (value : Json) : Except Err String :=
  match value with
  | .str s => do
    ensure (isIdentity s = true) (.valueError "Invalid conversation identity")
    pure s
  | _ => .error (.valueError "Invalid conversation identity")

/-- `record_turn`. -/
def recordTurn (env : Env) (turns : List TurnRow) (tenant channel eventKey agent : String)
    (payload : Json) : Except Err (List TurnRow) := do
  ensure (channel ∈ outboundChannels)
    (.valueError "Conversation turns need a channel that can reply to its inbound event")
  let conversationId ← identity? (payload.getD "conversation_id" .null)
  let sender ← identity? (payload.getD "sender" .null)
  let agent ← identity? (.str agent)
  ensure ((match payload.getD "text" (.str "") with | .str _ => true | _ => false) = true)
    (.valueError "Conversation text must be a string")
  let _ ← env.policy tenant agent
  let waiting := turns.countP fun u => decide (u.tenant = tenant) && decide (u.channel = channel) &&
    decide (u.conversationId = conversationId) && decide (u.status = .queued) &&
      decide (u.sender = sender)
  if turns.any fun u => u.key = (tenant, channel, eventKey) then pure turns
  else pure (turns ++ [⟨tenant, channel, eventKey, conversationId, sender, agent, none,
    if waiting < maxQueuedTurnsPerSender then .queued else .throttled, "", none, "", env.now⟩])

/-- Recording a turn keeps the turns where the key is known, and adds a turn where it is not. -/
theorem recordTurn_eq {env : Env} {turns turns' : List TurnRow}
    {tenant channel eventKey agent : String} {payload : Json}
    (h : recordTurn env turns tenant channel eventKey agent payload = .ok turns') :
    channel ∈ outboundChannels ∧
      if turns.any fun u => u.key = (tenant, channel, eventKey) then turns' = turns
      else ∃ u : TurnRow, turns' = turns ++ [u] ∧ u.key = (tenant, channel, eventKey) ∧
        (u.status = .queued ∨ u.status = .throttled) ∧ u.created = env.now ∧
          payload.getD "conversation_id" .null = .str u.conversationId := by
  simp only [recordTurn, bind_eq_ok, exists_unit, ensure_eq_ok] at h
  obtain ⟨hchannel, conversationId, hconversation, sender, -, agent', -, -, -, -, h⟩ := h
  refine ⟨hchannel, ?_⟩
  split at h
  · rename_i hany
    rw [if_pos hany]
    exact (Except.ok.inj h).symm
  · rename_i hnone
    rw [if_neg hnone]
    have hid : payload.getD "conversation_id" .null = .str conversationId := by
      unfold identity? at hconversation
      split at hconversation
      · rename_i c hc
        simp only [bind_eq_ok, exists_unit, pure_eq_ok] at hconversation
        rw [hc, hconversation.2]
      · cases hconversation
    refine ⟨_, (Except.ok.inj h).symm, rfl, ?_, rfl, hid⟩
    show (if _ then TurnStatus.queued else TurnStatus.throttled) = _ ∨ _
    split
    · exact .inl rfl
    · exact .inr rfl

/-- Recording a turn keeps the turns, or adds one under a key that none has. -/
theorem recordTurn_cases {env : Env} {turns turns' : List TurnRow}
    {tenant channel eventKey agent : String} {payload : Json}
    (h : recordTurn env turns tenant channel eventKey agent payload = .ok turns') :
    channel ∈ outboundChannels ∧ (turns' = turns ∨ ∃ u : TurnRow, turns' = turns ++ [u] ∧
      u.key = (tenant, channel, eventKey) ∧ (∀ u' ∈ turns, u'.key ≠ u.key) ∧
        (u.status = .queued ∨ u.status = .throttled)) := by
  obtain ⟨hchannel, h⟩ := recordTurn_eq h
  refine ⟨hchannel, ?_⟩
  split at h
  · exact .inl h
  · rename_i hnone
    obtain ⟨u, heq, hkey, hstatus, -⟩ := h
    refine .inr ⟨u, heq, hkey, fun u' hu' hk => ?_, hstatus⟩
    exact hnone (List.any_eq_true.2 ⟨u', hu', decide_eq_true (hk.trans hkey)⟩)

/-! ### Takeovers -/

/-- Whether `takeover_state` finds a takeover. -/
def takenOver (takeovers : List TakeoverRow) (tenant channel conversationId : String) (now : Time) :
    Bool :=
  takeovers.any fun k => decide (k.key = (tenant, channel, conversationId)) && decide (now < k.expires)

/-- `minutes`, where it is within `TAKEOVER_MINUTES`. -/
def takeoverMinutes (minutes : ℤ) : ℤ := if 1 ≤ minutes ∧ minutes ≤ 1440 then minutes else 30

/-- `takeover_in`. -/
def takeoverIn (takeovers : List TakeoverRow) (tenant channel conversationId actor : String)
    (minutes : ℤ) (now : Time) : Except Err (List TakeoverRow) := do
  ensure ([tenant, channel, conversationId, actor].all isIdentity = true)
    (.valueError "Invalid takeover identity")
  let expires := now + seconds (takeoverMinutes minutes * 60)
  if takeovers.any fun k => k.key = (tenant, channel, conversationId) then
    pure (Table.update (fun k => k.key = (tenant, channel, conversationId))
      (fun k => { k with actor := actor, expires := expires }) takeovers)
  else pure (takeovers ++ [⟨tenant, channel, conversationId, actor, expires⟩])

/-- `release_takeover`. -/
def releaseTakeover (env : Env) (takeovers : List TakeoverRow)
    (tenant channel conversationId actor : String) : Except Err (List TakeoverRow) := do
  env.requireAuthority tenant "web" actor
  pure (Table.update (fun k => decide (k.key = (tenant, channel, conversationId)) &&
    decide (env.now < k.expires)) (fun k => { k with expires := env.now }) takeovers)

end AgentPlatform.Conversation
