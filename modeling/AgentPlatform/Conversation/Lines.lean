import AgentPlatform.Conversation.Worker

/-!
# The lines of a conversation

`Windowed es history` says that the table holds of every conversation the last `MAX_HISTORY_ROWS` of its
entries, numbered in the order of `es`. `Windowed.append` is the spec of `_append` under `_next_seq`: one
entry more, whoever appends it.
-/

namespace AgentPlatform.Conversation

open Engine Window

/-- What a line of the history goes back to. -/
inductive Source
  | event (key : String × String × String)
  | reply (key : String × String × String)
  | operatorReply (tenant : String) (task : Uuid)
  deriving DecidableEq

/-- The role of a line. -/
def Source.role : Source → Role
  | event _ => .customer
  | reply _ => .agent
  | operatorReply _ _ => .operator

/-- One line of the history as it is appended. -/
structure Entry where
  source : Source
  conversation : String × String × String
  text : String

/-- What the history stores of an entry. -/
def Entry.line (e : Entry) : Role × String := (e.source.role, truncate maxRunInputChars e.text)

/-- The lines the table holds of a conversation, with their numbers. -/
def lines (history : List LineRow) (c : String × String × String) : List ((Role × String) × ℕ) :=
  (history.filter fun r => r.conversation = c).map fun r => ((r.role, r.text), r.seq)

/-- The lines of a conversation among some entries. -/
def linesOf (es : List Entry) (c : String × String × String) : List (Role × String) :=
  (es.filter fun e => e.conversation = c).map Entry.line

/-- The table of a conversation is the window of its entries. -/
def Windowed (es : List Entry) (history : List LineRow) : Prop :=
  ∀ c, lines history c = window maxHistoryRows (linesOf es c)

variable {es : List Entry} {history : List LineRow} {tenant channel conversationId text : String}
  {role : Role} {e : Entry}

theorem linesOf_append (es : List Entry) (e : Entry) (c : String × String × String) :
    linesOf (es ++ [e]) c = linesOf es c ++ if e.conversation = c then [e.line] else [] := by
  unfold linesOf
  rw [List.filter_append, List.map_append]
  congr 1
  by_cases h : e.conversation = c <;> simp [h]

theorem nextSeq_eq (h : Windowed es history) (c : String × String × String) :
    nextSeq history c = (linesOf es c).length + 1 := by
  have hlast : nextSeq history c = lastNumber (lines history c) + 1 := by
    unfold nextSeq lastNumber lines
    rw [List.map_map]
    rfl
  rw [hlast, h c, lastNumber_window (by decide)]

/-- Appending a row that keeps the rows of other conversations. -/
theorem lines_append_row (history : List LineRow) (row : LineRow) (n : ℕ)
    (c : String × String × String) :
    lines ((history ++ [row]).filter fun r => !(decide (r.conversation = row.conversation) &&
        decide (r.seq + maxHistoryRows ≤ n))) c =
      if row.conversation = c then
        (lines history c ++ [((row.role, row.text), row.seq)]).filter
          fun r => !decide (r.2 + maxHistoryRows ≤ n)
      else lines history c := by
  unfold lines
  rw [List.filter_filter]
  split
  · rename_i hc
    have hrow : (history.filter fun r => r.conversation = c).map (fun r => ((r.role, r.text), r.seq)) ++
        [((row.role, row.text), row.seq)] =
          ((history ++ [row]).filter fun r => r.conversation = c).map
            fun r => ((r.role, r.text), r.seq) := by
      rw [List.filter_append, List.map_append]
      simp [hc]
    rw [hrow, List.filter_map, List.filter_filter]
    refine congrArg _ (List.filter_congr fun r _ => ?_)
    rw [hc]
    by_cases hr : r.conversation = c <;> simp [hr]
  · rename_i hc
    -- neither the new row nor a deleted one is of the conversation
    rw [List.filter_append]
    have hnone : [row].filter (fun r => decide (r.conversation = c) &&
        !(decide (r.conversation = row.conversation) && decide (r.seq + maxHistoryRows ≤ n))) = [] := by
      simp [hc]
    rw [hnone, List.append_nil]
    refine congrArg _ (List.filter_congr fun r _ => ?_)
    by_cases hr : r.conversation = c
    · simp [hr, Ne.symm hc]
    · simp [hr]

theorem Windowed.append (h : Windowed es history)
    (hconversation : e.conversation = (tenant, channel, conversationId))
    (hline : e.line = (role, truncate maxRunInputChars text)) :
    Windowed (es ++ [e]) (appendLine history tenant channel conversationId role text) := by
  intro c
  have hnext := nextSeq_eq h (tenant, channel, conversationId)
  unfold appendLine
  dsimp only
  rw [lines_append_row, linesOf_append, hconversation]
  show (if (tenant, channel, conversationId) = c then _ else _) = _
  split
  · rename_i hc
    rw [window_append, ← h c, hnext, hc, hline]
  · rw [List.append_nil]
    exact h c

end AgentPlatform.Conversation
