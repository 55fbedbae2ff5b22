import AgentPlatform.Engine.Frames

/-!
# One task for each key

A task is submitted under a tenant, a channel and an event key. `Effect.keys` says what a step does to the
keys: only a submission or an operator's reply adds a key, its own, and only where no task has it. So a
key has at most one task (`Effect.keys_nodup`), and a task keeps its key (`Effect.owners_kept`).
-/

namespace AgentPlatform.Engine

open Outcome Table Pipeline Runs

/-- The key a task is submitted under. -/
def TaskRow.key (t : TaskRow) : String × String × String := (t.tenant, t.channel, t.eventKey)

/-- The keys of the tasks. -/
def Db.keys (db : Db) : List (String × String × String) := db.tasks.map TaskRow.key

/-- The tasks with their keys. -/
def Db.owners (db : Db) : List (Uuid × String × String × String) :=
  db.tasks.map fun t => (t.id, t.key)

/-- The key under which an operation submits a task. -/
def Op.key? : Op → Option (String × String × String)
  | .submit _ tenant channel eventKey .. => some (tenant, channel, eventKey)
  | .operatorReply _ tenant _ _ _ _ _ key _ => some (tenant, operatorChannel, operatorReplyPrefix ++ key)
  | _ => none

section Keys

variable {P : Platform} {env : Env} {db db' : Db} {tenant : String} {op : Op} {out : Reply}

theorem keys_unmoved : Unmoved Db.keys where
  setSteps _ _ _ _ := rfl
  setApprovals _ _ _ := rfl
  refresh _ _ _ := map_update fun _ _ _ => rfl
  drawn _ _ := rfl

variable {actor agent channel eventKey : String}

theorem keys_insertTask {fingerprint approver : String} {plan : List Validated} {now : Time} :
    (db.insertTask tenant channel eventKey fingerprint agent actor plan approver now).keys =
      db.keys ++ [(tenant, channel, eventKey)] := by
  unfold Db.insertTask
  rw [keys_unmoved.refresh]
  exact List.map_append

theorem owners_unmoved : Unmoved Db.owners where
  setSteps _ _ _ _ := rfl
  setApprovals _ _ _ := rfl
  refresh _ _ _ := map_update fun _ _ _ => rfl
  drawn _ _ := rfl

theorem owners_insertTask {fingerprint approver : String} {plan : List Validated} {now : Time} :
    (db.insertTask tenant channel eventKey fingerprint agent actor plan approver now).owners =
      db.owners ++ [(db.drawn, tenant, channel, eventKey)] := by
  unfold Db.insertTask
  rw [owners_unmoved.refresh]
  exact List.map_append

theorem taskOf?_eq_none :
    db.taskOf? tenant channel eventKey = none ↔ (tenant, channel, eventKey) ∉ db.keys := by
  simp only [Db.taskOf?, List.find?_eq_none, Bool.and_eq_true, decide_eq_true_eq, Db.keys,
    List.mem_map, TaskRow.key, Prod.mk.injEq, not_exists, not_and, and_assoc]

theorem Effect.keys (he : Effect P db op out db') :
    db'.keys = db.keys ∨ ∃ k, op.key? = some k ∧ k ∉ db.keys ∧ db'.keys = db.keys ++ [k] := by
  obtain ⟨db₀, hw, heq⟩ := he.written keys_unmoved (fun _ _ _ _ _ h => h) fun _ _ _ _ _ _ h => h
  rw [heq]
  cases hw with
  | submitted _ _ _ hnew => exact .inr ⟨_, rfl, taskOf?_eq_none.1 hnew, keys_insertTask⟩
  | replied _ _ _ hnew => exact .inr ⟨_, rfl, taskOf?_eq_none.1 hnew, keys_insertTask⟩
  | same | froze | enrolled | ended | elsewhere => exact .inl rfl

theorem Effect.mem_keys {k : String × String × String} (he : Effect P db op out db')
    (hk : k ∈ db'.keys) : k ∈ db.keys ∨ op.key? = some k := by
  rcases he.keys with heq | ⟨k', hk', -, heq⟩
  · exact .inl (heq ▸ hk)
  · rw [heq] at hk
    rcases List.mem_append.1 hk with hk | hk
    · exact .inl hk
    · obtain rfl := List.mem_singleton.1 hk
      exact .inr hk'

theorem Effect.owners_kept (he : Effect P db op out db') {k : Uuid × String × String × String}
    (hk : k ∈ db.owners) : k ∈ db'.owners := by
  obtain ⟨db₀, hw, heq⟩ := he.written owners_unmoved (fun _ _ _ _ _ h => h) fun _ _ _ _ _ _ h => h
  rw [heq]
  cases hw with
  | same | froze | enrolled | ended | elsewhere => exact hk
  | submitted | replied =>
    rw [owners_insertTask]
    exact List.mem_append_left _ hk

theorem submit_owner {steps : List Json} {id : Uuid}
    (h : submit P env db tenant channel eventKey agent steps actor = .ok (db', id)) :
    (id, tenant, channel, eventKey) ∈ db'.owners := by
  simp only [submit, bind_eq_ok, exists_unit, ensure_eq_ok] at h
  obtain ⟨-, -, plan, -, -, h⟩ := h
  rcases createTask_cases h with ⟨old, hold, rfl, rfl⟩ | ⟨-, rfl, -, fingerprint, rfl⟩
  · have hfound := List.find?_some hold
    simp only [Bool.and_eq_true, decide_eq_true_eq] at hfound
    obtain ⟨⟨rfl, rfl⟩, rfl⟩ := hfound
    exact List.mem_map_of_mem (List.mem_of_find?_eq_some hold)
  · rw [owners_insertTask]
    exact List.mem_append_right _ List.mem_cons_self

theorem submit_keys {steps : List Json} {id : Uuid}
    (h : submit P env db tenant channel eventKey agent steps actor = .ok (db', id)) :
    (tenant, channel, eventKey) ∈ db'.keys := by
  obtain ⟨t, ht, heq⟩ := List.mem_map.1 (submit_owner h)
  exact List.mem_map.2 ⟨t, ht, congrArg Prod.snd heq⟩

theorem Effect.keys_nodup (h : db.keys.Nodup) (he : Effect P db op out db') :
    db'.keys.Nodup := by
  rcases he.keys with heq | ⟨k, -, hk, heq⟩
  · rwa [heq]
  · rw [heq, List.nodup_append]
    exact ⟨h, by simp, fun a ha b hb hab => hk (by
      rw [← List.mem_singleton.1 hb, ← hab]
      exact ha)⟩

end Keys

end AgentPlatform.Engine
