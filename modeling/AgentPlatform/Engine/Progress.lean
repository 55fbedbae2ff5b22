import AgentPlatform.Engine.ActiveTasks
import Mathlib.Order.WellFounded

/-!
# No task is left behind

An active task always has a next step (`NextStep`): the steps before it have succeeded, the ones after it are queued,
and it runs or is in the queue of its device.
-/

namespace AgentPlatform.Engine

open Outcome Table Pipeline Runs

/-- The step of an active task whose turn it is. -/
structure NextStep (db : Db) (t : TaskRow) (r : StepRow) : Prop where
  step : r ∈ db.steps
  task : r.task = t.id
  before : ∀ q ∈ db.steps, q.task = t.id → q.spec.position < r.spec.position → q.status = .succeeded
  after : ∀ q ∈ db.steps, q.task = t.id → r.spec.position < q.spec.position → q.status = .queued
  served : r.status = .running ∨ ⟨r, t⟩ ∈ candidates db t.tenant r.spec.device

section Tasks

variable {P : Platform} {τs : List (Transition Db Op)} {db : Db} {t : TaskRow} {r : StepRow}

/-- The query of `claim` finds a pending step of an active task with only succeeded steps before it. -/
theorem mem_candidates (hwf : Wf db) (ht : t ∈ db.tasks) (hr : r ∈ db.steps) (htask : r.task = t.id)
    (hactive : t.status.active = true) (hpending : r.status.pending = true)
    (hbefore : ∀ q ∈ db.steps, q.task = t.id → q.spec.position < r.spec.position → q.status = .succeeded) :
    ⟨r, t⟩ ∈ candidates db t.tenant r.spec.device := by
  have howner : db.owner? r = some t := by
    rw [Db.owner?, htask]
    exact hwf.tasks.get_eq ht rfl
  have hall : (db.steps.all fun prev => !(decide (prev.task = r.task) &&
      decide (prev.spec.position < r.spec.position) && decide (prev.status ≠ .succeeded))) = true := by
    rw [List.all_eq_true]
    intro q hq
    simp only [Bool.not_eq_true', Bool.eq_false_iff, Ne, Bool.and_eq_true, decide_eq_true_eq]
    rintro ⟨⟨hqtask, hlt⟩, hne⟩
    exact hne (hbefore q hq (hqtask.trans htask) hlt)
  rw [candidates, List.mem_insertionSort, List.mem_filterMap]
  refine ⟨r, hr, ?_⟩
  have htenant : r.tenant = t.tenant := hwf.tenant_eq hr ht htask.symm
  simp only [candidate?, howner, htenant, hpending, hactive, hall, decide_true, Bool.and_self, if_true]

theorem reachable_synced (h : Run (Step P) {} τs db) : Synced db :=
  (h.invariant (I := fun db => Orderly db ∧ Synced db) ⟨orderly_empty, synced_empty⟩ fun _ _ _ => Step.synced).2

theorem next_step_of (ho : Orderly db) (hs : Synced db) (ht : t ∈ db.tasks) (hactive : t.status.active = true) :
    ∃ r, NextStep db t r := by
  have hsum := hactive
  rw [hs t ht, summary_active_iff] at hsum
  obtain ⟨hkept, _, hmem, hone⟩ := hsum
  obtain ⟨r₀, hr₀, -, htask₀, rfl⟩ := mem_states.1 hmem
  have hne₀ : r₀.status ≠ .succeeded := by
    intro heq
    rw [heq] at hone
    cases hone
  have hstatus : ∀ q ∈ db.steps, q.task = t.id → q.status = .succeeded ∨ q.status.active = true :=
    fun q hq hqtask => hkept _ (mem_states.2 ⟨q, hq, ho.wf.tenant_eq hq ht hqtask.symm, hqtask, rfl⟩)
  -- the first step of the task that has not succeeded
  obtain ⟨r, ⟨hr, htask, hne⟩, hfirst⟩ := WellFounded.has_min (measure fun r : StepRow => r.spec.position).wf
    {r | r ∈ db.steps ∧ r.task = t.id ∧ r.status ≠ .succeeded} ⟨r₀, hr₀, htask₀, hne₀⟩
  have hbefore : ∀ q ∈ db.steps, q.task = t.id → q.spec.position < r.spec.position →
      q.status = .succeeded := by
    intro q hq hqtask hlt
    by_contra hqne
    exact hfirst q ⟨hq, hqtask, hqne⟩ hlt
  refine ⟨r, hr, htask, hbefore, fun q hq hqtask hlt => ?_, ?_⟩
  · -- a later step that had left the queue would have only succeeded steps before it
    by_contra hqueued
    have hcancelled : q.status ≠ .cancelled := by
      intro heq
      rcases hstatus q hq hqtask with h | h <;> rw [heq] at h <;> cases h
    have hready := ho.sequential q.id q.cell (ho.wf.board_eq hq) hqueued hcancelled
    exact hne (hready r.id r.cell (ho.wf.board_eq hr) (htask.trans hqtask.symm) hlt)
  · have hwork := (hstatus r hr htask).resolve_left hne
    cases hrs : r.status with
    | running => exact .inl rfl
    | queued | waiting =>
      exact .inr (mem_candidates ho.wf ht hr htask hactive (by rw [hrs]; rfl) hbefore)
    | _ =>
      rw [hrs] at hwork
      cases hwork

/-- **No task is left behind.** In every state a run reaches, every active task has a next step. -/
theorem next_step (h : Run (Step P) {} τs db) (ht : t ∈ db.tasks) (hactive : t.status.active = true) :
    ∃ r, NextStep db t r :=
  next_step_of (reachable_orderly orderly_empty h) (reachable_synced h) ht hactive

theorem next_step_sample : ∃ t ∈ (sampleDb lateOps).tasks, ∃ r, NextStep (sampleDb lateOps) t r := by
  have hwaiting : Status.waiting ∈ (sampleDb lateOps).tasks.map TaskRow.status := by decide +kernel
  obtain ⟨t, ht, hstatus⟩ := List.mem_map.1 hwaiting
  exact ⟨t, ht, next_step (sample_run lateOps) ht (by rw [hstatus]; rfl)⟩

end Tasks

end AgentPlatform.Engine
