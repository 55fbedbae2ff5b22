import Mathlib.Algebra.Order.Field.Rat
import Mathlib.Data.List.DropRight
import Mathlib.Tactic.FieldSimp
import Mathlib.Tactic.Linarith
import AgentPlatform.Base
import AgentPlatform.Lib.Runs

/-!
# The autonomy ladder

`LadderStore` of `app/ladder.py`: for every agent its level and the outcomes of its last tasks. `record`
adds an outcome and moves the level by the share of failures, `set_level` is the owner's choice; both
start a new window where they set the level. One lock serialises the calls.

The shares are rationals here: `errs / total` and the two bounds are doubles in the source, and for
windows below `2 ^ 50` outcomes the comparisons agree.
-/

namespace AgentPlatform.Ladder

open Outcome Runs

inductive Level
  | humanLed
  | humanAssisted
  | autonomous
  deriving DecidableEq, Repr

/-- `LEVELS`. -/
def levels : List Level := [.humanLed, .humanAssisted, .autonomous]

def Level.value : Level → String
  | humanLed => "human_led"
  | humanAssisted => "human_assisted"
  | autonomous => "autonomous"

/-- The level a text names. -/
def Level.named (text : String) : Option Level := levels.find? fun level => level.value = text

/-- `LEVELS.index(level)`. -/
def Level.index : Level → ℕ
  | humanLed => 0
  | humanAssisted => 1
  | autonomous => 2

/-- `LEVELS[idx]`. -/
def levelAt : ℕ → Level
  | 0 => .humanLed
  | 1 => .humanAssisted
  | _ => .autonomous

/-- A row of `ladder`; the defaults are those of an agent without a row. -/
structure Entry where
  level : Level := .humanLed
  outcomes : List Bool := []
  deriving DecidableEq, Repr

def minWindow : ℤ := 30

/-- The arguments of `LadderStore`, with their defaults. -/
structure LadderStore where
  minTasks : ℤ := 30
  maxErr : ℚ := 1 / 20
  demoteErr : ℚ := 1 / 5
  autoCap : Bool := true

/-- The rows of the table, by their key. -/
structure State where
  rows : String → Option Entry := fun _ => none

/-- `key`. -/
def key (tenant agentId : String) : String := tenant ++ ":" ++ agentId

/-- What `_check_id` lets through. -/
def validId (agentId : String) : Bool :=
  decide (agentId ≠ "") && !(agentId.toList.contains ':' && agentId.toList.count ':' != 1)

/-- `_check_id`. -/
def checkId (agentId : String) : Except Err Unit :=
  ensure (validId agentId = true) (.valueError "agent_id noto'g'ri (key() dan foydalaning)")

namespace State

def entry (s : State) (agentId : String) : Entry := (s.rows agentId).getD {}

/-- `level`, of an agent that `_check_id` lets through. -/
def level (s : State) (agentId : String) : Level := (s.entry agentId).level

/-- `_save`. -/
def save (s : State) (agentId : String) (entry : Entry) : State :=
  { s with rows := Function.update s.rows agentId (some entry) }

@[simp] theorem entry_save (s : State) (agentId : String) (entry : Entry) :
    (s.save agentId entry).entry agentId = entry := by
  simp [State.entry, save]

theorem entry_save_of_ne {s : State} {agentId other : String} {entry : Entry} (h : other ≠ agentId) :
    (s.save agentId entry).entry other = s.entry other := by
  simp [State.entry, save, Function.update_of_ne h]

/-- `set_level`. -/
def setLevel (s : State) (agentId text : String) : Except Err (State × Level) := do
  let level ← need (Level.named text)
    (.valueError "level: ['human_led', 'human_assisted', 'autonomous']")
  checkId agentId
  pure (s.save agentId { level := level }, level)

end State

namespace LadderStore

variable (store : LadderStore)

def window : ℕ := (max minWindow store.minTasks).toNat

/-- The outcomes `record` keeps: the last ones, with the new one. -/
def retained (entry : Entry) (ok : Bool) : List Bool := (entry.outcomes ++ [ok]).rtake store.window

/-- The failures among some outcomes. -/
def errs (outcomes : List Bool) : ℕ := outcomes.countP fun ok => !ok

/-- `errs / total`. -/
def errRate (outcomes : List Bool) : ℚ := (errs outcomes : ℚ) / outcomes.length

/-- The entry `record` saves. -/
def weigh (entry : Entry) (ok : Bool) : Entry :=
  let outcomes := store.retained entry ok
  let kept : Entry := { entry with outcomes := outcomes }
  let idx := entry.level.index
  if store.minTasks ≤ outcomes.length then
    if errRate outcomes ≤ store.maxErr ∧ idx < levels.length - 1 then
      let nxt := levelAt (idx + 1)
      if store.autoCap ∧ nxt = .autonomous then kept else { level := nxt }
    else if store.demoteErr < errRate outcomes ∧ 0 < idx then { level := levelAt (idx - 1) }
    else kept
  else kept

/-- `record`. -/
def record (s : State) (agentId : String) (ok : Bool) : Except Err (State × Level) := do
  checkId agentId
  let entry := store.weigh (s.entry agentId) ok
  pure (s.save agentId entry, entry.level)

end LadderStore

/-- One call. -/
inductive Label
  | setLevel (agentId text : String)
  | record (agentId : String) (ok : Bool)
  deriving DecidableEq, Repr

/-- The agent a call is about. -/
def Label.agent : Label → String
  | setLevel agentId _ | record agentId _ => agentId

/-- Whether the call raises nothing. -/
def Label.accepted : Label → Bool
  | setLevel agentId text => (Level.named text).isSome && validId agentId
  | record agentId _ => validId agentId

def State.after (store : LadderStore) (s : State) : Label → State
  | .setLevel agentId text => commit s (s.setLevel agentId text)
  | .record agentId ok => commit s (store.record s agentId ok)

def Step (store : LadderStore) (s : State) (l : Label) (t : State) : Prop := t = s.after store l

/-! ### One call -/

section Calls

variable {store : LadderStore} {s t : State} {l : Label} {agentId : String}

/-- What a call does to the entry of one agent. -/
inductive Change (store : LadderStore) (agentId : String) (entry : Entry) : Label → Entry → Prop
  | same {l : Label} (h : l.agent = agentId → l.accepted = false) : Change store agentId entry l entry
  | set {text : String} {level : Level} (h : Level.named text = some level)
      (hid : validId agentId = true) :
      Change store agentId entry (.setLevel agentId text) { level := level }
  | weighed {ok : Bool} (hid : validId agentId = true) :
      Change store agentId entry (.record agentId ok) (store.weigh entry ok)

theorem Step.change (h : Step store s l t) (agentId : String) :
    Change store agentId (s.entry agentId) l (t.entry agentId) := by
  subst h
  cases l with
  | setLevel a text =>
    cases hset : s.setLevel a text with
    | error e =>
      have hacc : (Label.setLevel a text).accepted = false := by
        cases hn : Level.named text with
        | none => simp [Label.accepted, hn]
        | some level =>
          by_cases hid : validId a = true
          · simp [State.setLevel, hn, need, checkId, ensure, hid, bind, Except.bind, pure,
              Except.pure] at hset
          · simp [Label.accepted, hid]
      simp only [State.after, hset, commit_error]
      exact .same fun _ => hacc
    | ok res =>
      simp only [State.setLevel, checkId, bind_eq_ok, need_eq_ok, exists_unit, ensure_eq_ok,
        pure_eq_ok] at hset
      obtain ⟨level, hn, hid, rfl⟩ := hset
      have hafter : s.after store (.setLevel a text) = s.save a { level := level } := by
        simp [State.after, State.setLevel, hn, need, checkId, ensure, hid, bind, Except.bind, pure,
          Except.pure]
      rw [hafter]
      by_cases ha : agentId = a
      · subst ha
        rw [State.entry_save]
        exact .set hn hid
      · rw [State.entry_save_of_ne ha]
        exact .same fun h => absurd h.symm ha
  | record a ok =>
    by_cases hid : validId a = true
    · have hafter : s.after store (.record a ok) = s.save a (store.weigh (s.entry a) ok) := by
        simp [State.after, LadderStore.record, checkId, ensure, hid, bind, Except.bind, pure,
          Except.pure]
      rw [hafter]
      by_cases ha : agentId = a
      · subst ha
        rw [State.entry_save]
        exact .weighed hid
      · rw [State.entry_save_of_ne ha]
        exact .same fun h => absurd h.symm ha
    · have hafter : s.after store (.record a ok) = s := by
        simp [State.after, LadderStore.record, checkId, ensure, hid, bind, Except.bind]
      rw [hafter]
      refine .same fun _ => ?_
      simpa [Label.accepted] using hid

/-- What `record` does to an entry. -/
inductive Weighed (store : LadderStore) (entry : Entry) (ok : Bool) : Entry → Prop
  | kept : Weighed store entry ok { entry with outcomes := store.retained entry ok }
  | promoted (hlevel : entry.level.index < 2)
      (htotal : store.minTasks ≤ (store.retained entry ok).length)
      (herr : LadderStore.errRate (store.retained entry ok) ≤ store.maxErr)
      (hcap : ¬ (store.autoCap = true ∧ levelAt (entry.level.index + 1) = .autonomous)) :
      Weighed store entry ok { level := levelAt (entry.level.index + 1) }
  | demoted (hlevel : 0 < entry.level.index)
      (htotal : store.minTasks ≤ (store.retained entry ok).length)
      (herr : store.demoteErr < LadderStore.errRate (store.retained entry ok)) :
      Weighed store entry ok { level := levelAt (entry.level.index - 1) }

theorem weigh_weighed (store : LadderStore) (entry : Entry) (ok : Bool) :
    Weighed store entry ok (store.weigh entry ok) := by
  simp only [LadderStore.weigh]
  split
  · rename_i htotal
    split
    · rename_i herr
      split
      · exact .kept
      · rename_i hcap
        exact .promoted herr.2 htotal herr.1 hcap
    · split
      · rename_i herr
        exact .demoted herr.2 htotal herr.1
      · exact .kept
  · exact .kept

theorem index_lt_three (level : Level) : level.index < 3 := by
  cases level <;> decide

theorem index_levelAt {n : ℕ} (h : n < 3) : (levelAt n).index = n := by
  match n, h with
  | 0, _ => rfl
  | 1, _ => rfl
  | 2, _ => rfl

theorem Step.level (h : Step store s l t) (agentId : String) :
    t.level agentId = s.level agentId ∨
    (∃ text, l = .setLevel agentId text ∧ Level.named text = some (t.level agentId) ∧
      validId agentId = true) ∨
    ∃ ok, l = .record agentId ok ∧ Weighed store (s.entry agentId) ok (t.entry agentId) := by
  have hchange := h.change agentId
  unfold State.level
  generalize t.entry agentId = entry at hchange ⊢
  cases hchange with
  | same => exact .inl rfl
  | set hn hid => exact .inr (.inl ⟨_, rfl, hn, hid⟩)
  | weighed => exact .inr (.inr ⟨_, rfl, weigh_weighed _ _ _⟩)

end Calls

/-! ### Whole runs -/

section History

variable {store : LadderStore} {s t : State} {l : Label} {agentId : String}
  {τs : List (Transition State Label)}

/-- The outcomes of an agent since its level last changed, after one more call. -/
def tally (agentId : String) (outcomes : List Bool) (τ : Transition State Label) : List Bool :=
  if τ.dst.level agentId = τ.src.level agentId then
    match τ.label with
    | .record a ok => if a = agentId ∧ validId a = true then outcomes ++ [ok] else outcomes
    | .setLevel _ _ => outcomes
  else []

/-- The outcomes recorded for an agent since its level last changed. -/
def sinceChange (agentId : String) (τs : List (Transition State Label)) : List Bool :=
  τs.foldl (tally agentId) []

theorem retained_suffix {entry : Entry} {outcomes : List Bool} (store : LadderStore) (ok : Bool)
    (h : entry.outcomes <:+ outcomes) : store.retained entry ok <:+ outcomes ++ [ok] := by
  obtain ⟨older, rfl⟩ := h
  refine (List.drop_suffix _ _).trans ⟨older, ?_⟩
  rw [List.append_assoc]

/-- What a row keeps are the last outcomes since its level changed. -/
theorem outcomes_suffix (h : Run (Step store) {} τs s) (agentId : String) :
    (s.entry agentId).outcomes <:+ sinceChange agentId τs := by
  induction h with
  | nil => exact List.nil_suffix
  | @snoc τs s t l _ hs ih =>
    have hchange := hs.change agentId
    unfold sinceChange at ih ⊢
    rw [List.foldl_append, List.foldl_cons, List.foldl_nil]
    generalize τs.foldl (tally agentId) [] = outcomes at ih ⊢
    unfold tally State.level
    generalize t.entry agentId = entry at hchange ⊢
    cases hchange with
    | same hacc =>
      rw [if_pos rfl]
      cases l with
      | setLevel => exact ih
      | record a ok =>
        have hnot : ¬ (a = agentId ∧ validId a = true) := by
          rintro ⟨ha, hid⟩
          have hno : validId a = false := hacc ha
          rw [hno] at hid
          cases hid
        simpa [hnot] using ih
    | set =>
      split <;> exact List.nil_suffix
    | @weighed ok hid =>
      have hweighed := weigh_weighed store (s.entry agentId) ok
      generalize store.weigh (s.entry agentId) ok = entry at hweighed ⊢
      cases hweighed with
      | kept =>
        rw [if_pos rfl]
        simp only [hid, and_self, if_true]
        exact retained_suffix store ok ih
      | promoted | demoted =>
        split
        · exact List.nil_suffix
        · exact List.nil_suffix

/-- `set_level` for an agent, with a level it accepts. -/
def SetsLevel (agentId : String) (l : Label) : Prop :=
  ∃ text, l = .setLevel agentId text ∧ l.accepted = true

theorem value_of_named {text : String} {level : Level} (h : Level.named text = some level) :
    text = level.value := by
  have hfound := List.find?_some h
  exact (of_decide_eq_true hfound).symm

theorem Weighed.autonomous {entry entry' : Entry} {ok : Bool} (hcap : store.autoCap = true)
    (h : Weighed store entry ok entry') (hlevel : entry'.level = .autonomous) :
    entry.level = .autonomous := by
  cases h with
  | kept => exact hlevel
  | promoted _ _ _ hnot => exact absurd ⟨hcap, hlevel⟩ hnot
  | demoted hpos =>
    have hlt := index_lt_three entry.level
    have hindex := index_levelAt (n := entry.level.index - 1) (by omega)
    rw [show levelAt (entry.level.index - 1) = .autonomous from hlevel] at hindex
    have htwo : Level.autonomous.index = 2 := rfl
    omega

/-- An autonomous agent was set to be so, and nothing has changed its level since. -/
theorem autonomous_set (hcap : store.autoCap = true) (h : Run (Step store) {} τs s)
    (hs : s.level agentId = .autonomous) :
    ∃ pre τ post, τs = pre ++ τ :: post ∧ τ.label = .setLevel agentId Level.autonomous.value ∧
      ∀ τ' ∈ post, ¬ SetsLevel agentId τ'.label ∧ τ'.src.level agentId = .autonomous ∧
        τ'.dst.level agentId = .autonomous := by
  induction h with
  | nil => cases hs
  | @snoc τs s t l _ hstep ih =>
    by_cases hset : ∃ text, l = .setLevel agentId text ∧
        Level.named text = some (t.level agentId) ∧ validId agentId = true
    · obtain ⟨text, rfl, hn, -⟩ := hset
      rw [hs] at hn
      obtain rfl := value_of_named hn
      exact ⟨τs, ⟨s, _, t⟩, [], rfl, rfl, by simp⟩
    · have hnot : ¬ SetsLevel agentId l := by
        rintro ⟨text, rfl, hacc⟩
        simp only [Label.accepted, Bool.and_eq_true, Option.isSome_iff_exists] at hacc
        obtain ⟨⟨level, hn⟩, hid⟩ := hacc
        refine hset ⟨text, rfl, ?_, hid⟩
        have hchange := hstep.change agentId
        unfold State.level
        generalize t.entry agentId = entry at hchange ⊢
        cases hchange with
        | same hrefused => simp [Label.accepted, Label.agent, hn, hid] at hrefused
        | set hn' => exact hn'
      have hsrc : s.level agentId = .autonomous := by
        rcases hstep.level agentId with hsame | hset' | ⟨ok, -, hweighed⟩
        · exact hsame.symm.trans hs
        · exact absurd hset' hset
        · exact hweighed.autonomous hcap hs
      obtain ⟨pre, τ, post, rfl, hτ, hpost⟩ := ih hsrc
      refine ⟨pre, τ, post ++ [⟨s, l, t⟩], by simp, hτ, ?_⟩
      intro τ' hτ'
      rcases List.mem_append.1 hτ' with hτ' | hτ'
      · exact hpost τ' hτ'
      · obtain rfl := List.mem_singleton.1 hτ'
        exact ⟨hnot, hsrc, hs⟩

/-! ### Isolation -/

theorem Step.entry_of_ne (h : Step store s l t) (hne : l.agent ≠ agentId) :
    t.entry agentId = s.entry agentId := by
  have hchange := h.change agentId
  generalize t.entry agentId = entry at hchange
  cases hchange with
  | same => rfl
  | set | weighed => exact absurd rfl hne

theorem Change.functional {entry e₁ e₂ : Entry} (h₁ : Change store agentId entry l e₁)
    (h₂ : Change store agentId entry l e₂) : e₁ = e₂ := by
  cases h₁ with
  | same hrefused =>
    cases h₂ with
    | same => rfl
    | set hn hid => simp [Label.accepted, Label.agent, hn, hid] at hrefused
    | weighed hid => simp [Label.accepted, Label.agent, hid] at hrefused
  | set hn hid =>
    cases h₂ with
    | same hrefused => simp [Label.accepted, Label.agent, hn, hid] at hrefused
    | set hn' => rw [Option.some.inj (hn.symm.trans hn')]
  | weighed hid =>
    cases h₂ with
    | same hrefused => simp [Label.accepted, Label.agent, hid] at hrefused
    | weighed => rfl

/-- **Isolation.** The entry of an agent is what the calls about it make of it. -/
theorem entry_isolated (h : Run (Step store) {} τs s) (agentId : String) :
    s.entry agentId =
      (((τs.map Transition.label).filter fun l => l.agent = agentId).foldl (State.after store)
        {}).entry agentId := by
  induction h with
  | nil => rfl
  | @snoc τs s t l _ hstep ih =>
    rw [List.map_append, List.filter_append, List.foldl_append]
    generalize ((τs.map Transition.label).filter fun l => l.agent = agentId).foldl
      (State.after store) {} = alone at ih ⊢
    by_cases hagent : l.agent = agentId
    · have halone : Step store alone l (alone.after store l) := rfl
      have hchange := halone.change agentId
      rw [← ih] at hchange
      simpa [hagent] using (hstep.change agentId).functional hchange
    · rw [hstep.entry_of_ne hagent, ih]
      simp [hagent]

/-- The keys of two agents differ. -/
theorem key_injective {tenant agent tenant' agent' : String} (hid : validId (key tenant agent) = true)
    (h : key tenant agent = key tenant' agent') : tenant = tenant' ∧ agent = agent' := by
  have hlist : ∀ t a : String, (key t a).toList = t.toList ++ ':' :: a.toList := by
    intro t a
    simp [key]
  have hfree : ∀ t a : String, validId (key t a) = true → ':' ∉ t.toList ∧ ':' ∉ a.toList := by
    intro t a hvalid
    simp only [validId, Bool.and_eq_true, hlist] at hvalid
    have hcount : (t.toList ++ ':' :: a.toList).count ':' = 1 := by
      simpa using hvalid.2
    rw [List.count_append, List.count_cons_self] at hcount
    exact ⟨List.count_eq_zero.1 (by omega), List.count_eq_zero.1 (by omega)⟩
  obtain ⟨htenant, hagent⟩ := hfree tenant agent hid
  obtain ⟨htenant', -⟩ := hfree tenant' agent' (h ▸ hid)
  have hlists : tenant.toList ++ ':' :: agent.toList = tenant'.toList ++ ':' :: agent'.toList := by
    rw [← hlist, ← hlist, h]
  obtain ⟨heq, -, heq'⟩ := (List.append_cons_inj_of_notMem htenant hagent).1 hlists
  exact ⟨String.toList_inj.1 heq, String.toList_inj.1 heq'⟩

end History

/-! ### Earned levels -/

section Earned

variable {store : LadderStore} {entry entry' : Entry} {ok : Bool} {outcomes window : List Bool}

/-- What a record may do to a level, given the outcomes since the level changed and those that are kept
of them. -/
structure Earned (minTasks : ℤ) (outcomes window : List Bool) (old new : Level) : Prop where
  kept : window <:+ outcomes
  up : new.index ≤ old.index + 1
  down : old.index ≤ new.index + 1
  promoted : old.index < new.index →
    minTasks ≤ window.length ∧ 20 * LadderStore.errs window ≤ window.length
  demoted : new.index < old.index →
    minTasks ≤ window.length ∧ window.length < 5 * LadderStore.errs window

theorem errs_le_length (window : List Bool) : LadderStore.errs window ≤ window.length :=
  List.countP_le_length

theorem errs_of_rate_le (h : LadderStore.errRate window ≤ 1 / 20) :
    20 * LadderStore.errs window ≤ window.length := by
  have hle := errs_le_length window
  rcases Nat.eq_zero_or_pos window.length with hzero | hpos
  · omega
  · have hpos' : (0 : ℚ) < window.length := by exact_mod_cast hpos
    unfold LadderStore.errRate at h
    rw [div_le_iff₀ hpos'] at h
    have hrate : (20 : ℚ) * LadderStore.errs window ≤ window.length := by linarith
    exact_mod_cast hrate

theorem errs_of_lt_rate (h : 1 / 5 < LadderStore.errRate window) :
    window.length < 5 * LadderStore.errs window := by
  have hle := errs_le_length window
  unfold LadderStore.errRate at h
  rcases Nat.eq_zero_or_pos window.length with hzero | hpos
  · rw [hzero] at h
    norm_num at h
  · have hpos' : (0 : ℚ) < window.length := by exact_mod_cast hpos
    rw [lt_div_iff₀ hpos'] at h
    have hrate : (window.length : ℚ) < 5 * LadderStore.errs window := by linarith
    exact_mod_cast hrate

theorem Earned.same {minTasks : ℤ} (hkept : window <:+ outcomes) (level : Level) :
    Earned minTasks outcomes window level level where
  kept := hkept
  up := Nat.le_succ _
  down := Nat.le_succ _
  promoted h := absurd h (Nat.lt_irrefl _)
  demoted h := absurd h (Nat.lt_irrefl _)

/-- A record by the default bounds earns what it does. -/
theorem Weighed.earned (h : Weighed store entry ok entry') (hmax : store.maxErr = 1 / 20)
    (hdemote : store.demoteErr = 1 / 5) (hsuffix : entry.outcomes <:+ outcomes) :
    Earned store.minTasks (outcomes ++ [ok]) (store.retained entry ok) entry.level entry'.level := by
  have hkept := retained_suffix store ok hsuffix
  have hlt := index_lt_three entry.level
  cases h with
  | kept => exact .same hkept entry.level
  | promoted hlevel htotal herr =>
    have hindex := index_levelAt (n := entry.level.index + 1) (by omega)
    rw [hmax] at herr
    refine ⟨hkept, by rw [hindex], by rw [hindex]; omega, fun _ => ⟨htotal, errs_of_rate_le herr⟩, ?_⟩
    rw [hindex]
    intro h
    omega
  | demoted hlevel htotal herr =>
    have hindex := index_levelAt (n := entry.level.index - 1) (by omega)
    rw [hdemote] at herr
    refine ⟨hkept, by rw [hindex]; omega, by rw [hindex]; omega, ?_,
      fun _ => ⟨htotal, errs_of_lt_rate herr⟩⟩
    rw [hindex]
    intro h
    omega

/-- **Autonomy is earned.** In every run of records and of levels set by the owner: an autonomous agent
was set to be so, and was not demoted since; a record moves a level one step at most, up only on at
least `min_tasks` outcomes since the level changed, at most five percent of those kept being failures,
and down only on as many, more than twenty percent being failures; and the level of an agent is what the
calls about it make of it, different agents having different keys. -/
theorem autonomy_earned (minTasks : ℤ) {s : State} {τs : List (Transition State Label)}
    (h : Run (Step { minTasks := minTasks }) {} τs s) :
    (∀ agentId, s.level agentId = .autonomous → ∃ pre τ post, τs = pre ++ τ :: post ∧
      τ.label = .setLevel agentId Level.autonomous.value ∧
      ∀ τ' ∈ post, ¬ SetsLevel agentId τ'.label ∧
        ¬ (τ'.dst.level agentId).index < (τ'.src.level agentId).index) ∧
    (∀ pre τ post, τs = pre ++ τ :: post → ∀ agentId ok, τ.label = .record agentId ok →
      Earned minTasks (sinceChange agentId pre ++ [ok])
        (LadderStore.retained { minTasks := minTasks } (τ.src.entry agentId) ok)
        (τ.src.level agentId) (τ.dst.level agentId)) ∧
    (∀ agentId, s.level agentId =
      (((τs.map Transition.label).filter fun l => l.agent = agentId).foldl
        (State.after { minTasks := minTasks }) {}).level agentId) ∧
    ∀ tenant agent tenant' agent', validId (key tenant agent) = true →
      key tenant agent = key tenant' agent' → tenant = tenant' ∧ agent = agent' := by
  refine ⟨fun agentId hs => ?_, ?_, fun agentId => congrArg Entry.level (entry_isolated h agentId),
    fun _ _ _ _ => key_injective⟩
  · obtain ⟨pre, τ, post, hτs, hτ, hpost⟩ := autonomous_set rfl h hs
    refine ⟨pre, τ, post, hτs, hτ, fun τ' hτ' => ?_⟩
    obtain ⟨hnot, hsrc, hdst⟩ := hpost τ' hτ'
    rw [hsrc, hdst]
    exact ⟨hnot, Nat.lt_irrefl _⟩
  · rintro pre ⟨src, l, dst⟩ post rfl agentId ok hl
    obtain ⟨hpre, hstep⟩ := h.split
    have hsuffix := outcomes_suffix hpre agentId
    rcases hstep.level agentId with hsame | ⟨text, hl', -⟩ | ⟨ok', hl', hweighed⟩
    · rw [hsame]
      exact .same (retained_suffix _ ok hsuffix) _
    · rw [hl'] at hl
      cases hl
    · obtain ⟨-, rfl⟩ : agentId = agentId ∧ ok' = ok := by
        simpa using hl'.symm.trans hl
      exact hweighed.earned rfl rfl hsuffix

end Earned

/-! ### An agent's way up and down -/

section Sample

/-- Two good tasks, two failures, and the owner's choice, with another agent's failure between. -/
def sampleLabels : List Label :=
  [.record "t:a" true, .record "t:a" true, .record "t:b" false, .record "t:a" false,
    .record "t:a" false, .setLevel "t:a" "autonomous"]

def sampleAt (n : ℕ) : State := (sampleLabels.take n).foldl (State.after { minTasks := 2 }) {}

theorem autonomy_earned_sample :
    (sampleAt 2).level "t:a" = .humanAssisted ∧ (sampleAt 5).level "t:a" = .humanLed ∧
    (sampleAt 6).level "t:a" = .autonomous ∧
    ∃ pre τ post, trace (State.after { minTasks := 2 }) {} sampleLabels = pre ++ τ :: post ∧
      τ.label = .setLevel "t:a" Level.autonomous.value ∧
      ∀ τ' ∈ post, ¬ SetsLevel "t:a" τ'.label ∧
        ¬ (τ'.dst.level "t:a").index < (τ'.src.level "t:a").index := by
  have hrun : Run (Step { minTasks := 2 }) {} ([] ++ trace (State.after { minTasks := 2 }) {}
      sampleLabels) (sampleAt 6) := Run.nil.calls sampleLabels
  have hlevel : (sampleAt 6).level "t:a" = .autonomous := by decide +kernel
  exact ⟨by decide +kernel, by decide +kernel, hlevel, (autonomy_earned 2 hrun).1 "t:a" hlevel⟩

end Sample

end AgentPlatform.Ladder
