import AgentPlatform.Agent.Requests
import AgentPlatform.Reengagement.Loop

/-!
# How many runs a lead has

An attempt is named by its policy and its number, and the ledger row of a lead carries the ones of the
attempt claimed last. `Tracked` is the invariant that ties the runs to it: a run started for a lead that
is still live is the run of that attempt. Every statement keeps it but one: `_claim` repeats a `queued`
attempt whose run may be live, or may yet be created. Where that does not happen (`Spaced`), a lead is
never claimed while a run started for it is live (`one_live_attempt`); where it does, two of its runs are
live at once (`two_live_attempts`).
-/

namespace AgentPlatform.Reengagement

open Outcome Engine Table Runs
open Agent (Live Requested Budgeted)

/-- The row is `queued`, with an attempt left, and its cooldown is over. -/
def Repeats (r : PolicyRow) (row : LedgerRow) (now : Time) : Prop :=
  row.status = .queued ∧ (row.attempt : ℤ) < r.settings.maxAttempts ∧
    row.lastAttempt + seconds r.settings.cooldownSeconds ≤ now

/-- The request of the attempt a row was claimed for last. -/
def LedgerRow.request (row : LedgerRow) : String × String :=
  (row.tenant, runKey row.policy row.lead row.attempt)

/-- The request of a started run. -/
def Start.request (x : Start) : String × String := (x.lead.1, runKey x.policy x.lead.2.2 x.attempt)

/-- The lead whose claimed run a worker has still to create. -/
def Stage.opening? : Stage → Option LeadKey
  | .opening r _ lead _ _ => some (r.lead lead)
  | _ => none

/-- The label claims an attempt at the lead. -/
def Claims (s : State) (l : Label) (k : LeadKey) : Prop :=
  ∃ w r now lead rest n, l = .claim w false ∧ s.workers w = .claiming r now (some lead :: rest) ∧
    lead.leadId ≠ "" ∧ r.lead lead = k ∧ (claim s.ledger r lead now).2 = some n

/-- A `queued` attempt is repeated only where no worker has its run still to create, and the run of its
request, if there is one, is over. -/
def Spaced (s : State) : Label → Prop
  | .claim w false => ∀ r now lead rest, s.workers w = .claiming r now (some lead :: rest) →
      ∀ row ∈ s.ledger, row.key = r.lead lead → Repeats r row now →
        (∀ v, (s.workers v).opening? ≠ some row.key) ∧
          ∀ run, Requested s.agent run row.request → ¬ Live s.agent run
  | _ => True

/-- The run ends in the step. -/
def Ends (τ : Transition State Label) (run : Uuid) : Prop :=
  Live τ.src.agent run ∧ ¬ Live τ.dst.agent run

/-- The lead was claimed last for the attempt `n` of the policy. -/
def Current (ledger : List LedgerRow) (k : LeadKey) (policy : String) (n : ℕ) : Prop :=
  ∃ row ∈ ledger, row.key = k ∧ row.policy = policy ∧ row.attempt = n

/-! ### The ledger -/

section Ledger

variable {ledger ledger' : List LedgerRow} {r : PolicyRow} {lead : Lead} {now : Time} {k : LeadKey}
  {policy : String} {n m : ℕ}

/-- The lead of a row with its latest attempt. -/
def LedgerRow.claimed (row : LedgerRow) : LeadKey × String × ℕ := (row.key, row.policy, row.attempt)

/-- The same leads, each with the same latest attempt. -/
def Kept (ledger ledger' : List LedgerRow) : Prop :=
  ledger'.map LedgerRow.claimed = ledger.map LedgerRow.claimed

theorem kept_update {p : LedgerRow → Bool} {f : LedgerRow → LedgerRow}
    (hf : ∀ row, (f row).claimed = row.claimed) : Kept ledger (Table.update p f ledger) :=
  map_update fun row _ _ => hf row

theorem Kept.keyed (h : Kept ledger ledger') (hk : Keyed LedgerRow.key ledger) :
    Keyed LedgerRow.key ledger' := by
  have hmap := congrArg (List.map Prod.fst) h
  rw [List.map_map, List.map_map] at hmap
  unfold Keyed at hk ⊢
  exact hmap ▸ hk

theorem Kept.current (h : Kept ledger ledger') (hc : Current ledger k policy n) :
    Current ledger' k policy n := by
  obtain ⟨row, hrow, rfl, rfl, rfl⟩ := hc
  have hmem : row.claimed ∈ ledger'.map LedgerRow.claimed := h ▸ List.mem_map_of_mem hrow
  obtain ⟨row', hrow', heq⟩ := List.mem_map.1 hmem
  obtain ⟨hkey, heq⟩ := Prod.mk.inj heq
  obtain ⟨hpolicy, hattempt⟩ := Prod.mk.inj heq
  exact ⟨row', hrow', hkey, hpolicy, hattempt⟩

theorem Current.unique (hk : Keyed LedgerRow.key ledger) {policy' : String}
    (h : Current ledger k policy n) (h' : Current ledger k policy' m) : policy = policy' ∧ n = m := by
  obtain ⟨row, hrow, rfl, rfl, rfl⟩ := h
  obtain ⟨row', hrow', hkey, rfl, rfl⟩ := h'
  obtain rfl := hk.eq_of_key hrow' hrow hkey
  exact ⟨rfl, rfl⟩

/-- What a claim found: no row, or a row whose attempt it repeats. -/
inductive Found (ledger : List LedgerRow) (r : PolicyRow) (lead : Lead) (now : Time) :
    List LedgerRow → ℕ → Prop
  | first {row : LedgerRow} (hnone : ∀ row ∈ ledger, row.key ≠ r.lead lead)
      (hkey : row.key = r.lead lead) (hpolicy : row.policy = r.id) (hattempt : row.attempt = 1) :
      Found ledger r lead now (ledger ++ [row]) 1
  | again {row : LedgerRow} {f : LedgerRow → LedgerRow} (hrow : row ∈ ledger)
      (hkey : row.key = r.lead lead) (hrepeats : Repeats r row now)
      (hf : ∀ x, (f x).claimed = (x.key, r.id, x.attempt + 1)) :
      Found ledger r lead now (Table.update
        (fun x => decide (x.key = row.key) && decide (x.lastAttempt = row.lastAttempt)) f ledger)
        (row.attempt + 1)

theorem claim_found (h : claim ledger r lead now = (ledger', some n)) :
    Found ledger r lead now ledger' n := by
  unfold claim at h
  split at h
  · rename_i hnone
    obtain ⟨rfl, hn⟩ := Prod.mk.inj h
    obtain rfl := Option.some.inj hn
    exact .first (get_eq_none.1 hnone) rfl rfl rfl
  · rename_i row hget
    have hrow := mem_of_get hget
    have hkey := key_of_get hget
    split at h
    · cases h
    rename_i hqueued
    split at h
    · cases h
    rename_i hattempts
    split at h
    · cases h
    rename_i hcooldown
    unfold takeRow at h
    obtain ⟨rfl, hn⟩ := Prod.mk.inj h
    split at hn
    · obtain rfl := Option.some.inj hn
      refine .again hrow hkey ⟨?_, ?_, ?_⟩ fun _ => rfl
      · simpa using hqueued
      · exact not_le.1 hattempts
      · exact not_lt.1 hcooldown
    · cases hn

/-- Where nothing is claimed, no attempt is counted. -/
theorem claim_kept (hk : Keyed LedgerRow.key ledger) (h : claim ledger r lead now = (ledger', none)) :
    Kept ledger ledger' := by
  unfold claim at h
  split at h
  · cases h
  rename_i row hget
  split at h
  · obtain ⟨rfl, -⟩ := Prod.mk.inj h
    rfl
  split at h
  · obtain ⟨rfl, -⟩ := Prod.mk.inj h
    exact kept_update fun _ => rfl
  split at h
  · obtain ⟨rfl, -⟩ := Prod.mk.inj h
    rfl
  -- the row just read has its own last attempt
  have hone : ledger.countP (fun x => decide (x.key = row.key) &&
      decide (x.lastAttempt = row.lastAttempt)) = 1 := by
    refine hk.countP_eq_one (mem_of_get hget) (by simp) fun x _ hp => ?_
    simp only [Bool.and_eq_true, decide_eq_true_eq] at hp
    exact hp.1
  unfold takeRow at h
  obtain ⟨-, hn⟩ := Prod.mk.inj h
  rw [if_pos hone] at hn
  cases hn

theorem Found.keyed (h : Found ledger r lead now ledger' n) (hk : Keyed LedgerRow.key ledger) :
    Keyed LedgerRow.key ledger' := by
  cases h with
  | first hnone hkey => exact hk.insert fun row hrow => hkey ▸ hnone row hrow
  | again _ _ _ hf => exact hk.update fun x => congrArg Prod.fst (hf x)

theorem Found.current (h : Found ledger r lead now ledger' n) :
    Current ledger' (r.lead lead) r.id n := by
  cases h with
  | first _ hkey hpolicy hattempt =>
    exact ⟨_, List.mem_append_right _ List.mem_cons_self, hkey, hpolicy, hattempt⟩
  | @again row f hrow hkey _ hf =>
    obtain ⟨hkey', heq⟩ := Prod.mk.inj (hf row)
    obtain ⟨hpolicy, hattempt⟩ := Prod.mk.inj heq
    exact ⟨f row, mem_update_of_pos hrow (by simp), hkey'.trans hkey, hpolicy, hattempt⟩

theorem Found.others (h : Found ledger r lead now ledger' n) (hne : k ≠ r.lead lead)
    (hc : Current ledger k policy m) : Current ledger' k policy m := by
  obtain ⟨row, hrow, rfl, rfl, rfl⟩ := hc
  cases h with
  | first => exact ⟨row, List.mem_append_left _ hrow, rfl, rfl, rfl⟩
  | again _ hkey =>
    refine ⟨row, mem_update_of_not hrow ?_, rfl, rfl, rfl⟩
    simp [hkey, hne]

end Ledger

/-! ### What one step can do -/

/-- What a label can do. -/
inductive Effect (P : Platform) (s : State) : Label → State → Prop
  | quiet {l : Label} {ledger : List LedgerRow} {policies : List PolicyRow} {workers : ℕ → Stage}
      (hledger : Kept s.ledger ledger) (hnone : ∀ k, ¬ Claims s l k)
      (hworkers : ∀ v r now lead n rest, workers v = .opening r now lead n rest →
        s.workers v = .opening r now lead n rest) :
      Effect P s l { s with ledger := ledger, policies := policies, workers := workers }
  | claimed {w : ℕ} {r : PolicyRow} {now : Time} {lead : Lead} {rest : List (Option Lead)} {n : ℕ}
      {ledger : List LedgerRow} (hw : s.workers w = .claiming r now (some lead :: rest))
      (hclaims : Claims s (.claim w false) (r.lead lead))
      (hfound : Found s.ledger r lead now ledger n) :
      Effect P s (.claim w false)
        (State.goto { s with ledger := ledger } w (.opening r now lead n rest))
  | created {w : ℕ} {env : Env} {r : PolicyRow} {now : Time} {lead : Lead} {rest : List (Option Lead)}
      {n : ℕ} {agent : Agent.State} {run : Uuid} {stage : Stage}
      (hw : s.workers w = .opening r now lead n rest)
      (hcreate : openRun P env s.agent r lead n = .ok (agent, run)) (hstage : stage.opening? = none) :
      Effect P s (.create w env) (State.goto { s with
        agent := agent
        starts := s.starts ++ [⟨r.lead lead, r.id, n, run⟩] } w stage)
  | loop (l : Agent.Label) : Effect P s (.loop l) { s with agent := s.agent.after P l }

section Steps

variable {P : Platform} {s t : State} {l : Label}

theorem opening_update {workers : ℕ → Stage} {w : ℕ} {stage : Stage} (hstage : stage.opening? = none)
    {v : ℕ} {r : PolicyRow} {now : Time} {lead : Lead} {n : ℕ} {rest : List (Option Lead)}
    (h : Function.update workers w stage v = .opening r now lead n rest) :
    workers v = .opening r now lead n rest := by
  by_cases hv : v = w
  · subst hv
    rw [Function.update_self] at h
    rw [h] at hstage
    cases hstage
  · rwa [Function.update_of_ne hv] at h

theorem Effect.goto {ledger : List LedgerRow} {policies : List PolicyRow} {w : ℕ} {stage : Stage}
    (hledger : Kept s.ledger ledger) (hnone : ∀ k, ¬ Claims s l k) (hstage : stage.opening? = none) :
    Effect P s l (State.goto { s with ledger := ledger, policies := policies } w stage) :=
  .quiet hledger hnone fun _ _ _ _ _ _ h => opening_update hstage h

theorem not_claims (hl : ∀ w, l ≠ .claim w false) (k : LeadKey) : ¬ Claims s l k := by
  rintro ⟨w, r, now, lead, rest, n, rfl, -⟩
  exact hl w rfl

theorem not_claims_of_ne {w : ℕ} {raises : Bool}
    (hw : ∀ r now lead rest, s.workers w ≠ .claiming r now (some lead :: rest)) (k : LeadKey) :
    ¬ Claims s (.claim w raises) k := by
  rintro ⟨w', r, now, lead, rest, n, hl, hw', -⟩
  obtain ⟨rfl, -⟩ := Label.claim.inj hl
  exact hw r now lead rest hw'

/-- **What a step can do.** -/
theorem Step.effect (hk : Keyed LedgerRow.key s.ledger) (h : Step P s l t) : Effect P s l t := by
  obtain rfl := h
  have hsame : (∀ k, ¬ Claims s l k) → Effect P s l s := fun hnone => .quiet rfl hnone fun _ _ _ _ _ _ h => h
  delta State.after
  cases l with
  | begin w tenant =>
    have hnone := not_claims (s := s) (l := .begin w tenant) (by simp)
    dsimp only
    split
    · exact .goto (kept_update fun _ => rfl) hnone rfl
    · exact hsame hnone
  | look w now =>
    have hnone := not_claims (s := s) (l := .look w now) (by simp)
    dsimp only
    split
    · split
      · exact .goto rfl hnone rfl
      · exact .goto rfl hnone rfl
    · exact hsame hnone
  | authorise w env =>
    have hnone := not_claims (s := s) (l := .authorise w env) (by simp)
    dsimp only
    split
    · split
      · exact .goto rfl hnone rfl
      · refine .goto rfl hnone ?_
        split <;> rfl
    · exact hsame hnone
  | read w now feed =>
    have hnone := not_claims (s := s) (l := .read w now feed) (by simp)
    dsimp only
    split
    · split
      · exact .goto rfl hnone rfl
      · refine .goto rfl hnone ?_
        split
        · rfl
        · split <;> rfl
    · exact hsame hnone
  | claim w raises =>
    dsimp only
    split
    · rename_i r now lead rest hw
      unfold State.claimOne
      split
      · rename_i hid
        refine .goto rfl ?_ rfl
        rintro k ⟨w', r', now', lead', rest', n, hl, hw', hid', -⟩
        obtain ⟨rfl, -⟩ := Label.claim.inj hl
        rw [hw] at hw'
        cases hw'
        exact hid' hid
      rename_i hid
      split
      · rename_i hraises
        exact .goto rfl (not_claims fun _ hl => by simp [hraises] at hl) rfl
      · rename_i hraises
        obtain rfl : raises = false := by simpa using hraises
        cases hclaim : claim s.ledger r lead now with
        | mk ledger attempt =>
          cases attempt with
          | none =>
            refine .goto (claim_kept hk hclaim) ?_ rfl
            rintro k ⟨w', r', now', lead', rest', n, hl, hw', -, -, hn⟩
            obtain ⟨rfl, -⟩ := Label.claim.inj hl
            rw [hw] at hw'
            cases hw'
            rw [hclaim] at hn
            cases hn
          | some n =>
            refine .claimed hw ⟨w, r, now, lead, rest, n, rfl, hw, hid, rfl, ?_⟩ (claim_found hclaim)
            rw [hclaim]
    · rename_i r now rest hw
      exact .goto rfl (not_claims_of_ne fun _ _ _ _ h => by rw [hw] at h; cases h) rfl
    · rename_i r now hw
      exact .goto rfl (not_claims_of_ne fun _ _ _ _ h => by rw [hw] at h; cases h) rfl
    · rename_i hw _ _
      exact hsame (not_claims_of_ne hw)
  | create w env =>
    have hnone := not_claims (s := s) (l := .create w env) (by simp)
    dsimp only
    split
    · rename_i r now lead n rest hw
      unfold State.createOne
      split
      · exact .created hw ‹_› rfl
      · exact .goto rfl hnone rfl
    · exact hsame hnone
  | mark w =>
    have hnone := not_claims (s := s) (l := .mark w) (by simp)
    dsimp only
    split
    · exact .goto (kept_update fun _ => rfl) hnone rfl
    · exact hsame hnone
  | leave w =>
    have hnone := not_claims (s := s) (l := .leave w) (by simp)
    dsimp only
    split
    · exact .goto rfl hnone rfl
    · exact hsame hnone
  | crash w => exact .goto rfl (not_claims (by simp)) rfl
  | sync tenant policy =>
    exact .quiet (kept_update fun _ => rfl) (not_claims (by simp)) fun _ _ _ _ _ _ h => h
  | configure env tenant id agent connection actor settings enabled =>
    have hnone := not_claims (s := s)
      (l := .configure env tenant id agent connection actor settings enabled) (by simp)
    refine commit_keeps (p := Effect P s _) (hsame hnone) fun t u hx => ?_
    simp only [configure, bind_eq_ok, pure_eq_ok, Prod.mk.injEq] at hx
    obtain ⟨-, -, -, -, -, -, -, -, -, -, -, -, -, -, -, -, -, -, -, -, rfl, -⟩ := hx
    exact .quiet rfl hnone fun _ _ _ _ _ _ h => h
  | loop l => exact .loop l

theorem openRun_step {env : Env} {r : PolicyRow} {lead : Lead} {n : ℕ} {a b : Agent.State} {run : Uuid}
    (h : openRun P env a r lead n = .ok (b, run)) : ∃ l, Agent.Step P a l b := by
  refine ⟨.create env r.tenant (runKey r.id lead.leadId n) r.agent (inputText r lead) r.actor
    r.settings.maxSteps r.settings.maxSeconds Agent.dashboardChannel, ?_⟩
  change b = commit a (openRun P env a r lead n)
  rw [h, commit_ok]

end Steps

/-! ### The started runs -/

/-- The live runs of a lead are the ones of its latest attempt. -/
structure Tracked (s : State) : Prop where
  budgeted : Budgeted s.agent
  requests : Keyed Agent.RunRow.request s.agent.runs
  unique : Keyed LedgerRow.key s.ledger
  started : ∀ x ∈ s.starts, Requested s.agent x.run x.request
  opening : ∀ w r now lead n rest, s.workers w = .opening r now lead n rest →
    Current s.ledger (r.lead lead) r.id n
  live : ∀ x ∈ s.starts, Live s.agent x.run → Current s.ledger x.lead x.policy x.attempt

theorem tracked_empty : Tracked {} where
  budgeted := Agent.budgeted_empty
  requests := keyed_nil _
  unique := keyed_nil _
  started _ hx := absurd hx List.not_mem_nil
  opening _ _ _ _ _ _ h := by cases h
  live _ hx := absurd hx List.not_mem_nil

section Started

variable {P : Platform} {s t : State} {l : Label} {k : LeadKey}

theorem request_of_current {row : LedgerRow} {x : Start} (hkey : row.key = x.lead)
    (hpolicy : row.policy = x.policy) (hattempt : row.attempt = x.attempt) :
    x.request = row.request := by
  obtain ⟨htenant, hrest⟩ := Prod.mk.inj hkey
  obtain ⟨-, hlead⟩ := Prod.mk.inj hrest
  simp only [Start.request, LedgerRow.request, ← htenant, ← hlead, hpolicy, hattempt]

/-- **No run of a claimed lead is live.** -/
theorem Tracked.over (h : Tracked s) (hspaced : Spaced s l) (hc : Claims s l k) {x : Start}
    (hx : x ∈ s.starts) (hlead : x.lead = k) : ¬ Live s.agent x.run := by
  obtain ⟨w, r, now, lead, rest, n, rfl, hw, -, rfl, hn⟩ := hc
  intro hlive
  obtain ⟨row', hrow', hkey', hpolicy', hattempt'⟩ := h.live x hx hlive
  have hfound : Found s.ledger r lead now (claim s.ledger r lead now).1 n :=
    claim_found (Prod.ext rfl hn)
  generalize (claim s.ledger r lead now).1 = ledger at hfound
  cases hfound with
  | first hnone => exact hnone row' hrow' (hkey'.trans hlead)
  | @again row f hrow hkey hrepeats =>
    obtain rfl : row' = row := h.unique.eq_of_key hrow' hrow ((hkey'.trans hlead).trans hkey.symm)
    obtain ⟨-, hover⟩ := hspaced r now lead rest hw row' hrow hkey hrepeats
    exact hover x.run (request_of_current hkey' hpolicy' hattempt' ▸ h.started x hx) hlive

/-- No run of a claimed lead is still to be created. -/
theorem Tracked.unopened (h : Tracked s) {w : ℕ} {r : PolicyRow} {now : Time} {lead : Lead}
    {rest : List (Option Lead)} {n : ℕ} {ledger : List LedgerRow}
    (hspaced : Spaced s (.claim w false)) (hw : s.workers w = .claiming r now (some lead :: rest))
    (hfound : Found s.ledger r lead now ledger n) {v : ℕ} {r' : PolicyRow} {now' : Time} {lead' : Lead}
    {n' : ℕ} {rest' : List (Option Lead)} (hv : s.workers v = .opening r' now' lead' n' rest') :
    r'.lead lead' ≠ r.lead lead := by
  intro heq
  cases hfound with
  | first hnone =>
    obtain ⟨row, hrow, hkey, -⟩ := h.opening v r' now' lead' n' rest' hv
    exact hnone row hrow (hkey.trans heq)
  | again hrow hkey hrepeats =>
    obtain ⟨hidle, -⟩ := hspaced r now lead rest hw _ hrow hkey hrepeats
    refine hidle v ?_
    rw [hv, hkey, ← heq]
    rfl

theorem Tracked.agent (h : Tracked s) {l : Agent.Label} {agent : Agent.State}
    (hs : Agent.Step P s.agent l agent) : Tracked { s with agent := agent } :=
  { h with
    budgeted := hs.effect.budgeted h.budgeted
    requests := hs.keyed h.requests
    started x hx := hs.requested (h.started x hx)
    live x hx hlive := h.live x hx (hs.live h.budgeted (h.started x hx) hlive) }

theorem Step.tracked (h : Tracked s) (hs : guarded Spaced (Step P) s l t) : Tracked t := by
  obtain ⟨hs, hspaced⟩ := hs
  cases hs.effect h.unique with
  | quiet hledger _ hworkers =>
    refine ⟨h.budgeted, h.requests, hledger.keyed h.unique, h.started, ?_, ?_⟩
    · intro v r now lead n rest hv
      exact hledger.current (h.opening v r now lead n rest (hworkers v r now lead n rest hv))
    · intro x hx hlive
      exact hledger.current (h.live x hx hlive)
  | @claimed w r now lead rest n ledger hw hclaims hfound =>
    refine ⟨h.budgeted, h.requests, hfound.keyed h.unique, h.started, ?_, ?_⟩
    · intro v r' now' lead' n' rest' hv
      change Function.update s.workers w _ v = _ at hv
      by_cases hvw : v = w
      · subst hvw
        rw [Function.update_self] at hv
        cases hv
        exact hfound.current
      · rw [Function.update_of_ne hvw] at hv
        exact hfound.others (h.unopened hspaced hw hfound hv) (h.opening v r' now' lead' n' rest' hv)
    · intro x hx hlive
      refine hfound.others ?_ (h.live x hx hlive)
      exact fun hlead => h.over hspaced hclaims hx hlead hlive
  | @created w env r now lead rest n agent run stage hw hcreate hstage =>
    obtain ⟨l', hstep⟩ := openRun_step hcreate
    have ht := h.agent hstep
    refine ⟨ht.budgeted, ht.requests, h.unique, ?_, ?_, ?_⟩
    · intro x hx
      rcases List.mem_append.1 hx with hx | hx
      · exact ht.started x hx
      · obtain rfl := List.mem_singleton.1 hx
        exact Agent.create_requested hcreate
    · intro v r' now' lead' n' rest' hv
      exact h.opening v r' now' lead' n' rest' (opening_update hstage hv)
    · intro x hx hlive
      rcases List.mem_append.1 hx with hx | hx
      · exact ht.live x hx hlive
      · obtain rfl := List.mem_singleton.1 hx
        exact h.opening w r now lead n rest hw
  | loop l' => exact h.agent (l := l') rfl

theorem Tracked.single (h : Tracked s) {x y : Start} (hx : x ∈ s.starts) (hy : y ∈ s.starts)
    (hlead : x.lead = y.lead) (hxl : Live s.agent x.run) (hyl : Live s.agent y.run) :
    x.run = y.run := by
  have hyc := h.live y hy hyl
  rw [← hlead] at hyc
  obtain ⟨hpolicy, hattempt⟩ := (h.live x hx hxl).unique h.unique hyc
  have hrequest : x.request = y.request := by
    simp only [Start.request, hlead, hpolicy, hattempt]
  exact (h.started x hx).unique h.requests (hrequest ▸ h.started y hy)

theorem Step.requested (hk : Keyed LedgerRow.key s.ledger) (hs : Step P s l t) {run : Uuid}
    {request : String × String} (h : Requested s.agent run request) :
    Requested t.agent run request := by
  cases hs.effect hk with
  | quiet | claimed => exact h
  | created _ hcreate =>
    obtain ⟨l', hstep⟩ := openRun_step hcreate
    exact hstep.requested h
  | loop l' =>
    have hstep : Agent.Step P s.agent l' (s.agent.after P l') := rfl
    exact hstep.requested h

theorem Step.claims_current (hk : Keyed LedgerRow.key s.ledger) (hs : Step P s l t)
    (hc : Claims s l k) : ∃ policy n, Current t.ledger k policy n := by
  cases hs.effect hk with
  | quiet _ hnone => exact absurd hc (hnone k)
  | @claimed w r now lead rest n ledger hw _ hfound =>
    obtain ⟨w', r', now', lead', rest', n', hl, hw', -, rfl, -⟩ := hc
    obtain ⟨rfl, -⟩ := Label.claim.inj hl
    rw [hw] at hw'
    cases hw'
    exact ⟨_, _, hfound.current⟩
  | created =>
    obtain ⟨w', r', now', lead', rest', n', hl, -⟩ := hc
    cases hl
  | loop =>
    obtain ⟨w', r', now', lead', rest', n', hl, -⟩ := hc
    cases hl

theorem Step.current (hk : Keyed LedgerRow.key s.ledger) (hs : Step P s l t) (hc : ¬ Claims s l k)
    {policy : String} {n : ℕ} (h : Current s.ledger k policy n) : Current t.ledger k policy n := by
  cases hs.effect hk with
  | quiet hledger => exact hledger.current h
  | claimed _ hclaims hfound =>
    refine hfound.others ?_ h
    rintro rfl
    exact hc hclaims
  | created | loop => exact h

end Started

/-! ### Runs -/

section Runs

variable {P : Platform} {τs : List (Transition State Label)} {s : State}

theorem reachable_tracked (h : Run (guarded Spaced (Step P)) {} τs s) : Tracked s :=
  h.invariant tracked_empty fun _ _ _ => Step.tracked

theorem requested_later {s₀ : State} (h : Run (guarded Spaced (Step P)) s₀ τs s) (h₀ : Tracked s₀)
    {σ : Transition State Label} (hσ : σ ∈ τs) {run : Uuid} {request : String × String}
    (hreq : Requested σ.src.agent run request) : Requested s.agent run request := by
  refine ((h.strengthen h₀ fun _ _ _ => Step.tracked).later
    (q := fun s t => Requested s.agent run request → Requested t.agent run request) ?_ ?_ ?_ hσ).1 hreq
  · exact fun s hr => hr
  · exact fun s t u hst htu hr => htu (hst hr)
  · exact fun s l t hstep hr => hstep.1.1.requested hstep.2.unique hr

/-- The runs of a lead that end until it is claimed again are one. -/
theorem ends_once {s₀ : State} {k : LeadKey} {policy : String} {n : ℕ}
    (h : Run (guarded Spaced (Step P)) s₀ τs s) (h₀ : Tracked s₀)
    (hcurrent : Current s₀.ledger k policy n) (hnone : ∀ σ ∈ τs, ¬ Claims σ.src σ.label k) :
    ∀ σ ∈ τs, ∀ σ' ∈ τs, ∀ x ∈ σ.src.starts, ∀ y ∈ σ'.src.starts, x.lead = k → y.lead = k →
      Ends σ x.run → Ends σ' y.run → x.run = y.run := by
  have hs : Tracked s := h.invariant h₀ fun _ _ _ => Step.tracked
  have hquiet : Run (guarded (fun s l => ¬ Claims s l k) (guarded Spaced (Step P))) s₀ τs s :=
    h.guard hnone
  have hkept := fun {σ} (hσ : σ ∈ τs) =>
    hquiet.always (I := fun s => Tracked s ∧ Current s.ledger k policy n) ⟨h₀, hcurrent⟩
      (fun s l t hi hstep => ⟨Step.tracked hi.1 hstep.1, hstep.1.1.current hi.1.unique hstep.2 hi.2⟩) hσ
  -- a run that ends in the window is the run of the window's attempt
  have hone : ∀ σ ∈ τs, ∀ x ∈ σ.src.starts, x.lead = k → Ends σ x.run →
      Requested s.agent x.run (k.1, runKey policy k.2.2 n) := by
    intro σ hσ x hx hlead hends
    obtain ⟨-, htracked, hcur⟩ := hkept hσ
    have hx' := htracked.live x hx hends.1
    rw [hlead] at hx'
    obtain ⟨hpolicy, hattempt⟩ := hx'.unique htracked.unique hcur
    have hreq := htracked.started x hx
    rw [Start.request, hlead, hpolicy, hattempt] at hreq
    exact requested_later h h₀ hσ hreq
  intro σ hσ σ' hσ' x hx y hy hxk hyk hxe hye
  exact (hone σ hσ x hx hxk hxe).unique hs.requests (hone σ' hσ' y hy hyk hye)

/-- **One live run for a lead.** In any run, with any number of workers, policies, cooldowns, crashes and
outcomes, in which a `queued` attempt is repeated only where its run is neither live nor still to be
created: no run started for a lead is live when the lead is claimed, of two live runs started for a lead
both are one, and of the runs started for it at most one ends before it is claimed again. -/
theorem one_live_attempt (h : Run (Step P) {} τs s) (hspaced : ∀ τ ∈ τs, Spaced τ.src τ.label) :
    (∀ τ ∈ τs, ∀ k, Claims τ.src τ.label k → ∀ x ∈ τ.src.starts, x.lead = k →
      ¬ Live τ.src.agent x.run) ∧
    (∀ x ∈ s.starts, ∀ y ∈ s.starts, x.lead = y.lead → Live s.agent x.run → Live s.agent y.run →
      x.run = y.run) ∧
    ∀ pre τ post k, τs = pre ++ τ :: post → Claims τ.src τ.label k →
      (∀ σ ∈ post, ¬ Claims σ.src σ.label k) →
      ∀ σ ∈ post, ∀ σ' ∈ post, ∀ x ∈ σ.src.starts, ∀ y ∈ σ'.src.starts, x.lead = k → y.lead = k →
        Ends σ x.run → Ends σ' y.run → x.run = y.run := by
  have hg := h.guard hspaced
  refine ⟨?_, ?_, ?_⟩
  · intro τ hτ k hc x hx hlead
    obtain ⟨hstep, htracked⟩ := hg.always tracked_empty (fun _ _ _ => Step.tracked) hτ
    exact htracked.over hstep.2 hc hx hlead
  · intro x hx y hy hlead hxl hyl
    exact (reachable_tracked hg).single hx hy hlead hxl hyl
  · rintro pre τ post k rfl hc hnone
    obtain ⟨hpre, hstep⟩ := hg.split
    have hsrc := reachable_tracked hpre
    obtain ⟨policy, n, hcurrent⟩ := hstep.1.claims_current hsrc.unique hc
    exact ends_once hg.rest (Step.tracked hsrc hstep) hcurrent hnone

/-! One policy and two workers. -/

theorem isBlank_inputText (r : PolicyRow) (l : Lead) : isBlank (inputText r l) = false := by
  unfold inputText
  rw [String.intercalate_cons_cons, String.append_assoc]
  refine Agent.isBlank_truncate_append ?_ _
  decide +kernel

def ownerEnv (second : ℕ) : Env :=
  { sampleEnv second with policy := fun _ _ => .ok (.obj [("ladder", .str "autonomous")]) }

/-- A policy with the shortest cooldown and interval. -/
def samplePolicy (due : ℕ) : PolicyRow :=
  ⟨"acme", "main", "dana", "clerk", "amocrm", { cooldownSeconds := 300, intervalSeconds := 300 }, true,
    seconds due⟩

def configured : Label :=
  .configure (ownerEnv 0) "acme" "main" "clerk" "amocrm" "dana" (samplePolicy 0).settings true

def sampleLead : Lead := { id := some "l1" }

/-- A cycle of a worker up to its claim of the one lead in its feed. -/
def cycle (w second : ℕ) : List Label :=
  [.begin w "acme", .look w (seconds second), .authorise w (ownerEnv second),
    .read w (seconds second) (.ok [some sampleLead])]

/-- The end of a cycle whose run is created. -/
def marked : List Label := [.mark 0, .claim 0 false, .leave 0]

def sampleState (s : State) (ls : List Label) : State := ls.foldl (State.after samplePlatform) s

/-- The run of the attempt `n`. -/
def sampleRun (second n : ℕ) (id : Uuid) (fingerprint : String) : Agent.RunRow :=
  { id := id, tenant := "acme", status := .pending, deadline := seconds second + seconds 1800
    currentTask := none, claim := none, lease := 0, error := "", requestKey := runKey "main" "l1" n
    fingerprint := fingerprint, agent := "clerk", actor := "dana"
    input := inputText (samplePolicy second) sampleLead, maxSteps := 4, maxCalls := 5
    channel := Agent.dashboardChannel }

/-- The request key of the attempt `n` is one `create` takes. -/
def keyed (n : ℕ) : Bool :=
  !isBlank (runKey "main" "l1" n) && decide ((runKey "main" "l1" n).length ≤ 256)

theorem openRun_sample {second n : ℕ} {runs : List Agent.RunRow} {minted : Uuid} (hkey : keyed n = true)
    (hnew : ∀ r ∈ runs, r.requestKey ≠ runKey "main" "l1" n) (hqueue : runs.length < 100) :
    ∃ fingerprint, openRun samplePlatform (ownerEnv second) { minted := minted, runs := runs }
      (samplePolicy second) sampleLead n =
        .ok ({ minted := minted + 1, runs := runs ++ [sampleRun second n minted fingerprint] },
          minted) := by
  have hlead : sampleLead.leadId = "l1" := by decide +kernel
  unfold openRun
  rw [hlead]
  refine Agent.create_new ?_ ⟨isBlank_inputText _ _, Agent.length_truncate 4000 _⟩ ?_ ?_ rfl rfl rfl ?_
    rfl ?_
  · have hids : ([("clerk", 128), ("dana", 128), ("agent", 32)].all fun v : String × ℕ =>
        !isBlank v.1 && decide (v.1.length ≤ v.2)) = true := by
      decide +kernel
    have htenant : (!isBlank "acme" && decide ("acme".length ≤ 64)) = true := by decide +kernel
    exact Bool.and_eq_true_iff.2 ⟨htenant, Bool.and_eq_true_iff.2 ⟨hkey, hids⟩⟩
  · change (1 : ℤ) ≤ 4 ∧ (4 : ℤ) ≤ 12
    decide
  · change (60 : ℤ) ≤ 1800 ∧ (1800 : ℤ) ≤ 86400
    decide
  · intro r hr hreq
    exact hnew r hr (Prod.mk.inj hreq).2
  · exact List.countP_le_length.trans_lt hqueue

/-- A worker that has claimed the attempt `n` creates its run. -/
theorem create_sample {s : State} {w second n : ℕ} {rest : List (Option Lead)} {now : Time}
    {runs : List Agent.RunRow} {minted : Uuid}
    (hw : s.workers w = .opening (samplePolicy second) now sampleLead n rest)
    (hagent : s.agent = { minted := minted, runs := runs }) (hkey : keyed n = true)
    (hnew : ∀ r ∈ runs, r.requestKey ≠ runKey "main" "l1" n) (hqueue : runs.length < 100) :
    ∃ fingerprint, Step samplePlatform s (.create w (ownerEnv second)) (State.goto { s with
      agent := { minted := minted + 1, runs := runs ++ [sampleRun second n minted fingerprint] }
      starts := s.starts ++ [⟨("acme", "amocrm", "l1"), "main", n, minted⟩] } w
        (.marking (samplePolicy second) now sampleLead .queued (some minted) "" rest)) := by
  have hlead : sampleLead.leadId = "l1" := by decide +kernel
  obtain ⟨fingerprint, hopen⟩ : ∃ fingerprint, openRun samplePlatform (ownerEnv second) s.agent
      (samplePolicy second) sampleLead n =
        .ok ({ minted := minted + 1, runs := runs ++ [sampleRun second n minted fingerprint] },
          minted) := by
    rw [hagent]
    exact openRun_sample hkey hnew hqueue
  refine ⟨fingerprint, ?_⟩
  unfold Step
  simp only [State.after, hw, State.createOne, hopen, PolicyRow.lead, hlead]
  rfl

theorem live_sample {second n : ℕ} {id : Uuid} {fingerprint : String} {a : Agent.State}
    (h : sampleRun second n id fingerprint ∈ a.runs) : Live a id :=
  ⟨_, h, rfl, rfl⟩

/-- No claim of a run comes upon a `queued` row. -/
def unqueued (τ : Transition State Label) : Bool :=
  match τ.label with
  | .claim _ false => τ.src.ledger.all fun row => decide (row.status ≠ .queued)
  | _ => true

theorem spaced_of_unqueued {τ : Transition State Label} (h : unqueued τ = true) :
    Spaced τ.src τ.label := by
  unfold unqueued at h
  unfold Spaced
  split
  · rename_i w hl
    rw [hl] at h
    intro r now lead rest _ row hrow _ hrepeats
    exact absurd hrepeats.1 (of_decide_eq_true (List.all_eq_true.1 h row hrow))
  · trivial

/-- The state in which the policy is configured. -/
def dueState : State := { policies := [samplePolicy 300] }

/-- The state in which the worker has claimed its first attempt. -/
def claimedState : State := sampleState dueState (cycle 0 300 ++ [.claim 0 false])

theorem claimedState_run : Run (Step samplePlatform) {}
    (⟨{}, configured, dueState⟩ ::
      trace (State.after samplePlatform) dueState (cycle 0 300 ++ [.claim 0 false])) claimedState :=
  (Run.nil.snoc rfl).calls _

theorem one_live_attempt_sample :
    ∃ τs s, Run (Step samplePlatform) {} τs s ∧ ∃ x ∈ s.starts, Live s.agent x.run ∧
      ∀ y ∈ s.starts, x.lead = y.lead → Live s.agent y.run → x.run = y.run := by
  obtain ⟨fingerprint, hcreate⟩ := create_sample (s := claimedState) (w := 0) rfl rfl
    (by decide +kernel) (by simp) (by simp)
  have hrun := claimedState_run.snoc hcreate
  have hcheck : ∀ τ ∈ trace (State.after samplePlatform) dueState (cycle 0 300 ++ [.claim 0 false]),
      unqueued τ = true := by
    decide +kernel
  have hone := one_live_attempt hrun fun τ hτ => by
    rcases List.mem_append.1 hτ with hτ | hτ
    · rcases List.mem_cons.1 hτ with rfl | hτ
      · trivial
      · exact spaced_of_unqueued (hcheck τ hτ)
    · obtain rfl := List.mem_singleton.1 hτ
      trivial
  refine ⟨_, _, hrun, _, List.mem_append_right _ List.mem_cons_self, ?_, ?_⟩
  · exact live_sample List.mem_cons_self
  · intro y hy hlead hlive
    exact hone.2.1 _ (List.mem_append_right _ List.mem_cons_self) y hy hlead
      (live_sample List.mem_cons_self) hlive

/-- The state in which the worker has created its first run. -/
def startedState (fingerprint : String) : State :=
  State.goto { claimedState with
    agent := { minted := 1, runs := [sampleRun 300 1 0 fingerprint] }
    starts := [⟨("acme", "amocrm", "l1"), "main", 1, 0⟩] } 0
      (.marking (samplePolicy 300) (seconds 300) sampleLead .queued (some 0) "" [])

/-- The state in which the first cycle is over. -/
def restedState (fingerprint : String) : State :=
  { agent := { minted := 1, runs := [sampleRun 300 1 0 fingerprint] }
    policies := [samplePolicy 600]
    ledger := [⟨"acme", "amocrm", "l1", "main", some 0, 1, .queued, seconds 300, ""⟩]
    starts := [⟨("acme", "amocrm", "l1"), "main", 1, 0⟩]
    workers := (sampleState (startedState fingerprint) marked).workers }

/-- The state in which the next cycle is about to claim the lead. -/
def repeatedState (fingerprint : String) : State :=
  sampleState (restedState fingerprint) (cycle 1 600)

/-- The cooldown of five minutes is over when the next cycle claims the lead, the run of half an hour is
not. -/
theorem two_live_attempts :
    ∃ (P : Platform) (τs : List (Transition State Label)) (s : State) (k : LeadKey),
      Run (Step P) {} τs s ∧
      (∃ τ ∈ τs, Claims τ.src τ.label k ∧ ∃ x ∈ τ.src.starts, x.lead = k ∧ Live τ.src.agent x.run) ∧
      ∃ x ∈ s.starts, ∃ y ∈ s.starts, x.lead = k ∧ y.lead = k ∧ Live s.agent x.run ∧
        Live s.agent y.run ∧ x.run ≠ y.run := by
  obtain ⟨fingerprint, hcreate⟩ := create_sample (s := claimedState) (w := 0) rfl rfl (by decide +kernel)
    (by simp) (by simp)
  obtain ⟨fingerprint', hcreate'⟩ := create_sample (n := 2) (w := 1)
    (s := (repeatedState fingerprint).after samplePlatform (.claim 1 false)) rfl rfl
    (by decide +kernel) (by simp [sampleRun]; decide +kernel) (by simp)
  have hrested : sampleState (startedState fingerprint) marked = restedState fingerprint := rfl
  have hrun : Run (Step samplePlatform) {} _ (sampleState (startedState fingerprint) marked) :=
    Run.calls (f := State.after samplePlatform) (claimedState_run.snoc hcreate) marked
  rw [hrested] at hrun
  have hclaimed := (Run.calls (f := State.after samplePlatform) hrun (cycle 1 600)).snoc
    (e := .claim 1 false) rfl
  refine ⟨_, _, _, ("acme", "amocrm", "l1"), hclaimed.snoc hcreate', ?_, ?_⟩
  · refine ⟨_, List.mem_append_left _ (List.mem_append_right _ List.mem_cons_self), ?_, ?_⟩
    · exact ⟨1, samplePolicy 600, seconds 600, sampleLead, [], 2, rfl, rfl, by decide +kernel, rfl, rfl⟩
    · exact ⟨_, List.mem_cons_self, rfl, live_sample List.mem_cons_self⟩
  · refine ⟨_, List.mem_cons_self, _, List.mem_cons_of_mem _ List.mem_cons_self, rfl, rfl, ?_, ?_, ?_⟩
    · exact live_sample List.mem_cons_self
    · exact live_sample (List.mem_cons_of_mem _ List.mem_cons_self)
    · decide

end Runs

end AgentPlatform.Reengagement
