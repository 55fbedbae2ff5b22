import AgentPlatform.Lib.Feed
import AgentPlatform.Sync.Calls

/-!
# The pages of a stream are one chain

`Tracks` relates the row of a stream to the ledger of the changes made to it. Every change keeps it,
so it holds along every run.
-/

namespace AgentPlatform.Sync

open Outcome Engine Table Runs

/-! ### Records and versions -/

/-- The content of a record row. -/
def RecordRow.content (r : RecordRow) : ℕ × Bool × String := (r.version, r.deleted, r.body)

def Event.entry (e : Event) : Feed.Entry String (Bool × String) :=
  ⟨e.id, e.version, e.deleted, e.data.encode⟩

/-- The record rows, as a register. -/
def register (records : List RecordRow) (id : String) : Option (ℕ × Bool × String) :=
  (get RecordRow.recordId id records).map RecordRow.content

/-- The upsert puts the event into the register. -/
theorem register_upsert (records : List RecordRow) (e : Event) :
    register (upsertRecord records e).1 = Feed.put (register records) e.entry := by
  unfold upsertRecord Feed.put
  cases h : get RecordRow.recordId e.id records with
  | none =>
    have hnone : register records e.entry.key = none := by simp [register, Event.entry, h]
    rw [hnone]
    funext id
    by_cases hid : id = e.id
    · subst hid
      simp [register, get_append, h, Event.entry, RecordRow.content]
    · have hne : ¬ e.id = id := fun heq => hid heq.symm
      simp [register, get_append, hne, Event.entry, Function.update_of_ne hid]
  | some r =>
    have hsome : register records e.entry.key = some r.content := by
      simp [register, Event.entry, h]
    rw [hsome]
    by_cases hlt : r.version < e.version
    · have hput : (Option.all (fun q : ℕ × Bool × String => decide (q.1 < e.entry.version))
          (some r.content)) = true := decide_eq_true hlt
      rw [if_pos hput]
      funext id
      simp only [if_pos hlt, register]
      rw [get_update (by intro r; rfl)]
      by_cases hid : id = e.id
      · subst hid
        simp [h, Event.entry, RecordRow.content]
      · simp [hid, Event.entry, register]
    · have hput : ¬ (Option.all (fun q : ℕ × Bool × String => decide (q.1 < e.entry.version))
          (some r.content)) = true := fun hput => hlt (of_decide_eq_true hput)
      rw [if_neg hput]
      simp [hlt]

theorem upsert_keyed {records : List RecordRow} (h : Keyed RecordRow.recordId records) (e : Event) :
    Keyed RecordRow.recordId (upsertRecord records e).1 := by
  unfold upsertRecord
  split
  · rename_i hnone
    exact h.insert fun r hr => get_eq_none.1 hnone r hr
  · split
    · exact h.update fun r => rfl
    · exact h

/-- The rows of a stream hold these events. -/
structure Contents (sha256 : String → String) (row : Stream) (events : List Event) : Prop where
  versions : ∀ e ∈ events,
    get VersionRow.key e.key row.versions = some ⟨e.id, e.version, e.fingerprint sha256⟩
  records : Feed.Latest (register row.records) (events.map Event.entry)
  keyed : Keyed RecordRow.recordId row.records

/-- The rows differ in versions and records only. -/
def SameStream (row row' : Stream) : Prop :=
  row' = { row with versions := row'.versions, records := row'.records }

section Events

variable {sha256 : String → String} {row row' : Stream} {n m : ℕ} {es es' : List Event} {e : Event}

theorem applyEvent_same (h : applyEvent sha256 (row, n) e = .ok (row', m)) : SameStream row row' := by
  simp only [applyEvent, bind_eq_ok, exists_unit, ensure_eq_ok, pure_eq_ok, Prod.mk.injEq] at h
  obtain ⟨-, rfl, -⟩ := h
  exact rfl

theorem applyEvents_same (h : es.foldlM (applyEvent sha256) (row, n) = .ok (row', m)) :
    SameStream row row' := by
  have hrefl : SameStream row (row, n).1 := rfl
  refine foldlM_induct (I := fun s => SameStream row s.1) h hrefl fun s t e _ hs hst => ?_
  have hsame := applyEvent_same hst
  unfold SameStream at hs hsame ⊢
  rw [hsame, hs]

theorem applyEvent_contents (h : applyEvent sha256 (row, n) e = .ok (row', m))
    (hc : Contents sha256 row es) : Contents sha256 row' (es ++ [e]) := by
  simp only [applyEvent, bind_eq_ok, exists_unit, ensure_eq_ok, pure_eq_ok, Prod.mk.injEq] at h
  obtain ⟨hprior, rfl, -⟩ := h
  refine ⟨fun e' he' => ?_, ?_, upsert_keyed hc.keyed e⟩
  · -- a version row is found where it was, and the new one where there was none
    cases hget : get VersionRow.key e.key row.versions with
    | none =>
      have hnone : get VersionRow.key (e.id, e.version) row.versions = none := hget
      simp only [hnone, Option.isSome_none, Bool.false_eq_true, if_false, get_append]
      rcases List.mem_append.1 he' with he' | he'
      · simp [hc.versions e' he']
      · obtain rfl := List.mem_singleton.1 he'
        simp [Event.key, hnone, VersionRow.key]
    | some r =>
      have hsome : get VersionRow.key (e.id, e.version) row.versions = some r := hget
      simp only [hsome, Option.isSome_some, if_true]
      rcases List.mem_append.1 he' with he' | he'
      · exact hc.versions e' he'
      · obtain rfl := List.mem_singleton.1 he'
        have hfp : r.fingerprint = e'.fingerprint sha256 := by simpa [hsome] using hprior
        have hkey : r.key = e'.key := key_of_get hget
        simp only [VersionRow.key, Event.key, Prod.mk.injEq] at hkey
        rw [hget, ← hkey.1, ← hkey.2, ← hfp]
  · rw [register_upsert, List.map_append]
    exact hc.records.put e.entry

theorem applyEvents_contents (h : es'.foldlM (applyEvent sha256) (row, n) = .ok (row', m))
    (hc : Contents sha256 row es) : Contents sha256 row' (es ++ es') := by
  induction es' generalizing row n es with
  | nil =>
    obtain ⟨rfl, -⟩ := Prod.mk.inj (pure_eq_ok.1 h)
    rwa [List.append_nil]
  | cons e es' ih =>
    rw [List.foldlM_cons, bind_eq_ok] at h
    obtain ⟨⟨row₁, n₁⟩, hfirst, hrest⟩ := h
    have hc' := ih hrest (applyEvent_contents hfirst hc)
    rwa [List.append_assoc, List.singleton_append] at hc'

end Events

/-! ### The row and the ledger -/

/-- The page row a commit writes. -/
def Page.row (sha256 : String → String) (p : Page × Receipt) : PageRow :=
  ⟨p.1.key, pageFingerprint sha256 p.1.expected p.1.next p.1.events, p.2⟩

structure Tracks (sha256 : String → String) (row : Stream) (l : Ledger) : Prop where
  chain : Feed.Chained (fun p => p.1.expected) (fun p => p.1.next) "" l.pages row.cursor
  revision : row.revision = l.pages.length
  pages : row.pages = l.pages.map (Page.row sha256)
  keyed : Keyed PageRow.pageKey row.pages
  contents : Contents sha256 row l.events
  holder : row.claim ≠ "" → l.holder = some ⟨row.claim, row.owner, row.generation, row.lease⟩

/-- A stream without a row has no history. -/
def Tracked (sha256 : String → String) : Option Stream → Ledger → Prop
  | none, l => l = {}
  | some row, l => Tracks sha256 row l

section Tracking

variable {sha256 : String → String} {row row' : Stream} {l : Ledger} {p : Page} {receipt : Receipt}

theorem tracks_new (generation : ℕ) : Tracks sha256 { generation := generation } {} where
  chain := rfl
  revision := rfl
  pages := rfl
  keyed := keyed_nil _
  contents := ⟨by simp [Ledger.events], Feed.latest_empty, keyed_nil _⟩
  holder := fun h => absurd rfl h

/-- What `commitPage` writes when the page is new. -/
theorem commitPage_committed (h : commitPage sha256 row p = .ok (row', .committed receipt)) :
    get PageRow.pageKey p.key row.pages = none ∧ row.cursor = p.expected ∧
      ∃ applied n, p.events.foldlM (applyEvent sha256) (row, 0) = .ok (applied, n) ∧
        row' = { applied with
          cursor := p.next, revision := row.revision + 1
          pages := row.pages ++ [Page.row sha256 (p, receipt)] } := by
  simp only [commitPage] at h
  split at h
  · simp only [bind_eq_ok, pure_eq_ok, Prod.mk.injEq, reduceCtorEq, and_false, exists_false] at h
  · rename_i hnone
    simp only [bind_eq_ok, exists_unit, ensure_eq_ok, pure_eq_ok, Prod.mk.injEq,
      Committed.committed.injEq] at h
    obtain ⟨hcursor, ⟨applied, n⟩, hfold, rfl, rfl⟩ := h
    exact ⟨hnone, hcursor, applied, n, hfold, rfl⟩

theorem Tracks.committed (h : Tracks sha256 row l)
    (hp : commitPage sha256 row p = .ok (row', .committed receipt)) :
    Tracks sha256 row' (l.after (.committed p receipt)) := by
  obtain ⟨hnone, hcursor, applied, n, hfold, rfl⟩ := commitPage_committed hp
  have hcontents := applyEvents_contents hfold h.contents
  have hsame := applyEvents_same hfold
  refine ⟨?_, ?_, ?_, ?_, ?_, ?_⟩
  · exact h.chain.snoc hcursor
  · simp [Ledger.after, h.revision]
  · simp [Ledger.after, h.pages]
  · exact h.keyed.insert fun r hr => get_eq_none.1 hnone r hr
  · have hevents : (l.after (.committed p receipt)).events = l.events ++ p.events := by
      simp [Ledger.events, Ledger.after]
    rw [hevents]
    exact ⟨hcontents.versions, hcontents.records, hcontents.keyed⟩
  · -- the columns of the claim are those of the row before
    intro hclaim
    unfold SameStream at hsame
    rw [hsame] at hclaim ⊢
    exact h.holder hclaim

theorem Moves.tracks {old : Option Stream} {c : Change} (h : Moves sha256 old c row)
    (hl : Tracked sha256 old l) : Tracks sha256 row (l.after c) := by
  cases h with
  | @claimed _ row₀ holder hrow hgen =>
    have hprev : Tracks sha256 row₀ l := by
      cases old with
      | none =>
        obtain rfl : l = {} := hl
        rw [hrow]
        exact tracks_new _
      | some row₁ =>
        rw [hrow]
        exact hl
    exact ⟨hprev.chain, hprev.revision, hprev.pages, hprev.keyed,
      ⟨hprev.contents.versions, hprev.contents.records, hprev.contents.keyed⟩,
      fun _ => by rw [hgen]; rfl⟩
  | @renewed row₀ expires =>
    have hprev : Tracks sha256 row₀ l := hl
    exact ⟨hprev.chain, hprev.revision, hprev.pages, hprev.keyed,
      ⟨hprev.contents.versions, hprev.contents.records, hprev.contents.keyed⟩,
      fun hclaim => by rw [Ledger.after, hprev.holder hclaim]; rfl⟩
  | committed hp => exact Tracks.committed hl hp
  | @released row₀ =>
    have hprev : Tracks sha256 row₀ l := hl
    exact ⟨hprev.chain, hprev.revision, hprev.pages, hprev.keyed,
      ⟨hprev.contents.versions, hprev.contents.records, hprev.contents.keyed⟩,
      fun hclaim => absurd rfl hclaim⟩
  | reset => exact tracks_new _

theorem tracked_run {τs : List (Transition State Label)} {s : State} (k : StreamKey)
    (h : Run (Step sha256) {} τs s) : Tracked sha256 (s.streams k) (ledger sha256 k τs) := by
  induction h with
  | nil => exact rfl
  | snoc _ hs ih =>
    rw [ledger_snoc]
    rcases hs.moved k with ⟨hnone, hsame⟩ | ⟨c, row, hc, hrow, hmoves⟩
    · rw [hnone, hsame]
      exact ih
    · rw [hc, hrow]
      exact hmoves.tracks ih

end Tracking

/-! ### One content for a version -/

theorem sorted_event (id version deleted data : String) :
    ([("id", id), ("version", version), ("deleted", deleted), ("data", data)].insertionSort
      fun (m m' : String × String) => m.1.toList ≤ m'.1.toList) =
    [("data", data), ("deleted", deleted), ("id", id), ("version", version)] := by
  simp +decide [List.insertionSort, List.orderedInsert]

/-- What follows the content in the text of an event. -/
def Event.suffix (id : String) (version : ℕ) : String :=
  "," ++ (Json.quote "id" ++ (":" ++ ((Json.str id).encode ++ ("," ++ (Json.quote "version" ++
    (":" ++ ((Json.int version).encode ++ "\x7d")))))))

theorem Event.text_eq (e : Event) : e.toJson.encode =
    "\x7b" ++ (Json.quote "data" ++ (":" ++ ((e.data.encode ++ ("," ++ (Json.quote "deleted" ++
      (":" ++ (Json.bool e.deleted).encode)))) ++ Event.suffix e.id e.version))) := by
  unfold Event.toJson
  rw [Json.encode]
  dsimp only [Json.encodeMembers]
  rw [sorted_event]
  dsimp only [List.map]
  simp only [String.intercalate_cons_cons, String.intercalate_singleton, String.append_assoc,
    Event.suffix]

theorem true_ne_false (a b : String) : a ++ "true" ≠ b ++ "false" := by
  intro h
  have hlist := congrArg String.toList h
  have htrue : "true".toList = ['t', 'r'] ++ ['u', 'e'] := by decide
  have hfalse : "false".toList = ['f', 'a', 'l'] ++ ['s', 'e'] := by decide
  rw [String.toList_append, String.toList_append, htrue, hfalse, ← List.append_assoc,
    ← List.append_assoc] at hlist
  have hlast := (List.append_inj' hlist rfl).2
  simp at hlast

/-- Two events with one key and one text have one content. -/
theorem Event.content_of_text {e e' : Event} (hkey : e.key = e'.key)
    (h : e.toJson.encode = e'.toJson.encode) :
    e.deleted = e'.deleted ∧ e.data.encode = e'.data.encode := by
  simp only [Event.key, Prod.mk.injEq] at hkey
  rw [Event.text_eq, Event.text_eq, hkey.1, hkey.2] at h
  simp only [String.append_right_inj, String.append_left_inj] at h
  have htrue : (Json.bool true).encode = "true" := by rw [Json.encode]
  have hfalse : (Json.bool false).encode = "false" := by rw [Json.encode]
  cases hd : e.deleted with
  | true =>
    cases hd' : e'.deleted with
    | true =>
      rw [hd, hd', String.append_left_inj] at h
      exact ⟨rfl, h⟩
    | false =>
      rw [hd, hd', htrue, hfalse] at h
      simp only [← String.append_assoc] at h
      exact absurd h (true_ne_false _ _)
  | false =>
    cases hd' : e'.deleted with
    | true =>
      rw [hd, hd', htrue, hfalse] at h
      simp only [← String.append_assoc] at h
      exact absurd h.symm (true_ne_false _ _)
    | false =>
      rw [hd, hd', String.append_left_inj] at h
      exact ⟨rfl, h⟩

/-- The hash tells the texts of these events apart. -/
def CollisionFree (sha256 : String → String) (events : List Event) : Prop :=
  ∀ e ∈ events, ∀ e' ∈ events, e.fingerprint sha256 = e'.fingerprint sha256 →
    e.toJson.encode = e'.toJson.encode

theorem Contents.one_content {sha256 : String → String} {row : Stream} {events : List Event}
    (h : Contents sha256 row events) (hsha : CollisionFree sha256 events) {e e' : Event}
    (he : e ∈ events) (he' : e' ∈ events) (hkey : e.key = e'.key) :
    e.deleted = e'.deleted ∧ e.data.encode = e'.data.encode := by
  have hrow := h.versions e he
  rw [hkey, h.versions e' he', Option.some.injEq, VersionRow.mk.injEq] at hrow
  exact Event.content_of_text hkey (hsha e he e' he' hrow.2.2.symm)

/-! ### Claims -/

section Claims

variable {sha256 : String → String} {s t : State} {l : Label} {k : StreamKey} {token : String}

/-- The token names no claim in force on the stream, and will not again. -/
def Void (k : StreamKey) (token : String) (s : State) : Prop :=
  token ∈ s.drawn ∧ token ≠ "" ∧ ∀ row, s.streams k = some row → row.claim ≠ token

variable {c : Change}

theorem Moves.claim_of_ends {old : Option Stream} {row : Stream} (h : Moves sha256 old c row)
    (hends : c.ends = true) : (∃ h, c = .claimed h ∧ row.claim = h.claim) ∨ row.claim = "" := by
  cases h with
  | claimed => exact .inl ⟨_, rfl, rfl⟩
  | renewed | committed => cases hends
  | released | reset => exact .inr rfl

theorem Moves.claim_of_not_ends {old : Option Stream} {row : Stream} (h : Moves sha256 old c row)
    (hends : c.ends = false) : ∃ row', old = some row' ∧ row.claim = row'.claim := by
  cases h with
  | claimed | released | reset => cases hends
  | renewed => exact ⟨_, rfl, rfl⟩
  | @committed row' _ p receipt hp =>
    obtain ⟨-, -, applied, n, hfold, rfl⟩ := commitPage_committed hp
    have hsame := applyEvents_same hfold
    unfold SameStream at hsame
    exact ⟨_, rfl, by rw [hsame]⟩

/-- A claim has the token that was drawn for it. -/
theorem Step.claimed (hs : Step sha256 s l t) {h : Holder}
    (hc : s.change sha256 k l = some (.claimed h)) :
    h.claim ∉ s.drawn ∧ h.claim ≠ "" ∧ h.claim ∈ t.drawn := by
  obtain ⟨rfl, hfresh⟩ := hs
  cases l with
  | engine db => cases hc
  | connections t => cases hc
  | claim env k' actor leaseSeconds token =>
    obtain ⟨-, r, hr, hc⟩ := change_eq_some hc
    simp only [Option.some.injEq, Change.claimed.injEq] at hc
    simp only [claim, bind_eq_ok, exists_unit, ensure_eq_ok, pure_eq_ok] at hr
    obtain ⟨-, -, -, -, -, -, g, -, -, -, rfl⟩ := hr
    subst hc
    refine ⟨hfresh.1, hfresh.2, ?_⟩
    rw [State.after, State.put_drawn]
    exact List.mem_cons_self
  | renew env k' actor token leaseSeconds =>
    obtain ⟨-, r, -, hc⟩ := change_eq_some hc
    cases hc
  | commit env k' actor token pageKey expected next events guard =>
    obtain ⟨-, p, -, hc⟩ := change_eq_some hc
    obtain ⟨r, -, hc⟩ := changed_eq_some hc
    cases hr : r.2 with
    | replayed receipt => rw [hr] at hc; cases hc
    | committed receipt => rw [hr] at hc; cases hc
  | release env k' actor token =>
    obtain ⟨-, r, -, hc⟩ := change_eq_some hc
    cases hc
  | reset env k' actor guard =>
    obtain ⟨-, r, -, hc⟩ := change_eq_some hc
    cases hc

theorem Step.ended (hs : Step sha256 s l t) (hc : s.change sha256 k l = some c) (hends : c.ends = true)
    (hdrawn : token ∈ s.drawn) (hne : token ≠ "") : Void k token t := by
  refine ⟨hs.drawn hdrawn, hne, fun row hrow heq => ?_⟩
  rcases hs.moved k with ⟨hnone, -⟩ | ⟨c', row', hc', hrow', hmoves⟩
  · rw [hnone] at hc
    cases hc
  · obtain rfl := Option.some.inj (hc'.symm.trans hc)
    obtain rfl := Option.some.inj (hrow'.symm.trans hrow)
    rcases hmoves.claim_of_ends hends with ⟨h, rfl, hclaim⟩ | hclaim
    · have hfresh := (hs.claimed hc).1
      rw [← hclaim, heq] at hfresh
      exact hfresh hdrawn
    · exact hne (heq.symm.trans hclaim)

theorem Step.void (hs : Step sha256 s l t) (hv : Void k token s) : Void k token t := by
  obtain ⟨hdrawn, hne, hrow⟩ := hv
  rcases hs.moved k with ⟨-, hsame⟩ | ⟨c, row, hc, hrow', hmoves⟩
  · refine ⟨hs.drawn hdrawn, hne, fun row hrow' => hrow row ?_⟩
    rwa [← hsame]
  · cases hends : c.ends with
    | true => exact hs.ended hc hends hdrawn hne
    | false =>
      obtain ⟨row₀, hrow₀, hclaim⟩ := hmoves.claim_of_not_ends hends
      refine ⟨hs.drawn hdrawn, hne, fun row' hrow'' => ?_⟩
      obtain rfl := Option.some.inj (hrow'.symm.trans hrow'')
      rw [hclaim]
      exact hrow row₀ hrow₀

end Claims

/-! ### What holds of a stream -/

/-- The payload of a page, as it is fingerprinted. -/
def Page.payload (p : Page) : Json :=
  .obj [("cursor", .str p.expected), ("next", .str p.next), ("events", .arr (p.events.map Event.toJson))]

def State.cursor (s : State) (k : StreamKey) : String := ((s.streams k).map Stream.cursor).getD ""

def State.revision (s : State) (k : StreamKey) : ℕ := ((s.streams k).map Stream.revision).getD 0

def State.records (s : State) (k : StreamKey) : List RecordRow :=
  ((s.streams k).map Stream.records).getD []

section Statements

variable (sha256 : String → String) (k : StreamKey)

/-- The commit `τ` after `pre` was made under the claim in force: neither expired nor of another
generation than the connection, and no claim that has its token was replaced, released or reset. -/
def Covered (pre : List (Transition State Label)) (τ : Transition State Label) : Prop :=
  ∃ env actor token pageKey expected next events guard,
    τ.label = .commit env k actor token pageKey expected next events guard ∧
    (∃ h, (ledger sha256 k pre).holder = some h ∧ h.claim = token ∧ h.actor = actor ∧
      env.now < h.expires ∧ Usable τ.src.connections k h.generation) ∧
    ∀ pre₁ c pre₂ h, pre = pre₁ ++ c :: pre₂ →
      c.src.change sha256 k c.label = some (.claimed h) → h.claim = token →
      ∀ x ∈ pre₂, ∀ d, x.src.change sha256 k x.label = some d → d.ends = false

/-- A page that is there, committed again under a claim in force: nothing changes, and the receipt is
the one it had. -/
def Replays (s : State) (p : Page) (receipt : Receipt) : Prop :=
  ∀ env actor token pageKey expected next events p' row,
    parsePage pageKey expected next events = .ok p' → p'.key = p.key →
    p'.payload.encode = p.payload.encode →
    owned env s.db s.connections k actor (s.streams k) token = .ok row →
    commit sha256 env s.db s.connections k actor (s.streams k) token pageKey expected next events
      (.ok ()) = .ok (row, .replayed receipt) ∧
    s.after sha256 (.commit env k actor token pageKey expected next events (.ok ())) = s

structure Kept (τs : List (Transition State Label)) (s : State) : Prop where
  chain : Feed.Chained (fun p => p.1.expected) (fun p => p.1.next) "" (ledger sha256 k τs).pages
    (s.cursor k)
  revision : s.revision k = (ledger sha256 k τs).pages.length
  claims : ∀ pre τ post p receipt, τs = pre ++ τ :: post →
    τ.src.change sha256 k τ.label = some (.committed p receipt) → Covered sha256 k pre τ
  replay : ∀ p receipt, (p, receipt) ∈ (ledger sha256 k τs).pages → Replays sha256 k s p receipt
  latest : ∀ r ∈ s.records k,
    (∃ e ∈ (ledger sha256 k τs).events,
      e.id = r.recordId ∧ e.version = r.version ∧ e.deleted = r.deleted ∧ e.data.encode = r.body) ∧
    ∀ e ∈ (ledger sha256 k τs).events, e.id = r.recordId → e.version ≤ r.version
  recorded : ∀ e ∈ (ledger sha256 k τs).events, ∃ r ∈ s.records k, r.recordId = e.id
  content : CollisionFree sha256 (ledger sha256 k τs).events →
    ∀ e ∈ (ledger sha256 k τs).events, ∀ e' ∈ (ledger sha256 k τs).events, e.key = e'.key →
      e.deleted = e'.deleted ∧ e.data.encode = e'.data.encode

end Statements

section Proofs

variable {sha256 : String → String} {k : StreamKey} {τs : List (Transition State Label)} {s : State}
  {row : Stream} {l : Ledger}

variable {p : Page} {receipt : Receipt}

theorem Tracks.replays (h : Tracks sha256 row l) (hrow : s.streams k = some row) (hp : (p, receipt) ∈ l.pages) :
    Replays sha256 k s p receipt := by
  intro env actor token pageKey expected next events p' row' hparse hkey hpayload howned
  obtain ⟨hs, -⟩ := owned_ok howned
  obtain rfl := Option.some.inj (hrow.symm.trans hs)
  have hmem : Page.row sha256 (p, receipt) ∈ row.pages := by
    rw [h.pages]
    exact List.mem_map_of_mem hp
  have hget : get PageRow.pageKey p'.key row.pages = some (Page.row sha256 (p, receipt)) :=
    h.keyed.get_eq hmem hkey.symm
  have hfp : (Page.row sha256 (p, receipt)).fingerprint =
      pageFingerprint sha256 p'.expected p'.next p'.events := (congrArg sha256 hpayload).symm
  have hpage : commitPage sha256 row p' = .ok (row, .replayed receipt) := by
    simp only [commitPage, hget, hfp]
    rfl
  have hcommit : commit sha256 env s.db s.connections k actor (s.streams k) token pageKey expected next
      events (.ok ()) = .ok (row, .replayed receipt) := by
    simp only [commit, hparse, howned]
    exact hpage
  refine ⟨hcommit, ?_⟩
  rw [State.after, hcommit]
  simp only [Except.map, State.put]
  rw [← hrow, Function.update_eq_self]

/-- A committed page comes from a `commit` that owned the stream. -/
theorem change_committed {t : State} {label : Label}
    (hc : t.change sha256 k label = some (.committed p receipt)) :
    ∃ env actor token pageKey expected next events guard row,
      label = .commit env k actor token pageKey expected next events guard ∧
      owned env t.db t.connections k actor (t.streams k) token = .ok row := by
  cases label with
  | engine db => cases hc
  | connections t => cases hc
  | claim env k' actor leaseSeconds token =>
    obtain ⟨-, r, -, hc⟩ := change_eq_some hc
    cases hc
  | renew env k' actor token leaseSeconds =>
    obtain ⟨-, r, -, hc⟩ := change_eq_some hc
    cases hc
  | commit env k' actor token pageKey expected next events guard =>
    obtain ⟨rfl, p', hp, hc⟩ := change_eq_some hc
    obtain ⟨⟨row', c⟩, hr, -⟩ := changed_eq_some hc
    obtain ⟨-, row, -, hrow, -⟩ := commit_ok hr
    exact ⟨env, actor, token, pageKey, expected, next, events, guard, row, rfl, hrow⟩
  | release env k' actor token =>
    obtain ⟨-, r, -, hc⟩ := change_eq_some hc
    cases hc
  | reset env k' actor guard =>
    obtain ⟨-, r, -, hc⟩ := change_eq_some hc
    cases hc

/-- The claim a token came with is in force as long as the row holds the token. -/
theorem not_ended {pre₁ pre₂ : List (Transition State Label)} {c : Transition State Label}
    (h : Run (Step sha256) {} (pre₁ ++ c :: pre₂) s) {holder : Holder}
    (hc : c.src.change sha256 k c.label = some (.claimed holder)) (hrow : s.streams k = some row)
    (hclaim : row.claim = holder.claim) {x : Transition State Label} (hx : x ∈ pre₂) {d : Change}
    (hd : x.src.change sha256 k x.label = some d) : d.ends = false := by
  obtain ⟨-, hstep⟩ := h.split
  obtain ⟨-, hne, hdrawn⟩ := hstep.claimed hc
  obtain ⟨pre₃, pre₄, rfl⟩ := List.append_of_mem hx
  obtain ⟨hbefore, hstepx⟩ := h.rest.split
  have hdrawnx : holder.claim ∈ x.src.drawn :=
    hbefore.stable (p := fun s => holder.claim ∈ s.drawn) (fun _ _ _ hs hd => hs.drawn hd) hdrawn
  cases hends : d.ends with
  | false => rfl
  | true =>
    -- the token would be void from there on
    have hvoid : Void k holder.claim s :=
      h.rest.rest.stable (fun _ _ _ hs hv => hs.void hv) (hstepx.ended hd hends hdrawnx hne)
    exact absurd hclaim (hvoid.2.2 row hrow)

/-- A commit happens under the claim in force. -/
theorem commit_covered {pre post : List (Transition State Label)} {τ : Transition State Label}
    (h : Run (Step sha256) {} (pre ++ τ :: post) s)
    (hc : τ.src.change sha256 k τ.label = some (.committed p receipt)) : Covered sha256 k pre τ := by
  obtain ⟨hpre, -⟩ := h.split
  have htracked := tracked_run k hpre
  obtain ⟨env, actor, token, pageKey, expected, next, events, guard, row, hl, howned⟩ :=
    change_committed hc
  obtain ⟨hrow, howner, hclaim, hne, hlease, husable⟩ := owned_ok howned
  rw [hrow] at htracked
  refine ⟨env, actor, token, pageKey, expected, next, events, guard, hl,
    ⟨_, htracked.holder (hclaim ▸ hne), hclaim, howner, hlease, husable⟩, ?_⟩
  rintro pre₁ c pre₂ holder rfl hclaimed htoken x hx d hd
  exact not_ended hpre hclaimed hrow (hclaim.trans htoken.symm) hx hd

/-- The record rows are the greatest versions of the events. -/
theorem Contents.record {events : List Event} (h : Contents sha256 row events) {r : RecordRow}
    (hr : r ∈ row.records) :
    (∃ e ∈ events,
      e.id = r.recordId ∧ e.version = r.version ∧ e.deleted = r.deleted ∧ e.data.encode = r.body) ∧
    ∀ e ∈ events, e.id = r.recordId → e.version ≤ r.version := by
  have hget : register row.records r.recordId = some (r.version, r.deleted, r.body) := by
    rw [register, h.keyed.get_eq hr rfl]
    rfl
  obtain ⟨⟨entry, hentry, hkey, hversion, hvalue⟩, hmax⟩ := h.records.present _ _ _ hget
  obtain ⟨e, he, rfl⟩ := List.mem_map.1 hentry
  obtain ⟨hdeleted, hbody⟩ := Prod.mk.inj hvalue
  exact ⟨⟨e, he, hkey, hversion, hdeleted, hbody⟩,
    fun e' he' hid => hmax e'.entry (List.mem_map_of_mem he') hid⟩

theorem Contents.recorded {events : List Event} (h : Contents sha256 row events) {e : Event}
    (he : e ∈ events) : ∃ r ∈ row.records, r.recordId = e.id := by
  cases hget : get RecordRow.recordId e.id row.records with
  | some r => exact ⟨r, mem_of_get hget, key_of_get hget⟩
  | none =>
    have hnone : register row.records e.id = none := by rw [register, hget]; rfl
    exact absurd rfl (h.records.absent _ hnone e.entry (List.mem_map_of_mem he))

theorem sync_chain (h : Run (Step sha256) {} τs s) : Kept sha256 k τs s := by
  have hclaims : ∀ pre τ post p receipt, τs = pre ++ τ :: post →
      τ.src.change sha256 k τ.label = some (.committed p receipt) → Covered sha256 k pre τ := by
    rintro pre τ post p receipt rfl hc
    exact commit_covered h hc
  have htracked := tracked_run k h
  cases hrow : s.streams k with
  | none =>
    rw [hrow] at htracked
    have hledger : ledger sha256 k τs = {} := htracked
    have hrecords : s.records k = [] := by simp [State.records, hrow]
    have hevents : (ledger sha256 k τs).events = [] := by rw [hledger]; rfl
    refine ⟨?_, ?_, hclaims, ?_, ?_, ?_, ?_⟩
    · rw [hledger, State.cursor, hrow]
      rfl
    · rw [hledger, State.revision, hrow]
      rfl
    · simp [hledger]
    · simp [hrecords]
    · simp [hevents]
    · simp [hevents]
  | some row =>
    rw [hrow] at htracked
    have hrecords : s.records k = row.records := by simp [State.records, hrow]
    refine ⟨?_, ?_, hclaims, fun p receipt hp => htracked.replays hrow hp, ?_, ?_, ?_⟩
    · rw [State.cursor, hrow]
      exact htracked.chain
    · rw [State.revision, hrow]
      exact htracked.revision
    · intro r hr
      rw [hrecords] at hr
      exact htracked.contents.record hr
    · intro e he
      rw [hrecords]
      exact htracked.contents.recorded he
    · intro hsha e he e' he' hkey
      exact htracked.contents.one_content hsha he he' hkey

end Proofs

/-! ### A stream that is reset -/

section Sample

def sampleEnv (second : ℕ) : Env where
  policy := fun _ _ => .ok (.obj [])
  authority := fun _ _ _ _ => .ok ()
  bindings := fun _ _ _ _ => .ok []
  now := seconds second
  parentNow := fun _ => seconds second

def sampleConnection : OAuth.Connection where
  tenant := "acme"
  id := "c"
  provider := "google"
  account := "sales@acme.uz"
  configHash := "h"
  generation := 1
  status := .active
  scopes := []
  envelope := "e"
  expires := 0
  attempt := ""
  started := 0
  owner := "dana"

def sampleStream : StreamKey := ⟨"acme", "c", "contacts"⟩

def samplePage (name : String) : Json :=
  .arr [.obj [("id", .str "r"), ("version", .int 1), ("deleted", .bool false),
    ("data", .obj [("name", .str name)])]]

def sampleClaim (second : ℕ) (token : String) : Label :=
  .claim (sampleEnv second) sampleStream "dana" 60 token

def sampleCommit (second : ℕ) (token name : String) : Label :=
  .commit (sampleEnv second) sampleStream "dana" token "p" "" "n" (samplePage name) (.ok ())

/-- A page is committed, the stream is reset, and the page comes again with another content. -/
def resetLabels : List Label :=
  [.connections { connections := [sampleConnection] }, sampleClaim 0 "t1", sampleCommit 1 "t1" "Ali",
    .reset (sampleEnv 2) sampleStream "dana" (.ok ()), sampleClaim 3 "t2", sampleCommit 4 "t2" "Vali"]

def resetState : State := resetLabels.foldl (State.after id) {}

def resetRun : List (Transition State Label) := trace (State.after id) {} resetLabels

instance (s : State) : (l : Label) → Decidable (Fresh s l)
  | .claim _ _ _ _ token => inferInstanceAs (Decidable (token ∉ s.drawn ∧ token ≠ ""))
  | .engine _ | .connections _ | .renew .. | .commit .. | .release .. | .reset .. =>
    inferInstanceAs (Decidable True)

theorem reset_run : Run (Step id) {} resetRun resetState := by
  have hfresh : (resetRun.all fun τ => decide (Fresh τ.src τ.label)) = true := by decide +kernel
  have hrun : Run (guarded Fresh fun s l t => t = s.after id l) {} ([] ++ resetRun) resetState :=
    Run.nil.guardedCalls resetLabels fun τ hτ => of_decide_eq_true (List.all_eq_true.1 hfresh τ hτ)
  exact hrun

theorem sync_chain_sample :
    Kept id sampleStream resetRun resetState ∧
    ((ledger id sampleStream resetRun).pages.map fun p => (p.1.expected, p.1.next, p.2.revision)) =
      [("", "n", 1)] ∧
    (ledger id sampleStream resetRun).events.map Event.key = [("r", 1)] :=
  ⟨sync_chain reset_run, by decide +kernel, by decide +kernel⟩

/-- The contents a run committed for each version, across resets. -/
def committedContents (changes : List Change) : List ((String × ℕ) × String) :=
  changes.flatMap fun
    | .committed p _ => p.events.map fun e => (e.key, e.data.encode)
    | .claimed _ | .renewed _ | .released | .reset => []

/-- A reset forgets versions: the same version of a record is committed with two contents. -/
theorem reset_forgets :
    Run (Step id) {} resetRun resetState ∧
    ∃ key content content', (key, content) ∈ committedContents (changes id sampleStream resetRun) ∧
      (key, content') ∈ committedContents (changes id sampleStream resetRun) ∧ content ≠ content' := by
  have hcontents : committedContents (changes id sampleStream resetRun) =
      [(("r", 1), "\x7b\"name\":\"Ali\"\x7d"), (("r", 1), "\x7b\"name\":\"Vali\"\x7d")] := by
    decide +kernel
  rw [hcontents]
  exact ⟨reset_run, _, _, _, List.mem_cons_self, List.mem_cons_of_mem _ List.mem_cons_self,
    by decide⟩

end Sample

end AgentPlatform.Sync
