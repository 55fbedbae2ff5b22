import Mathlib.Logic.Function.Defs
import Mathlib.Tactic.Common
import AgentPlatform.JsonText
import AgentPlatform.Knowledge.Chunks
import AgentPlatform.Lib.Runs

/-!
# Versions and chunks

* The identifier of a chunk binds its text (`chunkId_text`), `sha256` being injective: `encode` writes every
  member between marks that determine it.
* `Sound` is the invariant of the tables. A chunk belongs to the current version of a document that is not
  deleted, and a collection has at most `maxCollectionChunks` of them.
* A call that writes a document raises its version by one, from the one it expected (`call_raises`).
-/

namespace AgentPlatform.Knowledge

open Outcome Engine Table Runs

/-! ### Identifiers -/

section Identifiers

variable {sha256 : String → String} {key key' : String × String × String} {version version' : ℤ}
  {position position' : ℕ} {text text' : String}

theorem sorted_chunk (tenant collection document version position text : String) :
    ([("tenant", tenant), ("collection", collection), ("document", document), ("version", version),
      ("position", position), ("text", text)].insertionSort
      fun (m m' : String × String) => m.1.toList ≤ m'.1.toList) =
    [("collection", collection), ("document", document), ("position", position), ("tenant", tenant),
      ("text", text), ("version", version)] := by
  simp +decide [List.insertionSort, List.orderedInsert]

theorem chunkId_eq (sha256 : String → String) (key : String × String × String) (version : ℤ) (position : ℕ)
    (text : String) : ∃ rest, chunkId sha256 key version position text = sha256
    ("\x7b" ++ (Json.quote "collection" ++ (":" ++ (Json.quote key.2.1 ++ ("," ++
      (Json.quote "document" ++ (":" ++ (Json.quote key.2.2 ++ ("," ++ (Json.quote "position" ++ (":" ++
        (toString (position : ℤ) ++ ("," ++ (Json.quote "tenant" ++ (":" ++ (Json.quote key.1 ++ ("," ++
          (Json.quote "text" ++ (":" ++ (Json.quote text ++ rest)))))))))))))))))))) := by
  unfold chunkId digest Json.encode
  dsimp only [Json.encodeMembers, Json.encode]
  rw [sorted_chunk]
  dsimp only [List.map]
  simp only [String.intercalate_cons_cons, String.intercalate_singleton, String.append_assoc]
  exact ⟨_, rfl⟩

/-- **The identifier of a chunk binds its text**, with the document it belongs to. -/
theorem chunkId_text (hsha : Function.Injective sha256)
    (h : chunkId sha256 key version position text = chunkId sha256 key' version' position' text') :
    key = key' ∧ text = text' := by
  obtain ⟨rest, hid⟩ := chunkId_eq sha256 key version position text
  obtain ⟨rest', hid'⟩ := chunkId_eq sha256 key' version' position' text'
  rw [hid, hid'] at h
  replace h := hsha h
  simp only [String.append_right_inj] at h
  obtain ⟨hcollection, h⟩ := Json.quote_append_inj h
  simp only [String.append_right_inj] at h
  obtain ⟨hdocument, h⟩ := Json.quote_append_inj h
  simp only [String.append_right_inj] at h
  replace h := Json.nat_append_inj h
  simp only [String.append_right_inj] at h
  obtain ⟨htenant, h⟩ := Json.quote_append_inj h
  simp only [String.append_right_inj] at h
  exact ⟨Prod.ext htenant (Prod.ext hcollection hdocument), (Json.quote_append_inj h).1⟩

end Identifiers

/-! ### What a call writes -/

section Calls

variable {lib : Library} {env : Env} {s t : Store} {tenant actor collection document : String}
  {up : Store.Upload} {expected : ℤ} {key : String × String × String}

/-- What an ingestion writes. -/
structure Ingested (lib : Library) (s t : Store) (tenant collection document content : String)
    (expected : ℤ) (rows : List ChunkRow) (row : DocumentRow) : Prop where
  version : s.version (tenant, collection, document) = expected
  room : (s.chunks.countP fun c => decide (c.tenant = tenant) && decide (c.collection = collection) &&
    decide (c.document ≠ document)) + (pieces content).length ≤ maxCollectionChunks
  cut : ∃ vectors, rows =
    Store.chunkRows lib (tenant, collection, document) (expected + 1) (pieces content) vectors
  put : row.key = (tenant, collection, document) ∧ row.version = expected + 1 ∧ row.deleted = false
  written : t = { s with
    documents := s.putDocument row
    chunks := (s.chunks.filter fun c => c.key ≠ (tenant, collection, document)) ++ rows
    texts := s.texts ++ [⟨(tenant, collection, document), expected + 1, content⟩]
    written := s.written ++ rows }

theorem ingest_cases {out : ℤ × List String}
    (h : s.ingest lib env tenant actor collection document up expected = .ok (t, out)) :
    ∃ rows row, Ingested lib s t tenant collection document up.content expected rows row := by
  simp only [Store.ingest, Store.writeVersion, Knowledge.chunks, bind_eq_ok, exists_unit, ensure_eq_ok,
    pure_eq_ok, Prod.mk.injEq] at h
  obtain ⟨-, -, -, -, -, parts, ⟨-, rfl⟩, -, -, cfg, -, vectors, -, hversion, hroom, t', ⟨-, rfl⟩, rfl, -⟩ := h
  rw [hversion]
  exact ⟨_, _, hversion, hroom, ⟨vectors, rfl⟩, ⟨rfl, rfl, rfl⟩, rfl⟩

/-- What a deletion writes. -/
structure Deleted (s t : Store) (key : String × String × String) (expected : ℤ) (now : Time) : Prop where
  one : s.documents.countP (fun d => decide (d.key = key) && decide (d.version = expected) &&
    !d.deleted) = 1
  written : t = { s with
    documents := update (fun d => decide (d.key = key) && decide (d.version = expected) && !d.deleted)
      (fun d => { d with deleted := true, version := d.version + 1, updated := now }) s.documents
    chunks := s.chunks.filter fun c => c.key ≠ key }

theorem delete_cases {out : Unit}
    (h : s.delete env tenant actor collection document expected = .ok (t, out)) :
    Deleted s t (tenant, collection, document) expected env.now := by
  simp only [Store.delete, bind_eq_ok, exists_unit, ensure_eq_ok, pure_eq_ok, Prod.mk.injEq] at h
  obtain ⟨-, -, -, hone, rfl, -⟩ := h
  exact ⟨hone, rfl⟩

/-- The document a put leaves under its key, and the others. -/
theorem get_put (row : DocumentRow) (hrow : row.deleted = false) (k : String × String × String) :
    get DocumentRow.key k (s.putDocument row) =
      if k = row.key then some row else get DocumentRow.key k s.documents := by
  unfold Store.putDocument
  split
  · rename_i hsome
    rw [get_update (f := row.overwrite) (fun _ => rfl)]
    split
    · rename_i hk
      obtain ⟨d, hd⟩ := Option.isSome_iff_exists.1 hsome
      have hget : get DocumentRow.key row.key s.documents = some d := hd
      rw [hk, hget]
      have hkey := key_of_get hget
      simp only [DocumentRow.key, Prod.mk.injEq] at hkey
      cases d
      cases row
      simp only at hkey hrow
      simp [DocumentRow.overwrite, hkey, hrow]
    · rfl
  · rename_i hnone
    have hget : get DocumentRow.key row.key s.documents = none := by
      cases hg : get DocumentRow.key row.key s.documents with
      | none => rfl
      | some d => exact absurd (Option.isSome_iff_exists.2 ⟨d, hg⟩) hnone
    rw [get_append]
    by_cases hk : k = row.key
    · rw [if_pos hk, hk, hget, if_pos rfl]
      rfl
    · rw [if_neg hk, if_neg fun h => hk h.symm, Option.or_none]

theorem keyed_put (h : Keyed DocumentRow.key s.documents) (row : DocumentRow) :
    Keyed DocumentRow.key (s.putDocument row) := by
  unfold Store.putDocument
  split
  · exact h.update fun _ => rfl
  · rename_i hnone
    refine h.insert fun d hd hkey => hnone (Option.isSome_iff_exists.2 ⟨d, h.get_eq hd hkey⟩)

theorem mem_chunkRows {version : ℤ} {parts : List (ℕ × ℕ × List Char)} {vectors : List Json} {c : ChunkRow}
    (h : c ∈ Store.chunkRows lib key version parts vectors) :
    c.key = key ∧ c.id = chunkId lib.sha256 key version c.position c.text ∧
      (c.start, c.stop, c.text.toList) ∈ parts := by
  unfold Store.chunkRows at h
  obtain ⟨i, hi, rfl⟩ := List.mem_mapIdx.1 h
  refine ⟨rfl, rfl, ?_⟩
  have hmem := List.getElem_mem hi
  obtain ⟨hpart, -⟩ := List.of_mem_zip (a := ((parts.zip vectors)[i]).1) (b := ((parts.zip vectors)[i]).2) hmem
  simp only [Store.chunkRow, String.toList_ofList]
  exact hpart

theorem length_chunkRows_le {version : ℤ} {parts : List (ℕ × ℕ × List Char)} {vectors : List Json} :
    (Store.chunkRows lib key version parts vectors).length ≤ parts.length := by
  unfold Store.chunkRows
  rw [List.length_mapIdx, List.length_zip]
  exact Nat.min_le_left _ _

/-! ### Versions -/

/-- A write raises the version of its document by one, from the one expected, and no other. -/
structure Raised (s t : Store) (key : String × String × String) (expected : ℤ) : Prop where
  before : s.version key = expected
  after : t.version key = expected + 1
  others : ∀ k, k ≠ key → t.version k = s.version k

theorem Ingested.raised {content : String} {rows : List ChunkRow} {row : DocumentRow}
    (h : Ingested lib s t tenant collection document content expected rows row) :
    Raised s t (tenant, collection, document) expected := by
  have hget : ∀ k, t.document? k = if k = row.key then some row else s.document? k := by
    intro k
    rw [h.written]
    exact get_put row h.put.2.2 k
  refine ⟨h.version, ?_, fun k hk => ?_⟩
  · unfold Store.version
    rw [hget, if_pos h.put.1.symm]
    exact h.put.2.1
  · unfold Store.version
    rw [hget, if_neg (h.put.1 ▸ hk)]

theorem Deleted.raised {now : Time} (hkeyed : Keyed DocumentRow.key s.documents)
    (h : Deleted s t key expected now) : Raised s t key expected := by
  obtain ⟨d, hd, hp⟩ := List.countP_pos_iff.1 (h.one.symm ▸ Nat.one_pos)
  have hhit := hp
  simp only [Bool.and_eq_true, decide_eq_true_eq] at hp
  obtain ⟨⟨hkey, hversion⟩, -⟩ := hp
  have hbefore : s.document? key = some d := hkeyed.get_eq hd hkey
  have hget : ∀ k, t.document? k = (s.document? k).map fun d =>
      if decide (d.key = key) && decide (d.version = expected) && !d.deleted then
        { d with deleted := true, version := d.version + 1, updated := now } else d := by
    intro k
    rw [h.written]
    exact get_update_map fun _ => rfl
  refine ⟨?_, ?_, fun k hk => ?_⟩
  · unfold Store.version
    rw [hbefore]
    exact hversion
  · unfold Store.version
    rw [hget, hbefore, Option.map_some, if_pos hhit, ← hversion]
  · unfold Store.version
    rw [hget]
    cases hd' : s.document? k with
    | none => rfl
    | some d' =>
      have hkey' : d'.key = k := key_of_get hd'
      have hmiss : ¬ (decide (d'.key = key) && decide (d'.version = expected) && !d'.deleted) = true := by
        simp [hkey', hk]
      rw [Option.map_some, if_neg hmiss]

end Calls

/-! ### The invariant -/

/-- What holds of the tables. -/
structure Sound (lib : Library) (s : Store) : Prop where
  documents : Keyed DocumentRow.key s.documents
  current : ∀ c ∈ s.chunks, ∃ d ∈ s.documents, d.key = c.key ∧ d.deleted = false ∧
    c.id = chunkId lib.sha256 c.key d.version c.position c.text ∧ ∃ e ∈ s.texts, e.key = c.key ∧
      e.version = d.version ∧ (c.start, c.stop, c.text.toList) ∈ pieces e.content
  room : ∀ tenant collection, s.size tenant collection ≤ maxCollectionChunks
  texts : Keyed (fun e => (e.key, e.version)) s.texts
  known : ∀ e ∈ s.texts, e.version ≤ s.version e.key
  written : ∀ c ∈ s.written, ∃ version, c.id = chunkId lib.sha256 c.key version c.position c.text
  logged : ∀ c ∈ s.chunks, c ∈ s.written

section Invariant

variable {lib : Library} {env : Env} {s t : Store} {tenant collection document : String}
  {expected : ℤ} {key : String × String × String}

theorem sound_empty (lib : Library) : Sound lib {} where
  documents := keyed_nil _
  current := by simp
  room _ _ := Nat.zero_le _
  texts := keyed_nil _
  known := by simp
  written := by simp
  logged := by simp

theorem Raised.known (h : Raised s t key expected) {e : Text} (he : e.version ≤ s.version e.key) :
    e.version ≤ t.version e.key := by
  by_cases hk : e.key = key
  · rw [hk, h.after]
    rw [hk, h.before] at he
    omega
  · rw [h.others _ hk]
    exact he

theorem Ingested.room_after {content : String} {rows : List ChunkRow} {row : DocumentRow} (hs : Sound lib s)
    (h : Ingested lib s t tenant collection document content expected rows row)
    (tenant' collection' : String) : t.size tenant' collection' ≤ maxCollectionChunks := by
  obtain ⟨vectors, hrows⟩ := h.cut
  let p := fun c : ChunkRow => decide (c.tenant = tenant') && decide (c.collection = collection')
  have hsize : t.size tenant' collection' =
      (s.chunks.filter fun c => c.key ≠ (tenant, collection, document)).countP p + rows.countP p := by
    rw [h.written]
    exact List.countP_append
  rw [hsize]
  by_cases hsame : tenant' = tenant ∧ collection' = collection
  · obtain ⟨rfl, rfl⟩ := hsame
    have hkept : (s.chunks.filter fun c => c.key ≠ (tenant', collection', document)).countP p =
        s.chunks.countP fun c => decide (c.tenant = tenant') && decide (c.collection = collection') &&
          decide (c.document ≠ document) := by
      rw [List.countP_filter]
      refine List.countP_congr fun c _ => ?_
      simp only [p, ChunkRow.key, ne_eq, Prod.mk.injEq, Bool.and_eq_true, decide_eq_true_eq, not_and]
      constructor
      · rintro ⟨⟨htenant, hcollection⟩, hne⟩
        exact ⟨⟨htenant, hcollection⟩, hne htenant hcollection⟩
      · rintro ⟨⟨htenant, hcollection⟩, hne⟩
        exact ⟨⟨htenant, hcollection⟩, fun _ _ => hne⟩
    have hlength : rows.length ≤ (pieces content).length := hrows ▸ length_chunkRows_le
    have hroom := h.room
    rw [hkept]
    exact Nat.le_trans (Nat.add_le_add_left (Nat.le_trans List.countP_le_length hlength) _) hroom
  · -- another collection gets no chunk
    have hnone : rows.countP p = 0 := by
      refine List.countP_eq_zero.2 fun c hc hp => hsame ?_
      obtain ⟨hckey, -⟩ := mem_chunkRows (hrows ▸ hc)
      simp only [ChunkRow.key, Prod.mk.injEq] at hckey
      simp only [p, Bool.and_eq_true, decide_eq_true_eq] at hp
      exact ⟨hp.1.symm.trans hckey.1, hp.2.symm.trans hckey.2.1⟩
    rw [hnone, Nat.add_zero]
    exact Nat.le_trans (List.filter_sublist.countP_le) (hs.room tenant' collection')

/-- An ingestion keeps the invariant. -/
theorem Ingested.sound {content : String} {rows : List ChunkRow} {row : DocumentRow} (hs : Sound lib s)
    (h : Ingested lib s t tenant collection document content expected rows row) : Sound lib t := by
  have hraised := h.raised
  obtain ⟨vectors, hrows⟩ := h.cut
  obtain ⟨hkey, hversion, hdeleted⟩ := h.put
  have hget : ∀ k, get DocumentRow.key k t.documents =
      if k = row.key then some row else get DocumentRow.key k s.documents := by
    intro k
    rw [h.written]
    exact get_put row hdeleted k
  have hmem : ∀ c ∈ rows, c.key = (tenant, collection, document) ∧
      c.id = chunkId lib.sha256 (tenant, collection, document) (expected + 1) c.position c.text ∧
        (c.start, c.stop, c.text.toList) ∈ pieces content := fun c hc => mem_chunkRows (hrows ▸ hc)
  have htexts : t.texts = s.texts ++ [⟨(tenant, collection, document), expected + 1, content⟩] := by
    rw [h.written]
  have hchunks : ∀ c ∈ t.chunks, c ∈ (s.chunks.filter fun c => c.key ≠ (tenant, collection, document)) ∨
      c ∈ rows := by
    intro c hc
    rw [h.written] at hc
    exact List.mem_append.1 hc
  have hwritten : t.written = s.written ++ rows := by
    rw [h.written]
  refine ⟨?_, fun c hc => ?_, fun tenant' collection' => ?_, ?_, fun e he => ?_, fun c hc => ?_, fun c hc => ?_⟩
  · rw [h.written]
    exact keyed_put hs.documents row
  · rcases hchunks c hc with hold | hnew
    · -- a chunk of another document
      obtain ⟨hc, hne⟩ := List.mem_filter.1 hold
      simp only [ne_eq, decide_eq_true_eq] at hne
      obtain ⟨d, hd, hdkey, hlive, hid, e, he, htext⟩ := hs.current c hc
      refine ⟨d, ?_, hdkey, hlive, hid, e, htexts ▸ List.mem_append_left _ he, htext⟩
      have hfound : Table.get DocumentRow.key c.key t.documents = some d := by
        rw [hget, if_neg (hkey ▸ hne)]
        exact hs.documents.get_eq hd hdkey
      exact mem_of_get hfound
    · obtain ⟨hckey, hid, hpiece⟩ := hmem c hnew
      refine ⟨row, ?_, hkey.trans hckey.symm, hdeleted, ?_, ⟨(tenant, collection, document), expected + 1, content⟩,
        ?_, hckey.symm, hversion.symm, hpiece⟩
      · have hfound : Table.get DocumentRow.key row.key t.documents = some row := by
          rw [hget, if_pos rfl]
        exact mem_of_get hfound
      · rw [hckey, hversion]
        exact hid
      · rw [htexts]
        exact List.mem_append_right _ List.mem_cons_self
  · exact h.room_after hs tenant' collection'
  · rw [htexts]
    refine hs.texts.insert fun e he hsame => ?_
    obtain ⟨hekey, heversion⟩ := Prod.mk.inj hsame
    have hle : expected + 1 ≤ expected := by
      have hknown := hs.known e he
      rw [hekey, h.version, heversion] at hknown
      exact hknown
    omega
  · rw [htexts] at he
    rcases List.mem_append.1 he with hold | hnew
    · exact hraised.known (hs.known e hold)
    · obtain rfl := List.mem_singleton.1 hnew
      exact hraised.after.ge
  · rw [hwritten] at hc
    rcases List.mem_append.1 hc with hold | hnew
    · exact hs.written c hold
    · obtain ⟨hckey, hid, -⟩ := hmem c hnew
      exact ⟨_, hckey ▸ hid⟩
  · rw [hwritten]
    rcases hchunks c hc with hold | hnew
    · exact List.mem_append_left _ (hs.logged c (List.mem_filter.1 hold).1)
    · exact List.mem_append_right _ hnew

/-- A deletion keeps the invariant. -/
theorem Deleted.sound {now : Time} (hs : Sound lib s) (h : Deleted s t key expected now) : Sound lib t := by
  have hraised := h.raised hs.documents
  obtain ⟨-, rfl⟩ := h
  refine ⟨hs.documents.update fun _ => rfl, fun c hc => ?_, fun tenant collection => ?_, hs.texts,
    fun e he => hraised.known (hs.known e he), hs.written, fun c hc =>
      hs.logged c (List.mem_filter.1 hc).1⟩
  · obtain ⟨hc, hne⟩ := List.mem_filter.1 hc
    simp only [ne_eq, decide_eq_true_eq] at hne
    obtain ⟨d, hd, hdkey, hrest⟩ := hs.current c hc
    refine ⟨d, mem_update_of_not hd ?_, hdkey, hrest⟩
    simp [hdkey, hne]
  · exact Nat.le_trans (List.filter_sublist.countP_le) (hs.room tenant collection)

end Invariant

/-! ### Calls -/

/-- The document a call writes, with the version it expects. -/
def Label.target? : Label → Option ((String × String × String) × ℤ)
  | .ingest _ tenant _ collection document _ expected => some ((tenant, collection, document), expected)
  | .delete _ tenant _ collection document expected => some ((tenant, collection, document), expected)
  | _ => none

section Runs

variable {lib : Library} {env : Env} {s t : Store} {l : Label} {τs : List (Transition Store Label)}

theorem map_fst_eq_ok {α β : Type} {x : Except Err (α × β)} {a : α} :
    x.map Prod.fst = .ok a ↔ ∃ b, x = .ok (a, b) := by
  cases x with
  | error e => simp [Except.map]
  | ok ab =>
    obtain ⟨a', b⟩ := ab
    simp [Except.map]

/-- **What a call that returns does**: it raises the version of the document it writes, and keeps the
invariant. -/
theorem call_sound (hs : Sound lib s) (h : s.call lib l = .ok t) :
    Sound lib t ∧ ∀ k v, l.target? = some (k, v) → Raised s t k v := by
  have hsame : t.documents = s.documents → t.chunks = s.chunks → t.texts = s.texts →
      t.written = s.written → Sound lib t := by
    intro hd hc ht hw
    obtain ⟨db, collections, acl, documents, chunks, texts, written⟩ := t
    subst hd hc ht hw
    exact ⟨hs.documents, hs.current, hs.room, hs.texts, hs.known, hs.written, hs.logged⟩
  cases l with
  | createCollection env tenant actor collection model dimension =>
    obtain ⟨b, hcall⟩ := map_fst_eq_ok.1 h
    simp only [Store.createCollection, bind_eq_ok, exists_unit] at hcall
    obtain ⟨-, -, -, -, -, hcall⟩ := hcall
    refine ⟨?_, fun _ _ h => by cases h⟩
    split at hcall
    · simp only [bind_eq_ok, exists_unit, pure_eq_ok, Prod.mk.injEq] at hcall
      obtain ⟨-, rfl, -⟩ := hcall
      exact hs
    · simp only [pure_eq_ok, Prod.mk.injEq] at hcall
      obtain ⟨rfl, -⟩ := hcall
      exact hsame rfl rfl rfl rfl
  | grant env tenant actor collection agent allowed =>
    obtain ⟨b, hcall⟩ := map_fst_eq_ok.1 h
    simp only [Store.grant, bind_eq_ok, exists_unit] at hcall
    obtain ⟨-, -, policy, -, -, -, cfg, -, hcall⟩ := hcall
    refine ⟨?_, fun _ _ h => by cases h⟩
    split at hcall
    · split at hcall <;> (obtain ⟨rfl, -⟩ := Prod.mk.inj (pure_eq_ok.1 hcall); exact hsame rfl rfl rfl rfl)
    · obtain ⟨rfl, -⟩ := Prod.mk.inj (pure_eq_ok.1 hcall)
      exact hsame rfl rfl rfl rfl
  | ingest env tenant actor collection document up expected =>
    obtain ⟨b, hcall⟩ := map_fst_eq_ok.1 h
    obtain ⟨rows, row, hi⟩ := ingest_cases hcall
    refine ⟨hi.sound hs, fun k v hk => ?_⟩
    cases hk
    exact hi.raised
  | delete env tenant actor collection document expected =>
    obtain ⟨b, hcall⟩ := map_fst_eq_ok.1 h
    have hd := delete_cases hcall
    refine ⟨hd.sound hs, fun k v hk => ?_⟩
    cases hk
    exact hd.raised hs.documents
  | engine P op =>
    obtain rfl := Except.ok.inj h
    exact ⟨hsame rfl rfl rfl rfl, fun _ _ h => by cases h⟩

theorem Step.sound (hs : Sound lib s) (h : Step lib s l t) : Sound lib t := by
  obtain rfl : t = s.after lib l := h
  unfold Store.after
  split
  · exact (call_sound hs ‹_›).1
  · exact hs

theorem reachable_sound (h : Run (Step lib) {} τs s) : Sound lib s :=
  h.invariant (I := Sound lib) (sound_empty lib) fun _ _ _ hs hstep => hstep.sound hs

end Runs

/-! ### Searching -/

/-- What a match shows: a chunk of the current version of a document that is not deleted, with the text
that was ingested there. -/
structure Shown (lib : Library) (s : Store) (tenant collection : String) (m : Store.Match) : Prop where
  chunk : ∃ c ∈ s.chunks, c ∈ s.written ∧ c.key = (tenant, collection, m.document) ∧
    m.sourceId = "kb:" ++ c.id ∧ c.text = m.text ∧
      c.id = chunkId lib.sha256 (tenant, collection, m.document) m.version c.position m.text
  document : ∃ d ∈ s.documents, d.key = (tenant, collection, m.document) ∧ d.deleted = false ∧
    d.version = m.version
  current : s.version (tenant, collection, m.document) = m.version
  text : ∃ e ∈ s.texts, e.key = (tenant, collection, m.document) ∧ e.version = m.version ∧
    (m.start, m.stop, m.text.toList) ∈ pieces e.content

section Search

variable {lib : Library} {env : Env} {s : Store} {tenant agent collection query model : String} {limit : ℤ}
  {queryVector : Option Json} {found : List Store.Match × ℕ}

theorem mem_corpus {f : Store.Found} (h : f ∈ s.corpus tenant collection) : f.chunk ∈ s.chunks ∧
    f.chunk.tenant = tenant ∧ f.chunk.collection = collection ∧ f.document ∈ s.documents ∧
      f.document.key = f.chunk.key ∧ f.document.deleted = false := by
  unfold Store.corpus at h
  replace h := (List.mem_insertionSort _).1 (List.mem_of_mem_take h)
  obtain ⟨c, hc, hf⟩ := List.mem_flatMap.1 h
  obtain ⟨d, hd, rfl⟩ := List.mem_map.1 hf
  obtain ⟨hc, hscope⟩ := List.mem_filter.1 hc
  obtain ⟨hd, hjoin⟩ := List.mem_filter.1 hd
  simp only [Bool.and_eq_true, decide_eq_true_eq, Bool.not_eq_true'] at hscope hjoin
  exact ⟨hc, hscope.1, hscope.2, hd, hjoin⟩

theorem search_cases
    (h : s.search lib env tenant agent collection query limit queryVector model = .ok found) :
    (⟨tenant, collection, agent⟩ : GrantRow) ∈ s.acl ∧
      ∀ m ∈ found.1, ∃ f ∈ s.corpus tenant collection, m = f.match := by
  simp only [Store.search, bind_eq_ok, exists_unit, ensure_eq_ok, pure_eq_ok] at h
  obtain ⟨-, -, -, policy, -, -, -, hgrant, cfg, -, q, -, -, order, -, rfl⟩ := h
  refine ⟨hgrant, fun m hm => ?_⟩
  obtain ⟨i, -, hi⟩ := List.mem_filterMap.1 hm
  obtain ⟨f, hf, rfl⟩ := Option.map_eq_some_iff.1 hi
  exact ⟨f, List.mem_of_getElem? hf, rfl⟩

theorem shown_of_mem (hs : Sound lib s) {f : Store.Found} (h : f ∈ s.corpus tenant collection) :
    Shown lib s tenant collection f.match := by
  obtain ⟨hc, rfl, rfl, hd, hkey, hlive⟩ := mem_corpus h
  obtain ⟨d, hd', hdkey, -, hid, e, he, hekey, hversion, hpiece⟩ := hs.current f.chunk hc
  obtain rfl := hs.documents.eq_of_key hd' hd (hdkey.trans hkey.symm)
  refine ⟨⟨f.chunk, hc, hs.logged _ hc, rfl, rfl, rfl, hid⟩, ⟨f.document, hd, hkey, hlive, rfl⟩, ?_,
    e, he, hekey, hversion, hpiece⟩
  have hget : s.document? f.chunk.key = some f.document := hs.documents.get_eq hd hkey
  show s.version f.chunk.key = f.document.version
  unfold Store.version
  rw [hget]

/-- **Versions and evidence.** In every run a call that returns raises the version of the document it
writes by one from the version it expected, and a call that raises changes nothing; a chunk's identifier
has one text, and so has a version of a document; a collection never has more than `maxCollectionChunks`
chunks; and a search returns chunks of the current versions of documents that are not deleted, in a
collection granted to the agent. -/
theorem knowledge_versioned (hsha : Function.Injective lib.sha256) {τs : List (Transition Store Label)}
    (h : Run (Step lib) {} τs s) :
    (∀ τ ∈ τs, ∀ k v, τ.label.target? = some (k, v) →
      match τ.src.call lib τ.label with
      | .ok _ => Raised τ.src τ.dst k v
      | .error _ => τ.dst = τ.src) ∧
    (∀ c ∈ s.written, ∀ c' ∈ s.written, c.id = c'.id → c.text = c'.text) ∧
    (∀ e ∈ s.texts, ∀ e' ∈ s.texts, e.key = e'.key → e.version = e'.version → e.content = e'.content) ∧
    (∀ tenant collection, s.size tenant collection ≤ maxCollectionChunks) ∧
    ∀ env tenant agent collection query limit queryVector model found,
      s.search lib env tenant agent collection query limit queryVector model = .ok found →
        (⟨tenant, collection, agent⟩ : GrantRow) ∈ s.acl ∧
          ∀ m ∈ found.1, Shown lib s tenant collection m := by
  have hs := reachable_sound h
  refine ⟨fun τ hτ k v hk => ?_, fun c hc c' hc' hid => ?_, fun e he e' he' hkey hversion => ?_, hs.room,
    fun env tenant agent collection query limit queryVector model found hfound => ?_⟩
  · obtain ⟨hstep, hsrc⟩ := h.always (I := Sound lib) (sound_empty lib)
      (fun _ _ _ hs hstep => Step.sound hs hstep) hτ
    have hdst : τ.dst = τ.src.after lib τ.label := hstep
    unfold Store.after at hdst
    cases hcall : τ.src.call lib τ.label with
    | ok t =>
      rw [hcall] at hdst
      obtain rfl : τ.dst = t := hdst
      exact (call_sound hsrc hcall).2 k v hk
    | error e =>
      rw [hcall] at hdst
      exact hdst
  · obtain ⟨version, hc⟩ := hs.written c hc
    obtain ⟨version', hc'⟩ := hs.written c' hc'
    exact (chunkId_text hsha (hc.symm.trans (hid.trans hc'))).2
  · exact congrArg Text.content (hs.texts.eq_of_key he he' (Prod.ext hkey hversion))
  · obtain ⟨hgrant, hmatches⟩ := search_cases hfound
    refine ⟨hgrant, fun m hm => ?_⟩
    obtain ⟨f, hf, rfl⟩ := hmatches m hm
    exact shown_of_mem hs hf

/-- A library whose digest is the text itself. -/
def sampleLibrary : Library where
  sha256 := id
  urlsplit := fun _ => .ok ⟨"https", "shop.uz", "", ""⟩
  hasTokens := fun text => !isBlank text
  bm25 := fun query texts => texts.map fun text => if query.toList.isPrefixOf text.toList then 1 else 0
  vector := fun value _ => .ok value
  product := fun _ _ => 0

def sampleEnv : Env where
  policy := fun _ _ => .ok (.obj [("tools", .arr [.str "knowledge.search"])])
  authority := fun _ _ _ _ => .ok ()
  bindings := fun _ _ _ _ => .ok []
  now := 0
  parentNow := fun _ => 0

/-- A document is ingested, deleted, and ingested again over its tombstone; a stale call is refused. -/
def sampleLabels : List Label :=
  [.createCollection sampleEnv "acme" "dana" "manuals" "" 0, .grant sampleEnv "acme" "dana" "manuals" "ops" true,
    .ingest sampleEnv "acme" "dana" "manuals" "returns" ⟨"Returns", "Ten days.", "", none, ""⟩ 0,
    .delete sampleEnv "acme" "dana" "manuals" "returns" 1,
    .ingest sampleEnv "acme" "dana" "manuals" "returns" ⟨"Returns", "Ten hours.", "", none, ""⟩ 1,
    .ingest sampleEnv "acme" "dana" "manuals" "returns" ⟨"Returns", "Ten weeks.", "", none, ""⟩ 2]

def sampleStore : Store := sampleLabels.foldl (Store.after sampleLibrary) {}

theorem knowledge_versioned_sample :
    sampleStore.texts.map (fun e => (e.version, e.content)) = [(1, "Ten days."), (3, "Ten weeks.")] ∧
      (sampleStore.size "acme" "manuals" = 1 ∧ sampleStore.size "acme" "manuals" ≤ maxCollectionChunks) ∧
      ∃ found, sampleStore.search sampleLibrary sampleEnv "acme" "ops" "manuals" "Ten" 4 none "" = .ok found ∧
        found.1.map Store.Match.text = ["Ten weeks."] ∧
          ∀ m ∈ found.1, Shown sampleLibrary sampleStore "acme" "manuals" m := by
  have hrun : Run (Step sampleLibrary) {} (trace (Store.after sampleLibrary) {} sampleLabels) sampleStore :=
    Run.nil.calls sampleLabels
  obtain ⟨-, -, -, hroom, hsearch⟩ := knowledge_versioned (fun _ _ h => h) hrun
  obtain ⟨htexts, hsize, hfound⟩ :
      sampleStore.texts.map (fun e => (e.version, e.content)) = [(1, "Ten days."), (3, "Ten weeks.")] ∧
        sampleStore.size "acme" "manuals" = 1 ∧
        (match sampleStore.search sampleLibrary sampleEnv "acme" "ops" "manuals" "Ten" 4 none "" with
          | .ok found => decide (found.1.map Store.Match.text = ["Ten weeks."])
          | .error _ => false) = true := by
    decide +kernel
  split at hfound
  · rename_i found hcall
    exact ⟨htexts, ⟨hsize, hroom _ _⟩, found, hcall, of_decide_eq_true hfound,
      (hsearch _ _ _ _ _ _ _ _ _ hcall).2⟩
  · cases hfound

end Search

end AgentPlatform.Knowledge
