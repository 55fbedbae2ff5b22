import AgentPlatform.Sync.Walkers

/-!
# Pages that fit into the store

What a walker returns is committed when it passes the checks of `commit`. The shape of its events always does; their
size and that of the cursor need not, since the walkers count the characters of a field and `commit` the bytes of a
record and a page, and the characters of the cursor, as they are encoded. `draft_accepted_iff` says in the
characters of the fields when a page passes.
-/

namespace AgentPlatform.Sync

open Outcome

/-! ### Sizes -/

/-- The characters of a text in a JSON string. -/
def escapedChars (s : String) : ℕ := (s.toList.map (Json.escapedSize fun _ => 1)).sum

/-- The bytes of a text in a JSON string. -/
def escapedBytes (s : String) : ℕ := (s.toList.map (Json.escapedSize Char.utf8Size)).sum

/-- The bytes of the metadata of a record. -/
def Item.bytes (item : Item) : ℕ :=
  2 + separated (Json.sizeMembers Char.utf8Size (item.data.getD []))

/-- The bytes of an event. -/
def eventBytes (m : Item × ℕ) : ℕ :=
  39 + m.1.bytes + (if m.1.data.isNone then 4 else 5) + escapedBytes m.1.id.val +
    (Nat.toDigits 10 m.2).length

/-- The bytes of the events of a page. -/
def pageBytes (records : List (Item × ℕ)) : ℕ := 2 + separated (records.map eventBytes)

/-- The characters of a cursor. -/
def cursorChars (c : Cursor) : ℕ :=
  64 + c.kind.name.length + c.phase.name.length + escapedChars c.anchor + escapedChars c.calendar +
    escapedChars c.page

/-- `commit` accepts the page. -/
structure Accepted (d : Draft) : Prop where
  cursor : checkCursor d.next.toJson.encode = .ok ()
  events : ∃ events, parseEvents d.events = .ok events

/-- The page is within the bounds of `commit`, with versions below `2 ^ 63`. -/
structure Fits (d : Draft) : Prop where
  records : ∀ m ∈ d.records, m.1.bytes ≤ 20000
  page : pageBytes d.records ≤ 500000
  cursor : cursorChars d.next ≤ 4096
  versions : ∀ m ∈ d.records, m.2 < 2 ^ 63

variable {item : Item} {version : ℕ} {records : List (Item × ℕ)} {c : Cursor}

/-- The event that is validated. -/
def eventOf (m : Item × ℕ) : Event := ⟨m.1.id.val, m.2, m.1.data.isNone, .obj (m.1.data.getD [])⟩

variable {w : Char → ℕ}

theorem size_bool {b : Bool} : (Json.bool b).size w = if b then 4 else 5 := by
  cases b <;> rfl

theorem weigh_nat (hw : Json.IsWeight w) (n : ℕ) :
    weigh w (toString (n : ℤ)).toList = (Nat.toDigits 10 n).length := by
  have hdigits : (toString (n : ℤ)).toList = Nat.toDigits 10 n := Nat.toList_repr
  rw [hdigits]
  refine Json.weigh_ascii hw fun c hc => ?_
  have hdigit : c.isDigit = true := Nat.isDigit_of_mem_toDigits (by decide) (by decide) hc
  simp only [Char.isDigit, Bool.and_eq_true, decide_eq_true_eq] at hdigit
  have hle : c.toNat ≤ 57 := UInt32.le_iff_toNat_le.1 hdigit.2
  omega

theorem size_event (m : Item × ℕ) : (eventOf m).toJson.size Char.utf8Size = eventBytes m := by
  have hsize : (eventOf m).toJson.size Char.utf8Size = 2 + separated
      [Json.quotedSize Char.utf8Size "id" + 1 + (2 + escapedBytes m.1.id.val),
        Json.quotedSize Char.utf8Size "version" + 1 + weigh Char.utf8Size (toString (m.2 : ℤ)).toList,
        Json.quotedSize Char.utf8Size "deleted" + 1 + (Json.bool m.1.data.isNone).size Char.utf8Size,
        Json.quotedSize Char.utf8Size "data" + 1 + m.1.bytes] := rfl
  have hid : Json.quotedSize Char.utf8Size "id" = 4 := by decide
  have hversion : Json.quotedSize Char.utf8Size "version" = 9 := by decide
  have hdeleted : Json.quotedSize Char.utf8Size "deleted" = 9 := by decide
  have hdata : Json.quotedSize Char.utf8Size "data" = 6 := by decide
  rw [hsize, weigh_nat Json.isWeight_utf8Size, size_bool, hid, hversion, hdeleted, hdata, eventBytes]
  simp only [separated, List.sum_cons, List.sum_nil, List.length_cons, List.length_nil]
  omega

theorem cursor_length : c.toJson.encode.length = cursorChars c := by
  have hsize : c.toJson.size (fun _ => 1) = 2 + separated
      [Json.quotedSize (fun _ => 1) "v" + 1 + 1,
        Json.quotedSize (fun _ => 1) "kind" + 1 + (2 + escapedChars c.kind.name),
        Json.quotedSize (fun _ => 1) "calendar" + 1 + (2 + escapedChars c.calendar),
        Json.quotedSize (fun _ => 1) "phase" + 1 + (2 + escapedChars c.phase.name),
        Json.quotedSize (fun _ => 1) "anchor" + 1 + (2 + escapedChars c.anchor),
        Json.quotedSize (fun _ => 1) "page" + 1 + (2 + escapedChars c.page)] := rfl
  have hkind : escapedChars c.kind.name = c.kind.name.length := by cases c.kind <;> decide
  have hphase : escapedChars c.phase.name = c.phase.name.length := by cases c.phase <;> decide
  have hkeys : ["v", "kind", "calendar", "phase", "anchor", "page"].map (Json.quotedSize fun _ => 1) =
      [3, 6, 10, 7, 8, 6] := by
    decide
  simp only [List.map_cons, List.map_nil, List.cons.injEq] at hkeys
  obtain ⟨h1, h2, h3, h4, h5, h6, -⟩ := hkeys
  rw [Json.length_encode, hsize, h1, h2, h3, h4, h5, h6, hkind, hphase, cursorChars]
  simp only [separated, List.sum_cons, List.sum_nil, List.length_cons, List.length_nil]
  omega

/-! ### The cursor -/

variable {s : String} {d : Char}

theorem printable_quote (h : d ∈ (Json.quote s).toList) : 32 ≤ d.toNat := by
  have hquote : (Json.quote s).toList = '"' :: (s.toList.flatMap Json.escape ++ ['"']) := by simp [Json.quote]
  rw [hquote, List.mem_cons, List.mem_append, List.mem_singleton, List.mem_flatMap] at h
  obtain rfl | ⟨c, -, hc⟩ | rfl := h
  · decide
  · exact Json.printable_escape hc
  · decide

theorem mem_intercalate {parts : List String} (h : d ∈ (",".intercalate parts).toList) :
    d = ',' ∨ ∃ part ∈ parts, d ∈ part.toList := by
  rw [String.toList_intercalate] at h
  induction parts with
  | nil => simp at h
  | cons part parts ih =>
    cases parts with
    | nil => exact .inr ⟨part, List.mem_singleton_self _, by simpa using h⟩
    | cons part' parts =>
      rw [List.map_cons, List.map_cons, List.intercalate_cons_cons, List.mem_append, ← List.map_cons] at h
      obtain h | h := h
      · obtain h | h := List.mem_append.1 h
        · exact .inr ⟨part, List.mem_cons_self, h⟩
        · exact .inl (by simpa using h)
      · exact (ih h).imp_right fun ⟨p, hp, hd⟩ => ⟨p, List.mem_cons_of_mem _ hp, hd⟩

theorem encodeMembers_cursor : Json.encodeMembers c.toJson.members =
    [("v", "1"), ("kind", Json.quote c.kind.name), ("calendar", Json.quote c.calendar),
      ("phase", Json.quote c.phase.name), ("anchor", Json.quote c.anchor), ("page", Json.quote c.page)] := rfl

/-- An encoded cursor has no control characters. -/
theorem printable_cursor (h : d ∈ c.toJson.encode.toList) : 32 ≤ d.toNat := by
  have hmember : ∀ m ∈ Json.encodeMembers c.toJson.members, ∀ d ∈ (Json.quote m.1 ++ ":" ++ m.2).toList,
      32 ≤ d.toNat := by
    intro m hm d hd
    have hvalue : ∀ d ∈ m.2.toList, 32 ≤ d.toNat := by
      rw [encodeMembers_cursor] at hm
      simp only [List.mem_cons, List.not_mem_nil, or_false] at hm
      obtain rfl | rfl | rfl | rfl | rfl | rfl := hm
      · decide
      all_goals exact fun d => printable_quote
    rw [String.toList_append, String.toList_append, List.mem_append, List.mem_append] at hd
    obtain (hd | hd) | hd := hd
    · exact printable_quote hd
    · rw [List.mem_singleton.1 hd]
      decide
    · exact hvalue d hd
  have hbrace : ∀ s ∈ ["\x7b", "\x7d"], ∀ d ∈ String.toList s, 32 ≤ d.toNat := by decide
  rw [Cursor.toJson, Json.encode, String.toList_append, String.toList_append, List.mem_append, List.mem_append] at h
  obtain (h | h) | h := h
  · exact hbrace _ (by decide) d h
  · obtain rfl | ⟨part, hpart, hd⟩ := mem_intercalate h
    · decide
    · obtain ⟨m, hm, rfl⟩ := List.mem_map.1 hpart
      exact hmember m ((List.mem_insertionSort _).1 hm) d hd
  · exact hbrace _ (by decide) d h

theorem checkCursor_iff : checkCursor c.toJson.encode = .ok () ↔ cursorChars c ≤ 4096 := by
  have hprintable : (c.toJson.encode.toList.all fun d => decide (32 ≤ d.toNat)) = true :=
    List.all_eq_true.2 fun d hd => decide_eq_true (printable_cursor hd)
  rw [checkCursor, ensure_eq_ok, hprintable, cursor_length]
  simp

/-! ### The events -/

theorem eventId_id : eventId (.str item.id.val) = .ok item.id.val := by
  have hid : OAuth.bounded item.id.val = .ok () := item.id.property
  rw [eventId, hid]
  rfl

theorem eventVersion_iff {v : ℕ} : eventVersion (.int version) = .ok v ↔ version < 2 ^ 63 ∧ v = version := by
  simp only [eventVersion, bind_eq_ok, ensure_eq_ok, exists_unit, pure_eq_ok, Int.toNat_natCast]
  have hbound : (0 ≤ (version : ℤ) ∧ (version : ℤ) < 2 ^ 63) ↔ version < 2 ^ 63 := by omega
  rw [hbound, eq_comm]

/-- Only the version and the size of a record are in question. -/
theorem parseEvent_iff {e : Event} :
    parseEvent (item.event version) = .ok e ↔
      (version < 2 ^ 63 ∧ item.bytes ≤ 20000) ∧ e = eventOf (item, version) := by
  have hfields : (item.event version).isDict = true ∧
      ((item.event version).members.all fun m => eventFields.contains m.1) = true ∧
      (eventFields.all fun key => ((item.event version).get? key).isSome) = true := ⟨rfl, rfl, rfl⟩
  have hid : (item.event version).getD "id" .null = .str item.id.val := rfl
  have hversion : (item.event version).getD "version" .null = .int version := rfl
  have hdeleted : (item.event version).getD "deleted" .null = .bool item.data.isNone := rfl
  have hdata : (item.event version).getD "data" .null = .obj (item.data.getD []) := rfl
  have htombstone : item.data.isNone = true → (Json.obj (item.data.getD [])).truthy = false := by
    intro hnone
    rw [Option.isNone_iff_eq_none.1 hnone]
    rfl
  have hsize : (Json.obj (item.data.getD [])).encode.utf8ByteSize = item.bytes := Json.utf8ByteSize_encode _
  simp only [parseEvent, bind_eq_ok, ensure_eq_ok, exists_unit, pure_eq_ok, hid, hversion, hdeleted, hdata, eventId_id,
    eventVersion_iff, eventDeleted, hsize, Except.ok.injEq]
  constructor
  · rintro ⟨-, _, rfl, _, ⟨hlt, rfl⟩, _, rfl, -, -, hle, rfl⟩
    exact ⟨⟨hlt, hle⟩, rfl⟩
  · rintro ⟨⟨hlt, hle⟩, rfl⟩
    exact ⟨hfields, _, rfl, _, ⟨hlt, rfl⟩, _, rfl, rfl, htombstone, hle, rfl⟩

/-- With distinct ids the loop accepts every event that is accepted by itself. -/
theorem addEvents_iff {validated r : List Event}
    (hids : (validated.map Event.id ++ records.map fun m => m.1.id.val).Nodup) :
    (records.map fun m => m.1.event m.2).foldlM addEvent validated = .ok r ↔
      (∀ m ∈ records, m.2 < 2 ^ 63 ∧ m.1.bytes ≤ 20000) ∧ r = validated ++ records.map eventOf := by
  induction records generalizing validated with
  | nil =>
    rw [List.map_nil, List.foldlM_nil, pure_eq_ok]
    simp [eq_comm]
  | cons m records ih =>
    have hnew : (eventOf m).key ∉ validated.map Event.key := by
      intro hmem
      obtain ⟨e, he, hkey⟩ := List.mem_map.1 hmem
      have hid : e.id = m.1.id.val := congrArg Prod.fst hkey
      rw [List.map_cons, List.nodup_append] at hids
      exact hids.2.2 _ (List.mem_map_of_mem he) _ List.mem_cons_self hid
    have hrest : ((validated ++ [eventOf m]).map Event.id ++ records.map fun m => m.1.id.val).Nodup := by
      rw [List.map_append, List.append_assoc]
      exact hids
    rw [List.map_cons, List.foldlM_cons, bind_eq_ok, List.forall_mem_cons]
    simp only [addEvent, bind_eq_ok, ensure_eq_ok, exists_unit, pure_eq_ok, parseEvent_iff]
    constructor
    · rintro ⟨_, ⟨_, ⟨hm, rfl⟩, -, rfl⟩, h⟩
      obtain ⟨hall, rfl⟩ := (ih hrest).1 h
      exact ⟨⟨hm, hall⟩, by rw [List.append_assoc, List.map_cons]; rfl⟩
    · rintro ⟨⟨hm, hall⟩, rfl⟩
      refine ⟨_, ⟨_, ⟨hm, rfl⟩, hnew, rfl⟩, (ih hrest).2 ⟨hall, ?_⟩⟩
      rw [List.append_assoc, List.map_cons]
      rfl

theorem page_length : (Json.arr ((records.map eventOf).map Event.toJson)).encode.utf8ByteSize = pageBytes records := by
  have hitems : ∀ items : List Json, Json.sizeItems Char.utf8Size items = items.map (Json.size Char.utf8Size) := by
    intro items
    induction items with
    | nil => rfl
    | cons item items ih => rw [Json.sizeItems, ih, List.map_cons]
  rw [Json.utf8ByteSize_encode, Json.size, hitems, List.map_map, List.map_map, pageBytes]
  congr 2
  exact List.map_congr_left fun m _ => size_event m

/-! ### The pages of the walkers -/

theorem nodup_unique {items : List Item} : (((unique items).map Prod.snd).map fun item => item.id.val).Nodup := by
  have hkeys : ∀ m ∈ unique items, m.2.id.val = m.1 :=
    Dict.forall_foldl_modify (P := fun k (item : Item) => item.id.val = k) (fun m hm => absurd hm List.not_mem_nil)
      fun _ _ _ _ => rfl
  have hids : ((unique items).map Prod.snd).map (fun item => item.id.val) = (unique items).map Prod.fst := by
    rw [List.map_map]
    exact List.map_congr_left hkeys
  rw [hids]
  exact Dict.nodup_keys_foldl_modify List.nodup_nil

theorem ids_versioned {revision : ℕ} {items : List Item} :
    (versioned revision items).map (fun m => m.1.id.val) = items.map fun item => item.id.val := by
  have hfst : (versioned revision items).map Prod.fst = items := List.zipIdx_map_fst _ _
  calc (versioned revision items).map (fun m => m.1.id.val)
      = ((versioned revision items).map Prod.fst).map fun item => item.id.val := by rw [List.map_map]; rfl
    _ = items.map fun item => item.id.val := by rw [hfst]

variable {get : Transport} {state : Cursor} {revision : ℕ} {d : Draft}

theorem draft_records (h : draft get state revision = .ok d) :
    d.records.length ≤ maxRecords ∧ (d.records.map fun m => m.1.id.val).Nodup := by
  simp only [draft, bind_eq_ok, ensure_eq_ok, exists_unit, pure_eq_ok] at h
  obtain ⟨fetched, -, -, hlength, rfl⟩ := h
  refine ⟨?_, ?_⟩
  · rw [versioned, List.length_zipIdx]
    exact hlength
  · rw [ids_versioned]
    exact nodup_unique

/-- `commit` accepts the events of a page exactly when they are small enough. -/
theorem parseEvents_iff (h : draft get state revision = .ok d) :
    (∃ events, parseEvents d.events = .ok events) ↔
      (∀ m ∈ d.records, m.2 < 2 ^ 63 ∧ m.1.bytes ≤ 20000) ∧ pageBytes d.records ≤ 500000 := by
  obtain ⟨hlength, hids⟩ := draft_records h
  have hcount : (d.records.map fun m => m.1.event m.2).length ≤ 100 := by
    rw [List.length_map]
    exact hlength
  have hadd : ∀ r, (d.records.map fun m => m.1.event m.2).foldlM addEvent [] = .ok r ↔
      (∀ m ∈ d.records, m.2 < 2 ^ 63 ∧ m.1.bytes ≤ 20000) ∧ r = [] ++ d.records.map eventOf :=
    fun r => addEvents_iff hids
  simp only [parseEvents, Draft.events, pageItems, bind_eq_ok, ensure_eq_ok, exists_unit, pure_eq_ok]
  constructor
  · rintro ⟨_, _, ⟨-, rfl⟩, _, hevents, hpage, rfl⟩
    obtain ⟨hall, rfl⟩ := (hadd _).1 hevents
    rw [List.nil_append, page_length] at hpage
    exact ⟨hall, hpage⟩
  · rintro ⟨hall, hpage⟩
    refine ⟨_, _, ⟨hcount, rfl⟩, _, (hadd _).2 ⟨hall, rfl⟩, ?_, rfl⟩
    rw [List.nil_append, page_length]
    exact hpage

/-- What a walker returns passes the checks of `commit` exactly when its records, its page and its cursor, as they are
encoded, are within their bounds. -/
theorem draft_accepted_iff (h : draft get state revision = .ok d) : Accepted d ↔ Fits d := by
  constructor
  · rintro ⟨hcursor, hevents⟩
    obtain ⟨hall, hpage⟩ := (parseEvents_iff h).1 hevents
    exact ⟨fun m hm => (hall m hm).2, hpage, checkCursor_iff.1 hcursor, fun m hm => (hall m hm).1⟩
  · rintro ⟨hrecords, hpage, hcursor, hversions⟩
    exact ⟨checkCursor_iff.2 hcursor, (parseEvents_iff h).2 ⟨fun m hm => ⟨hversions m hm, hrecords m hm⟩, hpage⟩⟩

/-- A calendar page of one event is committed. -/
theorem draft_accepted_sample : ∃ d,
    draft (fun _ _ => .body (.obj [("items", .arr [.obj [("id", .str "e"), ("summary", .str "Salom")]]),
      ("nextSyncToken", .str "s")])) ⟨.calendar, "primary", .start, "", ""⟩ 0 = .ok d ∧
      d.records.length = 1 ∧ Accepted d := by
  have hfits : ∃ d,
      draft (fun _ _ => .body (.obj [("items", .arr [.obj [("id", .str "e"), ("summary", .str "Salom")]]),
        ("nextSyncToken", .str "s")])) ⟨.calendar, "primary", .start, "", ""⟩ 0 = .ok d ∧
        d.records.length = 1 ∧ Fits d := by
    refine ⟨_, rfl, rfl, ?_, ?_, ?_, ?_⟩
    · decide
    · decide
    · decide
    · decide
  obtain ⟨d, h, hlength, hfits⟩ := hfits
  exact ⟨d, h, hlength, (draft_accepted_iff h).2 hfits⟩

/-- A text of one character. -/
def repeated (c : Char) (n : ℕ) : String := String.ofList (List.replicate n c)

variable {n : ℕ}

theorem bounded_repeated {c : Char} {maximum : ℕ} (hn : 1 ≤ n ∧ n ≤ maximum)
    (hc : 32 ≤ c.toNat ∧ c.toNat ≠ 127) : OAuth.bounded (repeated c n) maximum = .ok () := by
  rw [OAuth.bounded, ensure_eq_ok]
  simp [repeated, hn, hc]

theorem field_repeated {c : Char} (hn : n ≤ maxFieldChars) (hc : c ≠ '\x00') :
    (repeated c n).length ≤ maxFieldChars ∧ '\x00' ∉ (repeated c n).toList := by
  simp [repeated, hn, hc.symm]

theorem repeated_ne {c : Char} (hn : 1 ≤ n) : repeated c n ≠ "" := by
  intro h
  have hlength := congrArg String.length h
  simp [repeated] at hlength
  omega

theorem sum_repeated {c : Char} : ((repeated c n).toList.map w).sum = n * w c := by
  simp [repeated]

theorem boundedText_str {maximum : ℕ} (h : OAuth.bounded s maximum = .ok ()) :
    boundedText (.str s) maximum = .ok ⟨s, h⟩ := by
  rw [boundedText]
  split
  · rfl
  · rw [h] at *
    contradiction

theorem token_str (h : OAuth.bounded s maxTokenChars = .ok ()) : token (.str s) = .ok s := by
  rw [token, boundedText_str h]
  rfl

theorem accepted_body {value : Json} (hdict : value.isDict = true)
    (hsize : value.size Char.utf8Size ≤ maxResponseBytes) : accepted (.body value) = .ok value := by
  rw [← Json.utf8ByteSize_encode] at hsize
  simp only [accepted, bind_eq_ok, ensure_eq_ok, exists_unit, pure_eq_ok]
  exact ⟨⟨hdict, hsize⟩, trivial⟩

/-- A page of changes that only names the next one. -/
theorem draft_changes {q : String} (hq : OAuth.bounded q maxTokenChars = .ok ()) (hne : q ≠ "")
    (hsize : escapedBytes q ≤ 900000) :
    draft (fun _ _ => .body (.obj [("nextPageToken", .str q)])) ⟨.drive, "", .delta, q, ""⟩ 1 =
      .ok ⟨⟨.drive, "", .delta, q, q⟩, [], false⟩ := by
  have hbody : accepted (.body (.obj [("nextPageToken", .str q)])) = .ok (.obj [("nextPageToken", .str q)]) := by
    refine accepted_body rfl ?_
    have hlength : (Json.obj [("nextPageToken", .str q)]).size Char.utf8Size = 2 + separated
        [Json.quotedSize Char.utf8Size "nextPageToken" + 1 + (2 + escapedBytes q)] := rfl
    have hkey : Json.quotedSize Char.utf8Size "nextPageToken" = 15 := by decide
    rw [hlength, hkey, separated, List.sum_singleton, maxResponseBytes]
    simp only [List.length_cons, List.length_nil]
    omega
  have hobjects : objects (.obj [("nextPageToken", .str q)]) "changes" maxRecords = .ok [] := rfl
  have hpage : nextPage (.obj [("nextPageToken", .str q)]) = .ok q := token_str hq
  have hfetch : driveChanges (fun _ _ => .body (.obj [("nextPageToken", .str q)])) ⟨.drive, "", .delta, q, ""⟩ =
      .ok ⟨⟨.drive, "", .delta, q, q⟩, [], false⟩ := by
    simp only [driveChanges, bind_eq_ok]
    refine ⟨_, hbody, _, hobjects, [], rfl, _, hpage, ?_⟩
    rw [if_neg hne, decide_eq_false hne]
    rfl
  rw [draft, fetch]
  simp only [hfetch]
  rfl

theorem not_accepted_changes {q : String} (hchars : 2020 ≤ escapedChars q) :
    ¬ Accepted ⟨⟨.drive, "", .delta, q, q⟩, [], false⟩ := by
  intro h
  have hlength := checkCursor_iff.1 h.cursor
  simp only [cursorChars] at hlength
  omega

theorem escapedChars_repeated {c : Char} :
    escapedChars (repeated c n) = n * Json.escapedSize (fun _ => 1) c := sum_repeated

theorem escapedBytes_repeated {c : Char} :
    escapedBytes (repeated c n) = n * Json.escapedSize Char.utf8Size c := sum_repeated

/-- The metadata of an event with a summary and a description. -/
def eventData (summary description : String) : List (String × Json) :=
  [("id", .str "e"), ("summary", .str summary), ("description", .str description)]

theorem textField_str {field value : String} (h : value.length ≤ maxFieldChars ∧ '\x00' ∉ value.toList) :
    textField (field, .str value) = .ok (field, .str value) := by
  simp only [textField, bind_eq_ok, ensure_eq_ok, exists_unit, pure_eq_ok]
  exact ⟨h, trivial⟩

/-- A calendar page of one such event. -/
theorem draft_event {t : String} (hs : s.length ≤ maxFieldChars ∧ '\x00' ∉ s.toList)
    (ht : t.length ≤ maxFieldChars ∧ '\x00' ∉ t.toList) (hsize : escapedBytes s + escapedBytes t ≤ 900000) :
    ∃ item,
    draft (fun _ _ => .body (.obj [("items", .arr [.obj (eventData s t)]), ("nextSyncToken", .str "s")]))
      ⟨.calendar, "primary", .start, "", ""⟩ 0 =
        .ok ⟨⟨.calendar, "primary", .delta, "s", ""⟩, [(item, 1000)], true⟩ ∧ item.data = some (eventData s t) := by
  have hbody : accepted (.body (.obj [("items", .arr [.obj (eventData s t)]), ("nextSyncToken", .str "s")])) =
      .ok (.obj [("items", .arr [.obj (eventData s t)]), ("nextSyncToken", .str "s")]) := by
    refine accepted_body rfl ?_
    have hlength : (Json.obj [("items", .arr [.obj (eventData s t)]), ("nextSyncToken", .str "s")]).size Char.utf8Size =
        2 + separated [Json.quotedSize Char.utf8Size "items" + 1 + (2 + separated [2 + separated
            [Json.quotedSize Char.utf8Size "id" + 1 + 3,
              Json.quotedSize Char.utf8Size "summary" + 1 + (2 + escapedBytes s),
              Json.quotedSize Char.utf8Size "description" + 1 + (2 + escapedBytes t)]]),
          Json.quotedSize Char.utf8Size "nextSyncToken" + 1 + 3] := rfl
    have hkeys : ["items", "id", "summary", "description", "nextSyncToken"].map (Json.quotedSize Char.utf8Size) =
        [7, 4, 9, 13, 15] := by
      decide
    simp only [List.map_cons, List.map_nil, List.cons.injEq] at hkeys
    obtain ⟨h1, h2, h3, h4, h5, -⟩ := hkeys
    rw [hlength, h1, h2, h3, h4, h5, maxResponseBytes]
    simp only [separated, List.sum_cons, List.sum_nil, List.length_cons, List.length_nil]
    omega
  have hid : OAuth.bounded "e" 256 = .ok () := by decide
  have htexts : textFields (.obj (eventData s t))
      ["id", "summary", "description", "status", "updated", "etag", "recurringEventId"] = .ok (eventData s t) := by
    have hpresent : present (.obj (eventData s t))
        ["id", "summary", "description", "status", "updated", "etag", "recurringEventId"] = eventData s t := rfl
    rw [textFields, hpresent, eventData, mapM_eq_ok]
    exact .cons (textField_str (by decide)) (.cons (textField_str hs) (.cons (textField_str ht) .nil))
  have hitem : calendarItem (.obj (eventData s t)) = .ok ⟨⟨"e", hid⟩, some (eventData s t)⟩ := by
    simp only [calendarItem, bind_eq_ok]
    refine ⟨⟨"e", hid⟩, boundedText_str hid, ?_⟩
    have hstatus : ((Json.obj (eventData s t)).getD "status" .null).isText "cancelled" = false := rfl
    simp only [hstatus, Bool.false_eq_true, if_false, bind_eq_ok]
    exact ⟨_, htexts, [], rfl, [], rfl, by rw [List.append_nil, List.append_nil]; rfl⟩
  have hobjects : objects (.obj [("items", .arr [.obj (eventData s t)]), ("nextSyncToken", .str "s")]) "items"
      maxRecords = .ok [.obj (eventData s t)] := rfl
  have hfetch : calendarPage (fun _ _ => .body (.obj [("items", .arr [.obj (eventData s t)]),
      ("nextSyncToken", .str "s")])) ⟨.calendar, "primary", .start, "", ""⟩ =
      .ok ⟨⟨.calendar, "primary", .delta, "s", ""⟩, [⟨⟨"e", hid⟩, some (eventData s t)⟩], true⟩ := by
    simp only [calendarPage, bind_eq_ok]
    refine ⟨_, hbody, _, hobjects, [⟨⟨"e", hid⟩, some (eventData s t)⟩], ?_, _, rfl, ?_⟩
    · rw [mapM_eq_ok]
      exact .cons hitem .nil
    · rfl
  refine ⟨⟨⟨"e", hid⟩, some (eventData s t)⟩, ?_, rfl⟩
  rw [draft, fetch]
  simp only [hfetch]
  rfl

theorem escapedBytes_le_bytes {t : String} (h : item.data = some (eventData s t)) :
    escapedBytes s + escapedBytes t ≤ item.bytes := by
  have hmembers : Json.sizeMembers Char.utf8Size (eventData s t) =
      [Json.quotedSize Char.utf8Size "id" + 1 + 3, Json.quotedSize Char.utf8Size "summary" + 1 + (2 + escapedBytes s),
        Json.quotedSize Char.utf8Size "description" + 1 + (2 + escapedBytes t)] := rfl
  rw [Item.bytes, h, Option.getD_some, hmembers]
  simp only [separated, List.sum_cons, List.sum_nil, List.length_cons, List.length_nil]
  omega

/-- Texts within the bound of a field make a record beyond its own, and tokens within theirs a cursor beyond its
own. -/
theorem draft_not_accepted :
    (∃ d, draft (fun _ _ => .body (.obj [("items", .arr [.obj (eventData (repeated '中' 4096) (repeated '中' 4096))]),
        ("nextSyncToken", .str "s")])) ⟨.calendar, "primary", .start, "", ""⟩ 0 = .ok d ∧ ¬ Accepted d) ∧
      ∃ d, draft (fun _ _ => .body (.obj [("nextPageToken", .str (repeated '"' 1500))]))
        ⟨.drive, "", .delta, repeated '"' 1500, ""⟩ 1 = .ok d ∧ ¬ Accepted d := by
  constructor
  · have hfield : (repeated '中' 4096).length ≤ maxFieldChars ∧ '\x00' ∉ (repeated '中' 4096).toList :=
      field_repeated (by decide) (by decide)
    have hbytes : escapedBytes (repeated '中' 4096) = 12288 := by
      rw [escapedBytes_repeated]
      decide
    obtain ⟨item, h, hdata⟩ := draft_event hfield hfield (by rw [hbytes]; decide)
    refine ⟨_, h, fun haccepted => ?_⟩
    have hrecord : item.bytes ≤ 20000 := (((parseEvents_iff h).1 haccepted.events).1 _ (List.mem_singleton_self _)).2
    have hle := escapedBytes_le_bytes hdata
    rw [hbytes] at hle
    omega
  · have hbounded : OAuth.bounded (repeated '"' 1500) maxTokenChars = .ok () :=
      bounded_repeated (by decide) (by decide)
    have hbytes : escapedBytes (repeated '"' 1500) ≤ 900000 := by
      rw [escapedBytes_repeated]
      decide
    have hchars : 2020 ≤ escapedChars (repeated '"' 1500) := by
      rw [escapedChars_repeated]
      decide
    exact ⟨_, draft_changes hbounded (repeated_ne (by decide)) hbytes, not_accepted_changes hchars⟩

end AgentPlatform.Sync
