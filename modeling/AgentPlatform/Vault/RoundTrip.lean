import AgentPlatform.Vault.Secrets

/-!
# Envelopes round-trip

A run is any calls of `seal` and `rewrap`, of vaults with any rings: the ring may be another at every call. Only the
nonces are ideal: none is drawn twice. `Lawful` is what a vault promises in a state of a run, and `lawful_run` that it
promises it in every state. A value that is opened has its members in order, as a dictionary it is the one that was sealed.
-/

namespace AgentPlatform.Vault

open Outcome PyJson

variable {F : Type}

section Documents

theorem sorted_aadDoc (context : Value F) (kid : Text) :
    (aadDoc context kid).sorted =
      .obj [(ofString "context", context.sorted), (ofString "format", .int aadFormat), (ofString "kid", .str kid)] := by
  have h1 : textLe (ofString "kid") (ofString "context") = false := by decide
  have h2 : textLe (ofString "format") (ofString "context") = false := by decide
  have h3 : textLe (ofString "format") (ofString "kid") = true := by decide
  simp [aadDoc, Value.sorted, membersSorted, inOrder, List.insertionSort, List.orderedInsert, h1, h2, h3]

theorem sorted_envelopeDoc (kid nonce ciphertext : Text) :
    (envelopeDoc kid nonce ciphertext : Value F).sorted =
      .obj [(ofString "ciphertext", .str ciphertext), (ofString "kid", .str kid), (ofString "nonce", .str nonce),
        (ofString "v", .int envelopeVersion)] := by
  have h1 : textLe (ofString "nonce") (ofString "ciphertext") = false := by decide
  have h2 : textLe (ofString "kid") (ofString "ciphertext") = false := by decide
  have h3 : textLe (ofString "kid") (ofString "nonce") = true := by decide
  have h4 : textLe (ofString "v") (ofString "ciphertext") = false := by decide
  have h5 : textLe (ofString "v") (ofString "kid") = false := by decide
  have h6 : textLe (ofString "v") (ofString "nonce") = false := by decide
  simp [envelopeDoc, Value.sorted, membersSorted, inOrder, List.insertionSort, List.orderedInsert, h1, h2, h3, h4, h5, h6]

/-- The text of the associated data, of the text of the context. -/
def aadText (text kid : Text) : Text :=
  ofString "\x7b\"context\":" ++ (text ++ (ofString ",\"format\":1,\"kid\":" ++ (quote kid ++ [.char '\x7d'])))

def envelopeText (kid nonce ciphertext : Text) : Text :=
  ofString "\x7b\"ciphertext\":" ++ (quote ciphertext ++ (ofString ",\"kid\":" ++ (quote kid ++
    (ofString ",\"nonce\":" ++ (quote nonce ++ ofString ",\"v\":1\x7d")))))

theorem short_one : Short 1 := by
  have hdigits : maxDigits ≠ 0 := Nat.succ_ne_zero _
  exact Nat.one_lt_pow hdigits (by decide)

theorem write_one (repr : F → Option Text) : write repr (.int 1) = some (ofString "1") := by
  rw [write, if_pos short_one]
  rfl

theorem writeMembers_some {repr : F → Option Text} {value : Value F} {part : Text} (h : write repr value = some part)
    {members : List (Text × Value F)} {parts : List Text} (hs : writeMembers repr members = some parts) (key : Text) :
    writeMembers repr ((key, value) :: members) = some ((quote key ++ .char ':' :: part) :: parts) := by
  rw [writeMembers, h, hs]
  rfl

theorem write_aadDoc {repr : F → Option Text} {context : Value F} {text : Text}
    (h : write repr context.sorted = some text) (kid : Text) :
    write repr (aadDoc context kid).sorted = some (aadText text kid) := by
  have hkid : write repr (.str kid) = some (quote kid) := rfl
  have hformat : write repr (.int aadFormat) = some (ofString "1") := write_one repr
  rw [sorted_aadDoc, write, writeMembers_some h (writeMembers_some hformat (writeMembers_some hkid rfl _) _)]
  simp [aadText, List.intercalate, quote, ofString, writeCode, writeEscape]

theorem write_envelopeDoc (repr : F → Option Text) (kid nonce ciphertext : Text) :
    write repr (envelopeDoc kid nonce ciphertext).sorted = some (envelopeText kid nonce ciphertext) := by
  have hstr : ∀ s, write repr (.str s) = some (quote s) := fun s => rfl
  have hversion : write repr (.int envelopeVersion) = some (ofString "1") := write_one repr
  rw [sorted_envelopeDoc, write, writeMembers_some (hstr _) (writeMembers_some (hstr _) (writeMembers_some (hstr _)
    (writeMembers_some hversion rfl _) _) _)]
  simp [envelopeText, List.intercalate, quote, ofString, writeCode, writeEscape]

end Documents

/-! ### Sizes -/

section Sizes

/-- A text that stands in JSON as it is. -/
def Plain (text : Text) : Prop := ∀ code ∈ text, writeCode code = [code] ∧ code.isChar = true

theorem plain_char {c : Char} (hlow : 32 ≤ c.toNat) (hquote : c ≠ '"') (hslash : c ≠ '\\') :
    writeCode (.char c) = [.char c] ∧ (Code.char c).isChar = true :=
  ⟨writeCode_plain hlow hquote hslash, rfl⟩

theorem plain_alphanum {c : Char} (h : c.isAlphanum = true) :
    writeCode (.char c) = [.char c] ∧ (Code.char c).isChar = true := by
  have hne : ∀ d : Char, d.isAlphanum = false → c ≠ d := by
    rintro d hd rfl
    rw [h] at hd
    cases hd
  refine plain_char ?_ (hne _ (by decide)) (hne _ (by decide))
  delta Char.isAlphanum Char.isAlpha Char.isUpper Char.isLower Char.isDigit at h
  simp only [Bool.or_eq_true, Bool.and_eq_true, decide_eq_true_eq] at h
  obtain (⟨hlow, -⟩ | ⟨hlow, -⟩) | ⟨hlow, -⟩ := h
  all_goals exact (UInt32.le_iff_toNat_le.1 hlow).trans' (by decide)

theorem plain_keyId {id : Text} (h : isKeyId id = true) : Plain id ∧ id.length ≤ 64 := by
  simp only [isKeyId, Bool.and_eq_true, decide_eq_true_eq, List.all_eq_true] at h
  obtain ⟨⟨-, hlength⟩, hall⟩ := h
  refine ⟨fun code hcode => ?_, hlength⟩
  have hc := hall code hcode
  cases code with
  | surrogate unit => cases hc
  | char c =>
    simp only [Bool.or_eq_true, beq_iff_eq] at hc
    obtain (hc | rfl) | rfl := hc
    · exact plain_alphanum hc
    · exact plain_char (by decide) (by decide) (by decide)
    · exact plain_char (by decide) (by decide) (by decide)

theorem plain_b64 (raw : Bytes) : Plain (b64 raw) := by
  intro code hcode
  obtain ⟨c, hc, rfl⟩ := List.mem_map.1 hcode
  obtain h | rfl | rfl | rfl := Base64.plain_encode raw c hc
  · exact plain_alphanum h
  · exact plain_char (by decide) (by decide) (by decide)
  · exact plain_char (by decide) (by decide) (by decide)
  · exact plain_char (by decide) (by decide) (by decide)

theorem Plain.length_quote {text : Text} (h : Plain text) : (quote text).length = text.length + 2 := by
  rw [quote_plain fun code hcode => (h code hcode).1]
  simp

theorem length_b64 (raw : Bytes) : (b64 raw).length = (raw.length + 2) / 3 * 4 := by
  rw [b64, List.length_map, Base64.length_encode]

theorem length_envelopeText {kid nonce ciphertext : Text} (hkid : Plain kid) (hnonce : Plain nonce)
    (hciphertext : Plain ciphertext) :
    (envelopeText kid nonce ciphertext).length = ciphertext.length + kid.length + nonce.length + 43 := by
  simp only [envelopeText, List.length_append, hkid.length_quote, hnonce.length_quote, hciphertext.length_quote]
  simp only [ofString, List.length_map]
  change 14 + (_ + (7 + (_ + (9 + (_ + 7))))) = _
  omega

theorem length_b64_nonce (nonce : Nonce) : (b64 nonce).length = 16 := by
  rw [length_b64, nonce.2]
  rfl

theorem length_sealed {kid : Text} (hkid : isKeyId kid = true) (nonce : Nonce) {ciphertext : Bytes}
    (h : ciphertext.length ≤ maxSealedBytes + 16) :
    (b64 ciphertext).length ≤ maxEncodedField ∧
      (envelopeText kid (b64 nonce) (b64 ciphertext)).length ≤ maxEnvelopeChars := by
  obtain ⟨hplain, hlength⟩ := plain_keyId hkid
  rw [length_envelopeText hplain (plain_b64 _) (plain_b64 _), length_b64_nonce, length_b64]
  simp only [maxSealedBytes, maxEncodedField, maxEnvelopeChars] at h ⊢
  omega

end Sizes

/-! ### The context -/

section Context

variable {py : Python F} {context context' : Value F} {kid : Text} {a : Bytes}

/-- A dictionary that is not empty. -/
def isContext : Value F → Bool
  | .obj (_ :: _) => true
  | _ => false

theorem levels_aadDoc (context : Value F) (kid : Text) : (aadDoc context kid).levels = context.levels + 1 := by
  simp [aadDoc, Value.levels, membersLevels]

variable {text : Text}

theorem encode_aadDoc (h : py.encode context = some text) :
    py.encode (aadDoc context kid) = if context.levels + 1 ≤ py.writes then some (aadText text kid) else none := by
  rw [Python.encode, encode, levels_aadDoc, write_aadDoc (encode_eq_some.1 h).2]

theorem aad_eq_ok : aad py context kid = .ok a ↔ isContext context = true ∧ ∃ text, py.encode context = some text ∧
    text.length ≤ maxContextBytes ∧ context.levels + 1 ≤ py.writes ∧ utf8 (aadText text kid) = some a := by
  cases hcontext : isContext context with
  | false =>
    have herror : aad py context kid = .error (.vault "Bounded encryption context required") := by
      rw [aad]
      rintro _ _ rfl
      cases hcontext
    simp [herror]
  | true =>
    obtain ⟨m, ms, rfl⟩ : ∃ m ms, context = .obj (m :: ms) := by
      unfold isContext at hcontext
      split at hcontext
      · exact ⟨_, _, rfl⟩
      · cases hcontext
    simp only [aad, bind_eq_ok, need_eq_ok, ensure_eq_ok, exists_unit, true_and]
    refine exists_congr fun text => and_congr_right fun htext => and_congr_right fun _ => ?_
    rw [encode_aadDoc htext]
    simp only [Option.ite_none_right_eq_some, Option.some.injEq]
    constructor
    · rintro ⟨_, ⟨hlevels, rfl⟩, ha⟩
      exact ⟨hlevels, ha⟩
    · rintro ⟨hlevels, ha⟩
      exact ⟨_, ⟨hlevels, rfl⟩, ha⟩

theorem isContext_sorted (v : Value F) : isContext v.sorted = isContext v := by
  cases v with
  | null | bool | int | float | str | arr => rfl
  | obj members =>
    have hlength : (inOrder (membersSorted members)).length = members.length := by
      rw [(inOrder_perm _).length_eq, membersSorted_eq_map, List.length_map]
    rw [Value.sorted]
    cases members with
    | nil => rfl
    | cons m members =>
      have hpos : 0 < (inOrder (membersSorted (m :: members))).length := by
        rw [hlength]
        exact Nat.succ_pos _
      obtain ⟨m', members', heq⟩ := List.exists_cons_of_length_pos hpos
      rw [heq]
      rfl

theorem aad_congr (h : context.sorted = context'.sorted) : aad py context kid = .ok a ↔ aad py context' kid = .ok a := by
  have hcontext : isContext context = isContext context' := by
    rw [← isContext_sorted context, h, isContext_sorted]
  have hlevels : context.levels = context'.levels := by
    rw [← levels_sorted context, h, levels_sorted]
  have hencode : py.encode context = py.encode context' := encode_congr h
  rw [aad_eq_ok, aad_eq_ok, hcontext, hlevels, hencode]

theorem utf8_injective {text' : Text} {raw : Bytes} (h : utf8 text = some raw) (h' : utf8 text' = some raw)
    (py : Python F) : text = text' :=
  Option.some.inj ((py.codec_utf8 text raw h).symm.trans (py.codec_utf8 text' raw h'))

theorem Python.inverts (py : Python F) : py.hooks.Inverts py.repr where
  float := py.float
  pairs _ hkeys := if_pos hkeys

theorem distinct_aadDoc (h : context.Distinct) (kid : Text) : (aadDoc context kid).Distinct := by
  have hkeys : ([ofString "format", ofString "kid", ofString "context"] : List Text).Nodup := by decide
  exact ⟨hkeys, trivial, trivial, h, trivial⟩

/-- Different contexts are authenticated as different data. -/
theorem aad_injective (hd : context.Distinct) (hd' : context'.Distinct) {kid' : Text}
    (h : aad py context kid = .ok a) (h' : aad py context' kid' = .ok a) : context.sorted = context'.sorted := by
  obtain ⟨-, text, htext, -, hlevels, ha⟩ := aad_eq_ok.1 h
  obtain ⟨-, text', htext', -, hlevels', ha'⟩ := aad_eq_ok.1 h'
  have hwhole : py.encode (aadDoc context kid) = some (aadText text kid) := (encode_aadDoc htext).trans (if_pos hlevels)
  have hwhole' : py.encode (aadDoc context' kid') = some (aadText text' kid') :=
    (encode_aadDoc htext').trans (if_pos hlevels')
  rw [← utf8_injective ha ha' py] at hwhole'
  have hsorted := encode_injective py.inverts (distinct_aadDoc hd kid) (distinct_aadDoc hd' kid') hwhole hwhole'
  rw [sorted_aadDoc, sorted_aadDoc] at hsorted
  exact (Prod.mk.inj (List.cons.inj (Value.obj.inj hsorted)).1).2

theorem isSome_aadText (hkid : isKeyId kid = true) :
    (utf8 (aadText text kid)).isSome = text.all Code.isChar := by
  have hplain := (plain_keyId hkid).1
  have hquote : quote kid = .char '"' :: (kid ++ [.char '"']) := quote_plain fun code hcode => (hplain code hcode).1
  have hall : kid.all Code.isChar = true := List.all_eq_true.2 fun code hcode => (hplain code hcode).2
  rw [isSome_utf8, aadText, hquote]
  simp [hall, ofString, Code.isChar]

theorem aad_of_aad (hkid : isKeyId kid = true) {kid' : Text} (hkid' : isKeyId kid' = true)
    (h : aad py context kid = .ok a) : ∃ a', aad py context kid' = .ok a' := by
  obtain ⟨hcontext, text, htext, hlength, hlevels, ha⟩ := aad_eq_ok.1 h
  have hsome : (utf8 (aadText text kid')).isSome = true := by
    rw [isSome_aadText hkid', ← isSome_aadText hkid, ha]
    rfl
  obtain ⟨a', ha'⟩ := Option.isSome_iff_exists.1 hsome
  exact ⟨a', aad_eq_ok.2 ⟨hcontext, text, htext, hlength, hlevels, ha'⟩⟩

end Context

/-! ### Opening an envelope -/

section Opening

variable {py : Python F}

theorem chars_map (l : List Char) : chars (l.map .char) = some l := by
  unfold chars
  induction l with
  | nil => rfl
  | cons c l ih =>
    rw [List.map_cons, List.mapM_cons, ih]
    rfl

theorem unb64_b64 {raw : Bytes} (h : (b64 raw).length ≤ maxEncodedField) :
    unb64 (.str (b64 raw) : Value F) = .ok raw := by
  simp only [unb64, bind_eq_ok, ensure_eq_ok, need_eq_ok, exists_unit]
  refine ⟨h, ?_⟩
  rw [b64, chars_map]
  exact Base64.decode_encode raw

/-- The members of an envelope, in order. -/
def envelopeMembers (kid nonce ciphertext : Text) : List (Text × Value F) :=
  [(ofString "ciphertext", .str ciphertext), (ofString "kid", .str kid), (ofString "nonce", .str nonce),
    (ofString "v", .int envelopeVersion)]

theorem encode_envelopeDoc (hwrites : 1 ≤ py.writes) (kid nonce ciphertext : Text) :
    py.encode (envelopeDoc kid nonce ciphertext) = some (envelopeText kid nonce ciphertext) := by
  have hlevels : (envelopeDoc kid nonce ciphertext : Value F).levels = 1 := by
    simp [envelopeDoc, Value.levels, membersLevels]
  exact encode_eq_some.2 ⟨hlevels.trans_le hwrites, write_envelopeDoc py.repr kid nonce ciphertext⟩

theorem loads_envelopeText (hwrites : 1 ≤ py.writes) (kid nonce ciphertext : Text) :
    loads py.reads py.hooks (envelopeText kid nonce ciphertext) = .ok (.obj (envelopeMembers kid nonce ciphertext)) := by
  have hkeys : ([ofString "v", ofString "kid", ofString "nonce", ofString "ciphertext"] : List Text).Nodup := by decide
  have hdistinct : (envelopeDoc kid nonce ciphertext : Value F).Distinct :=
    ⟨hkeys, trivial, trivial, trivial, trivial, trivial⟩
  rw [loads_encode py.inverts py.deep hdistinct (encode_envelopeDoc hwrites kid nonce ciphertext), sorted_envelopeDoc]
  rfl

/-- What is left of `open` after the envelope has been read. -/
def SecretVault.unlocked (py : Python F) (V : SecretVault) (log : List Message) (kid : Text) (nonce ciphertext : Bytes)
    (context : Value F) : Except Raised (Value F) := do
  let key ← need (V.key? kid) .other
  let aad ← aad py context kid
  let raw ← need (decrypt log key nonce ciphertext aad) .other
  ensure (raw.length ≤ maxSealedBytes) .size
  ofJson (loadsBytes py.codec py.reads py.hooks raw)

theorem opening_envelope (hwrites : 1 ≤ py.writes) (V : SecretVault) (log : List Message) {kid : Text}
    (hkid : isKeyId kid = true) (nonce : Nonce) {ciphertext : Bytes}
    (hlength : ciphertext.length ≤ maxSealedBytes + 16) (context : Value F) :
    V.opening py log (envelopeText kid (b64 nonce) (b64 ciphertext)) context =
      V.unlocked py log kid nonce ciphertext context := by
  obtain ⟨hfield, hsize⟩ := length_sealed hkid nonce hlength
  have hnonce : (b64 nonce).length ≤ maxEncodedField := by
    rw [length_b64_nonce]
    decide
  have hkeys : (∀ key ∈ (envelopeMembers kid (b64 nonce) (b64 ciphertext) : List (Text × Value F)).map Prod.fst,
      key ∈ envelopeFields) ∧ ∀ key ∈ envelopeFields,
      key ∈ (envelopeMembers kid (b64 nonce) (b64 ciphertext) : List (Text × Value F)).map Prod.fst := by
    have hnames : (envelopeMembers kid (b64 nonce) (b64 ciphertext) : List (Text × Value F)).map Prod.fst =
        [ofString "ciphertext", ofString "kid", ofString "nonce", ofString "v"] := rfl
    rw [hnames]
    decide
  have hdata : ofJson (loads py.reads py.hooks (envelopeText kid (b64 nonce) (b64 ciphertext))) =
      .ok (.obj (envelopeMembers kid (b64 nonce) (b64 ciphertext))) := by
    rw [loads_envelopeText hwrites]
    rfl
  have hversion : field (envelopeMembers kid (b64 nonce) (b64 ciphertext) : List (Text × Value F)) "v" =
      .ok (.int envelopeVersion) := rfl
  have hn : field (envelopeMembers kid (b64 nonce) (b64 ciphertext) : List (Text × Value F)) "nonce" =
      .ok (.str (b64 nonce)) := rfl
  have hk : field (envelopeMembers kid (b64 nonce) (b64 ciphertext) : List (Text × Value F)) "kid" =
      .ok (.str kid) := rfl
  have hc : field (envelopeMembers kid (b64 nonce) (b64 ciphertext) : List (Text × Value F)) "ciphertext" =
      .ok (.str (b64 ciphertext)) := rfl
  have hensure : ∀ {c : Prop} [Decidable c] {e : Raised}, c → ensure c e = .ok () := fun h => if_pos h
  rw [SecretVault.opening, hensure hsize, hdata]
  simp only [bind, Except.bind, hensure hkeys, hversion, hn, hk, hc, unb64_b64 hnonce, unb64_b64 hfield,
    hensure nonce.2, hensure (show isVersion (.int envelopeVersion : Value F) = true from rfl)]
  rfl

end Opening

/-! ### Sealing -/

section Sealing

variable {py : Python F} {cipher : Aead} {log : List Message}

theorem exists_of_decrypt {key nonce ciphertext a raw : Bytes} (h : decrypt log key nonce ciphertext a = some raw) :
    ∃ m ∈ log, m.key = key ∧ m.nonce = nonce ∧ m.ciphertext = ciphertext ∧ m.aad = a ∧ m.raw = raw := by
  obtain ⟨m, hm, rfl⟩ := Option.map_eq_some_iff.1 h
  have hsame := List.find?_some hm
  simp only [decide_eq_true_eq] at hsame
  obtain ⟨hkey, hnonce, hciphertext, ha⟩ := hsame
  exact ⟨m, List.mem_of_find?_eq_some hm, hkey, hnonce, hciphertext, ha, rfl⟩

variable {m : Message}

theorem eq_of_nonce (hnonces : (log.map (·.nonce)).Nodup) {m' : Message} (hm : m ∈ log) (hm' : m' ∈ log)
    (h : m.nonce = m'.nonce) : m = m' :=
  List.inj_on_of_nodup_map hnonces hm hm' h

theorem decrypt_of_mem (hnonces : (log.map (·.nonce)).Nodup) (hm : m ∈ log) :
    decrypt log m.key m.nonce m.ciphertext m.aad = some m.raw := by
  cases hfind : log.find? fun m' => decide (m'.key = m.key ∧ m'.nonce = m.nonce ∧ m'.ciphertext = m.ciphertext ∧
      m'.aad = m.aad) with
  | none =>
    have hnot := List.find?_eq_none.1 hfind m hm
    simp at hnot
  | some m' =>
    have hsame := List.find?_some hfind
    simp only [decide_eq_true_eq] at hsame
    rw [decrypt, hfind, eq_of_nonce hnonces (List.mem_of_find?_eq_some hfind) hm hsame.2.1]
    rfl

variable {V : SecretVault}

theorem keyId_of_key? {kid : Text} {key : Bytes} (h : V.key? kid = some key) : isKeyId kid = true := by
  obtain ⟨before, later, heq, -⟩ := List.lookup_eq_some_iff.1 h
  refine (V.valid (kid, key) ?_).1
  rw [heq]
  exact List.mem_append_right _ List.mem_cons_self

theorem exists_key_active (V : SecretVault) : ∃ key, V.key? V.active = some key := by
  obtain ⟨k, hk, hactive⟩ := List.mem_map.1 V.ring.2.2
  refine Option.isSome_iff_exists.1 (List.lookup_isSome_iff.2 ⟨k, hk, ?_⟩)
  exact beq_iff_eq.2 hactive.symm

/-- A value within the bound of the vault: it can be written, in few enough bytes. -/
def Bounded (py : Python F) (value : Value F) : Prop :=
  ∃ text raw, py.encode value = some text ∧ utf8 text = some raw ∧ raw.length ≤ maxSealedBytes

/-- A context that the vault takes. -/
def Accepts (py : Python F) (context : Value F) : Prop := ∃ kid a, isKeyId kid = true ∧ aad py context kid = .ok a

/-- A message holds a value, sealed under a context. -/
structure Holds (py : Python F) (m : Message) (kid : Text) (value context : Value F) : Prop where
  keyId : isKeyId kid = true
  nonce : m.nonce.length = nonceBytes
  raw : ∃ text, py.encode value = some text ∧ utf8 text = some m.raw
  bound : m.raw.length ≤ maxSealedBytes
  authenticated : aad py context kid = .ok m.aad
  ciphertext : m.ciphertext.length = m.raw.length + 16

variable {context : Value F}

theorem one_le_writes {kid : Text} {a : Bytes} (h : aad py context kid = .ok a) : 1 ≤ py.writes := by
  obtain ⟨-, _, -, -, hlevels, -⟩ := aad_eq_ok.1 h
  exact (Nat.le_add_left 1 _).trans hlevels

variable {value : Value F}

/-- What is sealed, and when. -/
theorem sealing_eq_ok {nonce : Nonce} {envelope : Text} :
    V.sealing py cipher nonce value context = .ok (envelope, m) ↔
      ∃ text raw key a, py.encode value = some text ∧ utf8 text = some raw ∧ raw.length ≤ maxSealedBytes ∧
        V.key? V.active = some key ∧ aad py context V.active = .ok a ∧
        m = ⟨key, nonce, raw, a, cipher.encrypt key nonce raw a⟩ ∧
        envelope = envelopeText V.active (b64 m.nonce) (b64 m.ciphertext) := by
  simp only [SecretVault.sealing, bind_eq_ok, need_eq_ok, ensure_eq_ok, exists_unit, pure_eq_ok, Prod.mk.injEq]
  constructor
  · rintro ⟨text, htext, raw, hraw, hlength, key, hkey, a, ha, envelope, henvelope, rfl, rfl⟩
    rw [encode_envelopeDoc (one_le_writes ha)] at henvelope
    exact ⟨text, raw, key, a, htext, hraw, hlength, hkey, ha, rfl, (Option.some.inj henvelope).symm⟩
  · rintro ⟨text, raw, key, a, htext, hraw, hlength, hkey, ha, rfl, rfl⟩
    exact ⟨text, htext, raw, hraw, hlength, key, hkey, a, ha, _, encode_envelopeDoc (one_le_writes ha) _ _ _, rfl, rfl⟩

theorem sealing_of (nonce : Nonce) (hvalue : Bounded py value) (hcontext : Accepts py context) :
    ∃ envelope m, V.sealing py cipher nonce value context = .ok (envelope, m) := by
  obtain ⟨text, raw, htext, hraw, hlength⟩ := hvalue
  obtain ⟨kid, a, hkid, ha⟩ := hcontext
  obtain ⟨key, hkey⟩ := exists_key_active V
  obtain ⟨a', ha'⟩ := aad_of_aad hkid (keyId_of_key? hkey) ha
  exact ⟨_, _, sealing_eq_ok.2 ⟨text, raw, key, a', htext, hraw, hlength, hkey, ha', rfl, rfl⟩⟩

theorem holds_of_sealing {nonce : Nonce} {envelope : Text}
    (h : V.sealing py cipher nonce value context = .ok (envelope, m)) :
    Holds py m V.active value context := by
  obtain ⟨text, raw, key, a, htext, hraw, hlength, hkey, ha, rfl, -⟩ := sealing_eq_ok.1 h
  exact ⟨keyId_of_key? hkey, nonce.2, ⟨text, htext, hraw⟩, hlength, ha, cipher.length_encrypt key nonce raw a⟩

theorem bounded_sorted (h : Bounded py value) : Bounded py value.sorted := by
  obtain ⟨text, raw, htext, hraw⟩ := h
  exact ⟨text, raw, (encode_congr (sorted_sorted value)).trans htext, hraw⟩

end Sealing

/-! ### What a message opens to -/

section Unlocked

variable {py : Python F} {log : List Message} {m : Message} {kid : Text} {value context : Value F}

theorem Holds.loads (h : Holds py m kid value context) (hvalue : value.Distinct) :
    loadsBytes py.codec py.reads py.hooks m.raw = .ok value.sorted := by
  obtain ⟨text, htext, hraw⟩ := h.raw
  exact loadsBytes_encode py.inverts py.deep hvalue htext hraw (py.codec_utf8 text m.raw hraw)

theorem Holds.unlocked (h : Holds py m kid value context) (hvalue : value.Distinct)
    (hnonces : (log.map (·.nonce)).Nodup) (hm : m ∈ log) {V : SecretVault} (hkey : V.key? kid = some m.key)
    {context' : Value F} (hcontext : context'.sorted = context.sorted) :
    V.unlocked py log kid m.nonce m.ciphertext context' = .ok value.sorted := by
  simp only [SecretVault.unlocked, bind_eq_ok, need_eq_ok, ensure_eq_ok, exists_unit]
  refine ⟨m.key, hkey, m.aad, (aad_congr hcontext).2 h.authenticated, m.raw, decrypt_of_mem hnonces hm, h.bound, ?_⟩
  rw [h.loads hvalue]
  rfl

/-- It opens with no other key and under no other context. -/
theorem Holds.of_unlocked (h : Holds py m kid value context) (hdistinct : context.Distinct)
    (hnonces : (log.map (·.nonce)).Nodup) (hm : m ∈ log) {V : SecretVault} {context' v : Value F}
    (hdistinct' : context'.Distinct) (hunlocked : V.unlocked py log kid m.nonce m.ciphertext context' = .ok v) :
    V.key? kid = some m.key ∧ context'.sorted = context.sorted := by
  simp only [SecretVault.unlocked, bind_eq_ok, need_eq_ok, ensure_eq_ok, exists_unit] at hunlocked
  obtain ⟨key, hkey, a, ha, raw, hraw, -⟩ := hunlocked
  obtain ⟨m', hm', rfl, hnonce, -, rfl, rfl⟩ := exists_of_decrypt hraw
  obtain rfl := eq_of_nonce hnonces hm' hm hnonce
  exact ⟨hkey, aad_injective hdistinct' hdistinct ha h.authenticated⟩

end Unlocked

/-! ### Runs -/

/-- A Python value: its dictionaries have each key once. -/
abbrev Doc (F : Type) := { v : Value F // v.Distinct }

/-- A call of a vault, which may hold any ring, with the nonce it draws. -/
inductive Call (F : Type)
  | sealed (V : SecretVault) (nonce : Nonce) (value context : Doc F)
  | rewrapped (V : SecretVault) (nonce : Nonce) (envelope : Text) (context : Doc F)

/-- An envelope that was produced: under which key id and key, for which context, and what it holds. -/
structure Issue (F : Type) where
  envelope : Text
  kid : Text
  key : Bytes
  context : Value F
  value : Value F

/-- What has been encrypted, and what has been produced. -/
structure World (F : Type) where
  log : List Message := []
  issued : List (Issue F) := []

/-- A nonce is drawn anew. -/
def World.IsFresh (w : World F) (nonce : Bytes) : Prop := nonce ∉ w.log.map (·.nonce)

instance (w : World F) (nonce : Bytes) : Decidable (w.IsFresh nonce) := inferInstanceAs (Decidable (nonce ∉ _))

/-- An envelope is produced; a nonce that was drawn before is none of an ideal cipher. -/
def World.issue (w : World F) (V : SecretVault) (value context : Value F) (made : Text × Message) : World F :=
  if w.IsFresh made.2.nonce then
    { log := made.2 :: w.log, issued := ⟨made.1, V.active, made.2.key, context, value⟩ :: w.issued }
  else w

def World.after (py : Python F) (cipher : Aead) (w : World F) : Call F → World F
  | .sealed V nonce value context =>
    match V.seal py cipher nonce value.1 context.1 with
    | .ok made => w.issue V value.1 context.1 made
    | .error _ => w
  | .rewrapped V nonce envelope context =>
    match V.open py w.log envelope context.1, V.rewrap py cipher w.log nonce envelope context.1 with
    | .ok value, .ok made => w.issue V value context.1 made
    | _, _ => w

section Runs

variable {py : Python F} {cipher : Aead} {w : World F}

/-- What was produced is in the log of the cipher. -/
structure Genuine (py : Python F) (log : List Message) (p : Issue F) (m : Message) : Prop where
  mem : m ∈ log
  holds : Holds py m p.kid p.value p.context
  key : m.key = p.key
  envelope : p.envelope = envelopeText p.kid (b64 m.nonce) (b64 m.ciphertext)
  value : p.value.Distinct
  context : p.context.Distinct

structure Sound (py : Python F) (w : World F) : Prop where
  nonces : (w.log.map (·.nonce)).Nodup
  logged : ∀ m ∈ w.log, ∃ kid value context, Holds py m kid value context ∧ value.Distinct
  issued : ∀ p ∈ w.issued, ∃ m, Genuine py w.log p m

variable {V : SecretVault} {nonce : Nonce} {context value : Value F} {made : Text × Message}

theorem seal_eq_ok :
    V.seal py cipher nonce value context = .ok made ↔ V.sealing py cipher nonce value context = .ok made := by
  rw [SecretVault.seal]
  cases V.sealing py cipher nonce value context <;> simp [named, Except.mapError]

variable {log : List Message} {envelope : Text}

theorem open_eq_ok :
    V.open py log envelope context = .ok value ↔ V.opening py log envelope context = .ok value := by
  rw [SecretVault.open]
  cases V.opening py log envelope context <;> simp [hidden, Except.mapError]

theorem ofJson_eq_ok {α : Type} {x : Except Error α} {a : α} : ofJson x = .ok a ↔ x = .ok a := by
  cases x <;> simp [ofJson, Except.mapError]

/-- What opens has been decrypted, with a key of the ring. -/
theorem exists_of_opening (h : V.opening py log envelope context = .ok value) :
    ∃ kid key nonce ciphertext a raw, V.key? kid = some key ∧ aad py context kid = .ok a ∧
      decrypt log key nonce ciphertext a = some raw ∧ loadsBytes py.codec py.reads py.hooks raw = .ok value := by
  simp only [SecretVault.opening, bind_eq_ok] at h
  obtain ⟨-, -, data, -, h⟩ := h
  cases data with
  | null | bool | int | float | str | arr => cases h
  | obj members =>
    simp only [bind_eq_ok] at h
    obtain ⟨-, -, version, -, -, -, field, -, nonce, -, -, -, id, -, h⟩ := h
    cases id with
    | null | bool | int | float | arr | obj => cases h
    | str kid =>
      simp only [bind_eq_ok, need_eq_ok, ofJson_eq_ok] at h
      obtain ⟨key, hkey, field, -, ciphertext, -, a, ha, raw, hraw, -, -, hloads⟩ := h
      exact ⟨kid, key, nonce, ciphertext, a, raw, hkey, ha, hraw, hloads⟩

variable {p : Issue F}

theorem Genuine.opening {m : Message} (h : Genuine py log p m) (V : SecretVault) (context : Value F) :
    V.opening py log p.envelope context = V.unlocked py log p.kid m.nonce m.ciphertext context := by
  have hlength : m.ciphertext.length ≤ maxSealedBytes + 16 := by
    rw [h.holds.ciphertext]
    exact Nat.add_le_add_right h.holds.bound 16
  rw [h.envelope]
  exact opening_envelope (one_le_writes h.holds.authenticated) V log h.holds.keyId ⟨m.nonce, h.holds.nonce⟩ hlength context

/-- An envelope that opens holds what was sealed under the context. -/
theorem Sound.opened (h : Sound py w) (hopening : V.opening py w.log envelope context = .ok value) :
    Bounded py value ∧ value.Distinct ∧ value.sorted = value ∧ Accepts py context := by
  obtain ⟨kid, key, nonce, ciphertext, a, raw, hkey, ha, hraw, hloads⟩ := exists_of_opening hopening
  obtain ⟨m, hm, -, -, -, -, rfl⟩ := exists_of_decrypt hraw
  obtain ⟨_, value', _, hholds, hdistinct⟩ := h.logged m hm
  obtain rfl := Except.ok.inj (hloads.symm.trans (hholds.loads hdistinct))
  obtain ⟨text, htext, hraw⟩ := hholds.raw
  exact ⟨bounded_sorted ⟨text, m.raw, htext, hraw, hholds.bound⟩, distinct_sorted value' hdistinct, sorted_sorted value',
    kid, a, keyId_of_key? hkey, ha⟩

theorem Sound.issue (h : Sound py w) (hsealing : V.sealing py cipher nonce value context = .ok made)
    (hvalue : value.Distinct) (hcontext : context.Distinct) : Sound py (w.issue V value context made) := by
  obtain ⟨envelope, m⟩ := made
  unfold World.issue
  split_ifs with hfresh
  · have hholds := holds_of_sealing hsealing
    refine ⟨List.nodup_cons.2 ⟨hfresh, h.nonces⟩, ?_, ?_⟩
    · intro m' hm'
      obtain rfl | hm' := List.mem_cons.1 hm'
      · exact ⟨_, _, _, hholds, hvalue⟩
      · exact h.logged m' hm'
    · intro p hp
      obtain rfl | hp := List.mem_cons.1 hp
      · obtain ⟨_, _, _, _, -, -, -, -, -, -, henvelope⟩ := sealing_eq_ok.1 hsealing
        exact ⟨m, List.mem_cons_self, hholds, rfl, henvelope, hvalue, hcontext⟩
      · obtain ⟨m', hm'⟩ := h.issued p hp
        exact ⟨m', List.mem_cons_of_mem _ hm'.mem, hm'.holds, hm'.key, hm'.envelope, hm'.value, hm'.context⟩
  · exact h

theorem rewrap_eq_ok :
    V.rewrap py cipher log nonce envelope context = .ok made ↔ ∃ value, V.open py log envelope context = .ok value ∧
      V.seal py cipher nonce value context = .ok made := bind_eq_ok

theorem Sound.after (h : Sound py w) (c : Call F) : Sound py (w.after py cipher c) := by
  cases c with
  | sealed V nonce value context =>
    cases hseal : V.seal py cipher nonce value.1 context.1 with
    | error e => simpa only [World.after, hseal] using h
    | ok made =>
      simp only [World.after, hseal]
      exact h.issue (seal_eq_ok.1 hseal) value.2 context.2
  | rewrapped V nonce envelope context =>
    cases hopen : V.open py w.log envelope context.1 with
    | error e => simpa only [World.after, hopen] using h
    | ok value =>
      cases hrewrap : V.rewrap py cipher w.log nonce envelope context.1 with
      | error e => simpa only [World.after, hopen, hrewrap] using h
      | ok made =>
        simp only [World.after, hopen, hrewrap]
        obtain ⟨value', hopen', hseal⟩ := rewrap_eq_ok.1 hrewrap
        obtain rfl := Except.ok.inj (hopen.symm.trans hopen')
        exact h.issue (seal_eq_ok.1 hseal) (h.opened (open_eq_ok.1 hopen)).2.1 context.2

theorem sound_run (calls : List (Call F)) : Sound py (calls.foldl (World.after py cipher) {}) := by
  have hinit : Sound py ({} : World F) := by
    refine ⟨List.nodup_nil, ?_, ?_⟩
    · intro m hm
      cases hm
    · intro p hp
      cases hp
  exact List.foldlRecOn calls _ hinit fun w h c _ => h.after c

theorem Sound.opens (h : Sound py w) (hp : p ∈ w.issued) (hkey : V.key? p.kid = some p.key)
    (hcontext : context.sorted = p.context.sorted) :
    V.open py w.log p.envelope context = .ok p.value.sorted := by
  obtain ⟨m, hm⟩ := h.issued p hp
  rw [open_eq_ok, hm.opening]
  exact hm.holds.unlocked hm.value h.nonces hm.mem (hkey.trans (congrArg some hm.key.symm)) hcontext

theorem Sound.of_open (h : Sound py w) (hp : p ∈ w.issued) {context : Doc F}
    (hopen : V.open py w.log p.envelope context.1 = .ok value) :
    V.key? p.kid = some p.key ∧ context.1.sorted = p.context.sorted := by
  obtain ⟨m, hm⟩ := h.issued p hp
  rw [open_eq_ok, hm.opening] at hopen
  obtain ⟨hkey, hcontext⟩ := hm.holds.of_unlocked hm.context h.nonces hm.mem context.2 hopen
  exact ⟨hkey.trans (congrArg some hm.key), hcontext⟩

theorem open_refused (h : ∀ value, V.open py log envelope context ≠ .ok value) :
    V.open py log envelope context = .error "Secret authentication failed" := by
  cases hopening : V.opening py log envelope context with
  | ok value => exact absurd (open_eq_ok.2 hopening) (h value)
  | error e =>
    rw [SecretVault.open, hopening]
    rfl

theorem aad_eq_error {kid : Text} {e : Raised} (h : aad py context kid = .error e) :
    e = .other ∨ e = .vault "Bounded encryption context required" := by
  unfold aad at h
  split at h
  · obtain h | ⟨text, -, h⟩ := bind_eq_error.1 h
    · exact .inl (need_eq_error.1 h).2.symm
    · obtain h | ⟨-, -, h⟩ := bind_eq_error.1 h
      · exact .inr (ensure_eq_error.1 h).2.symm
      · obtain h | ⟨whole, -, h⟩ := bind_eq_error.1 h
        · exact .inl (need_eq_error.1 h).2.symm
        · exact .inl (need_eq_error.1 h).2.symm
  · exact .inr (Except.error.inj h).symm

theorem Sound.sizes (h : Sound py w) (hp : p ∈ w.issued) {e : Raised}
    (he : V.opening py w.log p.envelope context = .error e) :
    e = .other ∨ e = .vault "Bounded encryption context required" := by
  obtain ⟨m, hm⟩ := h.issued p hp
  rw [hm.opening, SecretVault.unlocked] at he
  obtain he | ⟨key, -, he⟩ := bind_eq_error.1 he
  · exact .inl (need_eq_error.1 he).2.symm
  obtain he | ⟨a, -, he⟩ := bind_eq_error.1 he
  · exact aad_eq_error he
  obtain he | ⟨raw, hraw, he⟩ := bind_eq_error.1 he
  · exact .inl (need_eq_error.1 he).2.symm
  -- what has been decrypted is in the log, hence small enough, and reads
  obtain ⟨m', hm', -, -, -, -, rfl⟩ := exists_of_decrypt (need_eq_ok.1 hraw)
  obtain ⟨_, value, _, hholds, hdistinct⟩ := h.logged m' hm'
  obtain he | ⟨-, -, he⟩ := bind_eq_error.1 he
  · exact absurd hholds.bound (ensure_eq_error.1 he).1
  · rw [hholds.loads hdistinct] at he
    cases he

theorem Sound.issue_opens (h : Sound py w) {V' : SecretVault} {m : Message}
    (hsealing : V.sealing py cipher nonce value context = .ok (envelope, m)) (hvalue : value.Distinct)
    (hcontext : context.Distinct) (hfresh : w.IsFresh m.nonce) (hkey : V'.key? V.active = V.key? V.active) :
    V'.open py (m :: w.log) envelope context = .ok value.sorted := by
  have hsound := h.issue hsealing hvalue hcontext
  rw [World.issue, if_pos hfresh] at hsound
  obtain ⟨_, _, key, _, -, -, -, hactive, -, rfl, -⟩ := sealing_eq_ok.1 hsealing
  exact hsound.opens List.mem_cons_self (hkey.trans hactive) rfl

/-- What a vault promises in a state: for values and contexts as they are, any rings, and any calls before. -/
structure Lawful (py : Python F) (cipher : Aead) (w : World F) : Prop where
  /-- A value within the bound is sealed under a context that is taken, and opens with any ring that has the key. -/
  seals : ∀ (V : SecretVault) (nonce : Nonce) (value context : Doc F), Bounded py value.1 → Accepts py context.1 →
    ∃ envelope m, V.seal py cipher nonce value.1 context.1 = .ok (envelope, m) ∧ (w.IsFresh m.nonce →
      ∀ V' : SecretVault, V'.key? V.active = V.key? V.active →
        V'.open py (m :: w.log) envelope context.1 = .ok value.1.sorted)
  /-- What opens is wrapped anew, and opens as the same value with any ring that has the new key. -/
  rewraps : ∀ (V : SecretVault) (nonce : Nonce) (envelope : Text) (context : Doc F) (value : Value F),
    V.open py w.log envelope context.1 = .ok value →
    ∃ envelope' m, V.rewrap py cipher w.log nonce envelope context.1 = .ok (envelope', m) ∧ (w.IsFresh m.nonce →
      ∀ V' : SecretVault, V'.key? V.active = V.key? V.active →
        V'.open py (m :: w.log) envelope' context.1 = .ok value)
  /-- What was produced at any time opens with any ring that has the key. -/
  opens : ∀ p ∈ w.issued, ∀ (V : SecretVault) (context : Value F), V.key? p.kid = some p.key →
    context.sorted = p.context.sorted → V.open py w.log p.envelope context = .ok p.value.sorted
  contexts : ∀ p ∈ w.issued, ∀ (V : SecretVault) (context : Doc F), context.1.sorted ≠ p.context.sorted →
    V.open py w.log p.envelope context.1 = .error "Secret authentication failed"
  keys : ∀ p ∈ w.issued, ∀ (V : SecretVault) (context : Doc F), V.key? p.kid ≠ some p.key →
    V.open py w.log p.envelope context.1 = .error "Secret authentication failed"
  /-- No size is too large, whatever ring and context it is opened with. -/
  sizes : ∀ p ∈ w.issued, ∀ (V : SecretVault) (context : Value F),
    V.opening py w.log p.envelope context ≠ .error .size ∧
      V.opening py w.log p.envelope context ≠ .error (.vault "Invalid encrypted envelope")

/-- For every run of calls of vaults with any rings: envelopes round-trip and are bound to their context. -/
theorem lawful_run (py : Python F) (cipher : Aead) (calls : List (Call F)) :
    Lawful py cipher (calls.foldl (World.after py cipher) {}) := by
  have hsound : Sound py (calls.foldl (World.after py cipher) {}) := sound_run calls
  refine ⟨?_, ?_, ?_, ?_, ?_, ?_⟩
  · intro V nonce value context hvalue hcontext
    obtain ⟨envelope, m, hsealing⟩ := sealing_of nonce hvalue hcontext
    exact ⟨envelope, m, seal_eq_ok.2 hsealing, fun hfresh V' hkey =>
      hsound.issue_opens hsealing value.2 context.2 hfresh hkey⟩
  · intro V nonce envelope context value hopen
    obtain ⟨hvalue, hdistinct, hsorted, hcontext⟩ := hsound.opened (open_eq_ok.1 hopen)
    obtain ⟨envelope', m, hsealing⟩ := sealing_of nonce hvalue hcontext
    refine ⟨envelope', m, rewrap_eq_ok.2 ⟨value, hopen, seal_eq_ok.2 hsealing⟩, fun hfresh V' hkey => ?_⟩
    rw [hsound.issue_opens hsealing hdistinct context.2 hfresh hkey, hsorted]
  · intro p hp V context hkey hcontext
    exact hsound.opens hp hkey hcontext
  · intro p hp V context hcontext
    exact open_refused fun value hopen => hcontext (hsound.of_open hp hopen).2
  · intro p hp V context hkey
    exact open_refused fun value hopen => hkey (hsound.of_open hp hopen).1
  · intro p hp V context
    constructor
    · intro he
      obtain h | h := hsound.sizes hp he <;> cases h
    · intro he
      obtain h | h := hsound.sizes hp he
      · cases h
      · exact absurd (Raised.vault.inj h) (by decide)

end Runs

end AgentPlatform.Vault
