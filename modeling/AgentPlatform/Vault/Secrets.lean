import AgentPlatform.Lib.Base64
import AgentPlatform.Lib.PyEncode

/-!
# The vault of secrets

`SecretVault`: envelopes under AES-256-GCM, bound to a context the caller supplies. The cipher is ideal: what it has
encrypted is in a log, and `decrypt` gives the text of a message exactly under the key, the nonce, the associated data
and the ciphertext of it.
-/

namespace AgentPlatform.Vault

open Outcome PyJson

abbrev Bytes := List UInt8

def minKeyRing : ℕ := 1
def maxKeyRing : ℕ := 8
def keyBytes : ℕ := 32
def maxContextBytes : ℕ := 4096
def maxSealedBytes : ℕ := 64000
def maxEnvelopeChars : ℕ := 90000
def maxEncodedField : ℕ := 150000
def nonceBytes : ℕ := 12
def envelopeVersion : ℤ := 1
def aadFormat : ℤ := 1

def envelopeFields : List Text := ["v", "kid", "nonce", "ciphertext"].map ofString

/-! ### The interpreter -/

variable {F : Type}

/-- The floats of the interpreter, how deep it writes and reads JSON, and how it decodes bytes. -/
structure Python (F : Type) where
  writes : ℕ
  reads : ℕ
  repr : F → Option Text
  parseFloat : Literal → F
  parseConstant : String → F
  codec : Encoding → Bytes → Option Text
  /-- What is written is not too deep to be read. -/
  deep : writes ≤ reads
  /-- `repr` writes a float as a number with a fraction or an exponent, which `float` reads as it. -/
  float : ∀ x text, repr x = some text → ∃ l : Literal, l.isFloat = true ∧ parseFloat l = x ∧
    ∀ rest, Stops rest → scanLiteral (text ++ rest) = some (l, rest)
  codec_utf8 : ∀ text raw, utf8 text = some raw → codec .utf8 raw = some text

/-- `_unique`. -/
def unique (keys : List Text) : Except String Unit := ensure keys.Nodup "Duplicate envelope field"

def Python.hooks (py : Python F) : Hooks F := ⟨py.parseFloat, fun word => .ok (py.parseConstant word), unique⟩

/-- `encode` of the engine. -/
def Python.encode (py : Python F) (value : Value F) : Option Text := PyJson.encode py.writes py.repr value

/-! ### The cipher -/

/-- `AESGCM`. -/
structure Aead where
  /-- Of a key, a nonce, a text and the associated data. -/
  encrypt : Bytes → Bytes → Bytes → Bytes → Bytes
  length_encrypt : ∀ key nonce raw aad, (encrypt key nonce raw aad).length = raw.length + 16

/-- A text that has been encrypted. -/
structure Message where
  key : Bytes
  nonce : Bytes
  raw : Bytes
  aad : Bytes
  ciphertext : Bytes

/-- `AESGCM(key).decrypt(nonce, ciphertext, aad)`: nothing else than what has been encrypted is authentic. -/
def decrypt (log : List Message) (key nonce ciphertext aad : Bytes) : Option Bytes :=
  (log.find? fun m => decide (m.key = key ∧ m.nonce = nonce ∧ m.ciphertext = ciphertext ∧ m.aad = aad)).map (·.raw)

/-- What `os.urandom(NONCE_BYTES)` gives. -/
abbrev Nonce := { b : Bytes // b.length = nonceBytes }

/-! ### The vault -/

/-- What the vault raises. -/
inductive Raised
  /-- `VaultError` -/
  | vault (message : String)
  /-- The `ValueError` of a size that is too large. -/
  | size
  /-- Any other exception. -/
  | other

/-- What leaves a method: a `VaultError` as it is, or one in place of what was raised. -/
def named {α : Type} (message : String) (x : Except Raised α) : Except String α :=
  x.mapError fun
    | .vault raised => raised
    | _ => message

/-- One message in place of everything that was raised. -/
def hidden {α : Type} (message : String) (x : Except Raised α) : Except String α := x.mapError fun _ => message

/-- What `json.loads` raises; the error of the hook is the vault's own. -/
def ofJson {α : Type} (x : Except Error α) : Except Raised α :=
  x.mapError fun
    | .hook message => .vault message
    | _ => .other

/-- `_b64`. -/
def b64 (raw : Bytes) : Text := (Base64.encode raw).map .char

/-- The characters of a text of ASCII; another character is no part of base 64. -/
def chars (text : Text) : Option (List Char) := text.mapM fun
  | .char c => some c
  | .surrogate _ => none

/-- `_unb64`. -/
def unb64 : Value F → Except Raised Bytes
  | .str text => do
    ensure (text.length ≤ maxEncodedField) (.vault "Invalid encrypted envelope")
    need (do let text ← chars text; Base64.decode text) .other
  | _ => .error (.vault "Invalid encrypted envelope")

/-- `KEY_ID`. -/
def isKeyId (id : Text) : Bool :=
  decide (1 ≤ id.length) && decide (id.length ≤ 64) && id.all fun
    | .char c => c.isAlphanum || c == '_' || c == '-'
    | .surrogate _ => false

/-- A vault holds an accepted key ring. -/
structure SecretVault where
  keys : List (Text × Bytes)
  active : Text
  ids : (keys.map Prod.fst).Nodup
  ring : minKeyRing ≤ keys.length ∧ keys.length ≤ maxKeyRing ∧ active ∈ keys.map Prod.fst
  valid : ∀ k ∈ keys, isKeyId k.1 = true ∧ k.2.length = keyBytes
  distinct : (keys.map Prod.snd).Nodup

/-- `SecretVault.__init__`, of a dictionary. -/
def SecretVault.new (keys : List (Text × Bytes)) (ids : (keys.map Prod.fst).Nodup) (active : Text) :
    Except String SecretVault :=
  if ring : minKeyRing ≤ keys.length ∧ keys.length ≤ maxKeyRing ∧ active ∈ keys.map Prod.fst then
    if valid : ∀ k ∈ keys, isKeyId k.1 = true ∧ k.2.length = keyBytes then
      if distinct : (keys.map Prod.snd).Nodup then .ok ⟨keys, active, ids, ring, valid, distinct⟩
      else .error "Duplicate encryption keys denied"
    else .error "AES-256 key ring invalid"
  else .error "Configured encryption key ring required"

/-- `self._keys[kid]`. -/
def SecretVault.key? (V : SecretVault) (kid : Text) : Option Bytes := V.keys.lookup kid

/-- What the associated data is the text of. -/
def aadDoc (context : Value F) (kid : Text) : Value F :=
  .obj [(ofString "format", .int aadFormat), (ofString "kid", .str kid), (ofString "context", context)]

/-- `_aad`. -/
def aad (py : Python F) (context : Value F) (kid : Text) : Except Raised Bytes :=
  match context with
  | .obj (_ :: _) => do
    let text ← need (py.encode context) .other
    ensure (text.length ≤ maxContextBytes) (.vault "Bounded encryption context required")
    let whole ← need (py.encode (aadDoc context kid)) .other
    need (utf8 whole) .other
  | _ => .error (.vault "Bounded encryption context required")

/-- What an envelope is the text of. -/
def envelopeDoc (kid nonce ciphertext : Text) : Value F :=
  .obj [(ofString "v", .int envelopeVersion), (ofString "kid", .str kid), (ofString "nonce", .str nonce),
    (ofString "ciphertext", .str ciphertext)]

/-- The body of `seal`: the envelope, and the message the cipher has encrypted. -/
def SecretVault.sealing (py : Python F) (cipher : Aead) (V : SecretVault) (nonce : Nonce) (value context : Value F) :
    Except Raised (Text × Message) := do
  let text ← need (py.encode value) .other
  let raw ← need (utf8 text) .other
  ensure (raw.length ≤ maxSealedBytes) .size
  let key ← need (V.key? V.active) .other
  let aad ← aad py context V.active
  let ciphertext := cipher.encrypt key nonce raw aad
  let envelope ← need (py.encode (envelopeDoc V.active (b64 nonce) (b64 ciphertext))) .other
  pure (envelope, ⟨key, nonce, raw, aad, ciphertext⟩)

/-- `seal`. -/
def SecretVault.seal (py : Python F) (cipher : Aead) (V : SecretVault) (nonce : Nonce) (value context : Value F) :
    Except String (Text × Message) := named "Secret encryption failed" (V.sealing py cipher nonce value context)

/-- `data[field]` of a dictionary. -/
def field (members : List (Text × Value F)) (name : String) : Except Raised (Value F) :=
  need (members.lookup (ofString name)) .other

/-- `data['v']` is an `int` that is the version. -/
def isVersion : Value F → Bool
  | .int n => decide (n = envelopeVersion)
  | _ => false

/-- The body of `open`. -/
def SecretVault.opening (py : Python F) (V : SecretVault) (log : List Message) (envelope : Text) (context : Value F) :
    Except Raised (Value F) := do
  ensure (envelope.length ≤ maxEnvelopeChars) .size
  let data ← ofJson (loads py.reads py.hooks envelope)
  match data with
  | .obj members => do
    let keys := members.map Prod.fst
    ensure ((∀ key ∈ keys, key ∈ envelopeFields) ∧ ∀ key ∈ envelopeFields, key ∈ keys) .other
    let version ← field members "v"
    ensure (isVersion version = true) .other
    let nonce ← unb64 (← field members "nonce")
    ensure (nonce.length = nonceBytes) .other
    match ← field members "kid" with
    | .str kid => do
      let key ← need (V.key? kid) .other
      let ciphertext ← unb64 (← field members "ciphertext")
      let aad ← aad py context kid
      let raw ← need (decrypt log key nonce ciphertext aad) .other
      ensure (raw.length ≤ maxSealedBytes) .size
      ofJson (loadsBytes py.codec py.reads py.hooks raw)
    | _ => .error .other
  | _ => .error .other

/-- `open`. -/
def SecretVault.open (py : Python F) (V : SecretVault) (log : List Message) (envelope : Text) (context : Value F) :
    Except String (Value F) := hidden "Secret authentication failed" (V.opening py log envelope context)

/-- `rewrap`. -/
def SecretVault.rewrap (py : Python F) (cipher : Aead) (V : SecretVault) (log : List Message) (nonce : Nonce)
    (envelope : Text) (context : Value F) : Except String (Text × Message) := do
  let value ← V.open py log envelope context
  V.seal py cipher nonce value context

end AgentPlatform.Vault
