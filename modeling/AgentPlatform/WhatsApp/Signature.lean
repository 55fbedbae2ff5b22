import AgentPlatform.Base

/-!
# The signature of a webhook

`verify_signature` of `whatsapp_inbound.py`. Python's texts are lists of code points here, surrogates among
them: the header is what a stranger wrote, and the secret may come from an environment that is not UTF-8.

A header of the right length is compared with `hmac.compare_digest`, which raises on a text that is not ASCII.
`verifySignature_iff`: the check answers exactly where the lowered digest is ASCII and the secret can be
encoded; where it says yes, the digest is that of the body.
-/

namespace AgentPlatform.WhatsApp

open Outcome

/-- A code point of a Python text. -/
abbrev CodePoint := Fin 0x110000

abbrev Text := List CodePoint

/-- A text without surrogates. -/
def textOf (s : String) : Text := s.toList.map fun c => Fin.ofNat 0x110000 c.toNat

/-- Python's `str.lower`, and HMAC-SHA256 under a key. -/
structure Crypto where
  lower : Text → Text
  hmacSha256 : List UInt8 → List UInt8 → List UInt8

def maxBodyBytes : ℕ := 1000000
def signaturePrefix : Text := textOf "sha256="

/-- `text.encode('utf-8')`: none where a code point is a surrogate. -/
def encodeUtf8 (text : Text) : Option (List UInt8) :=
  (text.mapM fun (c : CodePoint) => if c.val.isValidChar then some (String.utf8EncodeChar (Char.ofNat c.val)) else none).map
    List.flatten

/-- A hexadecimal digit. -/
def hexDigit (n : ℕ) : CodePoint := Fin.ofNat 0x110000 (if n < 10 then 48 + n else 87 + n)

/-- `hexdigest`. -/
def hexdigest (bytes : List UInt8) : Text :=
  bytes.flatMap fun b => [hexDigit (b.toNat / 16), hexDigit (b.toNat % 16)]

def isAscii (text : Text) : Bool := text.all fun c => c.val < 128

variable (crypto : Crypto)

/-- `hmac.compare_digest` of two texts. -/
def compareDigest (a b : Text) : Except Err Bool := do
  ensure (isAscii a = true ∧ isAscii b = true)
    (.typeError "comparing strings with non-ASCII characters is not supported")
  pure (a == b)

/-- The header names the algorithm, in any case. -/
def isPrefixed (signature : Text) : Bool :=
  signaturePrefix.isPrefixOf signature || signaturePrefix.isPrefixOf (crypto.lower signature)

/-- The header and the secret are compared at all. -/
def isCompared (signature secret : Text) : Bool :=
  signature ≠ [] ∧ secret ≠ [] ∧ isPrefixed crypto signature = true ∧
    (signature.drop signaturePrefix.length).length = 64

/-- `verify_signature`. -/
def verifySignature (body : List UInt8) (signature secret : Option Text) : Except Err Bool := do
  ensure (body.length ≤ maxBodyBytes)
    (.other "WebhookError" ("the webhook body exceeds " ++ toString maxBodyBytes ++ " bytes"))
  if isCompared crypto (signature.getD []) (secret.getD []) then do
    let key ← need (encodeUtf8 (secret.getD []))
      (.other "UnicodeEncodeError" "'utf-8' codec can't encode: surrogates not allowed")
    compareDigest (hexdigest (crypto.hmacSha256 key body))
      (crypto.lower ((signature.getD []).drop signaturePrefix.length))
  else pure false

/-! ### Where it answers -/

variable {crypto : Crypto} {body : List UInt8} {signature secret : Option Text}

/-- The check answers, and says yes only to the digest of the body under the secret. -/
structure Verified (crypto : Crypto) (body : List UInt8) (signature secret : Option Text) : Prop where
  answers : body.length ≤ maxBodyBytes → ∃ b, verifySignature crypto body signature secret = .ok b
  genuine : verifySignature crypto body signature secret = .ok true →
    ∃ head digest secret' key, signature = some (head ++ digest) ∧ head.length = signaturePrefix.length ∧
      secret = some secret' ∧ secret' ≠ [] ∧ encodeUtf8 secret' = some key ∧
      crypto.lower digest = hexdigest (crypto.hmacSha256 key body)

/-- What is compared can be: the secret has no surrogate, and the lowered digest is ASCII. -/
def Comparable (crypto : Crypto) (body : List UInt8) (signature secret : Option Text) : Prop :=
  body.length ≤ maxBodyBytes → isCompared crypto (signature.getD []) (secret.getD []) = true →
    encodeUtf8 (secret.getD []) ≠ none ∧
      isAscii (crypto.lower ((signature.getD []).drop signaturePrefix.length)) = true

theorem hexDigit_ascii {n : ℕ} (h : n < 16) : (hexDigit n).val < 128 := by
  unfold hexDigit
  split_ifs with hn
  · change (48 + n) % 0x110000 < 128
    omega
  · change (87 + n) % 0x110000 < 128
    omega

theorem hexdigest_ascii (bytes : List UInt8) : isAscii (hexdigest bytes) = true := by
  rw [isAscii, List.all_eq_true]
  intro c hc
  obtain ⟨b, -, hc⟩ := List.mem_flatMap.1 hc
  have hb : b.toNat < 256 := b.toNat_lt
  rw [decide_eq_true_eq]
  rcases List.mem_cons.1 hc with rfl | hc
  · exact hexDigit_ascii (by omega)
  · obtain rfl := List.mem_singleton.1 hc
    exact hexDigit_ascii (by omega)

theorem compareDigest_hex {bytes : List UInt8} {b : Text} {answer : Bool} :
    compareDigest (hexdigest bytes) b = .ok answer ↔ isAscii b = true ∧ (hexdigest bytes == b) = answer := by
  rw [compareDigest, bind_eq_ok, exists_unit, ensure_eq_ok, pure_eq_ok]
  simp [hexdigest_ascii]

/-- Where the check says yes, the digest is that of the body under the secret. -/
theorem verifySignature_exact (h : verifySignature crypto body signature secret = .ok true) :
    ∃ head digest secret' key, signature = some (head ++ digest) ∧ head.length = signaturePrefix.length ∧
      secret = some secret' ∧ secret' ≠ [] ∧ encodeUtf8 secret' = some key ∧
      crypto.lower digest = hexdigest (crypto.hmacSha256 key body) := by
  obtain ⟨_, -, h⟩ := bind_eq_ok.1 h
  split_ifs at h with hcompared
  · obtain ⟨hsignature, hsecret, -, hlength⟩ := of_decide_eq_true hcompared
    obtain ⟨key, hkey, h⟩ := bind_eq_ok.1 h
    obtain ⟨-, hsame⟩ := compareDigest_hex.1 h
    cases signature with
    | none => exact absurd rfl hsignature
    | some s =>
      cases secret with
      | none => exact absurd rfl hsecret
      | some secret' =>
        rw [Option.getD_some] at hlength hsame hkey hsecret
        refine ⟨s.take signaturePrefix.length, s.drop signaturePrefix.length, secret', key, ?_, ?_, rfl, hsecret,
          need_eq_ok.1 hkey, (beq_iff_eq.1 hsame).symm⟩
        · rw [List.take_append_drop]
        · rw [List.length_drop] at hlength
          rw [List.length_take]
          omega
  · cases h

/-- The check answers exactly where what is compared can be. -/
theorem verifySignature_answers (hbody : body.length ≤ maxBodyBytes) :
    (∃ b, verifySignature crypto body signature secret = .ok b) ↔
      (isCompared crypto (signature.getD []) (secret.getD []) = true →
        encodeUtf8 (secret.getD []) ≠ none ∧
          isAscii (crypto.lower ((signature.getD []).drop signaturePrefix.length)) = true) := by
  constructor
  · rintro ⟨b, h⟩ hcompared
    obtain ⟨_, -, h⟩ := bind_eq_ok.1 h
    rw [if_pos hcompared] at h
    obtain ⟨key, hkey, h⟩ := bind_eq_ok.1 h
    refine ⟨?_, (compareDigest_hex.1 h).1⟩
    rw [need_eq_ok.1 hkey]
    exact Option.some_ne_none key
  · intro h
    by_cases hcompared : isCompared crypto (signature.getD []) (secret.getD []) = true
    · obtain ⟨hencode, hascii⟩ := h hcompared
      obtain ⟨key, hkey⟩ := Option.ne_none_iff_exists'.1 hencode
      refine ⟨hexdigest (crypto.hmacSha256 key body) ==
        crypto.lower ((signature.getD []).drop signaturePrefix.length),
        bind_eq_ok.2 ⟨(), ensure_eq_ok.2 hbody, ?_⟩⟩
      rw [if_pos hcompared]
      exact bind_eq_ok.2 ⟨key, need_eq_ok.2 hkey, compareDigest_hex.2 ⟨hascii, rfl⟩⟩
    · refine ⟨false, bind_eq_ok.2 ⟨(), ensure_eq_ok.2 hbody, ?_⟩⟩
      rw [if_neg hcompared]
      rfl

/-- The check meets its promise exactly where what is compared can be. -/
theorem verifySignature_iff (crypto : Crypto) (body : List UInt8) (signature secret : Option Text) :
    Verified crypto body signature secret ↔ Comparable crypto body signature secret := by
  constructor
  · intro h hbody
    exact (verifySignature_answers hbody).1 (h.answers hbody)
  · intro h
    constructor
    · intro hbody
      exact (verifySignature_answers hbody).2 (h hbody)
    · exact verifySignature_exact

/-! ### A header that is not ASCII -/

/-- `str.lower`, on ASCII and on letters that have no capital. -/
def lowerAscii (text : Text) : Text :=
  text.map fun c => if 65 ≤ c.val ∧ c.val ≤ 90 then Fin.ofNat 0x110000 (c.val + 32) else c

/-- The header `sha256=éé…é`, with sixty-four letters. -/
def accented : Text := textOf "sha256=" ++ List.replicate 64 (Fin.ofNat 0x110000 0xe9)

/-- Whatever HMAC computes, a header of accented letters makes the check raise. -/
theorem accented_not_answered : ¬ ∃ hmac : List UInt8 → List UInt8 → List UInt8,
    ∀ (body : List UInt8) (signature secret : Option Text),
      Verified ⟨lowerAscii, hmac⟩ body signature secret := by
  rintro ⟨hmac, hall⟩
  have hcompare := (verifySignature_answers (Nat.zero_le _)).1
    ((hall [] (some accented) (some (textOf "secret"))).answers (Nat.zero_le _))
  have hcompared : isCompared ⟨lowerAscii, hmac⟩ accented (textOf "secret") = true := by
    have hshape : accented ≠ [] ∧ textOf "secret" ≠ [] ∧
        signaturePrefix.isPrefixOf accented = true ∧ (accented.drop signaturePrefix.length).length = 64 := by
      decide +kernel
    simp [isCompared, isPrefixed, hshape]
  have hnot : isAscii (lowerAscii (accented.drop signaturePrefix.length)) = false := by decide +kernel
  exact absurd (hcompare hcompared).2 (by rw [Option.getD_some, hnot]; exact Bool.false_ne_true)

end AgentPlatform.WhatsApp
