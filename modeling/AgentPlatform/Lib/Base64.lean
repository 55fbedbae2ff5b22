import Mathlib.Data.List.Basic

/-!
# Base 64

`encode` writes three bytes as four characters and fills up the last group with `=`; `decode` is the strict reader, which
takes nothing but such groups. Reading inverts writing (`decode_encode`), and four characters hold three bytes
(`length_encode`).
-/

namespace Base64

/-- The character of six bits. -/
def digit (n : ℕ) : Char :=
  "ABCDEFGHIJKLMNOPQRSTUVWXYZabcdefghijklmnopqrstuvwxyz0123456789+/".toList.getD n '='

/-- The six bits of a character. -/
def value (c : Char) : Option ℕ :=
  if 'A' ≤ c ∧ c ≤ 'Z' then some (c.toNat - 'A'.toNat)
  else if 'a' ≤ c ∧ c ≤ 'z' then some (c.toNat - 'a'.toNat + 26)
  else if '0' ≤ c ∧ c ≤ '9' then some (c.toNat - '0'.toNat + 52)
  else if c = '+' then some 62
  else if c = '/' then some 63
  else none

/-- The number of three bytes. -/
def group (a b c : UInt8) : ℕ := a.toNat * 65536 + b.toNat * 256 + c.toNat

def encode : List UInt8 → List Char
  | a :: b :: c :: rest =>
    let n := group a b c
    digit (n / 262144) :: digit (n / 4096 % 64) :: digit (n / 64 % 64) :: digit (n % 64) :: encode rest
  | [a, b] =>
    let n := group a b 0
    [digit (n / 262144), digit (n / 4096 % 64), digit (n / 64 % 64), '=']
  | [a] =>
    let n := group a 0 0
    [digit (n / 262144), digit (n / 4096 % 64), '=', '=']
  | [] => []

/-- The three bytes of four times six bits. -/
def bytes (a b c d : ℕ) : UInt8 × UInt8 × UInt8 :=
  let n := a * 262144 + b * 4096 + c * 64 + d
  (UInt8.ofNat (n / 65536), UInt8.ofNat (n / 256 % 256), UInt8.ofNat (n % 256))

/-- Nothing follows a group that is filled up; bits that no byte takes are left out. -/
def decode : List Char → Option (List UInt8)
  | [] => some []
  | [a, b, '=', '='] => do
    let a ← value a
    let b ← value b
    pure [(bytes a b 0 0).1]
  | [a, b, c, '='] => do
    let a ← value a
    let b ← value b
    let c ← value c
    pure [(bytes a b c 0).1, (bytes a b c 0).2.1]
  | a :: b :: c :: d :: rest => do
    let a ← value a
    let b ← value b
    let c ← value c
    let d ← value d
    let later ← decode rest
    pure ((bytes a b c d).1 :: (bytes a b c d).2.1 :: (bytes a b c d).2.2 :: later)
  | _ => none

/-- Only plain characters are written. -/
def Plain (c : Char) : Prop := c.isAlphanum = true ∨ c = '+' ∨ c = '/' ∨ c = '='

instance (c : Char) : Decidable (Plain c) := inferInstanceAs (Decidable (_ ∨ _))

theorem digit_table : ∀ n < 64, value (digit n) = some n ∧ digit n ≠ '=' ∧ Plain (digit n) := by
  decide +kernel

theorem value_digit (n : ℕ) (h : n < 64) : value (digit n) = some n := (digit_table n h).1

theorem digit_ne_pad (n : ℕ) (h : n < 64) : digit n ≠ '=' := (digit_table n h).2.1

theorem plain_digit (n : ℕ) (h : n < 64) : Plain (digit n) := (digit_table n h).2.2

theorem group_lt (a b c : UInt8) : group a b c / 262144 < 64 := by
  have ha := a.toNat_lt
  have hb := b.toNat_lt
  have hc := c.toNat_lt
  unfold group
  omega

theorem bytes_group (a b c : UInt8) :
    bytes (group a b c / 262144) (group a b c / 4096 % 64) (group a b c / 64 % 64) (group a b c % 64) = (a, b, c) := by
  have ha := a.toNat_lt
  have hb := b.toNat_lt
  have hc := c.toNat_lt
  have hsum : group a b c / 262144 * 262144 + group a b c / 4096 % 64 * 4096 + group a b c / 64 % 64 * 64 +
      group a b c % 64 = group a b c := by omega
  have h1 : group a b c / 65536 = a.toNat := by unfold group; omega
  have h2 : group a b c / 256 % 256 = b.toNat := by unfold group; omega
  have h3 : group a b c % 256 = c.toNat := by unfold group; omega
  simp only [bytes, hsum, h1, h2, h3, UInt8.ofNat_toNat]

theorem decode_encode (raw : List UInt8) : decode (encode raw) = some raw := by
  have hmod : ∀ n : ℕ, n % 64 < 64 := fun n => Nat.mod_lt n (by decide)
  induction raw using encode.induct with
  | case1 a b c rest ih =>
    have hbytes := bytes_group a b c
    have hfirst := value_digit _ (group_lt a b c)
    have hlast := digit_ne_pad _ (hmod (group a b c))
    rw [encode, decode]
    · simp only [hfirst, value_digit _ (hmod _), ih, Option.bind_eq_bind, Option.bind_some, hbytes]
      rfl
    · intro _ h
      exact absurd h hlast
    · intro h
      exact absurd h hlast
  | case2 a b =>
    have hbytes := bytes_group a b 0
    have hzero : group a b 0 % 64 = 0 := by
      have h : UInt8.toNat 0 = 0 := rfl
      rw [group, h]
      omega
    rw [hzero] at hbytes
    rw [encode, decode]
    · simp only [value_digit _ (group_lt a b 0), value_digit _ (hmod _), Option.bind_eq_bind, Option.bind_some, hbytes]
      rfl
    · exact digit_ne_pad _ (hmod _)
  | case3 a =>
    have hbytes := bytes_group a 0 0
    have h : UInt8.toNat 0 = 0 := rfl
    have hzero : group a 0 0 % 64 = 0 := by
      rw [group, h]
      omega
    have hzero' : group a 0 0 / 64 % 64 = 0 := by
      rw [group, h]
      omega
    rw [hzero, hzero'] at hbytes
    rw [encode, decode]
    simp only [value_digit _ (group_lt a 0 0), value_digit _ (hmod _), Option.bind_eq_bind, Option.bind_some, hbytes]
    rfl
  | case4 => rfl

theorem length_encode (raw : List UInt8) : (encode raw).length = (raw.length + 2) / 3 * 4 := by
  induction raw using encode.induct with
  | case1 a b c rest ih =>
    rw [encode]
    simp only [List.length_cons, ih]
    omega
  | case2 a b => simp [encode]
  | case3 a => simp [encode]
  | case4 => rfl

theorem plain_encode (raw : List UInt8) : ∀ c ∈ encode raw, Plain c := by
  have hmod : ∀ n : ℕ, Plain (digit (n % 64)) := fun n => plain_digit _ (Nat.mod_lt n (by decide))
  have hpad : Plain '=' := by decide
  induction raw using encode.induct with
  | case1 a b c rest ih =>
    rw [encode]
    have hfirst := plain_digit _ (group_lt a b c)
    simp only [List.forall_mem_cons]
    exact ⟨hfirst, hmod _, hmod _, hmod _, ih⟩
  | case2 a b =>
    rw [encode]
    have hfirst := plain_digit _ (group_lt a b 0)
    simp only [List.forall_mem_cons]
    exact ⟨hfirst, hmod _, hmod _, hpad, List.forall_mem_nil _⟩
  | case3 a =>
    rw [encode]
    have hfirst := plain_digit _ (group_lt a 0 0)
    simp only [List.forall_mem_cons]
    exact ⟨hfirst, hmod _, hpad, hpad, List.forall_mem_nil _⟩
  | case4 => exact List.forall_mem_nil _

end Base64
