import AgentPlatform.Texts

/-!
# The address a client is limited under

`client_ip.py`. Where the peer is a trusted proxy, the forwarded header is walked from its right end to the
first hop that is no trusted proxy. The header is cut to its last 4096 characters and its last 32 hops.

`clientAddress_suffix`: two headers that end alike, in a part that has an untrusted hop and is within the
bound, give the same key. The cut falls into what stands before that part, or takes all of it away; and where
the part has more than 32 hops, its last 32 are those of both.
-/

namespace AgentPlatform.App

open Outcome

/-- Python's `ipaddress`: addresses and networks of both families. -/
structure IpLibrary (Address Network : Type) where
  ipAddress : String → Option Address
  ipNetwork : String → Option Network
  /-- `address.ipv4_mapped`, of an address of version 6. -/
  ipv4Mapped : Address → Option Address
  contains : Network → Address → Bool
  text : Address → String
  repr : String → String

def maxKeyChars : ℕ := 64
def maxForwardedHops : ℕ := 32
def maxForwardedChars : ℕ := 4096

/-- `items[-n:]`. -/
def lastOf {α : Type} (n : ℕ) (items : List α) : List α := items.drop (items.length - n)

variable {Address Network : Type} (ip : IpLibrary Address Network)

/-- `parse_trusted_proxies`. -/
def parseTrustedProxies (raw : String) : Except Err (List Network) :=
  (((raw.toList.splitOn ',').map fun part => strip (String.ofList part)).filter (· ≠ "")).mapM fun entry =>
    need (ip.ipNetwork entry) (.other "ProxyConfigError"
      ("TRUSTED_PROXIES has an invalid entry: " ++ ip.repr (String.ofList (entry.toList.take maxKeyChars))))

/-- The text of an address in a hop, without brackets and port. -/
def bareAddress (value : List Char) : List Char :=
  match value with
  | '[' :: rest => if ']' ∈ rest then rest.takeWhile (· ≠ ']') else value
  | _ => if value.count ':' = 1 then value.takeWhile (· ≠ ':') else value

/-- `_address`. -/
def address (text : String) : Option Address :=
  (ip.ipAddress (String.ofList (bareAddress (strip text).toList))).map fun a => (ip.ipv4Mapped a).getD a

/-- `_key`. -/
def key (text : String) (address : Option Address) : String :=
  match address with
  | some a => ip.text a
  | none =>
    let bounded := String.ofList ((strip text).toList.take maxKeyChars)
    if bounded = "" then "unknown" else bounded

/-- `_trusted`. -/
def trusted (networks : List Network) (address : Option Address) : Bool :=
  address.any fun a => networks.any fun n => ip.contains n a

/-- The hops of a text. -/
def hops (text : List Char) : List String :=
  ((text.splitOn ',').map fun hop => strip (String.ofList hop)).filter (· ≠ "")

/-- The walk over the hops from the right. -/
def walk (networks : List Network) (peer : String) (chain : List String) : String :=
  match chain.reverse.find? fun hop => !trusted ip networks (address ip hop) with
  | some hop => key ip hop (address ip hop)
  | none =>
    match chain with
    | first :: _ => key ip first (address ip first)
    | [] => key ip peer (address ip peer)

/-- The values of the header in one text. -/
def joined (forwardedFor : List String) : List Char := (",".intercalate forwardedFor).toList

/-- `client_address`, with `TRUSTED_PROXIES` where no networks are given. -/
def clientAddress (environ : String) (peer : Option String) (forwardedFor : List String)
    (networks : Option (List Network)) : Except Err String := do
  let networks ← networks.elim (parseTrustedProxies ip environ) .ok
  let peer := peer.getD ""
  if trusted ip networks (address ip peer) then
    pure (walk ip networks peer
      (lastOf maxForwardedHops (hops (lastOf maxForwardedChars (joined forwardedFor)))))
  else pure (key ip peer (address ip peer))

/-! ### What stands before a hop -/

/-- A text that ends where a hop begins: it is empty or ends with a comma, but for white space. -/
def Boundary (text : List Char) : Prop :=
  ∃ front blanks, text = front ++ blanks ∧ (front = [] ∨ front.getLast? = some ',') ∧
    ∀ c ∈ blanks, isSpace c = true

theorem Boundary.drop {text : List Char} (h : Boundary text) (n : ℕ) : Boundary (text.drop n) := by
  obtain ⟨front, blanks, rfl, hfront, hblanks⟩ := h
  refine ⟨front.drop n, blanks.drop (n - front.length), List.drop_append, ?_, fun c hc => ?_⟩
  · rcases hfront with rfl | hlast
    · exact .inl List.drop_nil
    · by_cases hn : n < front.length
      · right
        rw [List.getLast?_drop, if_neg (by omega), hlast]
      · exact .inl (List.drop_of_length_le (by omega))
  · exact hblanks c (List.mem_of_mem_drop hc)

theorem strip_blanks {blanks text : List Char} (h : ∀ c ∈ blanks, isSpace c = true) :
    strip (String.ofList (blanks ++ text)) = strip (String.ofList text) := by
  apply String.toList_injective
  rw [toList_strip, toList_strip, String.toList_ofList, String.toList_ofList,
    List.dropWhile_append_of_pos h]

theorem hops_comma (xs ys : List Char) : hops (xs ++ ',' :: ys) = hops xs ++ hops ys := by
  rw [hops, List.splitOn_append_cons_self, List.map_append, List.filter_append, hops, hops]

theorem hops_space {c : Char} (h : isSpace c = true) (text : List Char) : hops (c :: text) = hops text := by
  have hc : (c == ',') = false := by
    rw [beq_eq_false_iff_ne]
    rintro rfl
    exact absurd h (by decide)
  obtain ⟨head, rest, hsplit⟩ := List.exists_cons_of_ne_nil (List.splitOn_ne_nil ',' text)
  rw [hops, hops, List.splitOn_cons_eq_if_modifyHead, hc, if_neg Bool.false_ne_true, hsplit,
    List.modifyHead_cons, List.map_cons, List.map_cons]
  have hstrip : strip (String.ofList ([c] ++ head)) = strip (String.ofList head) :=
    strip_blanks fun d hd => List.mem_singleton.1 hd ▸ h
  rw [List.singleton_append] at hstrip
  rw [hstrip]

theorem hops_blanks {blanks : List Char} (h : ∀ c ∈ blanks, isSpace c = true) (text : List Char) :
    hops (blanks ++ text) = hops text := by
  induction blanks with
  | nil => rfl
  | cons c blanks ih =>
    rw [List.forall_mem_cons] at h
    rw [List.cons_append, hops_space h.1, ih h.2]

theorem Boundary.hops {text : List Char} (h : Boundary text) (suffix : List Char) :
    ∃ before, hops (text ++ suffix) = before ++ hops suffix := by
  obtain ⟨front, blanks, rfl, hfront, hblanks⟩ := h
  rcases hfront with rfl | hlast
  · exact ⟨[], hops_blanks hblanks suffix⟩
  · obtain ⟨ys, rfl⟩ := List.getLast?_eq_some_iff.1 hlast
    refine ⟨App.hops ys, ?_⟩
    rw [List.append_assoc, List.append_assoc, List.singleton_append, hops_comma, hops_blanks hblanks]

/-! ### The two cuts -/

theorem lastOf_append {α : Type} {n : ℕ} (before items : List α) (h : items.length ≤ n) :
    lastOf n (before ++ items) = lastOf (n - items.length) before ++ items := by
  rw [lastOf, List.drop_append, lastOf, List.length_append]
  have hdrop : before.length + items.length - n - before.length = 0 := by omega
  have hcut : before.length + items.length - n = before.length - (n - items.length) := by omega
  rw [hdrop, List.drop_zero, hcut]

theorem lastOf_append_of_le {α : Type} {n : ℕ} (before items : List α) (h : n ≤ items.length) :
    lastOf n (before ++ items) = lastOf n items := by
  rw [lastOf, List.drop_append, List.length_append, lastOf]
  have hall : before.drop (before.length + items.length - n) = [] := List.drop_of_length_le (by omega)
  have hcut : before.length + items.length - n - before.length = items.length - n := by omega
  rw [hall, List.nil_append, hcut]

/-! ### The walk -/

variable {ip} {networks : List Network} {peer : String} {before after chain : List String}

theorem walk_append (h : ∃ hop ∈ chain, trusted ip networks (address ip hop) = false) :
    walk ip networks peer (before ++ chain) = walk ip networks peer chain := by
  obtain ⟨hop, hmem, huntrusted⟩ := h
  obtain ⟨found, hfound⟩ : ∃ found, (chain.reverse.find? fun hop =>
      !trusted ip networks (address ip hop)) = some found := by
    rw [← Option.isSome_iff_exists, List.find?_isSome]
    exact ⟨hop, List.mem_reverse.2 hmem, by simp [huntrusted]⟩
  unfold walk
  rw [List.reverse_append, List.find?_append, hfound]
  rfl

theorem walk_lastOf {n : ℕ} (h : ∃ hop ∈ chain, trusted ip networks (address ip hop) = false) :
    walk ip networks peer (lastOf n (before ++ chain)) =
      walk ip networks peer (lastOf n chain) := by
  by_cases hlong : n ≤ chain.length
  · rw [lastOf_append_of_le before chain hlong]
  · have hshort : chain.length ≤ n := by omega
    have hself : lastOf n chain = chain := by
      rw [lastOf, Nat.sub_eq_zero_of_le hshort, List.drop_zero]
    rw [lastOf_append before chain hshort, walk_append h, hself]

theorem walk_suffix {text suffix : List Char} (hboundary : Boundary text)
    (hbound : suffix.length ≤ maxForwardedChars)
    (h : ∃ hop ∈ hops suffix, trusted ip networks (address ip hop) = false) :
    walk ip networks peer (lastOf maxForwardedHops (hops (lastOf maxForwardedChars (text ++ suffix)))) =
      walk ip networks peer (lastOf maxForwardedHops (hops suffix)) := by
  rw [lastOf_append text suffix hbound]
  obtain ⟨before, hbefore⟩ := (hboundary.drop (text.length - (maxForwardedChars - suffix.length))).hops suffix
  have hcut : hops (lastOf (maxForwardedChars - suffix.length) text ++ suffix) = before ++ hops suffix :=
    hbefore
  rw [hcut, walk_lastOf h]

/-- Two headers that end alike, in a part within the bound that has a hop which is no trusted proxy, give the
same key: what stands to the left of that part never changes it. -/
theorem clientAddress_suffix {environ : String} {peer : Option String} {networks : Option (List Network)}
    {proxies : List Network} {left right : List String} {text text' suffix : List Char}
    (hnetworks : networks.elim (parseTrustedProxies ip environ) .ok = .ok proxies)
    (hleft : joined left = text ++ suffix) (hright : joined right = text' ++ suffix)
    (htext : Boundary text) (htext' : Boundary text') (hbound : suffix.length ≤ maxForwardedChars)
    (hhop : ∃ hop ∈ hops suffix, trusted ip proxies (address ip hop) = false) :
    clientAddress ip environ peer left networks = clientAddress ip environ peer right networks := by
  rw [clientAddress, clientAddress, hnetworks, hleft, hright]
  simp only [bind, Except.bind]
  rw [walk_suffix htext hbound hhop, walk_suffix htext' hbound hhop]

/-! ### Addresses of version 4 -/

/-- A number of an address: up to 255, without leading zeros. -/
def octet (text : List Char) : Option ℕ :=
  if text ≠ [] ∧ text.all Char.isDigit = true ∧ (text.length = 1 ∨ text.head? ≠ some '0') then
    let n := text.foldl (fun n c => 10 * n + (c.toNat - 48)) 0
    if text.length ≤ 3 ∧ n ≤ 255 then some n else none
  else none

def octets (text : List Char) : Option (List ℕ) :=
  ((text.splitOn '.').mapM octet).filter fun numbers => numbers.length = 4

/-- The addresses of version 4, and the networks whose prefix is whole octets. -/
def plainIp : IpLibrary (List ℕ) (List ℕ) where
  ipAddress text := octets text.toList
  ipNetwork text :=
    match text.toList.splitOn '/' with
    | [front, ['8']] => (octets front).map (·.take 1)
    | [front, ['1', '6']] => (octets front).map (·.take 2)
    | [front, ['2', '4']] => (octets front).map (·.take 3)
    | [front] => octets front
    | _ => none
  ipv4Mapped _ := none
  contains network a := network == a.take network.length
  text a := ".".intercalate (a.map toString)
  repr text := "'" ++ text ++ "'"

/-- A client writes a hop of its own before the one the proxy appends. -/
theorem clientAddress_suffix_sample :
    clientAddress plainIp "10.0.0.0/8, 192.168.1.10" (some "10.0.0.1")
        ["6.6.6.6", " 203.0.113.7, 192.168.1.10"] none =
      clientAddress plainIp "10.0.0.0/8, 192.168.1.10" (some "10.0.0.1")
        ["203.0.113.7, 192.168.1.10"] none := by
  have hproxies : (none : Option (List (List ℕ))).elim
      (parseTrustedProxies plainIp "10.0.0.0/8, 192.168.1.10") .ok = .ok [[10], [192, 168, 1, 10]] := by
    decide +kernel
  have hleft : joined ["6.6.6.6", " 203.0.113.7, 192.168.1.10"] =
      "6.6.6.6, ".toList ++ "203.0.113.7, 192.168.1.10".toList := by
    decide +kernel
  have hright : joined ["203.0.113.7, 192.168.1.10"] = [] ++ "203.0.113.7, 192.168.1.10".toList := by
    decide +kernel
  have hfront : Boundary "6.6.6.6, ".toList :=
    ⟨"6.6.6.6,".toList, [' '], by decide +kernel, .inr (by decide +kernel), by simp [isSpace]⟩
  have hempty : Boundary [] := ⟨[], [], rfl, .inl rfl, by simp⟩
  have hhop : "203.0.113.7" ∈ hops "203.0.113.7, 192.168.1.10".toList := by decide +kernel
  exact clientAddress_suffix hproxies hleft hright hfront hempty (by decide +kernel)
    ⟨_, hhop, by decide +kernel⟩

example : clientAddress plainIp "10.0.0.0/8" (some "10.0.0.1") ["6.6.6.6, 203.0.113.7"] none =
    .ok "203.0.113.7" := by
  decide +kernel

end AgentPlatform.App
