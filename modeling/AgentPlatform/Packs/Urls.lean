import AgentPlatform.Packs.Products

/-!
# The addresses of photos

`urllib.parse.urlsplit`, as far as the `Product` model looks at what it returns. Case, normal forms and the addresses that
stand in brackets are the library's.

An address that begins with `https://` and has no white space, and no `@` before the first `/`, passes the model's check
exactly where it names a host (`checkPhoto_https_iff`).
-/

namespace AgentPlatform.Packs

open Outcome

/-- What `urlsplit` takes from Unicode and from `ipaddress`. -/
structure UrlLibrary where
  /-- `text.lower()`. -/
  lower : String → String
  lower_ne : ∀ text, text ≠ "" → lower text ≠ ""
  /-- `unicodedata.normalize('NFKC', text)`. -/
  normalize : String → String
  /-- `_check_bracketed_host`, which may raise `ValueError`. -/
  checkBracketedHost : String → Except String Unit

variable (lib : UrlLibrary)

/-- `text.partition(sep)`: what is before the first `sep`, and what is after it. -/
def partition (sep : Char) (text : List Char) : List Char × List Char :=
  (text.takeWhile fun c => c != sep, (text.dropWhile fun c => c != sep).drop 1)

/-- `text.rpartition('@')[2]`. -/
def afterLast (sep : Char) (text : List Char) : List Char := (text.reverse.takeWhile fun c => c != sep).reverse

/-- `text.rpartition('@')[0]`. -/
def beforeLast (sep : Char) (text : List Char) : List Char := ((text.reverse.dropWhile fun c => c != sep).drop 1).reverse

/-- A character of `scheme_chars`. -/
def isSchemeChar (c : Char) : Bool := c.isAlphanum || "+-.".toList.contains c

/-- The scheme, in lower case, and what is after its colon. -/
def splitScheme (url : List Char) : List Char × List Char :=
  let scheme := url.takeWhile fun c => c != ':'
  if url.contains ':' && scheme.head?.any Char.isAlpha && scheme.all isSchemeChar then
    (scheme.map Char.toLower, url.drop (scheme.length + 1))
  else ([], url)

/-- A character that ends a host. -/
def endsNetloc (c : Char) : Bool := "/?#".toList.contains c

/-- What is between `//` and the path. -/
def splitNetloc (url : List Char) : List Char :=
  if "//".toList.isPrefixOf url then (url.drop 2).takeWhile fun c => !endsNetloc c else []

/-- The text in the brackets of a host. -/
def bracketedHost (netloc : List Char) : List Char := (partition ']' (partition '[' netloc).2).1

/-- What `urlsplit` checks of the brackets of a host. -/
def checkBrackets (netloc : List Char) : Except String Unit := do
  ensure (netloc.contains '[' = netloc.contains ']') "Invalid IPv6 URL"
  if netloc.contains '[' then lib.checkBracketedHost (String.ofList (bracketedHost netloc)) else .ok ()

/-- `_checknetloc`. -/
def checkNetloc (netloc : List Char) : Except String Unit :=
  if netloc.all fun c => decide (c.toNat < 128) then .ok ()
  else
    let bare := netloc.filter fun c => !"@:#?".toList.contains c
    let normal := (lib.normalize (String.ofList bare)).toList
    ensure (bare = normal ∨ (normal.all fun c => !"/?#@:".toList.contains c) = true)
      ("netloc '" ++ String.ofList netloc ++ "' contains invalid characters under NFKC normalization")

/-- The first of `_hostinfo`. -/
def rawHost (netloc : List Char) : List Char :=
  let hostinfo := afterLast '@' netloc
  if hostinfo.contains '[' then bracketedHost hostinfo else (partition ':' hostinfo).1

/-- `parts.hostname`: in lower case up to the zone of an address. -/
def hostname (netloc : List Char) : Option String :=
  if rawHost netloc = [] then none
  else
    let host := (rawHost netloc).takeWhile fun c => c != '%'
    some (lib.lower (String.ofList host) ++ String.ofList ((rawHost netloc).drop host.length))

/-- `_userinfo`. -/
def userinfo (netloc : List Char) : Option String × Option String :=
  if netloc.contains '@' then
    let info := beforeLast '@' netloc
    (some (String.ofList (partition ':' info).1),
      if info.contains ':' then some (String.ofList (partition ':' info).2) else none)
  else (none, none)

/-- `_WHATWG_C0_CONTROL_OR_SPACE`. -/
def isC0OrSpace (c : Char) : Bool := decide (c.toNat ≤ 32)

/-- `urlsplit(url)`. -/
def urlsplit (url : String) : Except String UrlParts := do
  let kept := (url.toList.dropWhile isC0OrSpace).filter fun c => !"\t\r\n".toList.contains c
  let netloc := splitNetloc (splitScheme kept).2
  checkBrackets lib netloc
  checkNetloc lib netloc
  .ok { scheme := String.ofList (splitScheme kept).1, hostname := hostname lib netloc,
        username := (userinfo netloc).1, password := (userinfo netloc).2 }

/-- An address of the shape that `https://[^\s/@]+(/\S*)?` matches: its host's part and its path. -/
structure IsHttps (url : String) (front path : List Char) : Prop where
  eq : url.toList = "https://".toList ++ (front ++ path)
  fronts : ∀ c ∈ front, isSpace c = false ∧ c ≠ '/' ∧ c ≠ '@'
  slash : path = [] ∨ path.head? = some '/'
  spaces : ∀ c ∈ path, isSpace c = false

/-- What stands for the host in an address that begins with `https://`. -/
def netlocOf (url : String) : List Char := (url.toList.drop 8).takeWhile fun c => !endsNetloc c

/-- An address names a host: it is not empty, its brackets match and hold an address, and its normal form has none of the
signs that cut an address. -/
structure NamesHost (url : String) : Prop where
  brackets : checkBrackets lib (netlocOf url) = .ok ()
  normal : checkNetloc lib (netlocOf url) = .ok ()
  host : rawHost (netlocOf url) ≠ []

variable {lib} {url : String} {front path : List Char}

namespace IsHttps

theorem isSpace_eq_false (h : IsHttps url front path) {c : Char} (hc : c ∈ url.toList) : isSpace c = false := by
  rw [h.eq, List.mem_append, List.mem_append] at hc
  rcases hc with hc | hc | hc
  · revert hc c
    decide
  · exact (h.fronts c hc).1
  · exact h.spaces c hc

theorem kept (h : IsHttps url front path) :
    ((url.toList.dropWhile isC0OrSpace).filter fun c => !"\t\r\n".toList.contains c) = url.toList := by
  have hdrop : url.toList.dropWhile isC0OrSpace = url.toList := by
    rw [h.eq]
    rfl
  rw [hdrop, List.filter_eq_self]
  intro c hc
  have hspace := h.isSpace_eq_false hc
  by_contra hcut
  rw [Bool.not_eq_true, Bool.not_eq_false', List.contains_eq_mem, decide_eq_true_eq] at hcut
  have hcuts : ∀ c ∈ "\t\r\n".toList, isSpace c = true := by decide
  rw [hcuts c hcut] at hspace
  cases hspace

theorem splitScheme_eq (h : IsHttps url front path) :
    splitScheme url.toList = ("https".toList, "//".toList ++ (front ++ path)) := by
  rw [h.eq]
  rfl

theorem splitNetloc_eq (h : IsHttps url front path) :
    splitNetloc ("//".toList ++ (front ++ path)) = netlocOf url := by
  rw [netlocOf, h.eq]
  rfl

theorem not_at (h : IsHttps url front path) : (netlocOf url).contains '@' = false := by
  have hfront : ∀ c ∈ netlocOf url, c ∈ front := by
    intro c hc
    rw [netlocOf, h.eq, show ("https://".toList ++ (front ++ path)).drop 8 = front ++ path from rfl] at hc
    rcases h.slash with rfl | hslash
    · rw [List.append_nil] at hc
      exact List.takeWhile_subset _ hc
    · obtain ⟨rest, rfl⟩ := List.head?_eq_some_iff.1 hslash
      by_contra hne
      rw [List.takeWhile_append] at hc
      split at hc
      · rw [List.takeWhile_cons_of_neg (by decide), List.append_nil] at hc
        exact hne hc
      · exact hne (List.takeWhile_subset _ hc)
  rw [List.contains_eq_mem, decide_eq_false_iff_not]
  exact fun hmem => (h.fronts _ (hfront _ hmem)).2.2 rfl

end IsHttps

theorem hostname_getD (netloc : List Char) : (hostname lib netloc).getD "" ≠ "" ↔ rawHost netloc ≠ [] := by
  unfold hostname
  by_cases hraw : rawHost netloc = []
  · simp [hraw]
  · rw [if_neg hraw, Option.getD_some]
    refine ⟨fun _ => hraw, fun _ hempty => ?_⟩
    obtain ⟨c, rest, hcons⟩ := List.exists_cons_of_ne_nil hraw
    rw [hcons, String.append_eq_empty_iff] at hempty
    by_cases hzone : c = '%'
    · -- an empty host in front of a zone: the zone is kept
      subst hzone
      have := hempty.2
      simp at this
    · refine lib.lower_ne _ ?_ hempty.1
      rw [List.takeWhile_cons_of_pos (by simpa using hzone)]
      simp

/-- An address of that shape passes where it names a host. -/
theorem checkPhoto_https_iff {S : Type} {str : S → String} (h : IsHttps url front path) :
    Product.checkPhoto ⟨str, urlsplit lib⟩ url = .ok () ↔ NamesHost lib url := by
  have hne : url ≠ "" := by
    rintro rfl
    have := h.eq
    simp at this
  have hnone : userinfo (netlocOf url) = (none, none) := by
    rw [userinfo, h.not_at]
    rfl
  have hspaces : (url.toList.all fun c => !isSpace c) = true := by
    rw [List.all_eq_true]
    intro c hc
    rw [h.isSpace_eq_false hc]
    rfl
  rw [Product.checkPhoto, if_neg hne]
  simp only [urlsplit, bind_eq_ok, exists_unit, h.kept, h.splitScheme_eq, h.splitNetloc_eq, hnone, ensure_eq_ok]
  constructor
  · rintro ⟨parts, ⟨hbrackets, hnormal, hparts⟩, hgood⟩
    obtain rfl := Except.ok.inj hparts
    simp only [Product.goodPhoto, Bool.and_eq_true, bne_iff_ne, hostname_getD] at hgood
    exact ⟨hbrackets, hnormal, hgood.1.1.1.2⟩
  · rintro ⟨hbrackets, hnormal, hhost⟩
    refine ⟨_, ⟨hbrackets, hnormal, rfl⟩, ?_⟩
    simp only [Product.goodPhoto, Bool.and_eq_true, bne_iff_ne, hostname_getD]
    exact ⟨⟨⟨⟨rfl, hhost⟩, rfl⟩, rfl⟩, hspaces⟩

end AgentPlatform.Packs
