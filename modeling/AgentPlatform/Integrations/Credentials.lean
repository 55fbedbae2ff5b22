import AgentPlatform.Json

/-!
# Credential namespaces

`credential_references`, `credential_scope_violations` and `secret` of `tools.py`. A pack's configuration
names environment variables; a variable of its own is `TENANT_`, the tenant's name as a scope, two
underscores, and a suffix. Scope and suffix are words joined by single underscores, so the two
underscores show where one ends and the other begins.

`str.upper` is a parameter, and the environment is a function that returns what is set.
-/

namespace AgentPlatform.Integrations

open Outcome

/-- `os.environ`. -/
abbrev Environ := String → Option String

def maxSchemaDepth : ℕ := 64

/-- `[A-Z0-9]` -/
def isUpperOrDigit (c : Char) : Bool := c.isUpper || c.isDigit

/-- `CREDENTIAL_NAME.fullmatch(text)`. -/
def credentialName (text : String) : Bool :=
  match text.toList with
  | [] => false
  | c :: rest => c.isUpper && rest.all fun c => isUpperOrDigit c || c == '_'

/-- `CREDENTIAL_SEGMENTS.fullmatch(text)`: words joined by single underscores. -/
def credentialSegments (text : List Char) : Bool :=
  (text.splitOn '_').all fun word => !word.isEmpty && word.all isUpperOrDigit

def platformSecretNames : List String :=
  ["JWT_SECRET", "ADMIN_TOKEN", "TELEGRAM_WEBHOOK_SECRET", "TENANT_SECRETS", "META_SECRETS",
    "REDIS_URL"]

def platformSecretPrefixes : List String := ["PLATFORM_VAULT_"]

def deploymentSecretNames : List String := ["META_APP_SECRET", "META_VERIFY_TOKEN"]

def sharedSecretNamesEnv : String := "PLATFORM_SHARED_SECRET_NAMES"

/-- `CredentialScopeError`. -/
def credentialScopeError (message : String) : Err := .other "CredentialScopeError" message

/-- `platform_secret`. -/
def platformSecret (name : String) : Bool :=
  platformSecretNames.contains name ||
    platformSecretPrefixes.any fun start => start.toList.isPrefixOf name.toList

/-- The scope of a tenant's name: in upper case, with underscores. -/
def scopeOf (upper : String → List Char) (tenant : String) : List Char :=
  (upper tenant).map fun c => if c = '-' then '_' else c

/-- `'TENANT_' + scope + '__'`. -/
def scopePrefix (scope : List Char) : List Char := "TENANT_".toList ++ scope ++ ['_', '_']

/-- `tenant_credential_prefix`. -/
def tenantCredentialPrefix (upper : String → List Char) (tenant : String) : Option (List Char) :=
  let scope := scopeOf upper tenant
  if credentialSegments scope then some (scopePrefix scope) else none

/-- `shared_secret_names`. -/
def sharedSecretNames (environ : Environ) : Except Err (List String) := do
  let raw := (environ sharedSecretNamesEnv).getD ""
  let names := ((raw.toList.splitOn ',').map fun part => strip (String.ofList part)).filter
    fun part => part ≠ ""
  ensure (∀ name ∈ names, credentialName name = true ∧ platformSecret name = false ∧
      deploymentSecretNames.contains name = false)
    (credentialScopeError (sharedSecretNamesEnv ++
      " may list only integration credential names, never a platform secret"))
  pure names

/-! ### References -/

mutual

/-- `credential_references`: the paths and names; the path is kept backwards. -/
def references (environ : Environ) (path : List String) (named inScope : Bool) (depth : ℕ)
    (value : Json) : Except Err (List (List String × String)) := do
  ensure (depth ≤ maxSchemaDepth) (credentialScopeError "Integration configuration nested too deeply")
  match value with
  | .obj members => memberReferences environ path inScope depth members
  | .arr items => itemReferences environ path named inScope depth 0 items
  | .str text =>
    pure (if credentialName text && (named || inScope || (environ text).isSome) then
      [(path.reverse, text)] else [])
  | _ => pure []

/-- The loop over the members of a dictionary. -/
def memberReferences (environ : Environ) (path : List String) (inScope : Bool) (depth : ℕ) :
    List (String × Json) → Except Err (List (List String × String))
  | [] => pure []
  | (key, item) :: members => do
    let found ← references environ (key :: path) ("_env".toList.isSuffixOf key.toList || key == "env")
      (inScope || key == "whatsapp_tokens") (depth + 1) item
    let rest ← memberReferences environ path inScope depth members
    pure (found ++ rest)

/-- The loop over the items of a list. -/
def itemReferences (environ : Environ) (path : List String) (named inScope : Bool) (depth index : ℕ) :
    List Json → Except Err (List (List String × String))
  | [] => pure []
  | item :: items => do
    let found ← references environ (toString index :: path) named inScope (depth + 1) item
    let rest ← itemReferences environ path named inScope depth (index + 1) items
    pure (found ++ rest)

end

/-- `'.'.join(path)`. -/
def dotted (path : List String) : String := ".".intercalate path

/-- What a configuration refers to. -/
def referencesOf (environ : Environ) (data : Json) : Except Err (List (List String × String)) :=
  references environ [] false false 0 data

/-! ### The scope of a pack -/

/-- The name lies in the namespace of a prefix. -/
def inNamespace (start : List Char) (name : String) : Bool :=
  start.isPrefixOf name.toList && credentialSegments (name.toList.drop start.length)

/-- The rule a reference breaks, if it breaks one. -/
def brokenRule (upper : String → List Char) (shared : List String) (tenant : String) (pack : Bool)
    (ref : String) : Option String :=
  if platformSecret ref || (pack && deploymentSecretNames.contains ref) then
    some "a platform secret may not be named here"
  else if !pack || shared.contains ref then none
  else
    match tenantCredentialPrefix upper tenant with
    | none => some ("this tenant name forms no TENANT_<NAME>__ namespace; only names in " ++
        sharedSecretNamesEnv ++ " may be used")
    | some start =>
      if inNamespace start ref then none
      else some ("a pack may name only " ++ String.ofList start ++ "* variables or ones listed in " ++
        sharedSecretNamesEnv)

/-- `credential_scope_violations`. -/
def credentialScopeViolations (upper : String → List Char) (environ : Environ) (tenant : String)
    (data : Json) (pack : Bool) : Except Err (List (String × String × String)) := do
  let shared ← if pack then sharedSecretNames environ else pure []
  let refs ← referencesOf environ data
  pure (refs.filterMap fun r =>
    (brokenRule upper shared tenant pack r.2).map fun rule => (dotted r.1, r.2, rule))

def packIntegrationsFile : String := "integrations.yaml"

/-- `check_credential_scope`. -/
def checkCredentialScope (upper : String → List Char) (environ : Environ) (tenant : String)
    (data : Json) (pack : Bool) : Except Err Unit := do
  match ← credentialScopeViolations upper environ tenant data pack with
  | [] => pure ()
  | (path, _, rule) :: _ =>
    throw (credentialScopeError ((if pack then packIntegrationsFile ++ " " else "") ++
      String.ofList (path.toList.take 120) ++ ": " ++ rule))

/-- The name a block refers to. -/
def credentialReference : Json → Option String
  | .str ref => if credentialName ref then some ref else none
  | _ => none

/-- `secret`. -/
def secret (environ : Environ) (cfg : Json) (name : String) : Except Err String := do
  let ref ← need (credentialReference (cfg.getD name (.str "")))
    (.runtimeError "Invalid credential reference")
  ensure (platformSecret ref = false)
    (credentialScopeError (name ++ ": a platform secret may not be named here"))
  let value := (environ ref).getD ""
  ensure (value ≠ "") (.runtimeError "Missing provider credential")
  pure value

/-! ### The texts of a configuration -/

mutual

/-- The texts in a value. -/
def leaves : Json → List String
  | .obj members => memberLeaves members
  | .arr items => itemLeaves items
  | .str text => [text]
  | _ => []

def memberLeaves : List (String × Json) → List String
  | [] => []
  | (_, item) :: members => leaves item ++ memberLeaves members

def itemLeaves : List Json → List String
  | [] => []
  | item :: items => leaves item ++ itemLeaves items

end

/-- A value that stands in another one. -/
inductive Within : Json → Json → Prop
  | refl (value : Json) : Within value value
  | member {value item : Json} {key : String} {members : List (String × Json)}
      (h : (key, item) ∈ members) (hin : Within value item) : Within value (.obj members)
  | item {value item : Json} {items : List Json} (h : item ∈ items) (hin : Within value item) :
      Within value (.arr items)

section Leaves

variable {environ : Environ} {path : List String} {named inScope : Bool} {depth index : ℕ}
  {value item : Json} {members : List (String × Json)} {items : List Json} {text key : String}
  {refs : List (List String × String)}

theorem leaves_of_member (h : (key, item) ∈ members) (ht : text ∈ leaves item) :
    text ∈ memberLeaves members := by
  induction members with
  | nil => cases h
  | cons m members ih =>
    obtain ⟨key', item'⟩ := m
    rw [memberLeaves, List.mem_append]
    rcases List.mem_cons.1 h with heq | h
    · obtain ⟨rfl, rfl⟩ := Prod.mk.inj heq
      exact .inl ht
    · exact .inr (ih h)

theorem leaves_of_item (h : item ∈ items) (ht : text ∈ leaves item) : text ∈ itemLeaves items := by
  induction items with
  | nil => cases h
  | cons item' items ih =>
    rw [itemLeaves, List.mem_append]
    rcases List.mem_cons.1 h with rfl | h
    · exact .inl ht
    · exact .inr (ih h)

theorem Within.leaves {block : Json} (h : Within block value) (ht : text ∈ leaves block) :
    text ∈ Integrations.leaves value := by
  induction h with
  | refl => exact ht
  | member hmem _ ih =>
    rw [Integrations.leaves]
    exact leaves_of_member hmem ih
  | item hmem _ ih =>
    rw [Integrations.leaves]
    exact leaves_of_item hmem ih

mutual

/-- Every text that is spelled like a credential name and names a set variable is referred to. -/
theorem referred (value : Json) {path : List String} {named inScope : Bool} {depth : ℕ}
    {refs : List (List String × String)}
    (h : references environ path named inScope depth value = .ok refs) (ht : text ∈ leaves value)
    (hname : credentialName text = true) (hset : (environ text).isSome = true) :
    ∃ p, (p, text) ∈ refs := by
  cases value with
  | obj members =>
    rw [references, bind_eq_ok, exists_unit] at h
    exact memberReferred members h.2 (by rwa [leaves] at ht) hname hset
  | arr items =>
    rw [references, bind_eq_ok, exists_unit] at h
    exact itemReferred items h.2 (by rwa [leaves] at ht) hname hset
  | str leaf =>
    rw [leaves, List.mem_singleton] at ht
    subst ht
    rw [references, bind_eq_ok, exists_unit, pure_eq_ok] at h
    obtain ⟨-, rfl⟩ := h
    exact ⟨path.reverse, by simp [hname, hset]⟩
  | null | bool | int | float => simp [leaves] at ht

theorem memberReferred (members : List (String × Json)) {path : List String} {inScope : Bool}
    {depth : ℕ} {refs : List (List String × String)}
    (h : memberReferences environ path inScope depth members = .ok refs)
    (ht : text ∈ memberLeaves members) (hname : credentialName text = true)
    (hset : (environ text).isSome = true) : ∃ p, (p, text) ∈ refs := by
  cases members with
  | nil => cases ht
  | cons m members =>
    obtain ⟨key, item⟩ := m
    simp only [memberReferences, bind_eq_ok, pure_eq_ok] at h
    obtain ⟨found, hfound, rest, hrest, rfl⟩ := h
    rw [memberLeaves, List.mem_append] at ht
    rcases ht with ht | ht
    · obtain ⟨p, hp⟩ := referred item hfound ht hname hset
      exact ⟨p, List.mem_append_left _ hp⟩
    · obtain ⟨p, hp⟩ := memberReferred members hrest ht hname hset
      exact ⟨p, List.mem_append_right _ hp⟩

theorem itemReferred (items : List Json) {path : List String} {named inScope : Bool} {depth index : ℕ}
    {refs : List (List String × String)}
    (h : itemReferences environ path named inScope depth index items = .ok refs)
    (ht : text ∈ itemLeaves items) (hname : credentialName text = true)
    (hset : (environ text).isSome = true) : ∃ p, (p, text) ∈ refs := by
  cases items with
  | nil => cases ht
  | cons item items =>
    simp only [itemReferences, bind_eq_ok, pure_eq_ok] at h
    obtain ⟨found, hfound, rest, hrest, rfl⟩ := h
    rw [itemLeaves, List.mem_append] at ht
    rcases ht with ht | ht
    · obtain ⟨p, hp⟩ := referred item hfound ht hname hset
      exact ⟨p, List.mem_append_left _ hp⟩
    · obtain ⟨p, hp⟩ := itemReferred items hrest ht hname hset
      exact ⟨p, List.mem_append_right _ hp⟩

end

end Leaves

/-! ### Scopes -/

section Scopes

variable {scope scope' suffix suffix' : List Char}

theorem segments_free (h : credentialSegments scope = true) :
    (∀ a b, scope ≠ a ++ '_' :: '_' :: b) ∧ ∀ a, scope ≠ a ++ ['_'] := by
  have hword : [] ∉ scope.splitOn '_' := by
    intro hmem
    have hall := List.all_eq_true.1 h [] hmem
    cases hall
  refine ⟨?_, ?_⟩
  · rintro a b rfl
    rw [List.splitOn_append_cons_self] at hword
    have hfirst : ('_' :: b).splitOn '_' = [] :: b.splitOn '_' :=
      List.splitOn_append_cons_self [] b
    rw [hfirst] at hword
    exact hword (List.mem_append_right _ List.mem_cons_self)
  · rintro a rfl
    rw [List.splitOn_append_cons_self] at hword
    exact hword (List.mem_append_right _ (by simp))

/-- What follows a longer scope begins the suffix of the shorter one. -/
theorem scope_le (h : credentialSegments scope' = true)
    (heq : scopePrefix scope ++ suffix = scopePrefix scope' ++ suffix')
    (hlen : scope.length ≤ scope'.length) : scope = scope' := by
  unfold scopePrefix at heq
  simp only [List.append_assoc, List.cons_append, List.nil_append] at heq
  have hbody := List.append_cancel_left heq
  have hprefix : scope <+: scope' ++ '_' :: '_' :: suffix' := by
    rw [← hbody]
    exact List.prefix_append _ _
  obtain ⟨more, rfl⟩ := List.prefix_of_prefix_length_le hprefix (List.prefix_append _ _) hlen
  rw [List.append_assoc, List.append_cancel_left_eq] at hbody
  obtain ⟨hdouble, hlast⟩ := segments_free h
  match more, hbody with
  | [], _ => exact (List.append_nil _).symm
  | [c], hbody =>
    obtain ⟨rfl, -⟩ := List.cons.inj hbody
    exact absurd rfl (hlast scope)
  | c :: c' :: more, hbody =>
    obtain ⟨rfl, hrest⟩ := List.cons.inj hbody
    obtain ⟨rfl, -⟩ := List.cons.inj hrest
    exact absurd rfl (hdouble scope more)

theorem scope_unique (h : credentialSegments scope = true) (h' : credentialSegments scope' = true)
    (heq : scopePrefix scope ++ suffix = scopePrefix scope' ++ suffix') : scope = scope' := by
  rcases Nat.le_total scope.length scope'.length with hle | hle
  · exact scope_le h' heq hle
  · exact (scope_le h heq.symm hle).symm

end Scopes

/-! ### What an accepted pack names -/

section Accepted

variable {upper : String → List Char} {environ environ' : Environ} {tenant tenant' ref : String}
  {data data' : Json} {shared : List String} {refs : List (List String × String)}

/-- The operator shares the name. -/
def Shared (environ : Environ) (name : String) : Prop :=
  ∃ shared, sharedSecretNames environ = .ok shared ∧ name ∈ shared

/-- The name is one of the tenant's own. -/
def Private (upper : String → List Char) (tenant name : String) : Prop :=
  ∃ start, tenantCredentialPrefix upper tenant = some start ∧ inNamespace start name = true

/-- What is asked of a reference of a pack. -/
def Admissible (upper : String → List Char) (environ : Environ) (tenant name : String) : Prop :=
  platformSecret name = false ∧ deploymentSecretNames.contains name = false ∧
    (Shared environ name ∨ Private upper tenant name)

theorem brokenRule_none (h : brokenRule upper shared tenant true ref = none) :
    platformSecret ref = false ∧ deploymentSecretNames.contains ref = false ∧
      (ref ∈ shared ∨ Private upper tenant ref) := by
  unfold brokenRule at h
  split at h
  · cases h
  · rename_i hsecret
    simp only [Bool.true_and, Bool.or_eq_true, not_or, Bool.not_eq_true] at hsecret
    refine ⟨hsecret.1, hsecret.2, ?_⟩
    split at h
    · rename_i hshared
      exact .inl (List.contains_iff_mem.1 (by simpa using hshared))
    · split at h
      · cases h
      · rename_i start hstart
        split at h
        · rename_i hin
          exact .inr ⟨start, hstart, hin⟩
        · cases h

/-- **An accepted pack.** Everything it refers to is admissible. -/
theorem check_ok (h : checkCredentialScope upper environ tenant data true = .ok ()) :
    ∃ refs, referencesOf environ data = .ok refs ∧
      ∀ r ∈ refs, Admissible upper environ tenant r.2 := by
  rw [checkCredentialScope, bind_eq_ok] at h
  obtain ⟨found, hfound, h⟩ := h
  simp only [credentialScopeViolations, if_true, bind_eq_ok, pure_eq_ok] at hfound
  obtain ⟨shared, hshared, refs, hrefs, rfl⟩ := hfound
  refine ⟨refs, hrefs, fun r hr => ?_⟩
  have hnone : refs.filterMap (fun r =>
      (brokenRule upper shared tenant true r.2).map fun rule => (dotted r.1, r.2, rule)) = [] := by
    generalize refs.filterMap _ = found at h
    match found, h with
    | [], _ => rfl
    | _ :: _, h => exact absurd h throw_ne_ok
  have hrule : brokenRule upper shared tenant true r.2 = none := by
    simpa using List.filterMap_eq_nil_iff.1 hnone r hr
  obtain ⟨hplatform, hdeployment, hscope⟩ := brokenRule_none hrule
  exact ⟨hplatform, hdeployment, hscope.imp_left fun hmem => ⟨shared, hshared, hmem⟩⟩

/-- A name that is private to two tenants has one scope. -/
theorem private_scope (h : Private upper tenant ref) (h' : Private upper tenant' ref) :
    scopeOf upper tenant = scopeOf upper tenant' := by
  have hsplit : ∀ t, Private upper t ref → credentialSegments (scopeOf upper t) = true ∧
      ∃ suffix, ref.toList = scopePrefix (scopeOf upper t) ++ suffix := by
    rintro t ⟨start, hstart, hin⟩
    unfold tenantCredentialPrefix at hstart
    dsimp only at hstart
    split at hstart
    · rename_i hsegments
      obtain rfl := Option.some.inj hstart
      rw [inNamespace, Bool.and_eq_true, List.isPrefixOf_iff_prefix] at hin
      obtain ⟨suffix, hsuffix⟩ := hin.1
      exact ⟨hsegments, suffix, hsuffix.symm⟩
    · cases hstart
  obtain ⟨hseg, suffix, heq⟩ := hsplit tenant h
  obtain ⟨hseg', suffix', heq'⟩ := hsplit tenant' h'
  exact scope_unique hseg hseg' (heq.symm.trans heq')

/-- What `secret` returns is the value of the set variable that the block names. -/
theorem secret_ok {cfg : Json} {name value : String} (h : secret environ cfg name = .ok value) :
    ∃ ref, cfg.get? name = some (.str ref) ∧ credentialName ref = true ∧ environ ref = some value := by
  simp only [secret, bind_eq_ok, need_eq_ok, exists_unit, ensure_eq_ok, pure_eq_ok] at h
  obtain ⟨ref, href, -, hvalue, rfl⟩ := h
  have hset : environ ref = some ((environ ref).getD "") := by
    cases hget : environ ref with
    | none => simp [hget] at hvalue
    | some value => rfl
  unfold Json.getD at href
  cases hget : cfg.get? name with
  | none =>
    rw [hget, Option.getD_none] at href
    cases href
  | some item =>
    rw [hget, Option.getD_some] at href
    cases item with
    | str ref' =>
      simp only [credentialReference] at href
      split at href
      · rename_i hname
        obtain rfl := Option.some.inj href
        exact ⟨ref', rfl, hname, hset⟩
      · cases href
    | null | bool | int | float | arr | obj => cases href

theorem leaf_of_get {cfg : Json} {name : String} (h : cfg.get? name = some (.str ref)) :
    ref ∈ leaves cfg := by
  cases cfg with
  | obj members =>
    rw [Json.get?, Option.map_eq_some_iff] at h
    obtain ⟨⟨key, item⟩, hfound, hitem⟩ := h
    obtain rfl : item = .str ref := hitem
    rw [leaves]
    exact leaves_of_member (List.mem_of_find?_eq_some hfound) (by simp [leaves])
  | null | bool | int | float | str | arr => cases h

/-- **Credential namespaces.** In an accepted pack, every text that is spelled like a credential name
and names a set variable is shared or the tenant's own, and so is whatever `secret` reads from a block
of it; nothing that is referred to is a platform secret. A name that two accepted packs refer to is
shared, or their tenants have one scope. -/
theorem namespaces_apart (upper : String → List Char) {environ environ' : Environ}
    {tenant tenant' : String} {data data' : Json}
    (h : checkCredentialScope upper environ tenant data true = .ok ())
    (h' : checkCredentialScope upper environ' tenant' data' true = .ok ()) :
    (∀ name ∈ leaves data, credentialName name = true → (environ name).isSome = true →
      Admissible upper environ tenant name) ∧
    (∀ block key value, Within block data → secret environ block key = .ok value →
      ∃ name, environ name = some value ∧ Admissible upper environ tenant name) ∧
    ∃ refs refs', referencesOf environ data = .ok refs ∧ referencesOf environ' data' = .ok refs' ∧
      (∀ r ∈ refs, Admissible upper environ tenant r.2) ∧
      ∀ r ∈ refs, ∀ r' ∈ refs', r.2 = r'.2 → Shared environ r.2 ∨ Shared environ' r.2 ∨
        scopeOf upper tenant = scopeOf upper tenant' := by
  obtain ⟨refs, hrefs, hall⟩ := check_ok h
  obtain ⟨refs', hrefs', hall'⟩ := check_ok h'
  have hleaf : ∀ name ∈ leaves data, credentialName name = true → (environ name).isSome = true →
      Admissible upper environ tenant name := by
    intro name hname hspelled hset
    obtain ⟨p, hp⟩ := referred data hrefs hname hspelled hset
    exact hall _ hp
  refine ⟨hleaf, ?_, refs, refs', hrefs, hrefs', hall, ?_⟩
  · intro block key value hblock hsecret
    obtain ⟨name, hget, hspelled, hset⟩ := secret_ok hsecret
    refine ⟨name, hset, hleaf name (hblock.leaves (leaf_of_get hget)) hspelled ?_⟩
    rw [hset]
    rfl
  · intro r hr r' hr' hname
    rcases (hall r hr).2.2 with hshared | hprivate
    · exact .inl hshared
    · rcases (hall' r' hr').2.2 with hshared' | hprivate'
      · exact .inr (.inl (hname ▸ hshared'))
      · exact .inr (.inr (private_scope hprivate (hname ▸ hprivate')))

end Accepted

/-! ### Two tenants, and a name in lower case -/

section Sample

/-- `str.upper` of ASCII names. -/
def upperAscii (text : String) : List Char := text.toList.map Char.toUpper

def sampleEnviron : Environ := fun name =>
  if name = "TENANT_ACME__CRM_KEY" then some "k1"
  else if name = "http_proxy" then some "http://proxy"
  else none

def samplePack : Json := .obj [("crm", .obj [("key_env", .str "TENANT_ACME__CRM_KEY")])]

theorem namespaces_apart_sample :
    checkCredentialScope upperAscii sampleEnviron "acme" samplePack true = .ok () ∧
    checkCredentialScope upperAscii sampleEnviron "acme-two" samplePack true ≠ .ok () ∧
    Admissible upperAscii sampleEnviron "acme" "TENANT_ACME__CRM_KEY" := by
  have hok : checkCredentialScope upperAscii sampleEnviron "acme" samplePack true = .ok () := by
    decide +kernel
  refine ⟨hok, by decide +kernel, ?_⟩
  exact (namespaces_apart upperAscii hok hok).1 _ (by decide +kernel) (by decide +kernel) rfl

/-- Texts that are not spelled like credential names are not looked at, and neither are names of
variables that are not set, outside the keys for references. -/
theorem plain_texts_pass :
    checkCredentialScope upperAscii sampleEnviron "acme"
      (.obj [("proxy", .str "http_proxy"), ("note", .str "ADMIN_TOKEN")]) true = .ok () ∧
    (sampleEnviron "http_proxy").isSome = true ∧ platformSecret "ADMIN_TOKEN" = true ∧
    ¬ Shared sampleEnviron "http_proxy" ∧ ¬ Private upperAscii "acme" "http_proxy" := by
  refine ⟨by decide +kernel, by decide +kernel, by decide +kernel, ?_, ?_⟩
  · rintro ⟨shared, hshared, hmem⟩
    have hnone : sharedSecretNames sampleEnviron = .ok [] := by decide +kernel
    obtain rfl := Except.ok.inj (hnone.symm.trans hshared)
    cases hmem
  · rintro ⟨start, hstart, hin⟩
    have hown : tenantCredentialPrefix upperAscii "acme" = some (scopePrefix "ACME".toList) := by
      decide +kernel
    obtain rfl := Option.some.inj (hown.symm.trans hstart)
    exact absurd hin (by decide +kernel)

end Sample

end AgentPlatform.Integrations
