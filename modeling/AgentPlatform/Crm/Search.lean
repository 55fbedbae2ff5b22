import AgentPlatform.Crm.Paths
import AgentPlatform.Crm.Quote
import AgentPlatform.Crm.Reconcile
import AgentPlatform.Crm.Settlement

/-!
# Searching a CRM

The lead search, the contact lookup and the reconciler's lookup take a query, a phone and an e-mail, each optional.
Bitrix24 filters by the phone and the e-mail and is not told the query; the other providers are sent one text, the
first of the three that is given. A lookup asks for all it was given only where these agree (`alwaysFiltered_iff`).
-/

namespace AgentPlatform.Crm

open Outcome

/-! ### Contacts -/

/-- The request of `find_contacts`; Bitrix24 has none. -/
def Adapter.findContactsRequest (lib : Library) (adapter : Adapter) (query : Json) (limit : ℕ) :
    Except Err Request :=
  let limit := clampLimit limit
  match adapter with
  | .bitrix24 .. => .error (.other "AttributeError" "'Bitrix24Adapter' object has no attribute 'find_contacts'")
  | .kommo host headers => do
    let path := "contacts?limit=" ++ toString limit
    if query.truthy then do
      let text ← stripped query
      kommoCall lib host headers (path ++ "&query=" ++ quote text)
    else kommoCall lib host headers path
  | .onec host basePath headers _ paths => do
    let text ← cleanText query "query" 256 false
    let path ← buildPath paths.contacts [("query", text), ("limit", toString limit)]
    onecCall lib host basePath headers path
  | .customHttp host declared headers => do
    let text ← cleanText query "query" 256 false
    customHttpCall lib host declared headers "find_contacts" [("query", text), ("limit", toString limit)]

/-- A contact of Kommo's list. -/
def kommoContact (lib : Library) (item : Json) : Except Err Json := do
  let id ← getOf item "id"
  pure (.obj [("id", .str (pyStr lib id)), ("name", item.getD "name" (.str "")),
    ("created_at", item.getD "created_at" .null)])

/-- A contact in 1C's answer. -/
def onecContact (lib : Library) (responseMap row : Json) : Except Err Json := do
  let id ← mapped lib responseMap "id" row
  let phone ← mapped lib responseMap "phone" row
  let email ← mapped lib responseMap "email" row
  let name ← mapped lib responseMap "name" row
  pure (.obj [
    ("id", .str (strOrEmpty lib (firstTruthy [id, row.getD "Ref_Key" .null]))),
    ("name", .str (pyStr lib (firstTruthy [name, row.getD "Наименование" .null, .str ""]))),
    ("phone", .str (optionalPhone phone)),
    ("email", .str (optionalEmail email))])

/-- A contact in the answer of a custom connection. -/
def customHttpContact (lib : Library) (responseMap row : Json) : Except Err Json := do
  let phone ← mapped lib responseMap "phone" row
  let email ← mapped lib responseMap "email" row
  let id ← mapped lib responseMap "id" row
  let name ← mapped lib responseMap "name" row
  pure (.obj [
    ("id", .str (strOrEmpty lib id)),
    ("name", .str (pyStr lib (firstTruthy [name, .str ""]))),
    ("phone", .str (optionalPhone phone)),
    ("email", .str (optionalEmail email))])

/-- The rows `find_contacts` makes contacts of. -/
def Adapter.contactRows (lib : Library) (adapter : Adapter) (answer : Json) : Except Err (List Json) :=
  match adapter with
  | .bitrix24 .. => pure []
  | .kommo .. =>
    match answer.get? "_embedded" with
    | none => pure []
    | some embedded => do
      let contacts ← getOf embedded "contacts"
      sliceable (if (embedded.get? "contacts").isSome then contacts else .arr [])
  | .onec _ _ _ responseMap _ => rowsOf lib responseMap answer
  | .customHttp _ declared _ => rowsOf lib declared.responseMap answer

/-- A row as a contact. -/
def Adapter.contact (lib : Library) (adapter : Adapter) (row : Json) : Except Err Json :=
  match adapter with
  | .bitrix24 .. => pure row
  | .kommo .. => kommoContact lib row
  | .onec _ _ _ responseMap _ => onecContact lib responseMap row
  | .customHttp _ declared _ => customHttpContact lib declared.responseMap row

/-- What `find_contacts_by_mode` reports of a lead of Bitrix24: the person it was asked for. -/
def contactOfLead (lib : Library) (phone email lead : Json) : Json :=
  .obj [("id", .str (pyStr lib (lead.getD "id" (.str "")))), ("name", lead.getD "name" (.str "")),
    ("phone", firstTruthy [phone, .str ""]), ("email", firstTruthy [email, .str ""]),
    ("lead_id", lead.getD "id" .null)]

/-- `find_contacts_by_mode`, on the provider's answer. -/
def findContactsByMode (lib : Library) (adapter : Adapter) (driver : String) (query phone email : Json) (limit : ℕ)
    (answer : Except Err Json) : Except Err (List Json) :=
  if searchesByQuery driver then do
    let _ ← adapter.findContactsRequest lib (firstTruthy [query, phone, email, .str ""]) limit
    let rows ← adapter.contactRows lib (← answer)
    (rows.take (clampLimit limit)).mapM (adapter.contact lib)
  else do
    let _ ← adapter.findLeadsRequest lib .null phone email limit
    let leads ← adapter.leads lib limit (← answer)
    pure (leads.map (contactOfLead lib phone email))

/-! ### Lookups -/

/-- Who looks up, with the tool's arguments or the request of the step. -/
inductive Source
  | leadSearch (args : Json)
  | contactLookup (args : Json)
  | reconcile (request : Json)

inductive Criterion
  | query
  | phone
  | email
  deriving DecidableEq

/-- What a lookup is given. The reconciler's query is the phone, the e-mail or the title of its request. -/
def Source.given : Source → Criterion → Json
  | leadSearch args, .query | contactLookup args, .query => args.getD "query" .null
  | leadSearch args, .phone | contactLookup args, .phone => args.getD "phone" .null
  | leadSearch args, .email | contactLookup args, .email => args.getD "email" .null
  | reconcile request, .query =>
    firstTruthy [request.getD "phone" .null, request.getD "email" .null, request.getD "title" .null, .str ""]
  | reconcile request, .phone => request.getD "phone" .null
  | reconcile request, .email => request.getD "email" .null

/-- Whether contacts are asked for. -/
def Source.ofContacts : Source → Bool
  | contactLookup _ => true
  | _ => false

/-- The text a driver that searches by a query is given. -/
def Source.text (source : Source) : Json :=
  firstTruthy [source.given .query, source.given .phone, source.given .email, .str ""]

/-- The request of `find_leads_by_mode` or `find_contacts_by_mode`. -/
def Source.request (lib : Library) (adapter : Adapter) (driver : String) (limit : ℕ) (source : Source) :
    Except Err Request :=
  if searchesByQuery driver then
    if source.ofContacts then adapter.findContactsRequest lib source.text limit
    else adapter.findLeadsRequest lib source.text (source.given .phone) (source.given .email) limit
  else adapter.findLeadsRequest lib .null (source.given .phone) (source.given .email) limit

/-- A lookup whose request was sent. -/
structure Lookup (lib : Library) where
  environ : String → String
  raw : Json
  adapter : Adapter
  built : adapterOf lib environ (driverOf raw) raw = some (.ok adapter)
  source : Source
  limit : ℕ
  request : Request
  sent : source.request lib adapter (driverOf raw) limit = .ok request

/-! ### What a request asks for -/

/-- A member of the filter in the body. -/
def Request.Filters (request : Request) (field value : String) : Prop :=
  ∃ body, request.body = some body ∧ (body.getD "filter" .null).get? field = some (.str value)

/-- The address under which a template searches a text; none where it has no place for one. -/
def searchPath (base template : String) (limit : ℕ) (text : String) : Option String :=
  if "query" ∈ placeholders none template.toList then
    (buildPath template [("query", text), ("limit", toString limit)]).toOption.map (base ++ ·)
  else none

/-- The address under which an adapter searches a text. -/
def Adapter.searchUrl (adapter : Adapter) (ofContacts : Bool) (limit : ℕ) (text : String) : Option String :=
  match adapter with
  | .bitrix24 .. => none
  | .kommo host _ => some ("https://" ++ host ++ "/api/v4/" ++
      ((if ofContacts then "contacts?limit=" else "leads?limit=") ++ toString limit ++ "&query=" ++ quote text))
  | .onec host basePath _ _ paths =>
    searchPath ("https://" ++ host ++ basePath) (if ofContacts then paths.contacts else paths.find) limit text
  | .customHttp host declared _ =>
    (declared.operation? (if ofContacts then "find_contacts" else "find_leads")).bind fun o =>
      searchPath ("https://" ++ host ++ declared.basePath) o.path limit text

/-- The provider searches a text. -/
def Lookup.Searches {lib : Library} (l : Lookup lib) (text : String) : Prop :=
  text ≠ "" ∧ l.adapter.searchUrl l.source.ofContacts (clampLimit l.limit) text = some l.request.url

/-- A value is what the provider matches: the text it searches, or the phone or the e-mail it filters by. -/
def Lookup.Asks {lib : Library} (l : Lookup lib) (criterion : Criterion) (value : Json) : Prop :=
  (∃ text, value = .str text ∧ l.Searches (strip text)) ∨
    (criterion ≠ .email ∧ ∃ phone, normalizePhone value = .ok phone ∧ l.request.Filters "PHONE" phone) ∨
    (criterion ≠ .phone ∧ ∃ email, normalizeEmail value = .ok email ∧ l.request.Filters "EMAIL" email)

/-- Every criterion that is given is asked for, one at least is, and a contact has the phone and the e-mail that the
provider's row has, or those it was asked for. -/
structure Lookup.AlwaysFiltered {lib : Library} (l : Lookup lib) : Prop where
  asks : ∀ c, (l.source.given c).truthy = true → l.Asks c (l.source.given c)
  narrow : ∃ c, (l.source.given c).truthy = true ∧ l.Asks c (l.source.given c)
  honest : ∀ answer contacts, l.source.ofContacts = true →
    findContactsByMode lib l.adapter (driverOf l.raw) (l.source.given .query) (l.source.given .phone)
      (l.source.given .email) l.limit answer = .ok contacts →
    ∀ contact ∈ contacts, (∃ row, l.adapter.contact lib row = .ok contact) ∨
      ((contact.getD "phone" .null).truthy = true → l.Asks .phone (contact.getD "phone" .null)) ∧
      ((contact.getD "email" .null).truthy = true → l.Asks .email (contact.getD "email" .null))

/-! ### Where a lookup asks for all it was given -/

/-- Where an adapter looks there is a place for a text. -/
def Adapter.TakesText (adapter : Adapter) (ofContacts : Bool) : Prop :=
  match adapter with
  | .bitrix24 .. => False
  | .kommo .. => True
  | .onec _ _ _ _ paths => "query" ∈ placeholders none (if ofContacts then paths.contacts else paths.find).toList
  | .customHttp _ declared _ =>
    ∃ o, declared.operation? (if ofContacts then "find_contacts" else "find_leads") = some o ∧
      "query" ∈ placeholders none o.path.toList

/-- A value that is given is the same as the query, once both are normalized. -/
def Names (normalize : Json → Except Err String) (query value : Json) : Prop :=
  value.truthy = true ∧ ∃ text, normalize query = .ok text ∧ normalize value = .ok text

/-- For Bitrix24, a phone or an e-mail is given, and a query only where it is one of them. For the others there is a
place for a text, and what is given, one value at least, is one text. -/
def Lookup.Covered {lib : Library} (l : Lookup lib) : Prop :=
  match l.adapter with
  | .bitrix24 .. =>
    ((l.source.given .phone).truthy = true ∨ (l.source.given .email).truthy = true) ∧
      ((l.source.given .query).truthy = true → Names normalizePhone (l.source.given .query) (l.source.given .phone) ∨
        Names normalizeEmail (l.source.given .query) (l.source.given .email))
  | adapter =>
    adapter.TakesText l.source.ofContacts ∧ (∃ c, (l.source.given c).truthy = true) ∧
      ∃ text, text ≠ "" ∧ ∀ c, (l.source.given c).truthy = true →
        ∃ raw, l.source.given c = .str raw ∧ strip raw = text

/-! #### Texts in addresses -/

/-- The templates of an adapter that searches by a text are accepted. -/
def Adapter.Declared : Adapter → Prop
  | .bitrix24 .. => False
  | .kommo .. => True
  | .onec _ _ _ _ paths => Accepted paths.find ∧ Accepted paths.contacts
  | .customHttp _ declared _ => ∀ operation o, declared.operation? operation = some o → Accepted o.path

theorem Lookup.adapter_cases {lib : Library} (l : Lookup lib) :
    (searchesByQuery (driverOf l.raw) = false ∧ ∃ baseUrl headers, l.adapter = .bitrix24 baseUrl headers) ∨
      searchesByQuery (driverOf l.raw) = true ∧ l.adapter.Declared := by
  have h := l.built
  unfold adapterOf at h
  split_ifs at h with hbitrix hkommo honec hcustom
  · have h := Option.some.inj h
    simp only [bitrix24Adapter, bind_eq_ok, pure_eq_ok] at h
    obtain ⟨_, -, _, -, _, -, hadapter⟩ := h
    exact .inl ⟨by rw [hbitrix]; decide, _, _, hadapter.symm⟩
  · have h := Option.some.inj h
    simp only [kommoAdapter, bind_eq_ok, pure_eq_ok] at h
    obtain ⟨_, -, _, -, _, -, _, -, _, -, hadapter⟩ := h
    refine .inr ⟨?_, by rw [← hadapter]; trivial⟩
    rcases hkommo with hdriver | hdriver <;> rw [hdriver] <;> decide
  · obtain ⟨_, _, _, _, _, hadapter, hfind, hcontacts, -⟩ := accepted_onec (Option.some.inj h)
    exact .inr ⟨by rw [honec]; decide, by rw [hadapter]; exact ⟨hfind, hcontacts⟩⟩
  · obtain ⟨_, _, _, hadapter, haccepted⟩ := accepted_customHttp (Option.some.inj h)
    exact .inr ⟨by rw [hcustom]; decide, by rw [hadapter]; exact haccepted⟩

section Injective

variable {template : List Piece}

theorem flatMap_lengths (token : String) (f g : String → List Char) (hother : ∀ t, t ≠ token → f t = g t) :
    (template.flatMap (Piece.put f)).length + template.count (.hole token) * (g token).length =
      (template.flatMap (Piece.put g)).length + template.count (.hole token) * (f token).length := by
  induction template with
  | nil => simp
  | cons p template ih =>
    rw [List.flatMap_cons, List.flatMap_cons, List.length_append, List.length_append, List.count_cons]
    cases p with
    | char c =>
      simp only [Piece.put, List.length_singleton, beq_iff_eq, reduceCtorEq, if_false, Nat.add_zero]
      omega
    | hole t =>
      by_cases ht : t = token
      · simp only [Piece.put, ht, beq_self_eq_true, if_true, Nat.add_mul, Nat.one_mul]
        omega
      · have hne : (Piece.hole t == .hole token) = false := by simpa using ht
        simp only [Piece.put, hother t ht, hne, Bool.false_eq_true, if_false, Nat.add_zero]
        omega

/-- A text in its place is read back from the whole. -/
theorem put_injective (token : String) {f g : String → List Char} (hother : ∀ t, t ≠ token → f t = g t)
    (htoken : .hole token ∈ template) (h : template.flatMap (Piece.put f) = template.flatMap (Piece.put g)) :
    f token = g token := by
  have hlen : (f token).length = (g token).length := by
    have hcount := @flatMap_lengths template token f g hother
    rw [h] at hcount
    have hpos := List.count_pos_iff.2 htoken
    exact (Nat.eq_of_mul_eq_mul_left hpos (Nat.add_left_cancel hcount)).symm
  induction template with
  | nil => cases htoken
  | cons p template ih =>
    rw [List.flatMap_cons, List.flatMap_cons] at h
    cases p with
    | char c =>
      exact ih ((List.mem_cons.1 htoken).resolve_left nofun) (List.append_cancel_left h)
    | hole t =>
      by_cases ht : t = token
      · rw [ht] at h
        exact (List.append_inj h hlen).1
      · have hmem := (List.mem_cons.1 htoken).resolve_left fun heq => ht (Piece.hole.inj heq).symm
        rw [Piece.put, Piece.put, hother t ht] at h
        exact ih hmem (List.append_cancel_left h)

end Injective

theorem searchPath_eq_some {base template url : String} {limit : ℕ} {text : String} :
    searchPath base template limit text = some url ↔ "query" ∈ placeholders none template.toList ∧
      ∃ path, buildPath template [("query", text), ("limit", toString limit)] = .ok path ∧ url = base ++ path := by
  unfold searchPath
  split_ifs with hquery
  · rw [and_iff_right hquery]
    cases buildPath template [("query", text), ("limit", toString limit)] with
    | error e => simp [Except.toOption]
    | ok path => simp [Except.toOption, eq_comm]
  · simp [hquery]

theorem safe_slash : ∀ c ∈ ['/'], c.toNat < 128 ∧ c ≠ '%' := by decide

theorem buildPath_injective {template path s t : String} {limit : ℕ} (h : Accepted template)
    (hquery : "query" ∈ placeholders none template.toList)
    (hs : buildPath template [("query", s), ("limit", toString limit)] = .ok path)
    (ht : buildPath template [("query", t), ("limit", toString limit)] = .ok path) : s = t := by
  have heq := (toList_of_buildPath h hs).symm.trans (toList_of_buildPath h ht)
  have hsame := put_injective "query" ?_ (hole_mem_iff.2 hquery) heq
  · exact @quote_injective [] nofun s t (String.toList_injective hsame)
  · intro token htoken
    simp [valueOf, List.find?_cons, Ne.symm htoken]

/-! #### The text of a lookup -/

/-- What is sent of a query: its text, unless it is no text or no place is left for one. -/
def Adapter.Sends (adapter : Adapter) (ofContacts : Bool) (limit : ℕ) (query : Json) (request : Request) : Prop :=
  request.body = none ∧ ∃ raw, query = .str raw ∧ ∀ text, text ≠ "" →
    (adapter.searchUrl ofContacts limit text = some request.url ↔
      adapter.TakesText ofContacts ∧ strip raw = text)

theorem body_of_send {lib : Library} {url method : String} {headers : List (String × String)} {body : Option Json}
    {request : Request} (h : send lib url method headers body = .ok request) : request.body = body := by
  simp only [send, bind_eq_ok, ensure_eq_ok, exists_unit, pure_eq_ok] at h
  obtain ⟨_, -, -, rfl⟩ := h
  rfl

theorem text_of_cleanText {value : Json} {name text : String} {maximum : ℕ}
    (h : cleanText value name maximum false = .ok text) (hvalue : value ≠ .null) :
    ∃ raw, value = .str raw ∧ strip raw = text := by
  unfold cleanText at h
  split at h
  · exact absurd rfl hvalue
  · obtain rfl := pure_eq_ok.1 h
    exact ⟨"", rfl, rfl⟩
  · simp only [bind_eq_ok, ensure_eq_ok, exists_unit, pure_eq_ok] at h
    exact ⟨_, rfl, h.2.2⟩
  · cases h

section Sends

variable {lib : Library} {headers : List (String × String)} {query : Json} {limit : ℕ} {request : Request}

/-- Kommo's query follows the limit. -/
theorem sends_kommo {host head tail : String} (hhead : ∀ text, dropLeadingSlashes (head ++ text) = head ++ text)
    (hquery : query.truthy = true ∨ query = .str "")
    (h : (if query.truthy then do
        let text ← stripped query
        kommoCall lib host headers (head ++ tail ++ "&query=" ++ quote text)
      else kommoCall lib host headers (head ++ tail)) = .ok request) :
    request.body = none ∧ ∃ raw, query = .str raw ∧ ∀ text, text ≠ "" →
      ("https://" ++ host ++ "/api/v4/" ++ (head ++ tail ++ "&query=" ++ quote text) = request.url ↔
        strip raw = text) := by
  rcases hquery with hquery | rfl
  · rw [if_pos hquery] at h
    obtain ⟨text, htext, h⟩ := bind_eq_ok.1 h
    cases query with
    | str raw =>
      obtain rfl := pure_eq_ok.1 htext
      refine ⟨body_of_send h, raw, rfl, fun text _ => ?_⟩
      have hdrop : dropLeadingSlashes (head ++ tail ++ "&query=" ++ quote (strip raw)) =
          head ++ tail ++ "&query=" ++ quote (strip raw) := by
        rw [@String.append_assoc head, @String.append_assoc head]
        exact hhead _
      rw [url_of_send h, hdrop, String.append_right_inj, String.append_right_inj]
      constructor
      · intro heq
        exact (quote_injective safe_slash heq).symm
      · rintro rfl
        rfl
    | _ => cases htext
  · rw [if_neg (by decide)] at h
    refine ⟨body_of_send h, "", rfl, fun text htext => ?_⟩
    refine iff_of_false ?_ fun heq => htext (heq ▸ rfl)
    intro heq
    rw [url_of_send h, hhead, String.append_right_inj] at heq
    have hlen := congrArg String.length heq
    rw [String.length_append, String.length_append] at hlen
    have : "&query=".length = 7 := rfl
    omega

/-- A template has the text in the place of its placeholder. -/
theorem sends_template {base template method : String} (ht : Accepted template)
    (hquery : query.truthy = true ∨ query = .str "")
    (h : (do
      let text ← cleanText query "query" 256 false
      let path ← buildPath template [("query", text), ("limit", toString limit)]
      send lib (base ++ path) method headers none) = .ok request) :
    request.body = none ∧ ∃ raw, query = .str raw ∧ ∀ text, text ≠ "" →
      (searchPath base template limit text = some request.url ↔
        "query" ∈ placeholders none template.toList ∧ strip raw = text) := by
  obtain ⟨text, htext, hpath⟩ := bind_eq_ok.1 h
  obtain ⟨path, hpath, hsend⟩ := bind_eq_ok.1 hpath
  obtain ⟨raw, rfl, rfl⟩ := text_of_cleanText htext fun hnull => by
    rw [hnull] at hquery
    exact hquery.elim nofun nofun
  refine ⟨body_of_send hsend, raw, rfl, fun text _ => ?_⟩
  rw [searchPath_eq_some, url_of_send hsend]
  refine and_congr_right fun hquery => ?_
  constructor
  · rintro ⟨path', hpath', heq⟩
    obtain rfl := (String.append_right_inj base).1 heq
    exact buildPath_injective ht hquery hpath hpath'
  · rintro rfl
    exact ⟨path, hpath, rfl⟩

/-- Both lookups of an adapter that searches by a text. -/
theorem Adapter.Declared.sends {adapter : Adapter} (hdeclared : adapter.Declared) (phone email : Json)
    (hquery : query.truthy = true ∨ query = .str "") (ofContacts : Bool)
    (h : (if ofContacts then adapter.findContactsRequest lib query limit
      else adapter.findLeadsRequest lib query phone email limit) = .ok request) :
    adapter.Sends ofContacts (clampLimit limit) query request := by
  cases adapter with
  | bitrix24 => exact hdeclared.elim
  | kommo host headers =>
    have hleads : ∀ text, dropLeadingSlashes ("leads?limit=" ++ text) = "leads?limit=" ++ text := by
      intro text
      apply String.toList_injective
      rw [dropLeadingSlashes, String.toList_ofList, String.toList_append]
      rfl
    have hcontacts : ∀ text, dropLeadingSlashes ("contacts?limit=" ++ text) = "contacts?limit=" ++ text := by
      intro text
      apply String.toList_injective
      rw [dropLeadingSlashes, String.toList_ofList, String.toList_append]
      rfl
    cases ofContacts with
    | false =>
      obtain ⟨hbody, raw, hraw, hurl⟩ := sends_kommo hleads hquery h
      refine ⟨hbody, raw, hraw, fun text htext => ?_⟩
      rw [Adapter.TakesText, true_and, ← hurl text htext]
      exact Option.some_inj
    | true =>
      obtain ⟨hbody, raw, hraw, hurl⟩ := sends_kommo hcontacts hquery h
      refine ⟨hbody, raw, hraw, fun text htext => ?_⟩
      rw [Adapter.TakesText, true_and, ← hurl text htext]
      exact Option.some_inj
  | onec host basePath headers responseMap paths =>
    cases ofContacts with
    | false => exact sends_template hdeclared.1 hquery h
    | true => exact sends_template hdeclared.2 hquery h
  | customHttp host declared headers =>
    have hcall : ∀ operation, (do
        let text ← cleanText query "query" 256 false
        customHttpCall lib host declared headers operation
          [("query", text), ("limit", toString (clampLimit limit))]) = .ok request →
        request.body = none ∧ ∃ raw, query = .str raw ∧ ∀ text, text ≠ "" →
          ((declared.operation? operation).bind (fun o =>
              searchPath ("https://" ++ host ++ declared.basePath) o.path (clampLimit limit) text) = some request.url ↔
            (∃ o, declared.operation? operation = some o ∧ "query" ∈ placeholders none o.path.toList) ∧
              strip raw = text) := by
      intro operation hsent
      obtain ⟨text, htext, hsend⟩ := bind_eq_ok.1 hsent
      simp only [customHttpCall, CustomHttp.operation, bind_eq_ok, need_eq_ok] at hsend
      obtain ⟨o, ho, hsend⟩ := hsend
      have hpath : (do
          let text ← cleanText query "query" 256 false
          let path ← buildPath o.path [("query", text), ("limit", toString (clampLimit limit))]
          send lib (("https://" ++ host ++ declared.basePath) ++ path) o.method headers none) = .ok request :=
        bind_eq_ok.2 ⟨text, htext, bind_eq_ok.2 hsend⟩
      simpa [ho] using sends_template (hdeclared operation o ho) hquery hpath
    cases ofContacts with
    | false => exact hcall "find_leads" h
    | true => exact hcall "find_contacts" h

end Sends

/-! #### The filter of Bitrix24 -/

theorem normalizePhone_ne {value : Json} {phone : String} (h : normalizePhone value = .ok phone) : phone ≠ "" := by
  cases value with
  | str text =>
    simp only [normalizePhone, bind_eq_ok, ensure_eq_ok, exists_unit, pure_eq_ok] at h
    obtain ⟨-, hphone, rfl⟩ := h
    intro hempty
    rw [String.ofList_injective hempty] at hphone
    cases hphone
  | _ => cases h

theorem normalizeEmail_ne {value : Json} {email : String} (h : normalizeEmail value = .ok email) : email ≠ "" := by
  cases value with
  | str text =>
    simp only [normalizeEmail, bind_eq_ok, ensure_eq_ok, exists_unit, pure_eq_ok] at h
    obtain ⟨hemail, rfl⟩ := h
    intro hempty
    rw [List.map_eq_nil_iff.1 (String.ofList_injective hempty)] at hemail
    exact absurd hemail.1 (by decide)
  | _ => cases h

theorem given_eq_ok {normalize : Json → Except Err String} {value : Json} {text : String}
    (hne : ∀ {t}, normalize value = .ok t → t ≠ "") (h : given normalize value = .ok text) (t : String) :
    (text ≠ "" ∧ text = t) ↔ value.truthy = true ∧ normalize value = .ok t := by
  unfold given at h
  split_ifs at h with hvalue
  · rw [and_iff_right hvalue, h, Except.ok.injEq, and_iff_right (hne h)]
  · obtain rfl := pure_eq_ok.1 h
    simp [hvalue]

/-- The filter has the phone and the e-mail that are given. -/
theorem filters_bitrix24 {lib : Library} {baseUrl : String} {headers : List (String × String)} {query phone email : Json}
    {limit : ℕ} {request : Request}
    (h : (Adapter.bitrix24 baseUrl headers).findLeadsRequest lib query phone email limit = .ok request) (t : String) :
    (request.Filters "PHONE" t ↔ phone.truthy = true ∧ normalizePhone phone = .ok t) ∧
      (request.Filters "EMAIL" t ↔ email.truthy = true ∧ normalizeEmail email = .ok t) := by
  obtain ⟨filter, hfilter, hcall⟩ := bind_eq_ok.1 h
  simp only [bitrix24Filter, bind_eq_ok, pure_eq_ok] at hfilter
  obtain ⟨p, hp, e, he, rfl⟩ := hfilter
  rw [← given_eq_ok normalizePhone_ne hp, ← given_eq_ok normalizeEmail_ne he]
  have hbody : ∀ field, request.Filters field t ↔
      (Json.obj (([("PHONE", .str p), ("EMAIL", .str e)] : List (String × Json)).filter
        fun m => !m.2.isEmptyText)).get? field = some (.str t) := by
    intro field
    simp only [Request.Filters, body_of_send hcall, Option.some.injEq, exists_eq_left']
    rfl
  rw [hbody, hbody]
  by_cases hp : p = ""
  · by_cases he : e = ""
    · simp [Json.get?, Json.isEmptyText, hp, he]
    · simp [Json.get?, Json.isEmptyText, hp, he]
  · by_cases he : e = ""
    · simp [Json.get?, Json.isEmptyText, hp, he]
    · simp [Json.get?, Json.isEmptyText, hp, he]

/-- What is given was accepted. -/
theorem names_bitrix24 {lib : Library} {baseUrl : String} {headers : List (String × String)} {query phone email : Json}
    {limit : ℕ} {request : Request}
    (h : (Adapter.bitrix24 baseUrl headers).findLeadsRequest lib query phone email limit = .ok request) :
    (phone.truthy = true → Names normalizePhone phone phone) ∧ (email.truthy = true → Names normalizeEmail email email) := by
  obtain ⟨filter, hfilter, -⟩ := bind_eq_ok.1 h
  simp only [bitrix24Filter, bind_eq_ok, pure_eq_ok, given] at hfilter
  obtain ⟨p, hp, e, he, -⟩ := hfilter
  constructor
  · intro hphone
    rw [if_pos hphone] at hp
    exact ⟨hphone, p, hp, hp⟩
  · intro hemail
    rw [if_pos hemail] at he
    exact ⟨hemail, e, he, he⟩

/-! #### Lookups that ask for all -/

theorem Source.text_cases (source : Source) :
    (∃ c, (source.given c).truthy = true ∧ source.text = source.given c) ∨
      (∀ c, (source.given c).truthy ≠ true) ∧ source.text = .str "" := by
  by_cases hquery : (source.given .query).truthy = true
  · exact .inl ⟨.query, hquery, if_pos hquery⟩
  by_cases hphone : (source.given .phone).truthy = true
  · exact .inl ⟨.phone, hphone, (if_neg hquery).trans (if_pos hphone)⟩
  by_cases hemail : (source.given .email).truthy = true
  · exact .inl ⟨.email, hemail, (if_neg hquery).trans ((if_neg hphone).trans (if_pos hemail))⟩
  · refine .inr ⟨?_, (if_neg hquery).trans ((if_neg hphone).trans (if_neg hemail))⟩
    intro c
    cases c with
    | query => exact hquery
    | phone => exact hphone
    | email => exact hemail

section Lookups

variable {lib : Library} {l : Lookup lib}

/-- Bitrix24 is asked for what the phone and the e-mail name. -/
theorem Lookup.asks_bitrix24_iff {baseUrl : String} {headers : List (String × String)}
    (hadapter : l.adapter = .bitrix24 baseUrl headers)
    (hmode : searchesByQuery (driverOf l.raw) = false) {c : Criterion} {value : Json} :
    l.Asks c value ↔ (c ≠ .email ∧ Names normalizePhone value (l.source.given .phone)) ∨
      (c ≠ .phone ∧ Names normalizeEmail value (l.source.given .email)) := by
  have hsent := l.sent
  rw [Source.request, hmode, if_neg (by decide), hadapter] at hsent
  have hsearches : ∀ text, ¬ l.Searches text := by
    rintro text ⟨-, hurl⟩
    rw [hadapter] at hurl
    cases hurl
  have hphone := fun t => (filters_bitrix24 hsent t).1
  have hemail := fun t => (filters_bitrix24 hsent t).2
  simp only [Lookup.Asks, hsearches, and_false, exists_false, false_or, hphone, hemail, Names]
  constructor
  · rintro (⟨hc, t, hvalue, htruthy, ht⟩ | ⟨hc, t, hvalue, htruthy, ht⟩)
    · exact .inl ⟨hc, htruthy, t, hvalue, ht⟩
    · exact .inr ⟨hc, htruthy, t, hvalue, ht⟩
  · rintro (⟨hc, htruthy, t, hvalue, ht⟩ | ⟨hc, htruthy, t, hvalue, ht⟩)
    · exact .inl ⟨hc, t, hvalue, htruthy, ht⟩
    · exact .inr ⟨hc, t, hvalue, htruthy, ht⟩

/-- The others are asked for the text that is sent. -/
theorem Lookup.asks_text_iff (hdeclared : l.adapter.Declared) (hmode : searchesByQuery (driverOf l.raw) = true) :
    ∃ raw, l.source.text = .str raw ∧ ∀ c value, l.Asks c value ↔ l.adapter.TakesText l.source.ofContacts ∧
      strip raw ≠ "" ∧ ∃ text, value = .str text ∧ strip text = strip raw := by
  have hsent := l.sent
  rw [Source.request, hmode, if_pos rfl] at hsent
  have htext : l.source.text.truthy = true ∨ l.source.text = .str "" := by
    rcases l.source.text_cases with ⟨c, hc, heq⟩ | ⟨-, heq⟩
    · exact .inl (heq ▸ hc)
    · exact .inr heq
  obtain ⟨hbody, raw, hraw, hurl⟩ := hdeclared.sends _ _ htext _ hsent
  have hfilters : ∀ field text, ¬ l.request.Filters field text := by
    rintro field text ⟨body, hsome, -⟩
    rw [hbody] at hsome
    cases hsome
  refine ⟨raw, hraw, fun c value => ?_⟩
  simp only [Lookup.Asks, Lookup.Searches, hfilters, and_false, exists_false, or_false]
  constructor
  · rintro ⟨text, rfl, hne, hsearch⟩
    obtain ⟨htakes, heq⟩ := (hurl _ hne).1 hsearch
    exact ⟨htakes, heq ▸ hne, text, rfl, heq.symm⟩
  · rintro ⟨htakes, hne, text, rfl, heq⟩
    exact ⟨text, rfl, heq ▸ hne, (hurl _ (heq ▸ hne)).2 ⟨htakes, heq.symm⟩⟩

/-- A contact is a row of the provider, or has what the lookup was given. -/
theorem contact_cases {adapter : Adapter} {driver : String} {query phone email : Json} {limit : ℕ}
    {answer : Except Err Json} {contacts : List Json}
    (h : findContactsByMode lib adapter driver query phone email limit answer = .ok contacts) {contact : Json}
    (hmem : contact ∈ contacts) : (∃ row, adapter.contact lib row = .ok contact) ∨
      searchesByQuery driver = false ∧ contact.getD "phone" .null = firstTruthy [phone, .str ""] ∧
        contact.getD "email" .null = firstTruthy [email, .str ""] := by
  unfold findContactsByMode at h
  split_ifs at h with hmode
  · simp only [bind_eq_ok] at h
    obtain ⟨_, -, _, -, rows, -, hcontacts⟩ := h
    obtain ⟨row, -, hrow⟩ := exists_of_mem_right (mapM_eq_ok.1 hcontacts) hmem
    exact .inl ⟨row, hrow⟩
  · simp only [bind_eq_ok, pure_eq_ok] at h
    obtain ⟨_, -, _, -, leads, -, rfl⟩ := h
    obtain ⟨lead, -, rfl⟩ := List.mem_map.1 hmem
    exact .inr ⟨by simpa using hmode, rfl, rfl⟩

theorem firstTruthy_pair {value : Json} (h : (firstTruthy [value, .str ""]).truthy = true) :
    value.truthy = true ∧ firstTruthy [value, .str ""] = value := by
  unfold firstTruthy at h ⊢
  split_ifs at h ⊢ with hvalue
  · exact ⟨hvalue, rfl⟩
  · cases h

end Lookups

/-- A connection to Bitrix24. -/
def bitrixConnection : Json :=
  .obj [("driver", .str "bitrix24"), ("host", .str "acme.bitrix24.uz"),
    ("allowed_hosts", .arr [.str "acme.bitrix24.uz"]), ("token_env", .str "B24_TOKEN")]

/-- A lead searched by its name. -/
def nameSearch : Source := .leadSearch (.obj [("connection", .str "crm"), ("query", .str "Ali")])

/-- The search is sent. -/
def nameSent : Bool :=
  match adapterOf sampleLibrary (fun _ => "secret") (driverOf bitrixConnection) bitrixConnection with
  | some (.ok adapter) => (nameSearch.request sampleLibrary adapter (driverOf bitrixConnection) 20).isOk
  | _ => false

end AgentPlatform.Crm
