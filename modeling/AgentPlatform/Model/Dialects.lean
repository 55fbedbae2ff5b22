import AgentPlatform.Model.Response

/-!
# One rule for every dialect

What the three parsers accept, and where they agree. The loop of `bounded_shape` accepts exactly the values within its
two bounds (`boundedShape_eq_ok_iff`). The text dialects refuse the words `NaN` and `Infinity`, and read a literal that
overflows as an infinity; the tool dialect writes its input again, which refuses infinities and lone surrogates, and
measures what it wrote. So one rule holds for a decision text exactly where no literal of it overflows, no string of it
has a lone surrogate, and it is no longer than the limit once it is written again (`oneRule_iff`).
-/

namespace AgentPlatform.Model

open Outcome PyJson

/-! ### Shape -/

/-- Depth and nodes within their bounds. -/
def Bounded {F : Type} (value : Value F) : Prop := value.depth ≤ maxJsonDepth ∧ value.nodes ≤ maxJsonNodes

theorem itemsDepth_le_iff {items : List Json} {depth most : ℕ} (hdepth : depth ≤ most) :
    depth + itemsDepth items ≤ most ↔ ∀ item ∈ items, depth + 1 + item.depth ≤ most := by
  induction items with
  | nil => simp [itemsDepth, hdepth]
  | cons item items ih =>
    rw [itemsDepth, List.forall_mem_cons, ← ih]
    omega

theorem membersDepth_eq (members : Members) : membersDepth members = itemsDepth (members.map Prod.snd) := by
  induction members with
  | nil => rfl
  | cons m members ih =>
    obtain ⟨key, value⟩ := m
    rw [membersDepth, List.map_cons, itemsDepth, ih]

theorem membersNodes_eq (members : Members) : membersNodes members = itemsNodes (members.map Prod.snd) := by
  induction members with
  | nil => rfl
  | cons m members ih =>
    obtain ⟨key, value⟩ := m
    rw [membersNodes, List.map_cons, itemsNodes, ih]

theorem depth_eq (value : Json) : value.depth = itemsDepth (children value) := by
  cases value with
  | obj members => exact membersDepth_eq members
  | _ => rfl

theorem nodes_eq (value : Json) : value.nodes = itemsNodes (children value) + 1 := by
  cases value with
  | obj members => exact congrArg (· + 1) (membersNodes_eq members)
  | _ => rfl

theorem itemsNodes_eq (items : List Json) : itemsNodes items = (items.map Value.nodes).sum := by
  induction items with
  | nil => rfl
  | cons item items ih => rw [itemsNodes, ih, List.map_cons, List.sum_cons]

/-- The loop ends well where every node of the stack is within the depth that is left for it, and all their nodes
together may still be visited. -/
theorem shapeLoop_eq_ok_iff (left : ℕ) (stack : List (Json × ℕ)) :
    shapeLoop left stack = .ok () ↔
      (∀ p ∈ stack, p.2 + p.1.depth ≤ maxJsonDepth) ∧ (stack.map fun p => p.1.nodes).sum ≤ left := by
  induction left generalizing stack with
  | zero =>
    cases stack with
    | nil => simp [shapeLoop]
    | cons p stack =>
      have hnodes := nodes_eq p.1
      simp [shapeLoop, hnodes]
  | succ left ih =>
    cases stack with
    | nil => simp [shapeLoop]
    | cons p stack =>
      obtain ⟨node, depth⟩ := p
      rw [shapeLoop, List.forall_mem_cons]
      split_ifs with hdeep
      · refine ⟨fun h => (by cases h), fun h => ?_⟩
        have := h.1.1
        dsimp only at this
        omega
      · -- The children take the place of the node, one level down.
        have hchildren : (∀ p ∈ (((children node).map fun child => (child, depth + 1)).reverse ++ stack),
            p.2 + p.1.depth ≤ maxJsonDepth) ↔
            depth + node.depth ≤ maxJsonDepth ∧ ∀ p ∈ stack, p.2 + p.1.depth ≤ maxJsonDepth := by
          rw [depth_eq, itemsDepth_le_iff (not_lt.1 hdeep), List.forall_mem_append]
          simp
        have hnodes : ((((children node).map fun child => (child, depth + 1)).reverse ++ stack).map
            fun p => p.1.nodes).sum = itemsNodes (children node) + (stack.map fun p => p.1.nodes).sum := by
          rw [List.map_append, List.sum_append, List.map_reverse, List.sum_reverse, List.map_map, itemsNodes_eq]
          rfl
        rw [ih, hchildren, hnodes, List.map_cons, List.sum_cons]
        dsimp only
        rw [nodes_eq node, show itemsNodes (children node) + 1 + (stack.map fun p => p.1.nodes).sum ≤ left + 1 ↔
          itemsNodes (children node) + (stack.map fun p => p.1.nodes).sum ≤ left by omega]

variable {value : Json}

theorem boundedShape_eq_ok_iff {result : Json} :
    boundedShape value = .ok result ↔ value = result ∧ Bounded value := by
  unfold boundedShape
  rw [bind_eq_ok, exists_unit, shapeLoop_eq_ok_iff, pure_eq_ok]
  simp [Bounded, and_comm]

/-! ### Finite numbers -/

/-- Only finite numbers. -/
def Finite (value : Json) : Prop := value.Numbers (fun x => x.isFinite = true) fun _ => True

/-- A literal whose nearest double is finite. -/
def Fits (l : Literal) : Prop := |Binary64.nearest l.magnitude| < Binary64.pow2 1024

theorem isFinite_ofLiteral (l : Literal) : (Double.ofLiteral l).isFinite = true ↔ Fits l := by
  unfold Double.isFinite Double.ofLiteral Binary64.ofRat Fits
  split_ifs with h
  · simp [Binary64.value?, h]
  · simp [Binary64.value?, h]

theorem finite_map_iff (w : Value Literal) :
    Finite (w.map Double.ofLiteral) ↔ w.Numbers Fits fun _ => True := by
  unfold Finite
  rw [numbers_map]
  simp only [isFinite_ofLiteral]

/-! ### Decision texts -/

/-- The hooks of a decision, with the literals kept. -/
def literalHooks : Hooks Literal where
  parseFloat := id
  parseConstant := rejectConstant
  pairs := uniqueObject

theorem decisionHooks_eq : decisionHooks = literalHooks.map Double.ofLiteral := rfl

/-- A text that `decision_from_text` accepts, with the object that is read from it. -/
structure Decided (python : Python) (maximumBytes : ℕ) (text : Text) (object : Value Literal) : Prop where
  size : ∃ size, utf8Size text = some size ∧ 1 ≤ size ∧ size ≤ maximumBytes
  loaded : loads python.readLimit literalHooks text = .ok object
  isObject : ∃ members, object = .obj members
  bounded : Bounded object

theorem bounded_map (w : Value Literal) : Bounded (w.map Double.ofLiteral) ↔ Bounded w := by
  unfold Bounded
  rw [depth_map, nodes_map]

theorem asObject_eq_ok_iff {message : String} {members : Members} :
    asObject value message = .ok members ↔ value = .obj members := by
  cases value <;> simp [asObject]

theorem isObject_map (w : Value Literal) :
    (∃ members, w.map Double.ofLiteral = .obj members) ↔ ∃ members, w = .obj members := by
  cases w <;> simp [Value.map]

variable {python : Python} {maximumBytes : ℕ}

theorem decisionFromText_eq_ok_iff {text : Json} :
    decisionFromText python text maximumBytes = .ok value ↔ ∃ t w, text = .str t ∧
      Decided python maximumBytes t w ∧ w.map Double.ofLiteral = value := by
  cases text with
  | str t =>
    simp only [decisionFromText, bind_eq_ok, need_eq_ok, ensure_eq_ok, exists_unit, mapError_eq_ok, decisionHooks_eq,
      loads_map, map_eq_ok, asObject_eq_ok_iff, boundedShape_eq_ok_iff]
    constructor
    · rintro ⟨size, hsize, hbounds, _, ⟨w, hw, rfl⟩, members, hmembers, rfl, hbounded⟩
      exact ⟨t, w, rfl, ⟨⟨size, hsize, hbounds⟩, hw, (isObject_map w).1 ⟨members, hmembers⟩, (bounded_map w).1 hbounded⟩,
        rfl⟩
    · rintro ⟨_, w, ht, ⟨⟨size, hsize, hbounds⟩, hw, hobject, hbounded⟩, rfl⟩
      obtain rfl := Value.str.inj ht
      obtain ⟨members, hmembers⟩ := (isObject_map w).2 hobject
      exact ⟨size, hsize, hbounds, _, ⟨w, hw, rfl⟩, members, hmembers, rfl, (bounded_map w).2 hbounded⟩
  | _ => simp [decisionFromText]

theorem short_of_loads {t : Text} {w : Value Literal} (h : loads python.readLimit literalHooks t = .ok w) :
    w.Numbers (fun _ => True) Short := by
  refine numbers_loads ⟨fun _ => trivial, fun _ _ _ => trivial, fun l n hl hn => ?_⟩ h
  exact short_of_toInt hl hn

/-! ### The tool dialect -/

/-- A block that calls a tool. -/
def toolBlock (name : Text) (arguments : Json) : Members :=
  [(ofString "type", .str (ofString "tool_use")), (ofString "name", .str name), (ofString "input", arguments)]

/-- A `tools` turn that calls a tool. -/
def toolResponse (name : Text) (arguments : Json) : Json :=
  .obj [(ofString "type", .str (ofString "message")), (ofString "stop_reason", .str (ofString "tool_use")),
    (ofString "content", .arr [.obj (toolBlock name arguments)])]

/-- The tool dialect accepts an input, under every name. -/
def ToolAccepts (python : Python) (maximumBytes : ℕ) (arguments : Json) : Prop :=
  ∀ name : Text, 1 ≤ name.length → name.length ≤ maxToolNameChars →
    parseAnthropicToolCall python (toolResponse name arguments) maximumBytes = .ok (name, arguments)

variable {name : Text} {arguments : Json}

theorem toolInput_eq_ok_iff {block : Members} :
    toolInput python block maximumBytes = .ok (name, arguments) ↔
      toolName (get block "name") = .ok name ∧ get block "input" = arguments ∧ (∃ members, arguments = .obj members) ∧
        (∃ size, (python.written arguments).bind utf8Size = some size ∧ size ≤ maximumBytes) ∧ Bounded arguments := by
  simp only [toolInput, bind_eq_ok, need_eq_ok, ensure_eq_ok, exists_unit, pure_eq_ok, asObject_eq_ok_iff,
    boundedShape_eq_ok_iff, Prod.mk.injEq]
  constructor
  · rintro ⟨_, hname, members, hobject, size, hsize, hle, _, ⟨harguments, hbounded⟩, rfl, rfl⟩
    rw [← harguments]
    exact ⟨hname, rfl, ⟨members, hobject⟩, ⟨size, hsize, hle⟩, hbounded⟩
  · rintro ⟨hname, rfl, ⟨members, hobject⟩, ⟨size, hsize, hle⟩, hbounded⟩
    exact ⟨name, hname, members, hobject, size, hsize, hle, _, ⟨rfl, hbounded⟩, rfl, rfl⟩

theorem floatText_isSome (python : Python) (x : Double) : (python.floatText x).isSome = true ↔ x.isFinite = true := by
  unfold Python.floatText
  split_ifs with h <;> simp [h]

theorem isChar_floatText (x : Double) (text : Text) (h : python.floatText x = some text) :
    text.all Code.isChar = true := by
  unfold Python.floatText at h
  split_ifs at h
  obtain rfl := Option.some.inj h
  exact isChar_ofString _

/-- What is written has a size where its numbers are finite, its integers are short and its texts can be encoded. -/
theorem written_size_iff (python : Python) (hdepth : value.depth ≤ maxJsonDepth) :
    (∃ size, (python.written value).bind utf8Size = some size) ↔
      value.Numbers (fun x => x.isFinite = true) Short ∧ value.Encodable := by
  have hnumbers : (dumps python.floatText value).isSome = true ↔ _ := dumps_isSome_iff value
  simp only [floatText_isSome] at hnumbers
  unfold Python.written
  rw [if_pos (hdepth.trans python.deep), ← hnumbers]
  constructor
  · rintro ⟨size, h⟩
    obtain ⟨text, htext, hsize⟩ := Option.bind_eq_some_iff.1 h
    refine ⟨Option.isSome_iff_exists.2 ⟨text, htext⟩, (isChar_dumps isChar_floatText value text htext).1 ?_⟩
    exact (utf8Size_isSome_iff text).1 (Option.isSome_iff_exists.2 ⟨size, hsize⟩)
  · rintro ⟨hwritten, hencodable⟩
    obtain ⟨text, htext⟩ := Option.isSome_iff_exists.1 hwritten
    have hchars := (isChar_dumps isChar_floatText value text htext).2 hencodable
    obtain ⟨size, hsize⟩ := Option.isSome_iff_exists.1 ((utf8Size_isSome_iff text).2 hchars)
    exact ⟨size, Option.bind_eq_some_iff.2 ⟨text, htext, hsize⟩⟩

theorem parse_toolResponse (python : Python) (name : Text) (arguments : Json) (maximumBytes : ℕ) :
    parseAnthropicToolCall python (toolResponse name arguments) maximumBytes =
      toolInput python (toolBlock name arguments) maximumBytes := rfl

theorem toolName_eq_ok_iff {text : Text} :
    toolName (.str name) = .ok text ↔ (1 ≤ name.length ∧ name.length ≤ maxToolNameChars) ∧ name = text := by
  simp only [toolName, bind_eq_ok, ensure_eq_ok, exists_unit, pure_eq_ok]

theorem toolAccepts_iff :
    ToolAccepts python maximumBytes arguments ↔ (∃ members, arguments = .obj members) ∧
      (∃ size, (python.written arguments).bind utf8Size = some size ∧ size ≤ maximumBytes) ∧ Bounded arguments := by
  constructor
  · intro h
    have hone := h (ofString "a") (by decide) (by decide)
    rw [parse_toolResponse, toolInput_eq_ok_iff] at hone
    exact hone.2.2
  · intro h name hpos hle
    rw [parse_toolResponse, toolInput_eq_ok_iff]
    exact ⟨toolName_eq_ok_iff.2 ⟨⟨hpos, hle⟩, rfl⟩, rfl, h⟩

/-! ### One rule -/

/-- What may be said of a decision. -/
structure Sound (python : Python) (maximumBytes : ℕ) (decision : Json) : Prop where
  finite : Finite decision
  bounded : Bounded decision
  /-- The tool dialect accepts the same object. -/
  tool : ToolAccepts python maximumBytes decision

/-- Whatever a dialect accepts of a response is finite and bounded, and the tool dialect accepts what a text dialect
does. -/
structure OneRule (python : Python) (response : Json) (maximumBytes : ℕ) : Prop where
  chat : ∀ decision, parseDecision python response maximumBytes = .ok decision → Sound python maximumBytes decision
  anthropic : ∀ decision, parseAnthropicDecision python response maximumBytes = .ok decision →
    Sound python maximumBytes decision
  tool : ∀ name arguments, parseAnthropicToolCall python response maximumBytes = .ok (name, arguments) →
    Finite arguments ∧ Bounded arguments

/-- No literal of an object overflows, no text has a lone surrogate, and it is not too long once it is written. -/
structure Agrees (python : Python) (maximumBytes : ℕ) (object : Value Literal) : Prop where
  fits : object.Numbers Fits fun _ => True
  encodable : object.Encodable
  size : ∀ size, (python.written (object.map Double.ofLiteral)).bind utf8Size = some size → size ≤ maximumBytes

/-- A decision that is read from a text is sound exactly where the text agrees. -/
theorem sound_iff {t : Text} {w : Value Literal} (h : Decided python maximumBytes t w) :
    Sound python maximumBytes (w.map Double.ofLiteral) ↔ Agrees python maximumBytes w := by
  have hbounded := (bounded_map w).2 h.bounded
  have hsize := written_size_iff python hbounded.1
  constructor
  · rintro ⟨hfinite, -, htool⟩
    obtain ⟨-, ⟨size, hwritten, hle⟩, -⟩ := toolAccepts_iff.1 htool
    refine ⟨(finite_map_iff w).1 hfinite, (encodable_map w).1 (hsize.1 ⟨size, hwritten⟩).2, fun size' h' => ?_⟩
    obtain rfl := Option.some.inj (hwritten.symm.trans h')
    exact hle
  · rintro ⟨hfits, hencodable, hle⟩
    have hnumbers : (w.map Double.ofLiteral).Numbers (fun x => x.isFinite = true) Short := by
      rw [numbers_map, numbers_iff]
      simp only [isFinite_ofLiteral]
      exact ⟨hfits, short_of_loads h.loaded⟩
    obtain ⟨size, hwritten⟩ := hsize.2 ⟨hnumbers, (encodable_map w).2 hencodable⟩
    exact ⟨(finite_map_iff w).2 hfits, hbounded,
      toolAccepts_iff.2 ⟨(isObject_map w).2 h.isObject, ⟨size, hwritten, hle size hwritten⟩, hbounded⟩⟩

variable {response : Json}

theorem tool_sound (h : parseAnthropicToolCall python response maximumBytes = .ok (name, arguments)) :
    Finite arguments ∧ Bounded arguments := by
  obtain ⟨content, -, h⟩ := bind_eq_ok.1 h
  obtain ⟨block, -, h⟩ := bind_eq_ok.1 h
  obtain ⟨-, -, -, ⟨size, hsize, -⟩, hbounded⟩ := toolInput_eq_ok_iff.1 h
  have hnumbers := ((written_size_iff python hbounded.1).1 ⟨size, hsize⟩).1
  exact ⟨(numbers_iff.1 hnumbers).1, hbounded⟩

/-- A response hands a text over to `decision_from_text`, in one of the text dialects. -/
def HandsOver (response : Json) (text : Text) : Prop :=
  choiceContent response = .ok (.str text) ∨ anthropicText response = .ok (.str text)

theorem parseDecision_eq_ok_iff {decision : Json} :
    parseDecision python response maximumBytes = .ok decision ↔ ∃ t w, choiceContent response = .ok (.str t) ∧
      Decided python maximumBytes t w ∧ w.map Double.ofLiteral = decision := by
  simp only [parseDecision, bind_eq_ok, decisionFromText_eq_ok_iff]
  constructor
  · rintro ⟨_, hcontent, t, w, rfl, hw⟩
    exact ⟨t, w, hcontent, hw⟩
  · rintro ⟨t, w, hcontent, hw⟩
    exact ⟨_, hcontent, t, w, rfl, hw⟩

theorem parseAnthropicDecision_eq_ok_iff {decision : Json} :
    parseAnthropicDecision python response maximumBytes = .ok decision ↔ ∃ t w, anthropicText response = .ok (.str t) ∧
      Decided python maximumBytes t w ∧ w.map Double.ofLiteral = decision := by
  simp only [parseAnthropicDecision, bind_eq_ok, decisionFromText_eq_ok_iff]
  constructor
  · rintro ⟨_, htext, t, w, rfl, hw⟩
    exact ⟨t, w, htext, hw⟩
  · rintro ⟨t, w, htext, hw⟩
    exact ⟨_, htext, t, w, rfl, hw⟩

/-- One rule holds for a response exactly where every decision text that is accepted of it agrees. -/
theorem oneRule_iff (python : Python) (response : Json) (maximumBytes : ℕ) :
    OneRule python response maximumBytes ↔ ∀ text object, HandsOver response text →
      Decided python maximumBytes text object → Agrees python maximumBytes object := by
  constructor
  · rintro h text object (hover | hover) hdecided
    · exact (sound_iff hdecided).1 (h.chat _ (parseDecision_eq_ok_iff.2 ⟨text, object, hover, hdecided, rfl⟩))
    · exact (sound_iff hdecided).1
        (h.anthropic _ (parseAnthropicDecision_eq_ok_iff.2 ⟨text, object, hover, hdecided, rfl⟩))
  · intro h
    refine ⟨fun decision hdecision => ?_, fun decision hdecision => ?_, fun name arguments => tool_sound⟩
    · obtain ⟨t, w, hover, hdecided, rfl⟩ := parseDecision_eq_ok_iff.1 hdecision
      exact (sound_iff hdecided).2 (h t w (.inl hover) hdecided)
    · obtain ⟨t, w, hover, hdecided, rfl⟩ := parseAnthropicDecision_eq_ok_iff.1 hdecision
      exact (sound_iff hdecided).2 (h t w (.inr hover) hdecided)

/-- A Chat Completions response with `{"a":1e999}` for its content. -/
def overflowing : Json :=
  .obj [(ofString "choices", .arr [.obj [(ofString "finish_reason", .str (ofString "stop")),
    (ofString "message", .obj [(ofString "content", .str (ofString "\x7b\"a\":1e999\x7d"))])]])]

/-- The one literal of it. -/
def overflow : Literal := ⟨false, ['1'], none, some (false, ['9', '9', '9'])⟩

theorem pow2_le_ten {n m : ℕ} (h : n ≤ m) : Binary64.pow2 ((2 * n : ℕ) : ℤ) ≤ 10 ^ m := by
  rw [Binary64.pow2_eq, zpow_natCast, pow_mul]
  calc ((2 : ℚ) ^ 2) ^ n ≤ 10 ^ n := pow_le_pow_left₀ (by norm_num) (by norm_num) n
    _ ≤ 10 ^ m := pow_le_pow_right₀ (by norm_num) h

theorem not_fits_overflow : ¬Fits overflow := by
  have hvalue : overflow.magnitude = 10 ^ 999 := by
    have hone : Nat.ofDigitChars 10 ['1'] 0 = 1 := rfl
    have hexp : Nat.ofDigitChars 10 ['9', '9', '9'] 0 = 999 := rfl
    simp [Literal.magnitude, overflow, hone, hexp]
  unfold Fits
  rw [not_lt, hvalue]
  refine Binary64.pow2_le_abs_nearest (by norm_num) ?_
  have hexp : (1024 : ℤ) = ((2 * 512 : ℕ) : ℤ) := by norm_num
  rw [hexp, abs_of_pos (by positivity)]
  exact pow2_le_ten (by norm_num)

/-- The only member of an object, where it is a float. -/
def onlyFloat : Except Error (Value Literal) → Option (Text × Literal)
  | .ok (.obj [(key, .float l)]) => some (key, l)
  | _ => none

theorem eq_of_onlyFloat {x : Except Error (Value Literal)} {key : Text} {l : Literal} (h : onlyFloat x = some (key, l)) :
    x = .ok (.obj [(key, .float l)]) := by
  unfold onlyFloat at h
  split at h
  · obtain ⟨rfl, rfl⟩ := Prod.mk.inj (Option.some.inj h)
    rfl
  · cases h

theorem loads_overflow :
    loads 1000 literalHooks (ofString "\x7b\"a\":1e999\x7d") = .ok (.obj [(ofString "a", .float overflow)]) :=
  eq_of_onlyFloat (by decide +kernel)

theorem not_oneRule_overflowing : ¬∀ python : Python, OneRule python overflowing maxDecisionBytes := by
  intro h
  let python : Python := ⟨1000, 1000, fun _ => "0.0", by decide⟩
  have hdecided : Decided python maxDecisionBytes (ofString "\x7b\"a\":1e999\x7d")
      (.obj [(ofString "a", .float overflow)]) :=
    ⟨⟨11, by decide +kernel, by decide, by decide⟩, loads_overflow, ⟨_, rfl⟩, by decide, by decide⟩
  have hover : choiceContent overflowing = .ok (.str (ofString "\x7b\"a\":1e999\x7d")) := rfl
  have haccepted := parseDecision_eq_ok_iff.2 ⟨_, _, hover, hdecided, rfl⟩
  have hsound := (h python).chat _ haccepted
  exact not_fits_overflow ((sound_iff hdecided).1 hsound).fits.1

end AgentPlatform.Model
