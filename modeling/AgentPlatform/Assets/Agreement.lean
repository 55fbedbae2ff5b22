import AgentPlatform.Assets.Tree

/-!
# The asset views agree

An asset that `tree` or `descendants` lists is looked up by `resolve` under the path it is listed with. The lists
read an identifier without the white space and the slashes around it, so two identifiers can become one node,
and an identifier is looked up under another text than its own. `viewsAgree_iff`: the views agree where each
identifier that is read as a path is that path, and something was observed of it.
-/

namespace AgentPlatform.Assets

open Outcome Graph

/-- The values a view shows, by attribute. -/
def Resolved.observations (r : Resolved) : Observations := r.view.attributes.map fun m => (m.1, m.2.values)

variable (lib : Graph.Library) (assets : Json) (eng : Graph.Engine)

/-- `resolve` finds, at the path, the identifier and what was observed of it. -/
def Finds (path : String) (item : String × Observations) : Prop :=
  ∃ r, resolve lib assets eng path = .ok r ∧ r.registered = true ∧ r.view.id = item.1 ∧
    r.observations = sortedObservations item.2

/-- The assets of a tree. -/
structure TreeAgrees (register : Register) (t : Tree) : Prop where
  /-- An asset shows what was observed of one identifier, and so does `resolve` at its path. -/
  resolved : ∀ n ∈ t.nodes, n.isAsset = true → ∃ item ∈ register.found,
    placeable lib.toParser assets item.1 = some n.segments ∧ n.attributes = some (shown item.2) ∧
      Finds lib assets eng n.path item
  /-- No two identifiers are at one node. -/
  apart : ∀ n ∈ t.nodes, ∀ item ∈ register.found, ∀ item' ∈ register.found,
    placeable lib.toParser assets item.1 = some n.segments →
    placeable lib.toParser assets item'.1 = some n.segments → item.1 = item'.1

/-- The assets of a list. -/
def ListAgrees (register : Register) (d : Descendants) : Prop :=
  ∀ x ∈ d.descendants, ∃ item ∈ register.found, placeable lib.toParser assets item.1 = some x.segments ∧
    x.attributes = (sortedObservations item.2).map (fun m => (m.1, m.2.length)) ∧
      Finds lib assets eng x.path item

/-- Every list of a register agrees with `resolve`. -/
def ViewsAgree : Prop :=
  ∀ entry register, assetRead lib assets eng = .ok (entry, register) →
    (∀ path depth t, tree lib assets eng path depth = .ok t → TreeAgrees lib assets eng register t) ∧
      ∀ path limit d, descendants lib assets eng path limit = .ok d → ListAgrees lib assets eng register d

/-- Every identifier that is read as a path is that path, and something was observed of it. -/
def Verbatim : Prop :=
  ∀ entry register, assetRead lib assets eng = .ok (entry, register) → ∀ item ∈ register.found, ∀ segments,
    placeable lib.toParser assets item.1 = some segments → item.1 = formatPath segments ∧ item.2 ≠ []

variable {lib assets eng} {levels segments : List String} {register : Register} {entry : Entry} {path : String}
  {item : String × Observations}

/-! ### The register and the single view -/

theorem assetRead_ok (h : assetRead lib assets eng = .ok (entry, register)) :
    ∃ entity policy, assetEntity assets = .ok entity ∧ declaration lib eng entity = .ok (policy, entry) ∧
      preflight eng entry = .ok () ∧ collectAll lib eng entry = .ok register := by
  simp only [assetRead, bind_eq_ok, pure_eq_ok, Prod.mk.injEq] at h
  obtain ⟨entity, hentity, ⟨policy, _⟩, hdeclared, _, hpreflight, _, hall, rfl, rfl⟩ := h
  exact ⟨entity, policy, hentity, hdeclared, hpreflight, hall⟩

theorem nodup_register (h : assetRead lib assets eng = .ok (entry, register)) :
    (register.found.map Prod.fst).Nodup := by
  obtain ⟨_, _, -, -, -, hall⟩ := assetRead_ok h
  rw [(collectAll_ok hall).1]
  exact Capped.nodup_extend List.nodup_nil

/-- `resolve` shows what the register holds under the text its path is written as. -/
theorem resolve_of_read (hread : assetRead lib assets eng = .ok (entry, register))
    (hpath : parsePath lib.toParser assets path = .ok segments) :
    ∃ r, resolve lib assets eng path = .ok r ∧ r.view.id = formatPath segments ∧
      r.observations = sortedObservations ((register.found.lookup (formatPath segments)).getD []) ∧
      r.registered = !r.view.attributes.isEmpty := by
  obtain ⟨levels, hlevels, -⟩ := bind_eq_ok.1 hpath
  obtain ⟨entity, policy, hentity, hdeclared, hpreflight, hall⟩ := assetRead_ok hread
  have hagree := (collectAll_agrees lib eng entry (formatPath segments)).1
  rw [hall] at hagree
  obtain ⟨one, hone, hplain⟩ : ∃ one, collect lib eng entry (some (formatPath segments)) = .ok one ∧
      one.plain = (register.under (formatPath segments)).plain := by
    cases hone : collect lib eng entry (some (formatPath segments)) with
    | error e =>
      rw [hone] at hagree
      cases hagree
    | ok one =>
      rw [hone] at hagree
      exact ⟨one, rfl, (Except.ok.inj hagree).symm⟩
  have hfound : one.found = (register.found.lookup (formatPath segments)).getD [] :=
    congrArg Prod.fst hplain
  have hview : Graph.resolve lib eng entity (formatPath segments) =
      .ok (view lib eng entity entry policy (formatPath segments) one) :=
    bind_eq_ok.2 ⟨(policy, entry), hdeclared, bind_eq_ok.2 ⟨(), hpreflight, bind_eq_ok.2 ⟨one, hone, rfl⟩⟩⟩
  refine ⟨⟨view lib eng entity entry policy (formatPath segments) one, levelAt levels segments.length, segments,
    decide (segments.length = levels.length), formatPath segments,
    !(view lib eng entity entry policy (formatPath segments) one).attributes.isEmpty⟩, ?_, rfl, ?_, rfl⟩
  · exact bind_eq_ok.2 ⟨levels, hlevels, bind_eq_ok.2 ⟨segments, hpath, bind_eq_ok.2 ⟨entity, hentity,
      bind_eq_ok.2 ⟨_, hview, rfl⟩⟩⟩⟩
  · rw [← hfound]
    simp [Resolved.observations, view, attributeView, List.map_map, Function.comp_def]

theorem registered_iff {r : Resolved} (h : r.registered = !r.view.attributes.isEmpty) {found : Observations}
    (hfound : r.observations = sortedObservations found) : r.registered = true ↔ found ≠ [] := by
  have hlength : r.view.attributes.length = found.length := by
    have := congrArg List.length hfound
    rwa [Resolved.observations, List.length_map, sortedObservations, List.length_insertionSort] at this
  rw [h, Bool.not_eq_true', ← Bool.not_eq_true, List.isEmpty_iff, Ne, ← List.length_eq_zero_iff,
    ← List.length_eq_zero_iff, hlength]

/-- An identifier that is its own path is found under it, where something was observed of it. -/
theorem finds_of_verbatim (hread : assetRead lib assets eng = .ok (entry, register))
    (hitem : item ∈ register.found) (hplace : placeable lib.toParser assets item.1 = some segments)
    (hsame : item.1 = formatPath segments) (hne : item.2 ≠ []) : Finds lib assets eng item.1 item := by
  obtain ⟨r, hr, hid, hobserved, hregistered⟩ := resolve_of_read hread (placeable_eq_some.1 hplace)
  have hlookup : register.found.lookup (formatPath segments) = some item.2 := by
    rw [← hsame]
    exact (Dict.mem_iff_lookup (nodup_register hread)).1 hitem
  rw [hlookup, Option.getD_some] at hobserved
  exact ⟨r, hr, (registered_iff hregistered hobserved).2 hne, hid.trans hsame.symm, hobserved⟩

/-! ### The lists -/

theorem tree_nodes {depth : Option ℤ} {t : Tree} (hread : assetRead lib assets eng = .ok (entry, register))
    (h : tree lib assets eng path depth = .ok t) {n : Node} (hn : n ∈ t.nodes) :
    ∃ levels reached, NodeOf lib assets levels reached register n := by
  obtain ⟨levels, hlevels, hrest⟩ := bind_eq_ok.1 h
  obtain ⟨_, -, hrest⟩ := bind_eq_ok.1 hrest
  obtain ⟨parent, hparent, -⟩ := bind_eq_ok.1 hrest
  obtain ⟨m, hm, rfl⟩ := List.mem_map.1 ((tree_ok hlevels hparent hread h).2.subset hn)
  exact ⟨levels, _, (mem_nodesOf hlevels hm).2⟩

theorem listOne_mem {parent : List String} {limit : ℕ} {items : List (String × Observations)}
    {out : List Descendant × ℕ} {x : Descendant}
    (h : x ∈ (items.foldl (listOne lib assets levels parent limit) out).1) :
    x ∈ out.1 ∨ ∃ item ∈ items, descendantOf lib assets levels parent item = some x := by
  induction items generalizing out with
  | nil => exact .inl h
  | cons item items ih =>
    rcases ih h with hx | ⟨later, hlater, hx⟩
    · unfold listOne at hx
      cases hd : descendantOf lib assets levels parent item with
      | none =>
        rw [hd] at hx
        exact .inl hx
      | some d =>
        rw [hd] at hx
        dsimp only at hx
        split at hx
        · exact .inl hx
        · rcases List.mem_append.1 hx with hx | hx
          · exact .inl hx
          · rw [List.mem_singleton] at hx
            exact .inr ⟨item, List.mem_cons_self, hx ▸ hd⟩
    · exact .inr ⟨later, List.mem_cons_of_mem _ hlater, hx⟩

/-- What `descendants` lists is in the register, under the identifier it is listed with. -/
theorem descendants_mem {limit : ℤ} {d : Descendants} {x : Descendant}
    (hread : assetRead lib assets eng = .ok (entry, register))
    (h : descendants lib assets eng path limit = .ok d) (hx : x ∈ d.descendants) :
    ∃ item ∈ register.found, placeable lib.toParser assets item.1 = some x.segments ∧ x.path = item.1 ∧
      x.attributes = (sortedObservations item.2).map fun m => (m.1, m.2.length) := by
  simp only [descendants, bind_eq_ok, pure_eq_ok, hread, Except.ok.injEq, exists_eq_left'] at h
  obtain ⟨limit, -, levels, -, parent, -, rfl⟩ := h
  rcases listOne_mem hx with hx | ⟨item, hitem, hd⟩
  · cases hx
  · refine ⟨item, (List.perm_insertionSort _ _).mem_iff.1 hitem, ?_⟩
    unfold descendantOf at hd
    cases hplace : placeable lib.toParser assets item.1 with
    | none =>
      rw [hplace] at hd
      cases hd
    | some segments =>
      rw [hplace] at hd
      dsimp only at hd
      split at hd
      · cases hd
        exact ⟨rfl, rfl, rfl⟩
      · cases hd

/-! ### Agreement -/

theorem viewsAgree_of_verbatim (h : Verbatim lib assets eng) : ViewsAgree lib assets eng := by
  intro entry register hread
  refine ⟨fun path depth t htree => ⟨fun n hn hasset => ?_, fun n _ item hitem item' hitem' hp hp' => ?_⟩,
    fun path limit d hlist x hx => ?_⟩
  · obtain ⟨levels, _, hnode⟩ := tree_nodes hread htree hn
    obtain ⟨item, hitem, hplace, hshown⟩ := hnode.found hasset
    obtain ⟨hsame, hne⟩ := h entry register hread item hitem _ hplace
    refine ⟨item, hitem, hplace, hshown, ?_⟩
    rw [hnode.path, ← hsame]
    exact finds_of_verbatim hread hitem hplace hsame hne
  · exact (h entry register hread item hitem _ hp).1.trans (h entry register hread item' hitem' _ hp').1.symm
  · obtain ⟨item, hitem, hplace, hpath, hcounts⟩ := descendants_mem hread hlist hx
    obtain ⟨hsame, hne⟩ := h entry register hread item hitem _ hplace
    refine ⟨item, hitem, hplace, hcounts, ?_⟩
    rw [hpath]
    exact finds_of_verbatim hread hitem hplace hsame hne

theorem tree_of_read (hlevels : hierarchy lib.toParser assets = .ok levels)
    (hread : assetRead lib assets eng = .ok (entry, register)) :
    ∃ t, tree lib assets eng "" none = .ok t := by
  obtain ⟨entity, -, hentity, -⟩ := assetRead_ok hread
  exact ⟨_, bind_eq_ok.2 ⟨levels, hlevels, bind_eq_ok.2 ⟨none, rfl, bind_eq_ok.2 ⟨[], rfl,
    bind_eq_ok.2 ⟨(entry, register), hread, bind_eq_ok.2 ⟨entity, hentity, rfl⟩⟩⟩⟩⟩⟩

/-- **The lists agree with `resolve`, and no two identifiers are one node, where every identifier that is read
as a path is written as that path, and something was observed of it.** -/
theorem viewsAgree_iff : ViewsAgree lib assets eng ↔ Verbatim lib assets eng := by
  refine ⟨fun h entry register hread item hitem segments hplace => ?_, viewsAgree_of_verbatim⟩
  obtain ⟨levels, hlevels, -⟩ := bind_eq_ok.1 (placeable_eq_some.1 hplace)
  obtain ⟨hsegments, hlength⟩ := (parsePath_ok hlevels).1 (placeable_eq_some.1 hplace)
  obtain ⟨t, htree⟩ := tree_of_read hlevels hread
  -- the asset is a node of the whole tree
  have hreached : Reached lib assets [] (keptLevels levels [] none) register segments := by
    refine ⟨item, hitem, segments, hplace, List.nil_prefix, List.prefix_rfl, ?_, ?_⟩
    · exact List.length_pos_iff.2 (segmentsOf_ne_nil hsegments)
    · rw [keptLevels, hlength, List.length_nil]
      omega
  obtain ⟨m, hm, rfl⟩ := List.mem_map.1 ((mem_segments_nodesOf hlevels).2 hreached)
  have hn : m.2 ∈ t.nodes := (tree_ok hlevels rfl hread htree).2.mem_iff.2 (List.mem_map.2 ⟨m, hm, rfl⟩)
  have hnode := (mem_nodesOf hlevels hm).2
  have hasset : m.2.isAsset = true := by
    rw [hnode.asset, decide_eq_true_eq]
    exact hlength
  have hagrees := (h entry register hread).1 "" none t htree
  obtain ⟨item', hitem', hplace', -, r, hr, hregistered, hid, hobserved⟩ := hagrees.resolved _ hn hasset
  have heq : item'.1 = item.1 := hagrees.apart _ hn item' hitem' item hitem hplace' hplace
  -- `resolve` reads the path of the node once more
  obtain ⟨_, hlevels', hpath⟩ := bind_eq_ok.1 hr
  obtain ⟨again, hagain, -⟩ := bind_eq_ok.1 hpath
  obtain ⟨r', hr', hid', hobserved', hregistered'⟩ := resolve_of_read hread hagain
  obtain rfl := Except.ok.inj (hr.symm.trans hr')
  have htwice : trimmed (trimmed item.1) = item.1 := by
    rw [← formatPath_eq hsegments, ← hnode.path,
      ← formatPath_eq ((parsePath_ok hlevels).1 hagain).1, ← hid', hid, heq]
  refine ⟨?_, ?_⟩
  · rw [formatPath_eq hsegments, trimmed_of_twice htwice]
  · have hnodup := nodup_register hread
    have hsame : item'.2 = item.2 := by
      have hlookup := (Dict.mem_iff_lookup hnodup).1 hitem'
      rw [heq, (Dict.mem_iff_lookup hnodup).1 hitem, Option.some.injEq] at hlookup
      exact hlookup.symm
    rw [← hsame]
    exact (registered_iff hregistered' hobserved).1 hregistered

/-- Two spellings of one path are two identifiers of the register and one node of the tree. -/
theorem spellings_merge : ¬∀ (lib : Graph.Library) (assets : Json) (eng : Graph.Engine),
    ViewsAgree lib assets eng := by
  intro h
  have hrun : (do
      let r ← assetRead plainLibrary (assetBlock plantLevels)
        (assetEngine [("zavod-1/sex-1/stanok-1", "press"), ("zavod-1/sex-1/stanok-1/", "lathe")])
      let t ← tree plainLibrary (assetBlock plantLevels)
        (assetEngine [("zavod-1/sex-1/stanok-1", "press"), ("zavod-1/sex-1/stanok-1/", "lathe")]) "" none
      pure (r.2.found.map Prod.fst, t.nodes.map Node.segments)) =
      (.ok (["zavod-1/sex-1/stanok-1", "zavod-1/sex-1/stanok-1/"],
        [["zavod-1"], ["zavod-1", "sex-1"], ["zavod-1", "sex-1", "stanok-1"]]) : Except Err _) := by
    decide +kernel
  obtain ⟨⟨entry, register⟩, hread, hrun⟩ := bind_eq_ok.1 hrun
  obtain ⟨t, htree, hrun⟩ := bind_eq_ok.1 hrun
  obtain ⟨hids, hnodes⟩ := Prod.mk.inj (pure_eq_ok.1 hrun)
  have hagrees := ((h _ _ _) entry register hread).1 "" none t htree
  obtain ⟨n, hn, hsegments⟩ : ∃ n ∈ t.nodes, n.segments = ["zavod-1", "sex-1", "stanok-1"] := by
    have hmem : ["zavod-1", "sex-1", "stanok-1"] ∈ t.nodes.map Node.segments := by
      rw [hnodes]
      decide
    exact List.mem_map.1 hmem
  obtain ⟨item, hitem, hid⟩ : ∃ item ∈ register.found, item.1 = "zavod-1/sex-1/stanok-1" :=
    List.mem_map.1 (hids ▸ List.mem_cons_self)
  obtain ⟨item', hitem', hid'⟩ : ∃ item ∈ register.found, item.1 = "zavod-1/sex-1/stanok-1/" :=
    List.mem_map.1 (hids ▸ List.mem_cons_of_mem _ List.mem_cons_self)
  have hsame := hagrees.apart n hn item hitem item' hitem'
    (by rw [hid, hsegments]; decide +kernel) (by rw [hid', hsegments]; decide +kernel)
  rw [hid, hid'] at hsame
  exact absurd hsame (by decide)

end AgentPlatform.Assets
