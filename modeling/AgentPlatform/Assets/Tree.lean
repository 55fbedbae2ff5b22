import AgentPlatform.Assets.Views

/-!
# The bound of the asset tree

The nodes of `tree` are the beginnings of the asset paths under a path. Under a path that is given together
with a depth the cut is that many levels below the length of the path counted twice, so the tree is the wanted
one where the path is empty, the depth is left out, the hierarchy ends above the bound, or there is no asset
under the path (`tree_exact_iff`).
-/

namespace AgentPlatform.Assets

open Outcome Graph

variable {lib : Graph.Library} {assets : Json} {eng : Graph.Engine} {levels parent segments s : List String}
  {register : Register} {keep : ℕ} {depth : Option ℕ}

/-! ### What the loops visit -/

/-- A node the loops of `tree` come to; at an asset, what the register holds of it. -/
structure Visit where
  segments : List String
  found : Option Observations

/-- One identifier of the register. -/
def visitsOf (lib : Graph.Library) (assets : Json) (parent : List String) (keep : ℕ)
    (item : String × Observations) : List Visit :=
  match placeable lib.toParser assets item.1 with
  | none => []
  | some segments =>
    if parent ≠ [] ∧ segments.take parent.length ≠ parent then []
    else (cuts parent segments keep).map fun cut =>
      ⟨segments.take cut, if cut = segments.length then some item.2 else none⟩

/-- The nodes, in the order of the loops. -/
def visits (lib : Graph.Library) (assets : Json) (parent : List String) (keep : ℕ) (register : Register) :
    List Visit :=
  register.found.flatMap (visitsOf lib assets parent keep)

/-- What a visit makes of the node that was at its path. -/
def Visit.node (levels : List String) (v : Visit) (old : Option Node) : Node :=
  let node := old.getD (freshNode levels v.segments)
  match v.found with
  | some found => { node with attributes := some (shown found) }
  | none => node

theorem place_eq (item : String × Observations) (nodes : List (String × Node)) :
    place lib assets levels parent keep nodes item =
      (visitsOf lib assets parent keep item).foldl
        (fun nodes v => Dict.modify (formatPath v.segments) (v.node levels) nodes) nodes := by
  unfold place visitsOf
  cases placeable lib.toParser assets item.1 with
  | none => rfl
  | some segments =>
    dsimp only
    split
    · rfl
    · rw [List.foldl_map]
      congr 1
      funext nodes cut
      unfold putNode Visit.node
      split <;> rfl

theorem nodesOf_eq : nodesOf lib assets levels parent depth register =
    (visits lib assets parent (keptLevels levels parent depth) register).foldl
      (fun nodes v => Dict.modify (formatPath v.segments) (v.node levels) nodes) [] := by
  rw [nodesOf, visits, List.foldl_flatMap]
  congr 1
  funext nodes item
  exact place_eq item nodes

/-- A visit comes to a beginning of an asset path under the parent. -/
theorem mem_visits {v : Visit} : v ∈ visits lib assets parent keep register ↔
    ∃ item ∈ register.found, ∃ segments, placeable lib.toParser assets item.1 = some segments ∧
      parent <+: segments ∧ ∃ cut, parent.length < cut ∧ cut ≤ segments.length ∧ cut ≤ parent.length + keep ∧
        v = ⟨segments.take cut, if cut = segments.length then some item.2 else none⟩ := by
  unfold visits
  rw [List.mem_flatMap]
  refine exists_congr fun item => and_congr_right fun _ => ?_
  unfold visitsOf
  cases placeable lib.toParser assets item.1 with
  | none => simp
  | some segments =>
    simp only [Option.some.injEq, exists_eq_left']
    have hunder : ¬(parent ≠ [] ∧ segments.take parent.length ≠ parent) ↔ parent <+: segments := by
      rw [List.prefix_iff_eq_take, not_and_or, not_not, not_not]
      refine ⟨fun h => h.elim (fun h => by simp [h]) Eq.symm, fun h => .inr h.symm⟩
    split
    · rename_i hnot
      simp [← hunder, hnot]
    · rename_i hin
      rw [List.mem_map]
      refine ⟨fun ⟨cut, hcut, heq⟩ => ⟨hunder.1 hin, cut, ?_⟩, fun ⟨_, cut, h⟩ => ⟨cut, ?_, h.2.2.2.symm⟩⟩
      · rw [cuts, List.mem_range'_1] at hcut
        exact ⟨by omega, by omega, by omega, heq.symm⟩
      · rw [cuts, List.mem_range'_1]
        omega

/-! ### The nodes -/

/-- A node of the tree, and at an asset the observations it shows. -/
structure NodeOf (lib : Graph.Library) (assets : Json) (levels : List String) (reached : List String → Prop)
    (register : Register) (n : Node) : Prop where
  reached : reached n.segments
  path : n.path = formatPath n.segments
  level : n.level = levelAt levels n.segments.length
  depth : n.depth = n.segments.length
  asset : n.isAsset = decide (n.segments.length = levels.length)
  found : n.isAsset = true → ∃ item ∈ register.found,
    placeable lib.toParser assets item.1 = some n.segments ∧ n.attributes = some (shown item.2)

/-- The paths the loops come to. -/
def Reached (lib : Graph.Library) (assets : Json) (parent : List String) (keep : ℕ) (register : Register)
    (s : List String) : Prop :=
  ∃ item ∈ register.found, ∃ segments, placeable lib.toParser assets item.1 = some segments ∧
    parent <+: segments ∧ s <+: segments ∧ parent.length < s.length ∧ s.length ≤ parent.length + keep

theorem reached_iff : Reached lib assets parent keep register s ↔
    ∃ v ∈ visits lib assets parent keep register, v.segments = s := by
  simp only [mem_visits]
  constructor
  · rintro ⟨item, hitem, segments, hplace, hparent, hs, hlow, hhigh⟩
    refine ⟨_, ⟨item, hitem, segments, hplace, hparent, s.length, hlow, hs.length_le, hhigh, rfl⟩, ?_⟩
    exact (List.prefix_iff_eq_take.1 hs).symm
  · rintro ⟨v, ⟨item, hitem, segments, hplace, hparent, cut, hlow, hle, hhigh, rfl⟩, rfl⟩
    have hlength : (segments.take cut).length = cut := List.length_take_of_le hle
    refine ⟨item, hitem, segments, hplace, hparent, List.take_prefix _ _, ?_, ?_⟩
    all_goals rwa [hlength]

theorem reached_inj {s' : List String} (h : Reached lib assets parent keep register s)
    (h' : Reached lib assets parent keep register s') (heq : formatPath s = formatPath s') : s = s' := by
  obtain ⟨_, _, segments, hplace, -, hs, hlow, -⟩ := h
  obtain ⟨_, _, segments', hplace', -, hs', hlow', -⟩ := h'
  rw [List.prefix_iff_eq_take] at hs hs'
  rw [hs, hs'] at heq ⊢
  exact formatPath_inj (placeable_segments hplace) (placeable_segments hplace') (by omega) (by omega) heq

section Nodes

variable (hlevels : hierarchy lib.toParser assets = .ok levels)
include hlevels

/-- What a visit makes of the node at its path. -/
theorem nodeOf_visit {v : Visit} {old : Option Node} (hv : v ∈ visits lib assets parent keep register)
    (hold : ∀ n ∈ old, formatPath n.segments = formatPath v.segments ∧
      NodeOf lib assets levels (Reached lib assets parent keep register) register n) :
    formatPath (v.node levels old).segments = formatPath v.segments ∧
      NodeOf lib assets levels (Reached lib assets parent keep register) register (v.node levels old) := by
  have hreached := reached_iff.2 ⟨v, hv, rfl⟩
  obtain ⟨item, hitem, segments, hplace, -, cut, -, hle, -, rfl⟩ := mem_visits.1 hv
  have hlength : segments.length = levels.length :=
    ((parsePath_ok hlevels).1 (placeable_eq_some.1 hplace)).2
  have hcut : (segments.take cut).length = cut := List.length_take_of_le hle
  -- the node before the attributes are put there
  obtain ⟨node, hnode, hsame, hpath, hlevel, hdepth, hasset⟩ :
      ∃ node, old.getD (freshNode levels (segments.take cut)) = node ∧ node.segments = segments.take cut ∧
        node.path = formatPath (segments.take cut) ∧ node.level = levelAt levels cut ∧ node.depth = cut ∧
        node.isAsset = decide (cut = levels.length) := by
    cases old with
    | none =>
      exact ⟨_, rfl, rfl, rfl, congrArg (levelAt levels) hcut, hcut,
        congrArg (fun n => decide (n = levels.length)) hcut⟩
    | some n =>
      obtain ⟨hkey, hn⟩ := hold n rfl
      have hsame : n.segments = segments.take cut := reached_inj hn.reached hreached hkey
      exact ⟨n, rfl, hsame, hsame ▸ hn.path, by rw [hn.level, hsame, hcut], by rw [hn.depth, hsame, hcut],
        by rw [hn.asset, hsame, hcut]⟩
  by_cases hfull : cut = segments.length
  · have hput : Visit.node levels ⟨segments.take cut, if cut = segments.length then some item.2 else none⟩ old =
        { node with attributes := some (shown item.2) } := by
      rw [if_pos hfull, ← hnode]
      rfl
    rw [hput]
    refine ⟨congrArg formatPath hsame, hsame ▸ hreached, hsame ▸ hpath, ?_, ?_, ?_, fun _ => ?_⟩
    · rw [hsame, hcut, hlevel]
    · rw [hsame, hcut, hdepth]
    · rw [hsame, hcut, hasset]
    · refine ⟨item, hitem, ?_, rfl⟩
      rw [hsame, hfull, List.take_length]
      exact hplace
  · have hkept : Visit.node levels ⟨segments.take cut, if cut = segments.length then some item.2 else none⟩ old =
        node := by
      rw [if_neg hfull, ← hnode]
      rfl
    rw [hkept]
    refine ⟨congrArg formatPath hsame, hsame ▸ hreached, hsame ▸ hpath, ?_, ?_, ?_, fun hall => ?_⟩
    · rw [hsame, hcut, hlevel]
    · rw [hsame, hcut, hdepth]
    · rw [hsame, hcut, hasset]
    · -- a node above the assets is none
      rw [hasset, decide_eq_true_eq] at hall
      omega

theorem mem_nodesOf {m : String × Node} (h : m ∈ nodesOf lib assets levels parent depth register) :
    formatPath m.2.segments = m.1 ∧
      NodeOf lib assets levels (Reached lib assets parent (keptLevels levels parent depth) register) register
        m.2 := by
  rw [nodesOf_eq] at h
  exact Dict.forall_foldl_modify (P := fun k n => formatPath n.segments = k ∧ NodeOf lib assets levels
    (Reached lib assets parent (keptLevels levels parent depth) register) register n)
    (fun _ hm => by cases hm) (fun v hv old hold => nodeOf_visit hlevels hv hold) m h

/-- The nodes are the paths the loops come to. -/
theorem mem_segments_nodesOf : (s ∈ (nodesOf lib assets levels parent depth register).map fun m => m.2.segments) ↔
    Reached lib assets parent (keptLevels levels parent depth) register s := by
  constructor
  · intro hs
    obtain ⟨m, hm, rfl⟩ := List.mem_map.1 hs
    exact (mem_nodesOf hlevels hm).2.reached
  · intro hs
    obtain ⟨v, hv, rfl⟩ := reached_iff.1 hs
    have hkey : formatPath v.segments ∈
        (nodesOf lib assets levels parent depth register).map Prod.fst := by
      rw [nodesOf_eq, Dict.mem_keys_foldl_modify]
      exact .inr ⟨v, hv, rfl⟩
    obtain ⟨m, hm, heq⟩ := List.mem_map.1 hkey
    obtain ⟨hpath, hnode⟩ := mem_nodesOf hlevels hm
    exact List.mem_map.2 ⟨m, hm, reached_inj hnode.reached hs (hpath.trans heq)⟩

theorem nodup_nodesOf : ((nodesOf lib assets levels parent depth register).map fun m => m.2.segments).Nodup := by
  have hkeys : ((nodesOf lib assets levels parent depth register).map Prod.fst).Nodup := by
    rw [nodesOf_eq]
    exact Dict.nodup_keys_foldl_modify List.nodup_nil
  have hwritten : (nodesOf lib assets levels parent depth register).map Prod.fst =
      ((nodesOf lib assets levels parent depth register).map fun m => m.2.segments).map formatPath := by
    rw [List.map_map]
    exact List.map_congr_left fun m hm => (mem_nodesOf hlevels hm).1.symm
  rw [hwritten] at hkeys
  exact hkeys.of_map _

end Nodes

/-! ### The bound -/

variable {path : String} {asked : Option ℤ} {entry : Entry} {t : Tree}

theorem parentOf_eq_nil_iff (h : parentOf lib assets path = .ok parent) : parent = [] ↔ path = "" := by
  unfold parentOf at h
  split at h
  · rename_i hpath
    cases h
    simp [hpath]
  · rename_i hpath
    simp only [prefixPath, bind_eq_ok, ensure_eq_ok, exists_unit, pure_eq_ok] at h
    obtain ⟨_, _, segments, hsegments, _, rfl⟩ := h
    simp [hpath, segmentsOf_ne_nil hsegments]

theorem checkDepth_eq_ok : checkDepth levels asked = .ok depth ↔
    depth = asked.map Int.toNat ∧ ∀ d ∈ asked, 1 ≤ d ∧ d ≤ levels.length := by
  cases asked with
  | none => simp [checkDepth, eq_comm]
  | some d =>
    simp only [checkDepth, bind_eq_ok, ensure_eq_ok, exists_unit, pure_eq_ok, Option.map_some, Option.mem_def,
      Option.some.injEq, forall_eq']
    rw [and_comm, eq_comm]

theorem tree_ok (hlevels : hierarchy lib.toParser assets = .ok levels)
    (hparent : parentOf lib assets path = .ok parent) (hread : assetRead lib assets eng = .ok (entry, register))
    (h : tree lib assets eng path asked = .ok t) :
    (∀ d ∈ asked, 1 ≤ d ∧ d ≤ levels.length) ∧
      t.nodes.Perm ((nodesOf lib assets levels parent (asked.map Int.toNat) register).map Prod.snd) := by
  simp only [tree, bind_eq_ok, pure_eq_ok, hlevels, hparent, hread, Except.ok.injEq, exists_eq_left'] at h
  obtain ⟨depth, hdepth, entity, -, rfl⟩ := h
  obtain ⟨rfl, hbounds⟩ := checkDepth_eq_ok.1 hdepth
  exact ⟨hbounds, (List.perm_insertionSort _ _).map _⟩

/-- A beginning of an asset path under the parent, at most so many levels below it. -/
def Wanted (lib : Graph.Library) (assets : Json) (parent : List String) (depth : Option ℤ) (register : Register)
    (s : List String) : Prop :=
  ∃ item ∈ register.found, ∃ segments, placeable lib.toParser assets item.1 = some segments ∧
    parent <+: segments ∧ s <+: segments ∧ parent.length < s.length ∧
      ∀ d ∈ depth, (s.length : ℤ) ≤ parent.length + d

/-- The nodes are the wanted ones, each once. -/
structure Exact (lib : Graph.Library) (assets : Json) (parent : List String) (depth : Option ℤ)
    (register : Register) (nodes : List Node) : Prop where
  once : (nodes.map Node.segments).Nodup
  wanted : ∀ s, s ∈ nodes.map Node.segments ↔ Wanted lib assets parent depth register s
  written : ∀ n ∈ nodes, n.path = formatPath n.segments ∧ n.depth = n.segments.length

/-- There is an asset under the path. -/
def Inhabited (lib : Graph.Library) (assets : Json) (parent : List String) (register : Register) : Prop :=
  ∃ item ∈ register.found, ∃ segments, placeable lib.toParser assets item.1 = some segments ∧
    parent <+: segments

/-- The loops come to the wanted nodes, where the bound is what was asked for. -/
theorem reached_iff_wanted (hlevels : hierarchy lib.toParser assets = .ok levels)
    (hbounds : ∀ d ∈ asked, 1 ≤ d ∧ d ≤ levels.length) :
    (∀ s, Reached lib assets parent (keptLevels levels parent (asked.map Int.toNat)) register s ↔
        Wanted lib assets parent asked register s) ↔
      ∀ d ∈ asked, parent = [] ∨ (levels.length : ℤ) ≤ parent.length + d ∨
        ¬Inhabited lib assets parent register := by
  have hfull : ∀ {id : String} {segments : List String}, placeable lib.toParser assets id = some segments →
      segments.length = levels.length := fun h => ((parsePath_ok hlevels).1 (placeable_eq_some.1 h)).2
  constructor
  · intro hsame d hd
    by_contra hnot
    push Not at hnot
    obtain ⟨hparent, hlow, item, hitem, segments, hplace, hunder⟩ := hnot
    obtain ⟨hone, hle⟩ := hbounds d hd
    rw [Option.mem_def.1 hd, Option.map_some, keptLevels, if_pos hparent] at hsame
    have hpos := List.length_pos_iff.2 hparent
    -- one level below the bound there is a node still
    have hlength : (segments.take (parent.length + d.toNat + 1)).length = parent.length + d.toNat + 1 := by
      rw [List.length_take_of_le]
      have := hfull hplace
      omega
    have hreached : Reached lib assets parent (parent.length + d.toNat) register
        (segments.take (parent.length + d.toNat + 1)) := by
      refine ⟨item, hitem, segments, hplace, hunder, List.take_prefix _ _, ?_, ?_⟩
      all_goals
        rw [hlength]
        omega
    obtain ⟨_, _, _, _, _, _, _, hbound⟩ := (hsame _).1 hreached
    have := hbound d rfl
    rw [hlength] at this
    omega
  · intro h s
    refine exists_congr fun item => and_congr_right fun hitem => exists_congr fun segments =>
      and_congr_right fun hplace => and_congr_right fun hunder => and_congr_right fun hs =>
      and_congr_right fun hlow => ?_
    have hle := hs.length_le
    rw [hfull hplace] at hle
    cases asked with
    | none =>
      rw [Option.map_none, keptLevels]
      refine iff_of_true (by omega) fun d hd => by cases hd
    | some d =>
      obtain ⟨hone, -⟩ := hbounds d rfl
      rw [Option.map_some, keptLevels]
      simp only [Option.mem_def, Option.some.injEq, forall_eq']
      rcases h d rfl with rfl | hdeep | hempty
      · rw [if_neg (by simp), List.length_nil]
        omega
      · refine iff_of_true ?_ (by omega)
        split
        all_goals omega
      · exact absurd ⟨item, hitem, segments, hplace, hunder⟩ hempty

/-- **The tree is the wanted one where the path is empty, or the hierarchy ends above the bound, or there is no
asset under the path; without a depth it always is.** -/
theorem tree_exact_iff (hlevels : hierarchy lib.toParser assets = .ok levels)
    (hparent : parentOf lib assets path = .ok parent) (hread : assetRead lib assets eng = .ok (entry, register))
    (h : tree lib assets eng path asked = .ok t) :
    Exact lib assets parent asked register t.nodes ↔
      ∀ d ∈ asked, path = "" ∨ (levels.length : ℤ) ≤ parent.length + d ∨
        ¬Inhabited lib assets parent register := by
  obtain ⟨hbounds, hperm⟩ := tree_ok hlevels hparent hread h
  have hsegments := hperm.map Node.segments
  rw [List.map_map] at hsegments
  rw [← parentOf_eq_nil_iff hparent, ← reached_iff_wanted hlevels hbounds]
  have hreached : ∀ s, s ∈ t.nodes.map Node.segments ↔
      Reached lib assets parent (keptLevels levels parent (asked.map Int.toNat)) register s := fun s =>
    hsegments.mem_iff.trans (mem_segments_nodesOf hlevels)
  constructor
  · exact fun hexact s => (hreached s).symm.trans (hexact.wanted s)
  · intro hsame
    refine ⟨hsegments.nodup_iff.2 (nodup_nodesOf hlevels), fun s => (hreached s).trans (hsame s), ?_⟩
    intro n hn
    obtain ⟨m, hm, rfl⟩ := List.mem_map.1 (hperm.subset hn)
    exact ⟨(mem_nodesOf hlevels hm).2.path, (mem_nodesOf hlevels hm).2.depth⟩

/-! ### Two stations of a plant -/

def assetBlock (levels : List String) : Json := .obj [("levels", .arr (levels.map .str))]

def assetGraph : Json :=
  .obj [("entities", .obj [("asset", .obj [("sources", .obj [("register", sheet "name")])])])]

/-- An agent that reads a register of assets, by path and name. -/
def assetEngine (rows : List (String × String)) : Graph.Engine :=
  { graph := assetGraph
    handler := fun _ =>
      .ok (.dict (some (rows.map fun r => some [("id", .str r.1), ("value", .str r.2)])) false none)
    validate := fun _ => .ok ()
    registers := .ok []
    agent := "supervisor"
    tools := ["sheets.rows"]
    allowedConnections := []
    ladder := ""
    clock := 0 }

def plantLevels : List String := ["zavod", "sex", "stanok"]

def plantEngine : Graph.Engine :=
  assetEngine [("zavod-1/sex-1/stanok-1", "press"), ("zavod-1/sex-2/stanok-1", "lathe")]

/-- A read of the plant: the register, and the tree. -/
theorem plant_read (path : String) (asked : Option ℤ) (segments : List (List String))
    (h : (do
      let r ← assetRead plainLibrary (assetBlock plantLevels) plantEngine
      let t ← tree plainLibrary (assetBlock plantLevels) plantEngine path asked
      pure (r.2.errors.length, t.nodes.map Node.segments)) = (.ok (0, segments) : Except Err _)) :
    ∃ entry register t, assetRead plainLibrary (assetBlock plantLevels) plantEngine = .ok (entry, register) ∧
      tree plainLibrary (assetBlock plantLevels) plantEngine path asked = .ok t ∧
      t.nodes.map Node.segments = segments := by
  obtain ⟨⟨entry, register⟩, hread, h⟩ := bind_eq_ok.1 h
  obtain ⟨t, htree, h⟩ := bind_eq_ok.1 h
  exact ⟨entry, register, t, hread, htree, (Prod.mk.inj (pure_eq_ok.1 h)).2⟩

theorem tree_exact_iff_sample :
    ∃ register t, Exact plainLibrary (assetBlock plantLevels) [] (some 1) register (Tree.nodes t) ↔
      ∀ d ∈ some (1 : ℤ), "" = "" ∨ ((plantLevels.length : ℤ) ≤ ([] : List String).length + d) ∨
        ¬Inhabited plainLibrary (assetBlock plantLevels) [] register := by
  obtain ⟨entry, register, t, hread, htree, -⟩ := plant_read "" (some 1) [["zavod-1"]] (by decide +kernel)
  exact ⟨register, t, @tree_exact_iff _ _ _ plantLevels _ _ _ _ _ _ (by decide +kernel) rfl hread htree⟩

/-- One level below the plant is asked for, and the stations come with the shops. -/
theorem tree_too_deep : ¬∀ (lib : Graph.Library) (assets : Json) (eng : Graph.Engine) (path : String)
    (asked : Option ℤ) (levels parent : List String) (entry : Entry) (register : Register) (t : Tree),
    hierarchy lib.toParser assets = .ok levels → parentOf lib assets path = .ok parent →
    assetRead lib assets eng = .ok (entry, register) → tree lib assets eng path asked = .ok t →
    Exact lib assets parent asked register t.nodes := by
  intro h
  obtain ⟨entry, register, t, hread, htree, hnodes⟩ := plant_read "zavod-1" (some 1)
    [["zavod-1", "sex-1"], ["zavod-1", "sex-1", "stanok-1"], ["zavod-1", "sex-2"],
      ["zavod-1", "sex-2", "stanok-1"]] (by decide +kernel)
  have hexact := h plainLibrary (assetBlock plantLevels) plantEngine "zavod-1" (some 1) plantLevels ["zavod-1"]
    entry register t (by decide +kernel) (by decide +kernel) hread htree
  have hstation : ["zavod-1", "sex-1", "stanok-1"] ∈ t.nodes.map Node.segments := by
    rw [hnodes]
    decide
  obtain ⟨_, _, _, _, _, _, _, hbound⟩ := (hexact.wanted _).1 hstation
  exact absurd (hbound 1 rfl) (by decide)

end AgentPlatform.Assets
