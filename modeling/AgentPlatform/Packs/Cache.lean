import AgentPlatform.Lib.Runs
import AgentPlatform.Packs.Loader

/-!
# The pack cache against the loader

An entry of the cache is the pack of one build with the metadata its files had when they were asked for it,
after the build. It stands for the build on files that look the same, if two things hold: what the build
read of a file is what the file held when its metadata was read, and no file gets that metadata back with
other text. Nothing in `load_pack` makes sure of the first: an edit between the build and the metadata is
recorded with the pack that was built before it.

* `asked_subset`: a build asks for no file it does not list;
* `clean`: the two conditions, where an entry is stored and where a file is edited;
* `cache_refines`: under them every call that starts after the last edit gives what the loader gives on the
  files; `stale_pack`: an edit between build and metadata.
-/

namespace AgentPlatform.Packs

open Outcome Runs Reads

variable {lib : Library} {s t : State} {l : Label} {τs : List (Transition State Label)}

/-! ### What a build asks for -/

variable {past : List Given}

theorem yields_pureStep {α : Type} {x : Except Err α} {b : α} :
    Yields (pureStep x).run past (.ok b) ↔ past = [] ∧ x = .ok b := by
  refine yields_done.trans ?_
  rw [eq_comm (a := x)]

variable {path : String}

theorem yields_isFile {b : Bool} : Yields (isFile path).run past (.ok b) ↔ past = [⟨.isFile path, b⟩] :=
  yields_want (k := Question.isFile path)

theorem yields_readText {b : Except String String} :
    Yields (readText path).run past (.ok b) ↔ past = [⟨.readText path, b⟩] :=
  yields_want (k := Question.readText path)

/-- Every question is about one of the files. -/
def Within (files : List String) (past : List Given) : Prop := ∀ g ∈ past, g.1.path ∈ files

variable {files : List String}

theorem Within.append {past' : List Given} (h : Within files past) (h' : Within files past') :
    Within files (past ++ past') :=
  List.forall_mem_append.2 ⟨h, h'⟩

theorem within_nil (files : List String) : Within files [] := by simp [Within]

theorem within_singleton {g : Given} (h : g.1.path ∈ files) : Within files [g] := by
  simpa [Within] using h

variable {name packFile : String}

theorem within_readPersona {agent : AgentRef} {text : String}
    (hfiles : agent.persona ≠ "" → lib.persona packFile agent.persona ∈ files)
    (h : Yields (readPersona lib name packFile agent).run past (.ok text)) : Within files past := by
  unfold readPersona at h
  split at h
  · obtain ⟨rfl, -⟩ := yields_pure_ok.1 h
    exact within_nil files
  · rename_i hpersona
    have hmem := hfiles hpersona
    split at h
    · exact absurd h not_yields_throw
    · obtain ⟨past₁, found, past₂, hfound, hthen, rfl⟩ := yields_ok_bind.1 h
      obtain rfl := yields_isFile.1 hfound
      refine (within_singleton hmem).append ?_
      split at hthen
      · exact absurd hthen not_yields_throw
      · obtain ⟨past₁, content, past₂, hread, htext, rfl⟩ := yields_ok_bind.1 hthen
        obtain rfl := yields_readText.1 hread
        obtain ⟨rfl, -⟩ := yields_pureStep.1 htext
        exact (within_singleton hmem).append (within_nil files)

/-- The personas of the agents; a prompt changes no agent's persona. -/
theorem within_promptAgents {agents agents' : List AgentRef}
    (hfiles : ∀ agent ∈ agents', agent.persona ≠ "" → lib.persona packFile agent.persona ∈ files)
    (h : Yields (promptAgents lib name packFile agents).run past (.ok agents')) : Within files past := by
  induction agents generalizing past agents' with
  | nil =>
    obtain ⟨rfl, -⟩ := yields_pure_ok.1 h
    exact within_nil files
  | cons agent agents ih =>
    obtain ⟨past₁, u, past, hcheck, h₁, rfl⟩ := yields_ok_bind.1 h
    obtain ⟨rfl, -⟩ := yields_pureStep.1 hcheck
    obtain ⟨past₁, prompt, past₂, hpersona, h₂, rfl⟩ := yields_ok_bind.1 h₁
    obtain ⟨past₂, rest, past₃, hrest, h₃, rfl⟩ := yields_ok_bind.1 h₂
    obtain ⟨rfl, rfl⟩ := yields_pure_ok.1 h₃
    obtain ⟨hfirst, htail⟩ := List.forall_mem_cons.1 hfiles
    exact (within_nil files).append
      ((within_readPersona hfirst hpersona).append ((ih htail hrest).append (within_nil files)))

theorem within_readProducts {productsFile : String} {rows : List Json} (hmem : productsFile ∈ files)
    (h : Yields (readProducts lib name productsFile).run past (.ok rows)) : Within files past := by
  obtain ⟨past₁, found, past₂, hfound, hthen, rfl⟩ := yields_ok_bind.1 h
  obtain rfl := yields_isFile.1 hfound
  refine (within_singleton hmem).append ?_
  split at hthen
  · obtain ⟨rfl, -⟩ := yields_pure_ok.1 hthen
    exact within_nil files
  · obtain ⟨past₁, text, past₂, hread, hrows, rfl⟩ := yields_ok_bind.1 hthen
    obtain rfl := yields_readText.1 hread
    obtain ⟨rfl, -⟩ := yields_pureStep.1 hrows
    exact (within_singleton hmem).append (within_nil files)

/-- A build that gives a pack lists every file it asked for. -/
theorem asked_subset {pack : Pack} (h : Yields (buildPack lib name packFile).run past (.ok (pack, files))) :
    Within files past := by
  obtain ⟨past₁, found, past₂, hfound, h₁, rfl⟩ := yields_ok_bind.1 h
  obtain rfl := yields_isFile.1 hfound
  split at h₁
  · exact absurd h₁ not_yields_throw
  obtain ⟨past₁, text, past₂, hread, h₂, rfl⟩ := yields_ok_bind.1 h₁
  obtain rfl := yields_readText.1 hread
  obtain ⟨past₁, members, past₂, hmembers, h₃, rfl⟩ := yields_ok_bind.1 h₂
  obtain ⟨rfl, -⟩ := yields_pureStep.1 hmembers
  obtain ⟨past₁, products, past₂, hproducts, h₄, rfl⟩ := yields_ok_bind.1 h₃
  obtain ⟨past₂, listed, past₃, hlisted, h₅, rfl⟩ := yields_ok_bind.1 h₄
  obtain rfl := yields_isFile.1 hlisted
  obtain ⟨past₂, values, past₃, hvalues, h₆, rfl⟩ := yields_ok_bind.1 h₅
  obtain ⟨rfl, -⟩ := yields_pureStep.1 hvalues
  obtain ⟨past₂, agents, past₃, hagents, h₇, rfl⟩ := yields_ok_bind.1 h₆
  obtain ⟨past₃, u, past₄, hroutes, h₈, rfl⟩ := yields_ok_bind.1 h₇
  obtain ⟨rfl, -⟩ := yields_pureStep.1 hroutes
  obtain ⟨rfl, hpack⟩ := yields_pure_ok.1 h₈
  obtain ⟨rfl, rfl⟩ := Prod.mk.inj hpack
  have hpersonas : ∀ agent ∈ agents, agent.persona ≠ "" → lib.persona packFile agent.persona ∈
      builtFrom lib packFile (lib.sibling packFile "products.yaml") { values with agents := agents } := by
    intro agent hagent hne
    refine List.mem_append_right _ (List.mem_map.2 ⟨agent, ?_, rfl⟩)
    exact List.mem_filter.2 ⟨hagent, by simpa using hne⟩
  refine (within_singleton (by simp [builtFrom, Question.path])).append ?_
  refine (within_singleton (by simp [builtFrom, Question.path])).append ?_
  refine (within_nil _).append ?_
  refine (within_readProducts (by simp [builtFrom]) hproducts).append ?_
  refine (within_singleton (by simp [builtFrom, Question.path])).append ?_
  refine (within_nil _).append ?_
  exact (within_promptAgents hpersonas hagents).append ((within_nil _).append (within_nil _))

/-! ### Entries and the files they were built from -/

/-- What a question can see of a path. -/
def content (v : Version) : Option (Except String String) := v.map File.content

theorem answer_congr {v w : Version} (h : content v = content w) (q : Question) : q.answer v = q.answer w := by
  cases v <;> cases w <;> cases h' : q <;> simp_all [content, Question.answer]

theorem sameAnswer_iff {q : Question} {a b : q.Answer} : q.sameAnswer a b = true ↔ a = b := by
  cases q <;> simp [Question.sameAnswer]

/-- What a build read of the files is what they held when their metadata was read. -/
def settled (past : List Given) (state : List Stamped) : Bool :=
  past.all fun g => state.all fun f => f.1 != g.1.path || g.1.sameAnswer (g.1.answer f.2) g.2

/-- A file that gets recorded metadata back holds what was recorded with it. -/
def keepsState (path : String) (version : Version) (state : List Stamped) : Bool :=
  state.all fun f => f.1 != path || stamp f.2 != stamp version || decide (content f.2 = content version)

/-- What a call under way has recorded. -/
def Stage.recorded : Stage → List Stamped
  | .stamping _ entry _ => entry.state
  | _ => []

/-- The conditions of the cache. Where a call stores its entry, no file was edited between what the build read
of it and its metadata, as far as the build can tell; where a file is edited, it gets no metadata that is
recorded for it with other text. -/
def clean (s : State) : Label → Bool
  | .edit path version =>
    (s.cache.all fun c => keepsState path version c.2.state) &&
      s.calls.all fun c => keepsState path version c.stage.recorded
  | .work i =>
    match s.calls[i]? with
    | some ⟨_, .stamping past entry []⟩ => settled past entry.state
    | _ => true
  | .load _ => true

/-- The files hold what was recorded, where their metadata is the recorded one. -/
def Fresh (fs : String → Version) (state : List Stamped) : Prop :=
  ∀ f ∈ state, stamp (fs f.1) = stamp f.2 → content (fs f.1) = content f.2

/-- The answers of the build that gave an entry. -/
def Built (lib : Library) (name : String) (entry : Entry) (past : List Given) : Prop :=
  ∃ packFile, located lib name = .ok packFile ∧
    Yields (buildPack lib name packFile).run past (.ok (entry.pack, entry.files))

/-- An entry comes from a build whose answers the recorded files give. -/
structure Sourced (lib : Library) (name : String) (entry : Entry) : Prop where
  files : entry.state.map Prod.fst = entry.files
  built : ∃ past, Built lib name entry past ∧
    ∀ g ∈ past, ∃ f ∈ entry.state, f.1 = g.1.path ∧ g.1.answer f.2 = g.2

variable {fs : String → Version} {state : List Stamped}

theorem Fresh.edit {version : Version} (h : Fresh fs state) (hkeeps : keepsState path version state = true) :
    Fresh (Function.update fs path version) state := by
  intro f hf
  by_cases hpath : f.1 = path
  · have hf' := List.all_eq_true.1 hkeeps f hf
    rw [hpath, Function.update_self]
    simp only [hpath, bne_self_eq_false, Bool.false_or, Bool.or_eq_true, bne_iff_ne,
      decide_eq_true_eq] at hf'
    intro hstamp
    exact (hf'.resolve_left fun hne => hne hstamp.symm).symm
  · rw [Function.update_of_ne hpath]
    exact h f hf

theorem Fresh.record (h : Fresh fs state) (path : String) : Fresh fs (state ++ [(path, fs path)]) := by
  intro f hf
  rcases List.mem_append.1 hf with hf | hf
  · exact h f hf
  · obtain rfl := List.mem_singleton.1 hf
    exact fun _ => rfl

variable {entry : Entry}

theorem Built.sourced (h : Built lib name entry past) (hfiles : entry.state.map Prod.fst = entry.files)
    (hsettled : settled past entry.state = true) : Sourced lib name entry := by
  refine ⟨hfiles, past, h, ?_⟩
  intro g hg
  obtain ⟨packFile, -, hyields⟩ := h
  have hmem := asked_subset hyields g hg
  rw [← hfiles] at hmem
  obtain ⟨f, hf, hpath⟩ := List.mem_map.1 hmem
  have hanswer := List.all_eq_true.1 (List.all_eq_true.1 hsettled g hg) f hf
  simp only [hpath, bne_self_eq_false, Bool.false_or, sameAnswer_iff] at hanswer
  exact ⟨f, hf, hpath, hanswer⟩

theorem Built.uncached_eq (h : Built lib name entry past) (hpast : ∀ g ∈ past, answers fs g.1 = g.2) :
    uncached lib fs name = .ok entry.pack := by
  obtain ⟨packFile, hlocated, hyields⟩ := h
  have hrun := hyields.run_eq hpast
  simp only [uncached, hlocated, hrun]
  rfl

theorem Sourced.uncached_eq (h : Sourced lib name entry)
    (hfs : ∀ f ∈ entry.state, content (fs f.1) = content f.2) : uncached lib fs name = .ok entry.pack := by
  obtain ⟨past, hbuilt, hpast⟩ := h.built
  refine hbuilt.uncached_eq fun g hg => ?_
  obtain ⟨f, hf, hpath, hanswer⟩ := hpast g hg
  have hsame := hfs f hf
  rw [hpath] at hsame
  exact (answer_congr hsame g.1).trans hanswer

/-! ### Every call -/

/-- How a build under way goes on. -/
def Underway (lib : Library) (name : String) (past : List Given)
    (rest : Reads Question.Answer (Except Err (Pack × List String))) : Prop :=
  ∃ packFile, located lib name = .ok packFile ∧ ∀ past' r, Yields rest past' r →
    Yields (buildPack lib name packFile).run (past ++ past') r

/-- What is true of a call at its stage. -/
def Tracked (lib : Library) (fs : String → Version) (name : String) : Stage → Prop
  | .checking packFile _ _ _ => located lib name = .ok packFile
  | .building past rest => Underway lib name past rest
  | .stamping past entry left =>
    Built lib name entry past ∧ entry.state.map Prod.fst ++ left = entry.files ∧ Fresh fs entry.state
  | .returned _ => True

/-- The invariant: every entry comes from its build, and files that look as recorded hold what was
recorded. -/
structure Inv (lib : Library) (s : State) : Prop where
  cached : ∀ c ∈ s.cache, Sourced lib c.1 c.2 ∧ Fresh s.fs c.2.state
  tracked : ∀ c ∈ s.calls, Tracked lib s.fs c.name c.stage

theorem underway_start (h : located lib name = .ok packFile) :
    Underway lib name [] (buildPack lib name packFile).run :=
  ⟨packFile, h, fun _ _ hyields => hyields⟩

theorem Underway.ask {q : Question}
    {next : q.Answer → Reads Question.Answer (Except Err (Pack × List String))}
    (h : Underway lib name past (.ask q next)) (a : q.Answer) :
    Underway lib name (past ++ [⟨q, a⟩]) (next a) := by
  obtain ⟨packFile, hlocated, hrest⟩ := h
  refine ⟨packFile, hlocated, fun past' r hyields => ?_⟩
  rw [List.append_assoc]
  exact hrest _ _ (.ask hyields)

theorem Underway.built {pack : Pack} (h : Underway lib name past (.done (.ok (pack, files)))) :
    Built lib name ⟨files, [], pack⟩ past := by
  obtain ⟨packFile, hlocated, hrest⟩ := h
  have hyields := hrest [] _ (.done _)
  rw [List.append_nil] at hyields
  exact ⟨packFile, hlocated, hyields⟩

theorem Tracked.advance {stage : Stage} (h : Tracked lib fs name stage) :
    Tracked lib fs name (advance lib fs name stage) := by
  cases stage with
  | checking packFile entry state left =>
    cases left with
    | cons path left => exact h
    | nil =>
      show Tracked lib fs name (if sameState state entry.state then .returned (.ok entry.pack)
        else startBuild lib name packFile)
      split
      · trivial
      · exact underway_start h
  | building past rest =>
    cases rest with
    | ask q next => exact h.ask _
    | done r =>
      cases r with
      | error e => trivial
      | ok built => exact ⟨Underway.built h, rfl, fun f hf => by cases hf⟩
  | stamping past entry left =>
    cases left with
    | nil => trivial
    | cons path left =>
      obtain ⟨hbuilt, hfiles, hfresh⟩ := h
      refine ⟨hbuilt, ?_, hfresh.record path⟩
      rw [List.map_append, List.append_assoc]
      exact hfiles
  | returned result => trivial

theorem startLoad_cases (lib : Library) (s : State) (name : String) :
    (∃ e, located lib name = .error e ∧ startLoad lib s name = .returned (.error e)) ∨
      ∃ packFile, located lib name = .ok packFile ∧
        ((∃ c ∈ s.cache, c.1 = name ∧
            startLoad lib s name = .checking packFile c.2 [] c.2.files) ∨
          startLoad lib s name = .building [] (buildPack lib name packFile).run) := by
  unfold startLoad
  cases hlocated : located lib name with
  | error e => exact .inl ⟨e, rfl, rfl⟩
  | ok packFile =>
    refine .inr ⟨packFile, rfl, ?_⟩
    cases hfind : s.cache.find? fun c => c.1 = name with
    | none => exact .inr rfl
    | some c =>
      have hname : c.1 = name := by simpa using List.find?_some hfind
      exact .inl ⟨c, List.mem_of_find?_eq_some hfind, hname, rfl⟩

theorem tracked_startLoad (lib : Library) (s : State) (name : String) :
    Tracked lib s.fs name (startLoad lib s name) := by
  rcases startLoad_cases lib s name with ⟨e, -, h⟩ | ⟨packFile, hlocated, ⟨c, -, -, h⟩ | h⟩
  · rw [h]
    trivial
  · rw [h]
    exact hlocated
  · rw [h]
    exact underway_start hlocated

theorem Inv.step (h : Inv lib s) (hstep : Step lib s l t) (hclean : clean s l = true) : Inv lib t := by
  obtain ⟨rfl, -⟩ := hstep
  cases l with
  | edit path version =>
    obtain ⟨hcache, hcalls⟩ := Bool.and_eq_true_iff.1 hclean
    refine ⟨fun c hc => ?_, fun c hc => ?_⟩
    · obtain ⟨hsourced, hfresh⟩ := h.cached c hc
      exact ⟨hsourced, hfresh.edit (List.all_eq_true.1 hcache c hc)⟩
    · have hkeeps := List.all_eq_true.1 hcalls c hc
      have htracked := h.tracked c hc
      cases hstage : c.stage with
      | stamping past entry left =>
        rw [hstage] at hkeeps htracked
        exact ⟨htracked.1, htracked.2.1, htracked.2.2.edit hkeeps⟩
      | checking | building | returned =>
        rw [hstage] at htracked
        exact htracked
  | load name =>
    refine ⟨h.cached, fun c hc => ?_⟩
    rcases List.mem_append.1 hc with hc | hc
    · exact h.tracked c hc
    · obtain rfl := List.mem_singleton.1 hc
      exact tracked_startLoad lib s name
  | work i =>
    unfold State.after
    dsimp only
    cases hcall : s.calls[i]? with
    | none => exact h
    | some call =>
      have hmem : call ∈ s.calls := List.mem_of_getElem? hcall
      refine ⟨fun c hc => ?_, fun c hc => ?_⟩
      · obtain ⟨name, stage⟩ := call
        have htracked := h.tracked _ hmem
        rcases stage with _ | _ | ⟨past, entry, _ | ⟨path, left⟩⟩ | _
        · exact h.cached c hc
        · exact h.cached c hc
        · obtain ⟨hbuilt, hfiles, hfresh⟩ := htracked
          rw [List.append_nil] at hfiles
          rcases List.mem_cons.1 hc with rfl | hc
          · unfold clean at hclean
            simp only [hcall] at hclean
            exact ⟨hbuilt.sourced hfiles hclean, hfresh⟩
          · exact h.cached c (List.mem_of_mem_filter hc)
        · exact h.cached c hc
        · exact h.cached c hc
      · rcases List.mem_or_eq_of_mem_set hc with hc | rfl
        · exact h.tracked c hc
        · exact (h.tracked call hmem).advance

theorem inv_empty (fs : String → Version) : Inv lib { fs := fs } where
  cached := by simp
  tracked := by simp

/-! ### Calls since the last edit -/

/-- What is true of a call that started after the last edit. -/
def Recent (lib : Library) (fs : String → Version) (name : String) : Stage → Prop
  | .checking packFile entry state _ =>
    located lib name = .ok packFile ∧ Sourced lib name entry ∧ Fresh fs entry.state ∧
      ∀ f ∈ state, f.2 = fs f.1
  | .building past rest => Underway lib name past rest ∧ ∀ g ∈ past, answers fs g.1 = g.2
  | .stamping past entry _ => Built lib name entry past ∧ ∀ g ∈ past, answers fs g.1 = g.2
  | .returned result => result = uncached lib fs name

theorem recent_start (h : located lib name = .ok packFile) :
    Recent lib fs name (startBuild lib name packFile) :=
  ⟨underway_start h, by simp⟩

theorem recent_startLoad (h : Inv lib s) (name : String) : Recent lib s.fs name (startLoad lib s name) := by
  rcases startLoad_cases lib s name with ⟨e, hlocated, hstart⟩ | ⟨packFile, hlocated, hcases⟩
  · rw [hstart]
    simp [Recent, uncached, hlocated]
  · rcases hcases with ⟨c, hc, rfl, hstart⟩ | hstart
    · obtain ⟨hsourced, hfresh⟩ := h.cached c hc
      rw [hstart]
      exact ⟨hlocated, hsourced, hfresh, by simp⟩
    · rw [hstart]
      exact recent_start hlocated

theorem Fresh.content_eq {recorded : List Stamped} (h : Fresh fs recorded)
    (hstate : ∀ f ∈ state, f.2 = fs f.1) (hsame : sameState state recorded = true) :
    ∀ f ∈ recorded, content (fs f.1) = content f.2 := by
  intro f hf
  have hmaps := beq_iff_eq.1 hsame
  have hmem : (f.1, stamp f.2) ∈ state.map fun f => (f.1, stamp f.2) :=
    hmaps ▸ List.mem_map_of_mem (f := fun f : Stamped => (f.1, stamp f.2)) hf
  obtain ⟨f', hf', heq⟩ := List.mem_map.1 hmem
  obtain ⟨hpath, hstamp⟩ := Prod.mk.inj heq
  refine h f hf ?_
  rw [← hstamp, hstate f' hf', hpath]

theorem Recent.advance {stage : Stage} (h : Recent lib fs name stage) :
    Recent lib fs name (advance lib fs name stage) := by
  cases stage with
  | checking packFile entry state left =>
    obtain ⟨hlocated, hsourced, hfresh, hstate⟩ := h
    cases left with
    | cons path left =>
      refine ⟨hlocated, hsourced, hfresh, fun f hf => ?_⟩
      rcases List.mem_append.1 hf with hf | hf
      · exact hstate f hf
      · obtain rfl := List.mem_singleton.1 hf
        rfl
    | nil =>
      show Recent lib fs name (if sameState state entry.state then .returned (.ok entry.pack)
        else startBuild lib name packFile)
      split
      · rename_i hsame
        exact (hsourced.uncached_eq (hfresh.content_eq hstate hsame)).symm
      · exact recent_start hlocated
  | building past rest =>
    obtain ⟨hunderway, hpast⟩ := h
    cases rest with
    | ask q next =>
      refine ⟨hunderway.ask _, fun g hg => ?_⟩
      rcases List.mem_append.1 hg with hg | hg
      · exact hpast g hg
      · obtain rfl := List.mem_singleton.1 hg
        rfl
    | done r =>
      cases r with
      | ok built => exact ⟨hunderway.built, hpast⟩
      | error e =>
        obtain ⟨packFile, hlocated, hrest⟩ := hunderway
        have hyields := hrest [] _ (.done _)
        rw [List.append_nil] at hyields
        have hrun := hyields.run_eq hpast
        show Except.error e = uncached lib fs name
        simp only [uncached, hlocated, hrun]
        rfl
  | stamping past entry left =>
    obtain ⟨hbuilt, hpast⟩ := h
    cases left with
    | nil => exact (hbuilt.uncached_eq hpast).symm
    | cons path left => exact ⟨hbuilt, hpast⟩
  | returned result => exact h

/-- A label that is no edit. -/
def Label.Still (l : Label) : Prop := ∀ path version, l ≠ .edit path version

/-- A call stays recent while no file is edited. -/
theorem recent_step {k : ℕ} (hstep : Step lib s l t) (hstill : l.Still)
    (h : ∃ stage, s.calls[k]? = some ⟨name, stage⟩ ∧ Recent lib s.fs name stage) :
    ∃ stage, t.calls[k]? = some ⟨name, stage⟩ ∧ Recent lib t.fs name stage := by
  obtain ⟨rfl, -⟩ := hstep
  obtain ⟨stage, hcall, hrecent⟩ := h
  cases l with
  | edit path version => exact absurd rfl (hstill path version)
  | load other =>
    refine ⟨stage, ?_, hrecent⟩
    have hk : k < s.calls.length := (List.getElem?_eq_some_iff.1 hcall).1
    show (s.calls ++ [_])[k]? = _
    rw [List.getElem?_append_left hk]
    exact hcall
  | work i =>
    unfold State.after
    dsimp only
    cases hi : s.calls[i]? with
    | none => exact ⟨stage, hcall, hrecent⟩
    | some call =>
      by_cases hik : i = k
      · subst hik
        obtain rfl := Option.some.inj (hi.symm.trans hcall)
        refine ⟨_, ?_, hrecent.advance⟩
        exact List.getElem?_set_self (List.getElem?_eq_some_iff.1 hcall).1
      · refine ⟨stage, ?_, hrecent⟩
        show (s.calls.set i _)[k]? = _
        rw [List.getElem?_set_ne hik]
        exact hcall

/-- A call that started after the last edit and has returned gives what the loader gives on the files. -/
def Refines (lib : Library) (τs : List (Transition State Label)) (s : State) : Prop :=
  ∀ pre τ post name, τs = pre ++ τ :: post → τ.label = .load name → (∀ τ' ∈ post, τ'.label.Still) →
    ∀ result, s.calls[τ.src.calls.length]? = some ⟨name, .returned result⟩ →
      result = uncached lib s.fs name

/-- **The cache refines the loader while nothing is stored over an edit.** In every run of calls and edits
whose steps are all clean, whatever the files were at first: a call that starts after the last edit returns
the pack that building from the files as they are gives, or raises what building raises. -/
theorem cache_refines {fs : String → Version} (h : Run (Step lib) { fs := fs } τs s)
    (hclean : ∀ τ ∈ τs, clean τ.src τ.label = true) : Refines lib τs s := by
  rintro pre τ post name rfl hload hstill result hreturned
  obtain ⟨hpre, hstep⟩ := h.split
  have hguarded : Run (guarded (fun s l => clean s l = true) (Step lib)) { fs := fs } pre τ.src :=
    hpre.guard fun τ' hτ' => hclean τ' (List.mem_append_left _ hτ')
  have hinv : Inv lib τ.src :=
    hguarded.invariant (inv_empty fs) fun u l v hu huv => hu.step huv.1 huv.2
  have hfirst : ∃ stage, τ.dst.calls[τ.src.calls.length]? = some ⟨name, stage⟩ ∧
      Recent lib τ.dst.fs name stage := by
    obtain ⟨hdst, -⟩ := hstep
    rw [hdst, hload]
    exact ⟨_, List.getElem?_concat_length, recent_startLoad hinv name⟩
  have hrest : Run (guarded (fun _ l => l.Still) (Step lib)) τ.dst post s := h.rest.guard hstill
  obtain ⟨stage, hcall, hrecent⟩ := hrest.invariant
    (I := fun u => ∃ stage, u.calls[τ.src.calls.length]? = some ⟨name, stage⟩ ∧
      Recent lib u.fs name stage) hfirst fun u l v hu huv => recent_step huv.1 huv.2 hu
  obtain ⟨-, rfl⟩ := Call.mk.inj (Option.some.inj (hcall.symm.trans hreturned))
  exact hrecent

/-! ### An edit after the build, and one during it -/

def sampleLibrary : Library where
  packFile dir := "/packs/" ++ dir ++ "/pack.yaml"
  confined _ := true
  sibling packFile name := String.ofList (packFile.toList.take (packFile.length - 9)) ++ name
  persona packFile relative := String.ofList (packFile.toList.take (packFile.length - 9)) ++ relative
  inside _ _ := true
  safeLoad text :=
    if text = "name: Old" then .ok (.obj [("name", .str "Old")])
    else if text = "name: New" then .ok (.obj [("name", .str "New")])
    else .error "while scanning"
  modelValidate members := .ok ⟨[], [], [], .obj members⟩
  knownTools := []
  repr text := "'" ++ text ++ "'"

def sampleFiles (path : String) : Version :=
  if path = "/packs/shop/pack.yaml" then some ⟨.ok "name: Old", 1, 9⟩ else none

def sampleEdit : Label := .edit "/packs/shop/pack.yaml" (some ⟨.ok "name: New", 2, 9⟩)

/-- A call, with an edit after `n` of its statements. -/
def firstCall (n : ℕ) : List Label :=
  .load "shop" :: List.replicate n (.work 0) ++ sampleEdit :: List.replicate (8 - n) (.work 0)

/-- That call, and a second one. -/
def sampleLabels (n : ℕ) : List Label := firstCall n ++ .load "shop" :: List.replicate 12 (.work 1)

def sampleState (n : ℕ) : State :=
  (sampleLabels n).foldl (State.after sampleLibrary) { fs := sampleFiles }

/-- The fields of a pack. -/
def fieldsOf : Result → Option String
  | .ok pack => some pack.fields.encode
  | .error _ => none

/-- The name of a pack, and the fields a call for it has returned. -/
def returnedFields (s : State) (i : ℕ) : Option (String × Option String) :=
  match s.calls[i]? with
  | some ⟨name, .returned result⟩ => some (name, fieldsOf result)
  | _ => none

theorem sample_run (n : ℕ)
    (h : (trace (State.after sampleLibrary) { fs := sampleFiles } (sampleLabels n)).all
      (fun τ => changes τ.src τ.label) = true) :
    Run (Step sampleLibrary) { fs := sampleFiles }
      (trace (State.after sampleLibrary) { fs := sampleFiles } (sampleLabels n)) (sampleState n) := by
  have hnil : Run (guarded (fun s l => changes s l = true) fun s l t => t = State.after sampleLibrary s l)
      { fs := sampleFiles } [] { fs := sampleFiles } := .nil
  exact hnil.guardedCalls (sampleLabels n) fun τ hτ => List.all_eq_true.1 h τ hτ

/-- The edit comes after the first call: the second one reads it. -/
theorem cache_refines_sample :
    returnedFields (sampleState 8) 0 = some ("shop", some "\x7b\"name\":\"Old\"\x7d") ∧
      returnedFields (sampleState 8) 1 = some ("shop", some "\x7b\"name\":\"New\"\x7d") ∧
      Refines sampleLibrary (trace (State.after sampleLibrary) { fs := sampleFiles } (sampleLabels 8))
        (sampleState 8) := by
  have hrun := sample_run 8 (by decide +kernel)
  have hclean : ∀ τ ∈ trace (State.after sampleLibrary) { fs := sampleFiles } (sampleLabels 8),
      clean τ.src τ.label = true := by
    rw [← List.all_eq_true]
    decide +kernel
  exact ⟨by decide +kernel, by decide +kernel, cache_refines hrun hclean⟩

/-- The edit comes after the first call has read the file and before its metadata: the second call, which
starts after it, still gives the old pack. -/
theorem stale_pack :
    ¬ ∀ (lib : Library) (fs : String → Version) (τs : List (Transition State Label)) (s : State),
      Run (Step lib) { fs := fs } τs s → Refines lib τs s := by
  intro h
  have hrefines := h _ _ _ _ (sample_run 2 (by decide +kernel))
  have hresult := hrefines _ _ _ "shop" (trace_append _ _ _ _ _) rfl (by
    intro τ hτ path version
    rw [List.eq_of_mem_replicate (label_of_mem_trace hτ)]
    simp)
  have hold : returnedFields (sampleState 2) 1 = some ("shop", some "\x7b\"name\":\"Old\"\x7d") := by
    decide +kernel
  have hnew : fieldsOf (uncached sampleLibrary (sampleState 2).fs "shop") =
      some "\x7b\"name\":\"New\"\x7d" := by
    decide +kernel
  unfold returnedFields at hold
  split at hold
  · rename_i name result hcall
    obtain ⟨rfl, hfields⟩ := Prod.mk.inj (Option.some.inj hold)
    have hfirst :
        ((firstCall 2).foldl (State.after sampleLibrary) { fs := sampleFiles }).calls.length = 1 := by
      decide +kernel
    have heq := hresult result (by
      rw [← hcall]
      exact congrArg _ hfirst)
    rw [heq, hnew] at hfields
    exact absurd hfields (by decide)
  · cases hold

end AgentPlatform.Packs
