import Workbench.Proofs.Flow.Links

/-!
# Files that fail

A file that cannot be drawn to the end has no graph in the atlas, but the functions drawn before the
fault stay noted. So nodes and edges are those of the project without the file, up to links: a call
can lose its link, when the name it refers to is noted once more, and it can gain one, when a node of
another file goes by the name that is noted.
-/

namespace Workbench.Flow

/-! ## Links and the definitions they rest on -/

namespace Graph

variable {project : String} {symbols symbols' : Symbols} {g : Graph} {n : Node}

theorem link?_eq_some_iff_mem (hg : g.Filled) (hn : g.Has n) {e : Edge} :
    link? project symbols g n = some e ↔ e ∈ g.linksOf project symbols ∧ e.source = n.id := by
  rw [mem_linksOf hg, link?_eq_some_iff]
  constructor
  · rintro ⟨t, ht, rfl⟩
    exact ⟨⟨n, t, hn, ht, rfl⟩, rfl⟩
  · rintro ⟨⟨m, t, hm, ht, rfl⟩, hs⟩
    obtain rfl := hg.eq_of_id hm hn hs
    exact ⟨t, ht, rfl⟩

theorem link?_eq_iff (hg : g.Filled) :
    link? project symbols g n = link? project symbols' g n ↔
      linkTarget? project symbols g n = linkTarget? project symbols' g n := by
  have hhas : ∀ {s : Symbols} {t : Node}, linkTarget? project s g n = some t → g.Has t := by
    intro s t ht
    obtain ⟨-, -, -, -, -, h, -⟩ := (linkTarget?_eq_some_iff hg).1 ht
    exact h
  constructor
  · intro h
    unfold link? at h
    cases h₁ : linkTarget? project symbols g n with
    | none =>
      rw [h₁, Option.map_none, eq_comm, Option.map_eq_none_iff] at h
      exact h.symm
    | some t =>
      rw [h₁, Option.map_some, eq_comm, Option.map_eq_some_iff] at h
      obtain ⟨t', ht', he⟩ := h
      rw [ht', hg.eq_of_id (hhas h₁) (hhas ht') (congrArg Edge.target he).symm]
  · intro h
    rw [link?, h, link?]

theorem linksOf_eq_iff (hg : g.Filled) :
    g.linksOf project symbols = g.linksOf project symbols' ↔ ∀ n, g.Has n →
      linkTarget? project symbols g n = linkTarget? project symbols' g n := by
  constructor
  · intro h n hn
    refine (link?_eq_iff hg).1 (Option.ext fun e => ?_)
    rw [link?_eq_some_iff_mem hg hn, link?_eq_some_iff_mem hg hn, h]
  · intro h
    refine List.filterMap_congr fun n hn => ?_
    exact (link?_eq_iff hg).2 (h n (hg.has_iff.2 hn))

end Graph

/-! ## Definitions more or less -/

theorem Symbols.candidates_append (l l' : List Definition) (name : String) :
    Symbols.candidates ⟨l ++ l'⟩ name = Symbols.candidates ⟨l⟩ name ++ Symbols.candidates ⟨l'⟩ name :=
  List.filter_append ..

theorem Symbols.resolve_eq_none {s : Symbols} {name : String} (h : (s.candidates name).length ≠ 1) :
    s.resolve name = none := by
  refine Option.eq_none_iff_forall_ne_some.2 fun d hd => h ?_
  rw [resolve_eq_some_iff_candidates.1 hd]
  rfl

/-- What a name leads to once the definitions `own` are noted among others. -/
theorem Symbols.resolve_append (l own l' : List Definition) (name : String) :
    Symbols.resolve ⟨l ++ (own ++ l')⟩ name =
      if Symbols.candidates ⟨own⟩ name = [] then Symbols.resolve ⟨l ++ l'⟩ name
      else if Symbols.candidates ⟨l ++ l'⟩ name = [] then Symbols.resolve ⟨own⟩ name
      else none := by
  have hall : Symbols.candidates ⟨l ++ (own ++ l')⟩ name = Symbols.candidates ⟨l⟩ name ++
      (Symbols.candidates ⟨own⟩ name ++ Symbols.candidates ⟨l'⟩ name) := by
    rw [candidates_append, candidates_append]
  have hothers := candidates_append l l' name
  by_cases hown : Symbols.candidates ⟨own⟩ name = []
  · rw [if_pos hown, resolve, resolve, hall, hothers, hown, List.nil_append]
  · rw [if_neg hown]
    by_cases hnone : Symbols.candidates ⟨l ++ l'⟩ name = []
    · rw [if_pos hnone]
      obtain ⟨hl, hl'⟩ := List.append_eq_nil_iff.1 (hothers ▸ hnone)
      rw [resolve, resolve, hall, hl, hl', List.nil_append, List.append_nil]
    · -- one of each is too many
      rw [if_neg hnone]
      apply resolve_eq_none
      have h₁ := List.length_pos_iff.2 hown
      have h₂ := List.length_pos_iff.2 hnone
      rw [hothers] at h₂
      rw [hall]
      simp only [List.length_append] at h₂ ⊢
      omega

/-- A call whose link is another with the definitions `own` than without: its name is noted in `own`,
and it has a link either by the one definition elsewhere or by the one in `own`. -/
def Disturbed (project : String) (g : Graph) (own others : Symbols) (n : Node) : Prop :=
  n.kind = .call ∧ own.candidates (calledName n.label) ≠ [] ∧
    ∃ d, (others.candidates (calledName n.label) = [d] ∨
        others.candidates (calledName n.label) = [] ∧ own.candidates (calledName n.label) = [d]) ∧
      scopedId (flatPath project d.file) d.node ∈ g.ids

theorem linkTarget?_append_iff {project : String} {g : Graph} {n : Node} (hg : g.Filled)
    (l own l' : List Definition) :
    linkTarget? project ⟨l ++ (own ++ l')⟩ g n = linkTarget? project ⟨l ++ l'⟩ g n ↔
      ¬ Disturbed project g ⟨own⟩ ⟨l ++ l'⟩ n := by
  unfold linkTarget? Disturbed
  by_cases hk : n.kind = .call
  swap
  · simp [hk]
  rw [if_pos hk, if_pos hk, Symbols.resolve_append]
  generalize calledName n.label = name
  -- a name leads to no node exactly if its one definition has no node in the graph
  have hdead : ∀ s : Symbols, (s.resolve name).bind
      (fun d => g.node? (scopedId (flatPath project d.file) d.node)) = none ↔
        ∀ d, s.candidates name = [d] → scopedId (flatPath project d.file) d.node ∉ g.ids := by
    intro s
    simp only [Option.bind_eq_none_iff, Symbols.resolve_eq_some_iff_candidates, hg.node?_eq_none_iff]
  by_cases hown : Symbols.candidates ⟨own⟩ name = []
  · simp [hown]
  by_cases hothers : Symbols.candidates ⟨l ++ l'⟩ name = []
  · have hres : Symbols.resolve ⟨l ++ l'⟩ name = none :=
      Symbols.resolve_eq_none (by rw [hothers]; decide)
    rw [if_neg hown, if_pos hothers, hres, Option.bind_none, hdead]
    simp [hk, hown, hothers]
  · rw [if_neg hown, if_neg hothers, Option.bind_none, eq_comm, hdead]
    simp [hk, hown, hothers]

/-! ## A file that cannot be drawn -/

section
variable (settings : Option Value) (project : String) (cs cs' : List Chapter) (c : Chapter)

theorem definitionsOf_append : definitionsOf settings (cs ++ cs') =
    ⟨(definitionsOf settings cs).definitions ++ (definitionsOf settings cs').definitions⟩ := by
  simp [definitionsOf]

theorem mergedOf_of_fault {f : DrawFault} (h : c.fault? settings = some f) :
    mergedOf settings project (cs ++ c :: cs') = mergedOf settings project (cs ++ cs') := by
  have hnone : c.graphEntry settings = none := by rw [Chapter.graphEntry, h]; rfl
  rw [mergedOf, mergedOf, List.filterMap_append, List.filterMap_cons_none hnone,
    ← List.filterMap_append]

theorem filter_no_links {g : Graph} (hg : g.Tidy) (symbols : Symbols) :
    (g.edges ++ g.linksOf project symbols).filter (fun e => e.kind ≠ .link) = g.edges := by
  rw [List.filter_append, List.filter_eq_self.2 fun e he => by simpa using hg.no_links e he,
    List.filter_eq_nil_iff.2, List.append_nil]
  intro e he
  obtain ⟨n, t, -, -, rfl⟩ := (Graph.mem_linksOf hg.toFilled).1 he
  simp

/-- A file that fails leaves no trace exactly if it disturbs no call. Whether it does or not, there
are the same nodes, and the same edges apart from links. -/
theorem atlas_without_failed_iff {f : DrawFault}
    (h : ((Index.empty.addAll settings cs).1.add settings c).2 = some f) :
    let whole := atlasOf settings project (cs ++ c :: cs')
    let rest := atlasOf settings project (cs ++ cs')
    whole.graph.vertices = rest.graph.vertices ∧
      whole.graph.edges.filter (fun e => e.kind ≠ .link) =
        rest.graph.edges.filter (fun e => e.kind ≠ .link) ∧
      (whole = rest ↔ ∀ n, rest.graph.Has n →
        ¬ Disturbed project rest.graph (Index.empty.addAll settings [c]).1.symbols
          (Index.empty.addAll settings (cs ++ cs')).1.symbols n) := by
  rw [Index.add_eq] at h
  intro whole rest
  have hm := (tidy_mergedOf settings project (cs ++ cs')).1
  have hown : Index.empty.addAll settings [c] |>.1.symbols = ⟨c.definitions settings⟩ := by
    rw [symbols_addAll]
    simp [definitionsOf]
  have hall : definitionsOf settings (cs ++ c :: cs') =
      ⟨(definitionsOf settings cs).definitions ++
        (c.definitions settings ++ (definitionsOf settings cs').definitions)⟩ := by
    simp [definitionsOf]
  have hrest : rest = _ := atlasOf_eq_links settings project (cs ++ cs')
  have hwhole : whole = _ := atlasOf_eq_links settings project (cs ++ c :: cs')
  rw [mergedOf_of_fault settings project cs cs' c h, hall] at hwhole
  rw [definitionsOf_append] at hrest
  rw [hown, symbols_addAll, definitionsOf_append, hrest, hwhole]
  generalize mergedOf settings project (cs ++ cs') = M at hm ⊢
  refine ⟨rfl, ?_, ?_⟩
  · rw [filter_no_links project hm, filter_no_links project hm]
  · refine Iff.trans ?_ ((Graph.linksOf_eq_iff hm.toFilled).trans
      (forall₂_congr fun n hn => linkTarget?_append_iff hm.toFilled ..))
    constructor
    · intro heq
      exact List.append_cancel_left (congrArg (fun a => a.graph.edges) heq)
    · intro hlinks
      rw [hlinks]

end

/-- A file with a function `f`, and then one whose text cannot be read. -/
def brokenFile : Chapter where
  path := "/w/a.py"
  source := {
    dialect := .suites
    code := "def f():\n a()\ndef g():\n x = '".toUTF8.toList ++ [0xe9, 0x27, 0x0a]
    tree := .node "module" 0 33 none
      [.node "function_definition" 0 13 none
        [.node "identifier" 4 5 (some "name") [], .node "block" 10 13 (some "body") []],
       .node "function_definition" 14 32 none
        [.node "identifier" 18 19 (some "name") [],
         .node "block" 24 32 (some "body") [.node "expression_statement" 24 32 none []]]] }

def callingFile : Chapter where
  path := "/w/b.py"
  source := {
    dialect := .suites
    code := "def f():\n b()\ndef main():\n f()\n".toUTF8.toList
    tree := .node "module" 0 32 none
      [.node "function_definition" 0 13 none
        [.node "identifier" 4 5 (some "name") [], .node "block" 10 13 (some "body") []],
       .node "function_definition" 14 31 none
        [.node "identifier" 18 22 (some "name") [],
         .node "block" 27 30 (some "body")
          [.node "expression_statement" 27 30 none
            [.node "call" 27 30 none [.node "identifier" 27 28 (some "function") []]]]]] }

theorem brokenFile_unlinks : (∃ f, (Index.empty.add none brokenFile).2 = some f) ∧
    atlasOf none "/w" [brokenFile, callingFile] ≠ atlasOf none "/w" [callingFile] := by
  have hfault : (Index.empty.add none brokenFile).2.isSome := by decide +kernel
  obtain ⟨f, hf⟩ := Option.isSome_iff_exists.1 hfault
  refine ⟨⟨f, hf⟩, fun heq => ?_⟩
  obtain ⟨n, hn, hk, hname⟩ : ∃ n ∈ (atlasOf none "/w" [callingFile]).graph.content,
      n.kind = .call ∧ calledName n.label = "f" := by decide +kernel
  refine (atlas_without_failed_iff none "/w" [] [callingFile] brokenFile hf).2.2.1 heq n
    ((filled_atlasOf none "/w" [callingFile]).has_iff.2 hn) ⟨hk, ?_⟩
  rw [hname]
  exact ⟨by decide +kernel, ⟨"f", "/w/b.py", "f_block_1", ""⟩, .inl (by decide +kernel),
    by decide +kernel⟩

end Workbench.Flow
