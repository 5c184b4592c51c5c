import Workbench.Proofs.Flow.Links
import Workbench.Proofs.World.Session
import Workbench.Flow.Command

/-!
# Runs on a project

A run on a project reads and indexes the files, says what became of those that could not be drawn,
and prints the size of the atlas and the number of its links. The atlas is that of the files which
could be read.
-/

namespace Workbench.Flow.Command

open Session

def chapter? (tools : Toolchain) (files : Files) (file : String) : Option Chapter :=
  match (tools.parser.load files file).2 with
  | .error _ => none
  | .ok source => some ⟨file, source⟩

def chapters (tools : Toolchain) (files : Files) (targets : List String) : List Chapter :=
  targets.filterMap (chapter? tools files)

def faultNotes (settings : Value) (c : Chapter) : Notes :=
  (c.fault? (some settings)).toList.map fun f => "[!] Failed to index " ++ c.path ++ ": " ++ f.message

def fileNotes (tools : Toolchain) (settings : Value) (files : Files) (file : String) : Notes :=
  (tools.parser.load files file).1 ++ (chapter? tools files file).toList.flatMap (faultNotes settings)

variable (tools : Toolchain) (settings : Value)

theorem onDesk_indexAll (index : Index) (targets : List String) (d : Desk) :
    (indexAll tools settings index targets).onDesk d =
      (.ok (index.addAll (some settings) (chapters tools d.files targets)).1,
       d.plus (printed (targets.flatMap (fileNotes tools settings d.files)))) := by
  induction targets generalizing index d with
  | nil => simp [indexAll, chapters, Index.addAll]
  | cons file rest ih =>
    rw [indexAll, onDesk_bind_of_ok onDesk_files, List.flatMap_cons, printed_append, chapters]
    rcases hload : tools.parser.load d.files file with ⟨notes, fault | source⟩
    · have hc : chapter? tools d.files file = none := by rw [chapter?, hload]
      have hn : fileNotes tools settings d.files file = notes := by simp [fileNotes, hc, hload]
      dsimp only
      rw [onDesk_bind_of_ok (onDesk_forM_say notes), ih, List.filterMap_cons_none hc, hn]
      simp [chapters]
    · have hc : chapter? tools d.files file = some ⟨file, source⟩ := by rw [chapter?, hload]
      have hn : fileNotes tools settings d.files file =
          notes ++ faultNotes settings ⟨file, source⟩ := by
        simp [fileNotes, hc, hload]
      dsimp only
      rw [onDesk_bind_of_ok (onDesk_forM_say notes), List.filterMap_cons_some hc, hn, Index.addAll,
        Index.add_eq]
      cases hf : Chapter.fault? (some settings) ⟨file, source⟩ with
      | none =>
        have hquiet : faultNotes settings ⟨file, source⟩ = [] := by rw [faultNotes, hf]; rfl
        dsimp only
        rw [ih, hquiet]
        simp [chapters]
      | some f =>
        have hloud : faultNotes settings ⟨file, source⟩ =
            ["[!] Failed to index " ++ file ++ ": " ++ f.message] := by rw [faultNotes, hf]; rfl
        dsimp only
        rw [onDesk_bind_of_ok (onDesk_say _), ih, hloud]
        simp [chapters, printed_append, String.append_assoc]

theorem speaks_ensureFolder (name : String) : (ensureFolder name).Speaks := by
  refine .bind .files fun files => ?_
  split
  · exact .pure _
  · exact .change _ _

def projectNotes (files : Files) (targets : List String) (nodes links : Nat) : Notes :=
  ["[*] Starting Phase A: Symbol Indexing..."] ++ targets.flatMap (fileNotes tools settings files) ++
    ["[*] Starting Phase B: Graph Fusion...", "[*] Starting Phase C: Cross-Linking...",
     "[*] Atlas Generated: " ++ Decimal.digitText nodes ++ " nodes, " ++ Decimal.digitText links ++
       " cross-links."]

theorem out_processProject (request : Request) (project : String) (targets : List String) (d : Desk) :
    let index := (Index.empty.addAll (some settings) (chapters tools d.files targets)).1
    ∃ text, ((processProject tools settings request project targets).onDesk d).2.out =
      d.out ++ printed (projectNotes tools settings d.files targets
        (index.atlas project).graph.vertices.length (index.atlas project).links) ++ text := by
  intro index
  unfold processProject
  rw [onDesk_bind_of_ok (onDesk_say _), onDesk_bind_of_ok (onDesk_indexAll ..),
    onDesk_bind_of_ok (onDesk_say _), onDesk_bind_of_ok (onDesk_say _),
    onDesk_bind_of_ok (onDesk_say _)]
  -- what follows can only print more
  have more : ∀ {x : Session Fault Unit} {d₁ : Desk} {s : String}, x.Speaks → d₁.out = s →
      ∃ text, (x.onDesk d₁).2.out = s ++ text := fun hx hd => hd ▸ hx _
  refine more (.bind (speaks_ensureFolder _) fun _ => ?_) ?_
  · split
    · refine .bind (.demand _ _) fun text => .bind (.change _ _) fun _ => ?_
      split
      · exact .say _
      · exact .say _
    · exact .pure _
  · simp only [Desk.out_plus, Desk.files_plus, projectNotes, printed_append, printed_cons, printed_nil,
      String.append_assoc, String.append_empty, index]

/-- The files of a project are indexed to the end, in whatever order they stand: all definitions of
those that can be read are noted, and the graphs of those without fault are merged. The atlas is then
linked exactly, and the count that is printed is the number of its links. -/
theorem processProject_crossLinks (request : Request) (project : String) (targets : List String)
    (d : Desk) :
    ∃ index, ((indexAll tools settings .empty targets).onDesk d).1 = .ok index ∧
      index.symbols = definitionsOf (some settings) (chapters tools d.files targets) ∧
      fuse project index.graphs = mergedOf (some settings) project (chapters tools d.files targets) ∧
      CrossLinked project index.symbols.definitions (fuse project index.graphs)
        (index.atlas project) ∧
      ∃ text, ((processProject tools settings request project targets).onDesk d).2.out =
        d.out ++ printed (projectNotes tools settings d.files targets
          (index.atlas project).graph.vertices.length
          ((index.atlas project).graph.edges.filter fun e => e.kind = .link).length) ++ text := by
  have hlinked := crossLinked_atlas (some settings) project (chapters tools d.files targets)
  have hout := out_processProject tools settings request project targets d
  dsimp only at hlinked hout
  rw [hlinked.counted] at hout
  exact ⟨_, by rw [onDesk_indexAll], symbols_addAll _ _, fuse_addAll _ _ _, hlinked, hout⟩

/-- Two files with a function each. The first calls the second, which calls something unknown. -/
def callAcross : Files :=
  ⟨"/w", [(["a.py"], .file (Utf8.encode "def f():\n g()\n")),
    (["b.py"], .file (Utf8.encode "def g():\n x()\n"))]⟩

def acrossTools : Toolchain where
  parser := ⟨none, fun _ _ => .node "module" 0 14 none [.node "function_definition" 0 13 none
    [.node "identifier" 4 5 (some "name") [], .node "block" 10 13 (some "body")
      [.node "expression_statement" 10 13 none
        [.node "call" 10 13 none [.node "identifier" 10 11 (some "function") []]]]]]⟩
  dot := .missing
  home := ⟨⟨"/w", []⟩, "/tool", fun _ _ => .ok .null⟩

theorem callAcross_linked :
    ∃ index, ((indexAll acrossTools Settings.blank .empty ["/w/a.py", "/w/b.py"]).onDesk
        ⟨callAcross, "", "", [], 0⟩).1 = .ok index ∧
      ∃ e ∈ (index.atlas "/w").graph.edges, e.kind = .link ∧ e.source = "a_py_f_call_3" ∧
        e.target = "b_py_g_block_1" := by
  obtain ⟨index, hindex, hsymbols, hmerged, hlinked, -⟩ := processProject_crossLinks acrossTools
    Settings.blank ⟨"/w", .both, none, none, true⟩ "/w" ["/w/a.py", "/w/b.py"] ⟨callAcross, "", "", [], 0⟩
  dsimp only at hsymbols hmerged
  have hhas : ∀ n ∈ (mergedOf (some Settings.blank) "/w"
      (chapters acrossTools callAcross ["/w/a.py", "/w/b.py"])).content,
      (index.atlas "/w").graph.Has n := by
    intro n hn
    unfold Graph.Has
    rw [hlinked.vertices, hmerged]
    exact (tidy_mergedOf _ _ _).1.toFilled.has_iff.2 hn
  obtain ⟨c, hc, hkind, hname, hid⟩ : ∃ c ∈ (mergedOf (some Settings.blank) "/w"
      (chapters acrossTools callAcross ["/w/a.py", "/w/b.py"])).content,
      c.kind = .call ∧ calledName c.label = "g" ∧ c.id = "a_py_f_call_3" := by decide +kernel
  obtain ⟨t, ht, hid'⟩ : ∃ t ∈ (mergedOf (some Settings.blank) "/w"
      (chapters acrossTools callAcross ["/w/a.py", "/w/b.py"])).content, t.id = "b_py_g_block_1" := by
    decide +kernel
  have hlink := (hlinked.linked c t (hhas c hc) hkind (hhas t ht)).2 (by
    rw [hname, hid', hsymbols]
    exact ⟨⟨"g", "/w/b.py", "g_block_1", ""⟩, by decide +kernel, by decide +kernel, by decide +kernel,
      by decide +kernel⟩)
  rw [hid, hid'] at hlink
  exact ⟨index, hindex, hlink⟩

end Workbench.Flow.Command
