import Workbench.Proofs.Flow.Braced.Roster
import Workbench.Proofs.Flow.Braced.Sides
import Mathlib.Algebra.GroupWithZero.Nat

/-!
# Checks for question marks

Each statement that is drawn looks for question marks in its whole tree, down to the outermost ones,
and a check is drawn for each of them. So a question mark is checked as often as statements look at
it: again for each statement inside the statement, and never if it stands inside another one. The
checks for the question marks in a body stand in front of the statement as well.
-/

namespace Workbench.Flow.Braced

open Drawing

/-! ## Question marks and who looks at them -/

mutual

/-- All question marks of a tree. Closures and asynchronous blocks keep theirs to themselves. -/
def allMarks : Tree → List Tree
  | .node kind start stop field children =>
    if kind = "closure_expression" ∨ kind = "async_block" then []
    else if kind = "try_expression" then .node kind start stop field children :: allMarksAmong children
    else allMarksAmong children

def allMarksAmong : List Tree → List Tree
  | [] => []
  | t :: ts => allMarks t ++ allMarksAmong ts

end

mutual

/-- For each question mark of a tree how many statements look at it, if some look at the tree and
nothing in it is drawn. They do not see a question mark inside another one. -/
def glances (looks : Nat) : Tree → List Nat
  | .node kind _ _ _ children =>
    if kind = "closure_expression" ∨ kind = "async_block" then []
    else if kind = "try_expression" then looks :: glancesAmong 0 children
    else glancesAmong looks children

def glancesAmong (looks : Nat) : List Tree → List Nat
  | [] => []
  | t :: ts => glances looks t ++ glancesAmong looks ts

end

mutual

/-- For each question mark of a statement how many statements look at it, the statement itself and
those inside it included. -/
def sightings (looks : Nat) : Tree → List Nat
  | .node kind start stop field children =>
    match kind with
    | "expression_statement" => sightingsFirst (looks + 1) children
    | "if_expression" => sightingsSides (looks + 1) true true children
    | "match_expression" => sightingsChoice (looks + 1) children
    | "loop_expression" => sightingsBody (looks + 1) children
    | "while_expression" => sightingsBody (looks + 1) children
    | "for_expression" => sightingsBody (looks + 1) children
    | _ => glances (looks + 1) (.node kind start stop field children)

def sightingsFirst (looks : Nat) : List Tree → List Nat
  | [] => []
  | t :: ts => sightings looks t ++ glancesAmong looks ts

def sightingsAmong (looks : Nat) : List Tree → List Nat
  | [] => []
  | t :: ts =>
    (if isFiller t.kind then glances looks t else sightings looks t) ++ sightingsAmong looks ts

def sightingsBody (looks : Nat) : List Tree → List Nat
  | [] => []
  | .node kind start stop field children :: ts =>
    if field = some "body" then sightingsAmong looks children ++ glancesAmong looks ts
    else glances looks (.node kind start stop field children) ++ sightingsBody looks ts

/-- The question marks around the two sides of a condition, as far as they are still to come, and of
the sides. -/
def sightingsSides (looks : Nat) (consequence alternative : Bool) : List Tree → List Nat
  | [] => []
  | .node kind start stop field children :: ts =>
    if consequence ∧ field = some "consequence" then
      (if kind = "block" then sightingsAmong looks children
        else sightings looks (.node kind start stop field children)) ++
        sightingsSides looks false alternative ts
    else if alternative ∧ field = some "alternative" then
      (if kind = "block" then sightingsAmong looks children
        else sightings looks (.node kind start stop field children)) ++
        sightingsSides looks consequence false ts
    else glances looks (.node kind start stop field children) ++
      sightingsSides looks consequence alternative ts

def sightingsChoice (looks : Nat) : List Tree → List Nat
  | [] => []
  | .node kind start stop field children :: ts =>
    if field = some "body" then sightingsArms looks children ++ glancesAmong looks ts
    else glances looks (.node kind start stop field children) ++ sightingsChoice looks ts

def sightingsArms (looks : Nat) : List Tree → List Nat
  | [] => []
  | .node kind start stop field children :: ts =>
    (if kind = "match_arm" then sightingsArm looks children
      else glances looks (.node kind start stop field children)) ++ sightingsArms looks ts

def sightingsArm (looks : Nat) : List Tree → List Nat
  | [] => []
  | .node kind start stop field children :: ts =>
    if field = some "value" then
      (if kind = "block" then sightingsAmong looks children
        else sightings looks (.node kind start stop field children)) ++ glancesAmong looks ts
    else glances looks (.node kind start stop field children) ++ sightingsArm looks ts

end

/-! ## Well-formed functions -/

def bodyKind (kind : String) : Option String :=
  if kind = "loop_expression" ∨ kind = "while_expression" ∨ kind = "for_expression" then some "block"
  else if kind = "match_expression" then some "match_block"
  else none

def bodyFits (kind : String) (siblings : List Tree) : Bool :=
  match bodyKind kind, Tree.fillerOf "body" siblings with
  | some k, some w => w.kind == k
  | _, _ => true

mutual

/-- All bodies in a tree are of the kinds that the grammar asks for. -/
def shaped : Tree → Bool
  | .node kind _ _ _ children => bodyFits kind children && allShaped children

def allShaped : List Tree → Bool
  | [] => true
  | t :: ts => shaped t && allShaped ts

end

mutual

def Statement.tight : Statement → Bool
  | .checked _ inner => inner.tight
  | .plain _ => true
  | .call _ => true
  | .hollow => true
  | .ret => true
  | .panic => true
  | .cond _ consequence alternative => consequence.tight && sideTight alternative
  | .select _ arms => arms.tight
  | .forever body => body.tight
  | .loop _ _ body => body.tight
  | .breakLoop => true
  | .continueLoop => true

def Block.tight : Block → Bool
  | .missing => true
  | .braces l => blockTight l

def blockTight : List Statement → Bool
  | [] => true
  | s :: r => s.tight && (s.goesOn || r.isEmpty) && blockTight r

def Branch.tight : Branch → Bool
  | .block body => body.tight
  | .single s => s.tight

def sideTight : Option Branch → Bool
  | none => true
  | some b => b.tight

def Arms.tight : Arms → Bool
  | .missing => true
  | .arms l => armsTight l

def armsTight : List Arm → Bool
  | [] => true
  | .arm _ value :: r => value.tight && armsTight r

end

/-! ## Counting checks -/

def checks (nodes : List (NodeKind × String)) : Nat := nodes.count checkFace

theorem checks_append (l l' : List (NodeKind × String)) : checks (l ++ l') = checks l + checks l' :=
  List.count_append

theorem checks_replicate (n : Nat) : checks (List.replicate n checkFace) = n :=
  List.count_replicate_self

theorem checks_cons {f : NodeKind × String} (h : f ≠ checkFace) (l : List (NodeKind × String)) :
    checks (f :: l) = checks l := List.count_cons_of_ne h

theorem checks_cons_kind {kind : NodeKind} (h : kind ≠ .virtual) (label : String)
    (l : List (NodeKind × String)) : checks ((kind, label) :: l) = checks l :=
  checks_cons (fun e => h (congrArg Prod.fst e)) l

theorem checks_cons_label {label : String} (h : label ≠ "Check '?'") (l : List (NodeKind × String)) :
    checks ((.virtual, label) :: l) = checks l :=
  checks_cons (fun e => h (congrArg Prod.snd e)) l

theorem case_ne_check (p : String) : "Case " ++ p ≠ "Check '?'" := by
  intro h
  have h := congrArg String.toList h
  simp [String.toList_append] at h

theorem checks_branch {label : String} (h : label ≠ "Check '?'") (b : Branch) :
    checks (b.roster label) = checks b.rosterInside := by
  cases b with
  | single s => rw [Branch.roster, Branch.rosterInside, checks_cons_label h]
  | block block =>
    cases block with
    | missing => rfl
    | braces l =>
      cases l with
      | nil => simp only [Branch.roster, Branch.rosterInside, blockRoster]
      | cons s r => rw [Branch.roster, Branch.rosterInside, blockRoster, checks_cons_label h]

def sideInside : Option Branch → List (NodeKind × String)
  | none => []
  | some b => b.rosterInside

def Arms.roster : Arms → List (NodeKind × String)
  | .missing => []
  | .arms l => armsRoster l

theorem checks_side (alternative : Option Branch) :
    checks (sideRoster alternative) = checks (sideInside alternative) := by
  cases alternative with
  | none => rfl
  | some b => rw [sideRoster, sideInside, checks_branch (by decide)]

theorem checks_cond (label : Tree.Excerpt) (consequence : Branch) (alternative : Option Branch) :
    checks (Statement.roster (.cond label consequence alternative)) =
      checks consequence.rosterInside + checks (sideInside alternative) := by
  have hjoin : ∀ b : Bool, checks (if b then [(.join, "fi")] else []) = 0 := by decide
  rw [Statement.roster, checks_append, checks_append, hjoin, Nat.add_zero, checks_cons_kind (by decide),
    checks_cons_kind (by decide), checks_branch (by decide), checks_side]

theorem checks_select (label : Tree.Excerpt) (arms : Arms) :
    checks (Statement.roster (.select label arms)) = checks arms.roster := by
  cases arms with
  | missing => rw [Statement.roster, Arms.roster]
  | arms l =>
    rw [Statement.roster, Arms.roster, checks_cons_kind (by decide), checks_cons_kind (by decide)]

theorem checks_forever (body : Block) :
    checks (Statement.roster (.forever body)) = checks body.roster := by
  rw [Statement.roster, checks_cons_kind (by decide), checks_cons_kind (by decide)]

theorem checks_loop (head : LoopHead) (label : Tree.Excerpt) (body : Block) :
    checks (Statement.roster (.loop head label body)) = checks body.roster := by
  rw [Statement.roster, checks_cons_kind (by decide), checks_cons_kind (by decide),
    checks_cons_label (by decide)]

theorem checks_checked (marks : List Tree) (s : Statement) :
    checks (Statement.roster (.checked marks s)) = marks.length + checks s.roster := by
  rw [Statement.roster, checks_append, checks_replicate]

/-- Where nothing stands behind a statement that does not go on, all of a block is drawn. -/
theorem checks_block_cons {s : Statement} {r : List Statement} (h : blockTight (s :: r)) :
    checks (blockRoster (s :: r)) = checks s.roster + checks (blockRoster r) := by
  rw [blockRoster, checks_append]
  cases hgo : s.goesOn with
  | true => rfl
  | false =>
    obtain ⟨⟨-, rfl⟩, -⟩ : (s.tight = true ∧ r = []) ∧ blockTight r = true := by
      simpa [blockTight, hgo] using h
    rfl

/-! ## Adding up -/

/-- Some numbers of statements that look at question marks: at the outermost ones of a tree a number
of statements from outside, and the rest draw checks inside. -/
structure Tally (l : List Nat) (looks : Nat) (outermost all : List Tree) (inside : Nat) : Prop where
  sum : l.sum = looks * outermost.length + inside
  length : l.length = all.length

section
variable {source : Bytes} {l l' : List Nat} {looks inside inside' : Nat}
  {outermost outermost' all all' : List Tree} {kind : String} {start stop : Nat} {field : Option String}
  {children : List Tree}

theorem Tally.nil : Tally [] looks [] [] 0 := ⟨by simp, rfl⟩

theorem Tally.append (h : Tally l looks outermost all inside)
    (h' : Tally l' looks outermost' all' inside') :
    Tally (l ++ l') looks (outermost ++ outermost') (all ++ all') (inside + inside') where
  sum := by
    rw [List.sum_append, h.sum, h'.sum, List.length_append, Nat.mul_add]
    omega
  length := by rw [List.length_append, List.length_append, h.length, h'.length]

/-- A statement looks at its tree and draws a check for each of the outermost question marks. -/
theorem Tally.look (h : Tally l (looks + 1) outermost all inside) :
    Tally l looks outermost all (outermost.length + inside) where
  sum := by
    rw [h.sum, Nat.add_mul]
    omega
  length := h.length

def Clear (kind : String) : Prop :=
  kind ≠ "closure_expression" ∧ kind ≠ "async_block" ∧ kind ≠ "try_expression"

theorem questionMarks_of_clear (h : Clear kind) :
    questionMarks (.node kind start stop field children) = questionMarksAmong children := by
  rw [questionMarks, if_neg (by simp [h.1, h.2.1]), if_neg h.2.2]

theorem questionMarks_eq_children {t : Tree} (h : Clear t.kind) :
    questionMarks t = questionMarksAmong t.children := by
  obtain ⟨kind, start, stop, field, children⟩ := t
  exact questionMarks_of_clear h

theorem allMarks_of_clear (h : Clear kind) :
    allMarks (.node kind start stop field children) = allMarksAmong children := by
  rw [allMarks, if_neg (by simp [h.1, h.2.1]), if_neg h.2.2]

mutual

theorem tally_glances (looks : Nat) : ∀ t : Tree,
    Tally (glances looks t) looks (questionMarks t) (allMarks t) 0
  | .node kind start stop field children => by
    rw [glances, questionMarks, allMarks]
    split
    next => exact .nil
    next =>
      split
      next =>
        have hinner := tally_glancesAmong 0 children
        exact ⟨by simp [hinner.sum], by simp [hinner.length]⟩
      next => exact tally_glancesAmong looks children

theorem tally_glancesAmong (looks : Nat) : ∀ ts : List Tree,
    Tally (glancesAmong looks ts) looks (questionMarksAmong ts) (allMarksAmong ts) 0
  | [] => .nil
  | t :: ts => by
    rw [glancesAmong, questionMarksAmong, allMarksAmong]
    exact (tally_glances looks t).append (tally_glancesAmong looks ts)

end

/-- Question marks in front that only the statements around look at. -/
theorem Tally.behind (h : Tally l looks outermost all inside) (t : Tree) :
    Tally (glances looks t ++ l) looks (questionMarks t ++ outermost) (allMarks t ++ all) inside := by
  rw [← Nat.zero_add inside]
  exact (tally_glances looks t).append h

theorem Tally.statement {s : Statement} (hin : checks s.roster = inside)
    (hs : Statement.ofTree source (.node kind start stop field children) =
      .checked (questionMarks (.node kind start stop field children)) s) (hclear : Clear kind)
    (h : Tally l (looks + 1) (questionMarksAmong children) (allMarksAmong children) inside) :
    Tally l looks (questionMarks (.node kind start stop field children))
      (allMarks (.node kind start stop field children))
      (checks (Statement.ofTree source (.node kind start stop field children)).roster) := by
  rw [hs, checks_checked, hin, questionMarks_of_clear hclear, allMarks_of_clear hclear]
  exact h.look

theorem Tally.branch
    (hblock : blockTight (statements source children) → Tally (sightingsAmong looks children) looks
      (questionMarksAmong children) (allMarksAmong children)
      (checks (blockRoster (statements source children))))
    (hsingle : (Statement.ofTree source (.node kind start stop field children)).tight →
      Tally (sightings looks (.node kind start stop field children)) looks
        (questionMarks (.node kind start stop field children))
        (allMarks (.node kind start stop field children))
        (checks (Statement.ofTree source (.node kind start stop field children)).roster))
    (htight : (Branch.ofTree source (.node kind start stop field children)).tight) :
    Tally (if kind = "block" then sightingsAmong looks children
        else sightings looks (.node kind start stop field children)) looks
      (questionMarks (.node kind start stop field children))
      (allMarks (.node kind start stop field children))
      (checks (Branch.ofTree source (.node kind start stop field children)).rosterInside) := by
  by_cases hk : kind = "block"
  · have hclear : Clear kind := by simp [Clear, hk]
    have hbranch : Branch.ofTree source (.node kind start stop field children) =
        .block (.braces (statements source children)) := if_pos hk
    rw [hbranch, Branch.tight, Block.tight] at htight
    rw [if_pos hk, hbranch, questionMarks_of_clear hclear, allMarks_of_clear hclear,
      Branch.rosterInside]
    exact hblock htight
  · have hbranch : Branch.ofTree source (.node kind start stop field children) =
        .single (.ofTree source (.node kind start stop field children)) := if_neg hk
    rw [hbranch, Branch.tight] at htight
    rw [if_neg hk, hbranch, Branch.rosterInside]
    exact hsingle htight

theorem shaped_node :
    shaped (.node kind start stop field children) = true ↔
      bodyFits kind children = true ∧ allShaped children = true := by
  rw [shaped, Bool.and_eq_true]

theorem allShaped_cons {t : Tree} {ts : List Tree} :
    allShaped (t :: ts) = true ↔ shaped t = true ∧ allShaped ts = true := by
  rw [allShaped, Bool.and_eq_true]

theorem kind_of_bodyFits {k : String} {siblings : List Tree} {w : Tree}
    (h : bodyFits kind siblings = true) (hk : bodyKind kind = some k) (hw : Tree.fillerOf "body" siblings = some w) : w.kind = k := by
  simpa [bodyFits, hk, hw] using h

def nests (kind : String) : Bool :=
  ["expression_statement", "if_expression", "match_expression", "loop_expression", "while_expression",
    "for_expression"].contains kind

theorem kind_of_nests (h : ¬ nests kind = false) :
    kind = "expression_statement" ∨ kind = "if_expression" ∨ kind = "match_expression" ∨
      kind = "loop_expression" ∨ kind = "while_expression" ∨ kind = "for_expression" := by
  simpa only [nests, Bool.not_eq_false, List.contains_iff_mem, List.mem_cons, List.not_mem_nil,
    or_false] using h

theorem clear_of_nests (h : ¬ nests kind = false) : Clear kind := by
  rcases kind_of_nests h with rfl | rfl | rfl | rfl | rfl | rfl <;> simp [Clear]

theorem checks_invocation (name text : Tree.Excerpt) : checks (invocation name text).roster = 0 := by
  unfold invocation
  split
  next => rfl
  next => split <;> rfl

theorem checks_ofTree_other {t : Tree} (h : nests t.kind = false) :
    checks (Statement.ofTree source t).roster = (questionMarks t).length := by
  obtain ⟨kind, start, stop, field, children⟩ := t
  simp only [Tree.kind] at h
  unfold Statement.ofTree
  rw [checks_checked]
  refine Nat.add_eq_left.2 ?_
  split
  case h_5 => exact checks_invocation _ _
  case h_3 | h_6 | h_7 | h_8 | h_9 | h_10 => cases h
  all_goals rfl

theorem sightings_other {t : Tree} (h : nests t.kind = false) :
    sightings looks t = glances (looks + 1) t := by
  obtain ⟨kind, start, stop, field, children⟩ := t
  simp only [Tree.kind] at h
  unfold sightings
  split
  case h_7 => rfl
  all_goals cases h

-- by recursion on the tree, in parallel to how statements are read from it
mutual

theorem tally_sightings (source : Bytes) (looks : Nat) : ∀ t : Tree, shaped t →
    (Statement.ofTree source t).tight →
    Tally (sightings looks t) looks (questionMarks t) (allMarks t)
      (checks (Statement.ofTree source t).roster)
  | .node kind start stop field children, hshape, htight => by
    obtain ⟨hfits, hall⟩ := shaped_node.1 hshape
    by_cases hn : nests (Tree.node kind start stop field children).kind = false
    · rw [sightings_other hn, checks_ofTree_other hn]
      exact (tally_glances (looks + 1) _).look
    · have hclear : Clear kind := clear_of_nests hn
      rcases kind_of_nests hn with rfl | rfl | rfl | rfl | rfl | rfl
      · exact .statement rfl rfl hclear (tally_first source (looks + 1) children hall htight)
      · obtain ⟨hyes, hno⟩ : (branchAt source "consequence" children).tight = true ∧
            sideTight (alternativeAt source children) = true := Bool.and_eq_true_iff.1 htight
        exact .statement (checks_cond ..) rfl hclear
          (tally_sides source (looks + 1) true true children hall (fun _ => hyes) fun _ => hno)
      · exact .statement (checks_select ..) rfl hclear
          (tally_choice source (looks + 1) children hall (fun _ => kind_of_bodyFits hfits rfl) htight)
      · exact .statement (checks_forever ..) rfl hclear
          (tally_body source (looks + 1) children hall (fun _ => kind_of_bodyFits hfits rfl) htight)
      · exact .statement (checks_loop ..) rfl hclear
          (tally_body source (looks + 1) children hall (fun _ => kind_of_bodyFits hfits rfl) htight)
      · exact .statement (checks_loop ..) rfl hclear
          (tally_body source (looks + 1) children hall (fun _ => kind_of_bodyFits hfits rfl) htight)

theorem tally_first (source : Bytes) (looks : Nat) : ∀ ts : List Tree, allShaped ts →
    (firstOf source ts).tight →
    Tally (sightingsFirst looks ts) looks (questionMarksAmong ts) (allMarksAmong ts)
      (checks (firstOf source ts).roster)
  | [], _, _ => .nil
  | t :: ts, hshape, htight => by
    rw [allShaped_cons] at hshape
    rw [sightingsFirst, questionMarksAmong, allMarksAmong, firstOf]
    rw [firstOf] at htight
    exact (tally_sightings source looks t hshape.1 htight).append (tally_glancesAmong looks ts)

theorem tally_among (source : Bytes) (looks : Nat) : ∀ ts : List Tree, allShaped ts →
    blockTight (statements source ts) →
    Tally (sightingsAmong looks ts) looks (questionMarksAmong ts) (allMarksAmong ts)
      (checks (blockRoster (statements source ts)))
  | [], _, _ => .nil
  | t :: ts, hshape, htight => by
    rw [allShaped_cons] at hshape
    rw [sightingsAmong, questionMarksAmong, allMarksAmong]
    rw [statements] at htight ⊢
    by_cases hf : isFiller t.kind = true
    · rw [if_pos hf] at htight
      rw [if_pos hf, if_pos hf]
      exact (tally_among source looks ts hshape.2 htight).behind t
    · rw [if_neg hf] at htight
      rw [if_neg hf, if_neg hf, checks_block_cons htight]
      simp only [blockTight, Bool.and_eq_true] at htight
      exact (tally_sightings source looks t hshape.1 htight.1.1).append
        (tally_among source looks ts hshape.2 htight.2)

theorem tally_body (source : Bytes) (looks : Nat) : ∀ ts : List Tree, allShaped ts →
    (∀ w, Tree.fillerOf "body" ts = some w → w.kind = "block") → (blockAt source "body" ts).tight →
    Tally (sightingsBody looks ts) looks (questionMarksAmong ts) (allMarksAmong ts)
      (checks (blockAt source "body" ts).roster)
  | [], _, _, _ => .nil
  | .node kind start stop field children :: ts, hshape, hkind, htight => by
    rw [allShaped_cons] at hshape
    rw [sightingsBody, questionMarksAmong, allMarksAmong]
    rw [blockAt] at htight ⊢
    by_cases hf : field = some "body"
    · obtain rfl : kind = "block" := hkind _ (fillerOf_cons_of_pos hf)
      have hinner : allShaped children = true := (shaped_node.1 hshape.1).2
      rw [if_pos hf, Block.tight] at htight
      rw [if_pos hf, if_pos hf, Block.roster, questionMarks_of_clear (by simp [Clear]),
        allMarks_of_clear (by simp [Clear])]
      exact (tally_among source looks children hinner htight).append (tally_glancesAmong looks ts)
    · rw [if_neg hf] at htight
      rw [if_neg hf, if_neg hf]
      exact (tally_body source looks ts hshape.2
        (fun w hw => hkind w ((fillerOf_cons_of_neg hf).trans hw)) htight).behind _

theorem tally_sides (source : Bytes) (looks : Nat) (consequence alternative : Bool) : ∀ ts : List Tree,
    allShaped ts → (consequence → (branchAt source "consequence" ts).tight) →
    (alternative → sideTight (alternativeAt source ts)) →
    Tally (sightingsSides looks consequence alternative ts) looks (questionMarksAmong ts)
      (allMarksAmong ts)
      ((if consequence then checks (branchAt source "consequence" ts).rosterInside else 0) +
        if alternative then checks (sideInside (alternativeAt source ts)) else 0)
  | [], _, _, _ => by
    cases consequence <;> cases alternative <;> exact .nil
  | .node kind start stop field children :: ts, hshape, hyes, hno => by
    rw [allShaped_cons] at hshape
    have hinner := tally_among source looks children (shaped_node.1 hshape.1).2
    have hwhole := tally_sightings source looks (.node kind start stop field children) hshape.1
    rw [sightingsSides, questionMarksAmong, allMarksAmong]
    by_cases hc : consequence = true ∧ field = some "consequence"
    · obtain ⟨rfl, hf⟩ := hc
      have hother : field ≠ some "alternative" := by simp [hf]
      have hrest := tally_sides source looks false alternative ts hshape.2 nofun
        (by simpa only [alternativeAt_cons_of_neg hother] using hno)
      rw [if_neg Bool.false_ne_true, Nat.zero_add] at hrest
      rw [if_pos ⟨rfl, hf⟩, if_pos rfl, branchAt_cons_of_pos hf, alternativeAt_cons_of_neg hother]
      exact (Tally.branch hinner hwhole
        (by simpa only [branchAt_cons_of_pos hf] using hyes rfl)).append hrest
    · by_cases ha : alternative = true ∧ field = some "alternative"
      · obtain ⟨rfl, hf⟩ := ha
        have hother : field ≠ some "consequence" := by simp [hf]
        have hrest := tally_sides source looks consequence false ts hshape.2
          (by simpa only [branchAt_cons_of_neg hother] using hyes) nofun
        rw [if_neg Bool.false_ne_true, Nat.add_zero] at hrest
        rw [if_neg hc, if_pos ⟨rfl, hf⟩, if_pos rfl, branchAt_cons_of_neg hother,
          alternativeAt_cons_of_pos hf, Nat.add_comm]
        exact (Tally.branch hinner hwhole
          (by simpa only [alternativeAt_cons_of_pos hf, sideTight] using hno rfl)).append hrest
      · -- a field that is no side, or a second filler of one
        have hy : consequence = true →
            branchAt source "consequence" (.node kind start stop field children :: ts) =
              branchAt source "consequence" ts := fun h => branchAt_cons_of_neg fun hf => hc ⟨h, hf⟩
        have hn : alternative = true →
            alternativeAt source (.node kind start stop field children :: ts) = alternativeAt source ts :=
          fun h => alternativeAt_cons_of_neg fun hf => ha ⟨h, hf⟩
        have hrest := tally_sides source looks consequence alternative ts hshape.2
          (fun h => hy h ▸ hyes h) fun h => hn h ▸ hno h
        rw [if_neg hc, if_neg ha]
        convert hrest.behind _ using 2
        · exact ite_congr rfl (fun h => by rw [hy h]) fun _ => rfl
        · exact ite_congr rfl (fun h => by rw [hn h]) fun _ => rfl

theorem tally_choice (source : Bytes) (looks : Nat) : ∀ ts : List Tree, allShaped ts →
    (∀ w, Tree.fillerOf "body" ts = some w → w.kind = "match_block") → (armsAt source ts).tight →
    Tally (sightingsChoice looks ts) looks (questionMarksAmong ts) (allMarksAmong ts)
      (checks (armsAt source ts).roster)
  | [], _, _, _ => .nil
  | .node kind start stop field children :: ts, hshape, hkind, htight => by
    rw [allShaped_cons] at hshape
    rw [sightingsChoice, questionMarksAmong, allMarksAmong]
    rw [armsAt] at htight ⊢
    by_cases hf : field = some "body"
    · obtain rfl : kind = "match_block" := hkind _ (fillerOf_cons_of_pos hf)
      have hinner : allShaped children = true := (shaped_node.1 hshape.1).2
      rw [if_pos hf, Arms.tight] at htight
      rw [if_pos hf, if_pos hf, Arms.roster, questionMarks_of_clear (by simp [Clear]),
        allMarks_of_clear (by simp [Clear])]
      exact (tally_arms source looks children hinner htight).append (tally_glancesAmong looks ts)
    · rw [if_neg hf] at htight
      rw [if_neg hf, if_neg hf]
      exact (tally_choice source looks ts hshape.2
        (fun w hw => hkind w ((fillerOf_cons_of_neg hf).trans hw)) htight).behind _

theorem tally_arms (source : Bytes) (looks : Nat) : ∀ ts : List Tree, allShaped ts →
    armsTight (arms source ts) →
    Tally (sightingsArms looks ts) looks (questionMarksAmong ts) (allMarksAmong ts)
      (checks (armsRoster (arms source ts)))
  | [], _, _ => .nil
  | .node kind start stop field children :: ts, hshape, htight => by
    rw [allShaped_cons] at hshape
    rw [sightingsArms, questionMarksAmong, allMarksAmong]
    rw [arms] at htight ⊢
    by_cases hk : kind = "match_arm"
    · have hclear : Clear kind := by simp [Clear, hk]
      rw [if_pos hk, armsTight, Bool.and_eq_true] at htight
      rw [if_pos hk, if_pos hk, questionMarks_of_clear hclear, allMarks_of_clear hclear, armsRoster,
        checks_append, checks_cons_label (case_ne_check _)]
      exact (tally_arm source looks children (shaped_node.1 hshape.1).2 htight.1).append
        (tally_arms source looks ts hshape.2 htight.2)
    · rw [if_neg hk] at htight
      rw [if_neg hk, if_neg hk]
      exact (tally_arms source looks ts hshape.2 htight).behind _

theorem tally_arm (source : Bytes) (looks : Nat) : ∀ ts : List Tree, allShaped ts →
    (branchAt source "value" ts).tight →
    Tally (sightingsArm looks ts) looks (questionMarksAmong ts) (allMarksAmong ts)
      (checks (branchAt source "value" ts).rosterInside)
  | [], _, _ => .nil
  | .node kind start stop field children :: ts, hshape, htight => by
    rw [allShaped_cons] at hshape
    rw [sightingsArm, questionMarksAmong, allMarksAmong]
    by_cases hf : field = some "value"
    · rw [branchAt_cons_of_pos hf] at htight
      rw [if_pos hf, branchAt_cons_of_pos hf]
      have hinner := tally_among source looks children (shaped_node.1 hshape.1).2
      have hwhole := tally_sightings source looks (.node kind start stop field children) hshape.1
      exact (Tally.branch hinner hwhole htight).append (tally_glancesAmong looks ts)
    · rw [branchAt_cons_of_neg hf] at htight
      rw [if_neg hf, branchAt_cons_of_neg hf]
      exact (tally_arm source looks ts hshape.2 htight).behind _

end

end

/-! ## Branches and what stands around them -/

def branches (kind : String) : Bool :=
  ["if_expression", "match_expression", "loop_expression", "while_expression",
    "for_expression"].contains kind

theorem clear_of_branches {kind : String} (h : branches kind = true) : Clear kind := by
  have h : kind ∈ ["if_expression", "match_expression", "loop_expression", "while_expression",
      "for_expression"] := List.contains_iff_mem.1 h
  simp only [List.mem_cons, List.not_mem_nil, or_false] at h
  rcases h with rfl | rfl | rfl | rfl | rfl <;> simp [Clear]

def fills (names : List String) (w : Tree) : Bool := w.field.any names.contains

def within (p : Tree → Bool) (l : List Tree) : List Tree := (l.filter p).flatMap Tree.children

def isChoiceBody (w : Tree) : Bool := fills ["body"] w && w.kind == "match_block"

def isArm (w : Tree) : Bool := w.kind == "match_arm"

/-- The trees in the branches of a statement: the sides of a condition, the values of the arms of a
choice, and the body of a loop. -/
def insides (u : Tree) : List Tree :=
  if u.kind = "if_expression" then u.children.filter (fills ["consequence", "alternative"])
  else if u.kind = "match_expression" then
    (within isArm (within isChoiceBody u.children)).filter (fills ["value"])
  else u.children.filter (fills ["body"])

def heads (u : Tree) : List Tree :=
  if u.kind = "if_expression" then u.children.filter (!fills ["consequence", "alternative"] ·)
  else if u.kind = "match_expression" then
    u.children.filter (!isChoiceBody ·) ++ ((within isChoiceBody u.children).filter (!isArm ·) ++
      (within isArm (within isChoiceBody u.children)).filter (!fills ["value"] ·))
  else u.children.filter (!fills ["body"] ·)

theorem questionMarksAmong_append (l l' : List Tree) :
    questionMarksAmong (l ++ l') = questionMarksAmong l ++ questionMarksAmong l' := by
  induction l with
  | nil => rfl
  | cons w l ih => rw [List.cons_append, questionMarksAmong, questionMarksAmong, ih, List.append_assoc]

theorem length_marks_filter (p : Tree → Bool) (l : List Tree) : (questionMarksAmong l).length =
    (questionMarksAmong (l.filter (!p ·))).length + (questionMarksAmong (l.filter p)).length := by
  induction l with
  | nil => rfl
  | cons w l ih =>
    cases hp : p w <;> simp [hp, questionMarksAmong, ih] <;> omega

theorem questionMarksAmong_within {p : Tree → Bool} (hp : ∀ w, p w = true → Clear w.kind)
    (l : List Tree) :
    questionMarksAmong (within p l) = questionMarksAmong (l.filter p) := by
  unfold within
  induction l with
  | nil => rfl
  | cons w l ih =>
    cases h : p w with
    | false => rw [List.filter_cons_of_neg (by simp [h]), ih]
    | true =>
      rw [List.filter_cons_of_pos h, List.flatMap_cons, questionMarksAmong_append, questionMarksAmong,
        ih, questionMarks_eq_children (hp w h)]

theorem length_marks_within {p : Tree → Bool} (hp : ∀ w, p w = true → Clear w.kind) (l : List Tree) :
    (questionMarksAmong l).length =
      (questionMarksAmong (l.filter (!p ·))).length + (questionMarksAmong (within p l)).length := by
  rw [questionMarksAmong_within hp, ← length_marks_filter]

/-- A question mark of a statement stands in one of its branches or around them. -/
theorem length_marks_parts {u : Tree} (h : branches u.kind = true) : (questionMarks u).length =
    (questionMarksAmong (heads u)).length + (questionMarksAmong (insides u)).length := by
  have hbody : ∀ w, isChoiceBody w = true → Clear w.kind := by
    intro w hw
    obtain ⟨-, hkind⟩ : fills ["body"] w = true ∧ w.kind = "match_block" := by
      simpa [isChoiceBody] using hw
    simp [Clear, hkind]
  have harm : ∀ w, isArm w = true → Clear w.kind := by
    intro w hw
    have hkind : w.kind = "match_arm" := by simpa [isArm] using hw
    simp [Clear, hkind]
  rw [questionMarks_eq_children (clear_of_branches h), heads, insides]
  split
  next => exact length_marks_filter _ _
  next =>
    split
    next =>
      rw [length_marks_within hbody u.children,
        length_marks_within harm (within isChoiceBody u.children),
        length_marks_filter (fills ["value"]) (within isArm (within isChoiceBody u.children)),
        questionMarksAmong_append, questionMarksAmong_append, List.length_append, List.length_append]
      omega
    next => exact length_marks_filter _ _

/-! ## Whole functions -/

theorem Statement.ofTree_eq_checked (source : Bytes) (u : Tree) : Statement.ofTree source u =
    .checked (questionMarks u) (Statement.ofTree source u).unchecked := by
  obtain ⟨kind, start, stop, field, children⟩ := u
  unfold Statement.ofTree
  rfl

section
variable {source : Bytes} {describe : String → Except DrawFault Value} {t u b : Tree} {D d : Draft}
  {c : Node} {rest : List Statement}

theorem roster_draft (hd : draft source describe t = (.ok (), D)) (hb : t.child? "body" = some b) :
    ∃ name, D.graph.roster = (.block, "fn " ++ name) :: (.exit, "Function Exit") ::
      blockRoster (statements source b.children) := by
  obtain ⟨name, v, -, -, r, d₁, hbody, rfl⟩ := yields_drawFunction.1 hd
  have hbraces : (Function.ofTree source t).body = .braces (statements source b.children) := by
    rw [Function.ofTree, blockAt_eq, ← Tree.child?, hb, Option.elim_some, Block.ofTree]
  rw [hbraces] at hbody
  simp only [Block.draw] at hbody
  have hat := Frame.at_opened ⟨"fn ", "Function Exit"⟩ "rust_cfg" name v
  have hall := drawAll_lays _ _ _ _ _ _ hat hbody
  refine ⟨name, ?_⟩
  rw [Draft.roster_joined (fun n hn => ?_) ((hat.growsOf hall.run).has hat.sound.has_exit),
    (drawAll_records _ _ _ _ _ _ hat hbody).1, Graph.roster, Graph.traits, Frame.vertices_opened]
  · rfl
  · rw [Option.mem_toList, Option.filter_eq_some_iff] at hn
    exact (hall.finish n hn.1).1.footing.has

/-- The checks for all the question marks of a statement stand in front of it. -/
theorem Visited.checks_front (hd : draft source describe t = (.ok (), D))
    (h : Visited source describe t ⟨.block (.ofTree source u :: rest), c, d⟩) :
    ∃ n d₁, (drawChecks c (questionMarks u)).Yields d n d₁ ∧
      Visited source describe t ⟨.block [(Statement.ofTree source u).unchecked], n, d₁⟩ ∧
      d₁.graph.vertices <+: D.graph.vertices ∧
      checks d₁.graph.roster = checks d.graph.roster + (questionMarks u).length := by
  obtain ⟨x, hfit, hdrawn⟩ := h.sound hd
  obtain ⟨next, d', hy, -⟩ := hdrawn.statement hfit
  rw [Statement.ofTree_eq_checked] at h hy
  obtain ⟨n, d₁, hchecks, -⟩ := yields_checked.1 hy
  have hinner := h.next (.inside (.checked _ hchecks))
  obtain ⟨y, hat, r, d₂, hrest, hafter, -⟩ := hinner.sound hd
  have hgrows := hat.growsOf (drawAll_lays y _ _ _ _ _ hat hrest).run
  refine ⟨n, d₁, hchecks, hinner, hgrows.vertices.trans hafter.vertices, ?_⟩
  rw [roster_drawChecks hfit hchecks, checks_append, checks_replicate]

/-- There are as many checks as times that a statement looks at a question mark. In front of a
statement with branches stand checks for what is in the branches as well. -/
theorem checks_eq_sum_sightings (hd : draft source describe t = (.ok (), D))
    (hb : t.child? "body" = some b) (hshape : allShaped b.children) (htight : blockTight (statements source b.children)) :
    checks D.graph.roster = (sightingsAmong 0 b.children).sum ∧
      (sightingsAmong 0 b.children).length = (allMarksAmong b.children).length ∧
      ∀ u c d rest, Visited source describe t ⟨.block (.ofTree source u :: rest), c, d⟩ →
        branches u.kind →
        ∃ n d₁, (drawChecks c (questionMarks u)).Yields d n d₁ ∧
          Visited source describe t ⟨.block [(Statement.ofTree source u).unchecked], n, d₁⟩ ∧
          d₁.graph.vertices <+: D.graph.vertices ∧
          checks d₁.graph.roster = checks d.graph.roster +
            ((questionMarksAmong (heads u)).length + (questionMarksAmong (insides u)).length) ∧
          (checks d₁.graph.roster = checks d.graph.roster + (questionMarksAmong (heads u)).length ↔
            questionMarksAmong (insides u) = []) := by
  have htally := tally_among source 0 b.children hshape htight
  obtain ⟨name, hroster⟩ := roster_draft hd hb
  refine ⟨?_, htally.length, fun u c d rest hvisited hu => ?_⟩
  · rw [hroster, checks_cons_kind (by decide), checks_cons_kind (by decide), htally.sum, Nat.zero_mul,
      Nat.zero_add]
  · obtain ⟨n, d₁, hchecks, hinner, hkept, hcount⟩ := hvisited.checks_front hd
    rw [length_marks_parts hu] at hcount
    refine ⟨n, d₁, hchecks, hinner, hkept, hcount, ?_⟩
    rw [hcount, ← List.length_eq_zero_iff]
    omega

end

/-- A question mark in a condition and one on its true side, and a chain of two. -/
def trialCode : Bytes :=
  "fn f() \x7b if a()? \x7b b()?; \x7d let x = c()?.d()?; \x7d".toUTF8.toList

def trialCondition : Tree :=
  .node "if_expression" 9 26 none
    [.node "try_expression" 12 16 (some "condition") [.node "call_expression" 12 15 none []],
     .node "block" 17 26 (some "consequence")
      [.node "expression_statement" 19 24 none
        [.node "try_expression" 19 23 none [.node "call_expression" 19 22 none []]]]]

def trialBody : Tree :=
  .node "block" 7 47 (some "body")
    [.node "expression_statement" 9 26 none [trialCondition],
     .node "let_declaration" 27 45 none
      [.node "identifier" 31 32 (some "pattern") [],
       .node "try_expression" 35 44 (some "value")
        [.node "call_expression" 35 43 none [.node "try_expression" 35 39 none []]]]]

def trial : Tree :=
  .node "function_item" 0 47 none [.node "identifier" 3 4 (some "name") [], trialBody]

theorem visited_trial {D : Draft} (hd : draft trialCode (fun _ => .ok (.str "")) trial = (.ok (), D)) :
    ∃ c d, Visited trialCode (fun _ => .ok (.str "")) trial
      ⟨.block [.ofTree trialCode trialCondition], c, d⟩ := by
  have hname : (Function.ofTree trialCode trial).name = .ok "f" := by decide +kernel
  have hfirst : (Statement.ofTree trialCode
      (.node "expression_statement" 9 26 none [trialCondition])).unchecked =
        .ofTree trialCode trialCondition := rfl
  obtain ⟨rest, hrest⟩ : ∃ rest, statements trialCode trialBody.children =
      .ofTree trialCode (.node "expression_statement" 9 26 none [trialCondition]) :: rest := ⟨_, rfl⟩
  have hroot : Visited trialCode (fun _ => .ok (.str "")) trial (rootSpot "f" (.str "") _) :=
    ⟨"f", .str "", _, hname, rfl, (blockAt_eq ..).trans (congrArg Block.braces hrest), .refl⟩
  obtain ⟨n, d₁, -, hinner, -⟩ := hroot.checks_front hd
  exact ⟨n, d₁, hfirst ▸ hinner⟩

theorem trial_checks : ∃ D, draft trialCode (fun _ => .ok (.str "")) trial = (.ok (), D) ∧
    checks D.graph.roster = 7 ∧ (allMarksAmong trialBody.children).length = 4 ∧
    ∃ c d n d₁, Visited trialCode (fun _ => .ok (.str "")) trial
        ⟨.block [.ofTree trialCode trialCondition], c, d⟩ ∧
      (drawChecks c (questionMarks trialCondition)).Yields d n d₁ ∧
      (questionMarks trialCondition).length = 2 ∧ (questionMarksAmong (heads trialCondition)).length = 1 ∧
      checks d₁.graph.roster ≠
        checks d.graph.roster + (questionMarksAmong (heads trialCondition)).length := by
  have hok : (draft trialCode (fun _ => .ok (.str "")) trial).1 = .ok () := by decide +kernel
  obtain ⟨D, hD⟩ : ∃ D, draft trialCode (fun _ => .ok (.str "")) trial = (.ok (), D) :=
    ⟨_, Prod.ext hok rfl⟩
  obtain ⟨c, d, hvisited⟩ := visited_trial hD
  have hshape : allShaped trialBody.children = true := by decide +kernel
  have htight : blockTight (statements trialCode trialBody.children) = true := by decide +kernel
  obtain ⟨hsum, hlength, hfront⟩ := checks_eq_sum_sightings hD rfl hshape htight
  have hlooks : sightingsAmong 0 trialBody.children = [2, 4, 1, 0] := by decide +kernel
  obtain ⟨n, d₁, hchecks, -, -, -, hiff⟩ := hfront _ _ _ _ hvisited rfl
  rw [hlooks] at hsum hlength
  refine ⟨D, hD, hsum, hlength.symm, c, d, n, d₁, hvisited, hchecks, by decide +kernel, by decide +kernel,
    fun hcount => ?_⟩
  have hnone := hiff.1 hcount
  revert hnone
  decide +kernel

end Workbench.Flow.Braced
