import Workbench.Flow.Outline
import Workbench.Proofs.Flow.Patches

/-!
# Locality

A statement is drawn behind a node without regard to the rest of the graph. What comes in is a patch:
nothing that was there changes, and the flow goes on from a new node that is no exit.
-/

namespace Workbench.Flow

/-! ## Suites -/

namespace Suite

open Drawing

variable {c : Node} {d : Draft}

theorem handlerStart_adds {scope : Node} {ns : List Node} {ls : List Loop}
    (hscope : MayLeave c ns scope) : Adds c d ns ls (handlerStart scope) .block :=
  .behind .addNode fun _ hn => .next (.addEdge hscope.cons (.inl List.mem_cons_self)) fun _ =>
    .pure ⟨rfl, hn⟩

theorem fits_elseIf {label : Tree.Excerpt} {body : Node → Drawing (Option Node)}
    (hb : Fits c d Along body) : Fits c d (fun _ => Onward) fun n => drawElseIf n label body := by
  intro n ns ls hn hs
  refine .next .readable fun l => .behind (.append hn) fun fork _ =>
    .behind (.branch (.inr List.mem_cons_self)) fun start hstart => ?_
  refine (hb start _ ls (.inr List.mem_cons_self) hs.cons.cons).imp fun ms finish hms h => ?_
  exact h.onward (hms List.mem_cons_self) hstart (by decide)

/-- A node that ends the function leads to its exit, once there is one. -/
theorem endsFunction_patches {n : Node} {ns : List Node} {ls : List Loop} {edge : EdgeKind}
    {label : String} (hn : MayLeave c ns n) :
    Patches c d ns ls (do
      if let some exit := (← get).exit then addEdge n exit edge label
      return none) ls Onward := by
  refine .bind .get fun ms d₁ _ h => ?_
  obtain ⟨rfl, -, hx⟩ := h
  cases he : d₁.exit with
  | none => exact .pure (onward_none ms)
  | some x => exact .next (.addEdge hn (hx x he)) fun _ => .pure (onward_none ms)

def FitsDone (c : Node) (d : Draft) (done : Node → Node → Drawing Unit) : Prop :=
  ∀ check exit ns ls, MayLeave c ns check → MayReach d ns exit → Sheltered d ns ls →
    Patches c d ns ls (done check exit) ls fun _ _ => True

theorem fits_drawLoop {label : Tree.Excerpt} {body : Node → Drawing (Option Node)}
    {done : Node → Node → Drawing Unit} (hb : Fits c d Along body) (hdone : FitsDone c d done) :
    Fits c d (fun _ => Onward) fun n => drawLoop n label body done := by
  intro n ns ls hn _
  -- in the body the loop is the innermost one, and both its places are new
  refine .next .readable fun l => .behind (.append hn) fun check _ =>
    .behind .addNode fun exit hexit => .next .openLoop fun _ =>
      .behind (.branch (.inr (by simp))) fun start _ =>
        .bind (hb start _ _ (.inr List.mem_cons_self) (sheltered_cons (by simp) (by simp)))
          fun ms finish hms hfinish => ?_
  have hcheck : check ∈ ms := hms (by simp)
  have hexit' : exit ∈ ms := hms (by simp)
  refine .next (.repeatFrom (hfinish.mayLeave (.inr (hms List.mem_cons_self))) (.inl hcheck)) fun _ =>
    .bind (hdone check exit ms _ (.inr hcheck) (.inl hexit') (sheltered_cons hcheck hexit'))
      fun ms' _ hms' _ => .next .closeLoop fun _ => .pure ?_
  exact onward_some (hms' hexit') hexit (by decide)

-- by recursion on the tree; each case goes through the steps of the drawing in their order
mutual

theorem Statement.fits : ∀ (s : Statement) (n : Node) (ns : List Node) (ls : List Loop),
    MayLeave c ns n → Sheltered d ns ls → Patches c d ns ls (s.draw n) ls Onward
  | .plain label, n, ns, ls, hn, hs => by
    rw [Statement.draw]
    exact fits_append (by decide) n ns ls hn hs
  | .call label, n, ns, ls, hn, hs => by
    rw [Statement.draw]
    exact fits_append (by decide) n ns ls hn hs
  | .hollow, n, ns, ls, hn, _ => by
    rw [Statement.draw]
    exact .throw _
  | .ret, n, ns, ls, hn, _ => by
    rw [Statement.draw]
    exact .behind (.append hn) fun _ _ => endsFunction_patches (.inr List.mem_cons_self)
  | .raise, n, ns, ls, hn, _ => by
    rw [Statement.draw]
    exact .behind (.append hn) fun _ _ => endsFunction_patches (.inr List.mem_cons_self)
  | .cond label body alternative, n, ns, ls, hn, hs => by
    rw [Statement.draw]
    refine .next .readable fun l => .behind (.append hn) fun fork _ =>
      .behind (.branch (.inr List.mem_cons_self)) fun start _ =>
        .bind (body.fits start _ ls (.inr List.mem_cons_self) hs.cons.cons) fun ms yes hms hyes =>
          .bind (alternative.fits fork ms ls (.inr (hms (by simp))) (hs.cons.cons.mono hms))
            fun ms' side hms' hside => ?_
    have hfork : fork ∈ ms' := hms' (hms (by simp))
    have hleave : ∀ k ∈ yes.toList, MayLeave c ms' k := fun k hk =>
      (hyes.mayLeave (.inr (hms List.mem_cons_self)) k hk).mono hms'
    cases side with
    | bare =>
      exact .behind .addNode fun join hjoin =>
        .next (.followFrom (fun k hk => (hleave k hk).cons) (.inl List.mem_cons_self)) fun _ =>
          .next (.addEdge (.inr (List.mem_cons_of_mem join hfork)) (.inl List.mem_cons_self)) fun _ =>
            .pure (onward_new hjoin (by decide))
    | drawn no =>
      dsimp only
      split
      · exact .pure (onward_none _)
      · exact .behind .addNode fun join hjoin =>
          .next (.followFrom (fun k hk => (hleave k hk).cons) (.inl List.mem_cons_self)) fun _ =>
            .next (.followFrom (fun k hk => (hside k hk).cons) (.inl List.mem_cons_self)) fun _ =>
              .pure (onward_new hjoin (by decide))
  | .loop label body none, n, ns, ls, hn, hs => by
    rw [Statement.draw]
    refine fits_drawLoop body.fits (fun check exit ns ls hcheck hexit _ => ?_) n ns ls hn hs
    exact (Patches.addEdge hcheck hexit).imp fun _ _ _ _ => trivial
  | .loop label body (some suite), n, ns, ls, hn, hs => by
    rw [Statement.draw]
    refine fits_drawLoop body.fits (fun check exit ns ls hcheck hexit hs => ?_) n ns ls hn hs
    refine .behind (.branch hcheck) fun start _ =>
      .bind (suite.fits start _ ls (.inr List.mem_cons_self) hs.cons) fun ms finish hms hfinish => ?_
    have hstart : start ∈ ms := hms List.mem_cons_self
    exact (Patches.followFrom (hfinish.mayLeave (.inr hstart))
      ((hexit.mono (List.subset_cons_self start ns)).mono hms)).imp fun _ _ _ _ => trivial
  | .breakLoop, n, ns, ls, hn, hs => by
    rw [Statement.draw]
    exact fits_breakLoop n ns ls hn hs
  | .continueLoop, n, ns, ls, hn, hs => by
    rw [Statement.draw]
    exact fits_continueLoop n ns ls hn hs
  | .select label complete, n, ns, ls, hn, _ => by
    rw [Statement.draw]
    refine .next .readable fun l => .behind (.append hn) fun _ _ => .behind .addNode fun join hjoin => ?_
    split
    · exact .pure (onward_new hjoin (by decide))
    · exact .throw _
  | .guarded body handlers none, n, ns, ls, hn, hs => by
    rw [Statement.draw]
    refine .behind (.append hn) fun scope _ =>
      .bind (body.fits scope _ ls (.inr List.mem_cons_self) hs.cons) fun ms finish hms hfinish =>
        .bind (drawHandlers_fits handlers scope ms ls (.inr (hms List.mem_cons_self))
          (hs.cons.mono hms)) fun ms' ends hms' hends => .behind .addNode fun join hjoin => ?_
    have hleave : ∀ k ∈ finish.toList, MayLeave c ms' k := fun k hk =>
      (hfinish.mayLeave (.inr (hms List.mem_cons_self)) k hk).mono hms'
    exact .next (.followFrom (fun k hk => (hleave k hk).cons) (.inl List.mem_cons_self)) fun _ =>
      .next (.follows (.inl List.mem_cons_self) ends fun k hk => (hends k hk).cons) fun _ =>
        .pure (onward_new hjoin (by decide))
  | .guarded body handlers (some suite), n, ns, ls, hn, hs => by
    rw [Statement.draw]
    refine .behind (.append hn) fun scope _ =>
      .bind (body.fits scope _ ls (.inr List.mem_cons_self) hs.cons) fun ms finish hms hfinish =>
        .behind .addNode fun join hjoin =>
          .bind (drawHandlers_fits handlers scope (join :: ms) ls
            (.inr (List.mem_cons_of_mem join (hms List.mem_cons_self))) (hs.cons.mono hms).cons)
            fun ms' ends hms' hends => ?_
    have hjoin' : join ∈ ms' := hms' List.mem_cons_self
    have hleave : ∀ k ∈ finish.toList, MayLeave c ms' k := fun k hk =>
      (hfinish.mayLeave (.inr (hms List.mem_cons_self)) k hk).cons.mono hms'
    refine .next (.followFrom hleave (.inl hjoin')) fun _ => .next (.follows (.inl hjoin') ends hends)
      fun _ => (suite.fits join ms' ls (.inr hjoin') ((hs.cons.mono hms).cons.mono hms')).imp ?_
    exact fun ms'' r hms'' hr => hr.onward (hms'' hjoin') hjoin (by decide)
  | .scoped body, n, ns, ls, hn, hs => by
    rw [Statement.draw]
    refine .behind (.append hn) fun enter _ =>
      .bind (body.fits enter _ ls (.inr List.mem_cons_self) hs.cons) fun ms finish hms hfinish => ?_
    cases finish with
    | none => exact .pure (onward_none ms)
    | some k =>
      have hk : MayLeave c ms k :=
        hfinish.mayLeave (.inr (hms List.mem_cons_self)) k List.mem_cons_self
      exact .behind (.append hk) fun m hm => .pure (onward_new hm (by decide))

theorem Alternative.fits : ∀ (a : Alternative) (fork : Node) (ns : List Node) (ls : List Loop),
    MayLeave c ns fork → Sheltered d ns ls →
      Patches c d ns ls (a.draw fork) ls fun ms side => ∀ k ∈ side.ends, MayLeave c ms k
  | .none, fork, ns, ls, hf, _ => by
    rw [Alternative.draw]
    exact .pure (by simp [FalseSide.ends])
  | .other, fork, ns, ls, hf, _ => by
    rw [Alternative.draw]
    exact .behind (.branch hf) fun _ _ => .pure (by simp [FalseSide.ends])
  | .elseIf label body, fork, ns, ls, hf, hs => by
    rw [Alternative.draw]
    refine .behind (.branch hf) fun start _ =>
      .bind (fits_elseIf body.fits start _ ls (.inr List.mem_cons_self) hs.cons) fun ms no hms hno => ?_
    exact .pure ((hno.along start).mayLeave (.inr (hms List.mem_cons_self)))
  | .otherwise body, fork, ns, ls, hf, hs => by
    rw [Alternative.draw]
    refine .behind (.branch hf) fun start _ =>
      .bind (body.fits start _ ls (.inr List.mem_cons_self) hs.cons) fun ms no hms hno => ?_
    exact .pure (hno.mayLeave (.inr (hms List.mem_cons_self)))

theorem Body.fits : ∀ (b : Body) (n : Node) (ns : List Node) (ls : List Loop),
    MayLeave c ns n → Sheltered d ns ls → Patches c d ns ls (b.draw n) ls (Along n)
  | .missing, n, ns, ls, hn, _ => by
    rw [Body.draw]
    exact .throw _
  | .suite l, n, ns, ls, hn, hs => by
    rw [Body.draw]
    exact drawAll_fits l n ns ls hn hs

theorem drawAll_fits : ∀ (l : List Statement) (n : Node) (ns : List Node) (ls : List Loop),
    MayLeave c ns n → Sheltered d ns ls → Patches c d ns ls (drawAll n l) ls (Along n)
  | [], n, ns, ls, hn, _ => by
    rw [drawAll]
    exact .pure fun k hk => .inl (Option.some.inj hk).symm
  | s :: r, n, ns, ls, hn, hs => by
    rw [drawAll]
    refine .bind (s.fits n ns ls hn hs) fun ms finish hms h => ?_
    cases finish with
    | none => exact .pure ((onward_none ms).along n)
    | some m =>
      obtain ⟨hm, hkind⟩ := h m rfl
      refine (drawAll_fits r m ms ls (.inr hm) (hs.mono hms)).imp fun ms' last hms' hlast => ?_
      exact (hlast.onward (hms' hm) rfl hkind).along n

theorem drawHandlers_fits : ∀ (l : List Body) (scope : Node) (ns : List Node) (ls : List Loop),
    MayLeave c ns scope → Sheltered d ns ls →
      Patches c d ns ls (drawHandlers scope l) ls fun ms ends => ∀ k ∈ ends, MayLeave c ms k
  | [], scope, ns, ls, hscope, _ => by
    rw [drawHandlers]
    exact .pure (by simp)
  | .missing :: r, scope, ns, ls, hscope, hs => by
    rw [drawHandlers]
    refine .behind (handlerStart_adds hscope) fun start _ =>
      .bind (drawHandlers_fits r scope _ ls hscope.cons hs.cons) fun ms ends hms hends => .pure ?_
    exact List.forall_mem_cons.2 ⟨.inr (hms List.mem_cons_self), hends⟩
  | .suite l :: r, scope, ns, ls, hscope, hs => by
    rw [drawHandlers]
    refine .behind (handlerStart_adds hscope) fun start _ =>
      .bind (drawAll_fits l start _ ls (.inr List.mem_cons_self) hs.cons) fun ms finish hms hfinish => ?_
    have hrest := drawHandlers_fits r scope ms ls (hscope.cons.mono hms) (hs.cons.mono hms)
    cases finish with
    | none => exact hrest
    | some k =>
      refine .bind hrest fun ms' ends hms' hends => .pure (List.forall_mem_cons.2 ⟨?_, hends⟩)
      exact (hfinish.mayLeave (.inr (hms List.mem_cons_self)) k List.mem_cons_self).mono hms'

end

end Suite

/-! ## Blocks -/

namespace Braced

open Drawing

variable {c : Node} {d : Draft}

theorem drawCheck_fits (mark : Tree) (n : Node) (ns : List Node) (ls : List Loop)
    (hn : MayLeave c ns n) : Patches c d ns ls (drawCheck n mark) ls fun ms k => MayLeave c ms k := by
  refine .behind (.append hn) fun check _ => .bind .functionExit fun ms x _ h => ?_
  obtain ⟨rfl, hx⟩ := h
  exact .next (.addEdge (.inr List.mem_cons_self) hx) fun _ => .pure (.inr List.mem_cons_self)

theorem drawChecks_fits : ∀ (marks : List Tree) (n : Node) (ns : List Node) (ls : List Loop),
    MayLeave c ns n → Patches c d ns ls (drawChecks n marks) ls fun ms k => MayLeave c ms k
  | [], _, _, _, hn => .pure hn
  | mark :: marks, n, ns, ls, hn => .bind (drawCheck_fits mark n ns ls hn) fun ms k _ hk =>
      drawChecks_fits marks k ms ls hk

theorem appendCondition_fits {n : Node} {ns : List Node} {ls : List Loop} {label : Tree.Excerpt}
    (hn : MayLeave c ns n) :
    Patches c d ns ls (appendCondition n label) ls fun ms fork => fork ∈ ms :=
  .next .readable fun _ => .behind (.append hn) fun _ _ => .behind .addNode fun block _ =>
    .pure (List.mem_cons_of_mem block List.mem_cons_self)

theorem joinSides_fits {fork : Node} {yes no : Option Node} {ns : List Node} {ls : List Loop}
    (hfork : MayLeave c ns fork) (hyes : ∀ k ∈ yes.toList, MayLeave c ns k)
    (hno : ∀ k ∈ no.toList, MayLeave c ns k) :
    Patches c d ns ls (joinSides fork yes no) ls Onward := by
  unfold joinSides
  split
  · exact .pure (onward_none ns)
  · refine .behind .addNode fun join hjoin =>
      .next (.followFrom (fun k hk => (hyes k hk).cons) (.inl List.mem_cons_self)) fun _ => ?_
    have hlast : Onward (join :: ns) (some join) := onward_new hjoin (by decide)
    cases no with
    | none => exact .pure hlast
    | some k =>
      dsimp only
      split
      · exact .next (.addEdge hfork.cons (.inl List.mem_cons_self)) fun _ => .pure hlast
      · exact .next (.addEdge (hno k List.mem_cons_self).cons (.inl List.mem_cons_self)) fun _ =>
          .pure hlast

mutual

theorem Statement.fits : ∀ (s : Statement) (n : Node) (ns : List Node) (ls : List Loop),
    MayLeave c ns n → Sheltered d ns ls → Patches c d ns ls (s.draw n) ls Onward
  | .checked marks inner, n, ns, ls, hn, hs => by
    rw [Statement.draw]
    -- without question marks the statement is still drawn behind the current node
    exact .bind (drawChecks_fits marks n ns ls hn) fun ms k hms hk =>
      inner.fits k ms ls hk (hs.mono hms)
  | .plain label, n, ns, ls, hn, hs => by
    rw [Statement.draw]
    exact fits_append (by decide) n ns ls hn hs
  | .call label, n, ns, ls, hn, hs => by
    rw [Statement.draw]
    exact fits_append (by decide) n ns ls hn hs
  | .hollow, n, ns, ls, hn, _ => by
    rw [Statement.draw]
    exact .throw _
  | .ret, n, ns, ls, hn, _ => by
    rw [Statement.draw]
    refine .behind (.append hn) fun k _ => .bind .functionExit fun ms x _ h => ?_
    obtain ⟨rfl, hx⟩ := h
    exact .next (.addEdge (.inr List.mem_cons_self) hx) fun _ => .pure (onward_none _)
  | .panic, n, ns, ls, hn, _ => by
    rw [Statement.draw]
    exact .behind (.append hn) fun _ _ => .pure (onward_none _)
  | .cond label consequence none, n, ns, ls, hn, hs => by
    rw [Statement.draw]
    refine .bind (appendCondition_fits hn) fun ms fork hms hfork =>
      .bind (consequence.fits .condTrue "True" fork ms ls (.inr hfork) (hs.mono hms))
        fun ms' yes hms' hyes => ?_
    have hfork' : MayLeave c ms' fork := .inr (hms' hfork)
    exact joinSides_fits hfork' (hyes.mayLeave hfork') (by simpa using hfork')
  | .cond label consequence (some side), n, ns, ls, hn, hs => by
    rw [Statement.draw]
    refine .bind (appendCondition_fits hn) fun ms fork hms hfork =>
      .bind (consequence.fits .condTrue "True" fork ms ls (.inr hfork) (hs.mono hms))
        fun ms' yes hms' hyes =>
          .bind (side.fits .condFalse "False" fork ms' ls (.inr (hms' hfork))
            ((hs.mono hms).mono hms')) fun ms'' no hms'' hno => ?_
    have hfork' : MayLeave c ms' fork := .inr (hms' hfork)
    have hfork'' : MayLeave c ms'' fork := hfork'.mono hms''
    exact joinSides_fits hfork'' (fun k hk => (hyes.mayLeave hfork' k hk).mono hms'')
      (hno.mayLeave hfork'')
  | .select label .missing, n, ns, ls, hn, _ => by
    rw [Statement.draw]
    exact .next .readable fun l => .behind (.append hn) fun _ _ => .behind .addNode fun _ _ => .throw _
  | .select label (.arms l), n, ns, ls, hn, hs => by
    rw [Statement.draw]
    refine .next .readable fun t => .behind (.append hn) fun fork _ => .behind .addNode fun join hjoin =>
      .bind (drawArms_fits l fork join _ ls (.inr (by simp)) (.inl List.mem_cons_self) hs.cons.cons)
        fun ms goesOn hms _ => ?_
    split
    · exact .pure (onward_some (hms List.mem_cons_self) hjoin (by decide))
    · exact .pure (onward_none ms)
  | .forever body, n, ns, ls, hn, _ => by
    rw [Statement.draw]
    refine .behind (.append hn) fun header _ => .behind .addNode fun exit hexit => .next .openLoop fun _ =>
      .bind (body.fits header _ _ (.inr (by simp)) (sheltered_cons (by simp) (by simp)))
        fun ms finish hms hfinish => ?_
    have hheader : header ∈ ms := hms (by simp)
    refine .next (.repeatFrom (hfinish.mayLeave (.inr hheader)) (.inl hheader)) fun _ =>
      .next .closeLoop fun _ => .pure (onward_some (hms List.mem_cons_self) hexit (by decide))
  | .loop head label body, n, ns, ls, hn, _ => by
    rw [Statement.draw]
    refine .next .readable fun l => .behind (.append hn) fun check _ => .behind .addNode fun exit hexit =>
      .next (.addEdge (.inr (by simp)) (.inl List.mem_cons_self)) fun _ => .next .openLoop fun _ =>
        .behind (.branch (.inr (by simp))) fun start _ =>
          .bind (body.fits start _ _ (.inr List.mem_cons_self) (sheltered_cons (by simp) (by simp)))
            fun ms finish hms hfinish => ?_
    refine .next (.repeatFrom (hfinish.mayLeave (.inr (hms List.mem_cons_self)))
      (.inl (hms (by simp)))) fun _ => .next .closeLoop fun _ => .pure ?_
    exact onward_some (hms (by simp)) hexit (by decide)
  | .breakLoop, n, ns, ls, hn, hs => by
    rw [Statement.draw]
    exact fits_breakLoop n ns ls hn hs
  | .continueLoop, n, ns, ls, hn, hs => by
    rw [Statement.draw]
    exact fits_continueLoop n ns ls hn hs

theorem Block.fits : ∀ (b : Block) (n : Node) (ns : List Node) (ls : List Loop),
    MayLeave c ns n → Sheltered d ns ls → Patches c d ns ls (b.draw n) ls (Along n)
  | .missing, n, ns, ls, hn, _ => by
    rw [Block.draw]
    exact .throw _
  | .braces l, n, ns, ls, hn, hs => by
    rw [Block.draw]
    exact drawAll_fits l n ns ls hn hs

theorem drawAll_fits : ∀ (l : List Statement) (n : Node) (ns : List Node) (ls : List Loop),
    MayLeave c ns n → Sheltered d ns ls → Patches c d ns ls (drawAll n l) ls (Along n)
  | [], n, ns, ls, hn, _ => by
    rw [drawAll]
    exact .pure fun k hk => .inl (Option.some.inj hk).symm
  | s :: r, n, ns, ls, hn, hs => by
    rw [drawAll]
    refine .bind (s.fits n ns ls hn hs) fun ms finish hms h => ?_
    cases finish with
    | none => exact .pure ((onward_none ms).along n)
    | some m =>
      obtain ⟨hm, hkind⟩ := h m rfl
      refine (drawAll_fits r m ms ls (.inr hm) (hs.mono hms)).imp fun ms' last hms' hlast => ?_
      exact (hlast.onward (hms' hm) rfl hkind).along n

theorem Branch.fits (kind : EdgeKind) (label : String) : ∀ (b : Branch) (fork : Node) (ns : List Node)
    (ls : List Loop), MayLeave c ns fork → Sheltered d ns ls →
      Patches c d ns ls (b.draw fork kind label) ls (Along fork)
  | .block .missing, fork, ns, ls, hf, _ => by
    rw [Branch.draw]
    exact .throw _
  | .block (.braces []), fork, ns, ls, hf, _ => by
    rw [Branch.draw]
    exact .pure fun k hk => .inl (Option.some.inj hk).symm
  | .block (.braces (s :: r)), fork, ns, ls, hf, hs => by
    rw [Branch.draw]
    refine .behind (.branch hf) fun start _ =>
      .bind (s.fits start _ ls (.inr List.mem_cons_self) hs.cons) fun ms finish hms h => ?_
    cases finish with
    | none => exact .pure ((onward_none ms).along fork)
    | some m =>
      obtain ⟨hm, hkind⟩ := h m rfl
      refine (drawAll_fits r m ms ls (.inr hm) (hs.cons.mono hms)).imp fun ms' last hms' hlast => ?_
      exact (hlast.onward (hms' hm) rfl hkind).along fork
  | .single s, fork, ns, ls, hf, hs => by
    rw [Branch.draw]
    exact .behind (.branch hf) fun start _ =>
      (s.fits start _ ls (.inr List.mem_cons_self) hs.cons).imp fun _ _ _ h => h.along fork

theorem drawArms_fits : ∀ (l : List Arm) (fork join : Node) (ns : List Node) (ls : List Loop),
    MayLeave c ns fork → MayReach d ns join → Sheltered d ns ls →
      Patches c d ns ls (drawArms fork join l) ls fun _ _ => True
  | [], fork, join, ns, ls, _, _, _ => by
    rw [drawArms]
    exact .pure trivial
  | .arm pattern value :: r, fork, join, ns, ls, hf, hj, hs => by
    rw [drawArms]
    refine .next .readable fun p => .behind (.branch hf) fun entry _ =>
      .bind (value.fitsInside entry _ ls (.inr List.mem_cons_self) hs.cons)
        fun ms finish hms hfinish => ?_
    have hsub : ns ⊆ ms := List.Subset.trans (List.subset_cons_self entry ns) hms
    have hrest := drawArms_fits r fork join ms ls (hf.mono hsub) (hj.mono hsub) (hs.mono hsub)
    cases finish with
    | none => exact hrest
    | some k =>
      exact .next (.addEdge (hfinish.mayLeave (.inr (hms List.mem_cons_self)) k List.mem_cons_self)
        (hj.mono hsub)) fun _ => .bind hrest fun _ _ _ _ => .pure trivial

theorem Branch.fitsInside : ∀ (b : Branch) (n : Node) (ns : List Node) (ls : List Loop),
    MayLeave c ns n → Sheltered d ns ls → Patches c d ns ls (b.drawInside n) ls (Along n)
  | .block .missing, n, ns, ls, hn, _ => by
    rw [Branch.drawInside]
    exact .throw _
  | .block (.braces l), n, ns, ls, hn, hs => by
    rw [Branch.drawInside]
    exact drawAll_fits l n ns ls hn hs
  | .single s, n, ns, ls, hn, hs => by
    rw [Branch.drawInside]
    exact (s.fits n ns ls hn hs).imp fun _ _ _ h => h.along n

end

end Braced

/-! ## Statements of both languages -/

def Dialect.drawStatement (code : Bytes) (t : Tree) (c : Node) : Dialect → Drawing (Option Node)
  | .suites => (Suite.Statement.ofTree code t).draw c
  | .braces => (Braced.Statement.ofTree code t).draw c

theorem drawStatement_patches (dialect : Dialect) (code : Bytes) (t : Tree) (c : Node) (d : Draft) :
    Drawing.Patches c d [] d.loops (dialect.drawStatement code t c) d.loops Drawing.Onward := by
  cases dialect with
  | suites => exact (Suite.Statement.ofTree code t).fits c [] d.loops (.inl rfl) (sheltered_self d)
  | braces => exact (Braced.Statement.ofTree code t).fits c [] d.loops (.inl rfl) (sheltered_self d)

/-- What drawing a statement behind a node may do to a draft. -/
structure Confined (c : Node) (d : Draft) (finish : Option Node) (d' : Draft) : Prop where
  loops : d'.loops = d.loops
  -- a node that was there stands at its place as it was
  nodes : ∀ i id n, d.graph.Holds i id n → d'.graph.Holds i id n
  edges : ∃ added, d'.strokes = d.strokes ++ added ∧
    (∀ e ∈ added, (e.source = c.id ∨ ∃ n, d.Gains d' n ∧ e.source = n.id) ∧
      ((∃ n, d.Gains d' n ∧ e.target = n.id) ∨ ∃ v, d.Outlet v ∧ e.target = v.id)) ∧
    (∀ e ∈ d'.graph.edges, e ∈ d.graph.edges ∨ e ∈ added) ∧
    -- an edge goes only where a new one with the same ends takes its place
    ∀ e ∈ d.graph.edges, e ∈ d'.graph.edges ∨
      ∃ s ∈ added, s.source = e.source ∧ s.target = e.target
  onward : ∀ k, finish = some k → d.Gains d' k ∧ k.kind ≠ .exit
  -- the next statement may be drawn likewise
  unspent : d'.graph.Unspent

/-- Whatever was drawn before and wherever the statement goes, nothing changes but around it. -/
theorem drawStatement_confined {dialect : Dialect} {code : Bytes} {t : Tree} {c : Node} {d d' : Draft}
    {finish : Option Node} (hd : d.graph.Unspent)
    (h : (dialect.drawStatement code t c).Yields d finish d') : Confined c d finish d' := by
  obtain ⟨ns, -, hp, hloops, honward⟩ :=
    drawStatement_patches dialect code t c d d finish d' h .refl rfl
  obtain ⟨added, hstrokes, hends, hnew, hold⟩ := hp.strokes
  refine ⟨hloops, fun i id n hn => hp.holds hd hn, ⟨added, hstrokes, fun e he => ?_, hnew, hold⟩,
    fun k hk => ⟨hp.gains hd (honward k hk).1, (honward k hk).2⟩, hp.unspent hd⟩
  obtain ⟨⟨u, hu, hsource⟩, v, hv, htarget⟩ := hends e he
  constructor
  · rcases hu with rfl | hu
    · exact .inl hsource
    · exact .inr ⟨u, hp.gains hd hu, hsource⟩
  · rcases hv with hv | hv
    · exact .inl ⟨v, hp.gains hd hv, htarget⟩
    · exact .inr ⟨v, hv, htarget⟩

def openLoopDraft : Draft where
  graph :=
    let g := ((Graph.empty "g").addNode .block "fn f" (.str "")).2
    let g := (g.addNode .exit "Function Exit" (.str "")).2
    let g := (g.addNode .virtual "Loop Start" (.str "")).2
    (g.addNode .join "Loop Exit" (.str "")).2
  exit := some ⟨"exit_2", .exit, "Function Exit", none, .str "", none⟩
  loops := [⟨⟨"virtual_3", .virtual, "Loop Start", none, .str "", none⟩,
    ⟨"join_4", .join, "Loop Exit", none, .str "", none⟩⟩]
  strokes := []

theorem unspent_openLoopDraft : openLoopDraft.graph.Unspent := by
  have h := (Graph.settled_empty "g").addNode .block "fn f" (.str "")
  have h := h.addNode .exit "Function Exit" (.str "")
  have h := h.addNode .virtual "Loop Start" (.str "")
  exact (h.addNode .join "Loop Exit" (.str "")).unspent

/-- One side leaves the loop around the condition, the other may leave the function. -/
def breakOrGo : Tree :=
  .node "if_expression" 0 28 none
    [.node "identifier" 3 4 (some "condition") [],
     .node "block" 5 14 (some "consequence") [.node "break_expression" 7 12 none []],
     .node "block" 20 28 (some "alternative")
      [.node "expression_statement" 22 26 none
        [.node "try_expression" 22 26 none [.node "call_expression" 22 25 none []]]]]

def breakOrGoDrawing : Drawing (Option Node) :=
  Dialect.braces.drawStatement "if a \x7b break \x7d else \x7b g()?; \x7d".toUTF8.toList breakOrGo
    ⟨"virtual_3", .virtual, "Loop Start", none, .str "", none⟩

theorem breakOrGo_confined : openLoopDraft.graph.Unspent ∧ ∃ k d',
    breakOrGoDrawing.Yields openLoopDraft (some k) d' ∧ k.id = "join_13" ∧
    Confined ⟨"virtual_3", .virtual, "Loop Start", none, .str "", none⟩ openLoopDraft (some k) d' := by
  have hk : (breakOrGoDrawing.on openLoopDraft).1.toOption.map (Option.map Node.id) =
      some (some "join_13") := by decide +kernel
  cases hon : breakOrGoDrawing.on openLoopDraft with
  | mk r d' =>
    rw [hon] at hk
    rcases r with _ | _ | k
    · cases hk
    · cases hk
    · exact ⟨unspent_openLoopDraft, k, d', hon, Option.some.inj (Option.some.inj hk),
        drawStatement_confined unspent_openLoopDraft hon⟩

end Workbench.Flow
