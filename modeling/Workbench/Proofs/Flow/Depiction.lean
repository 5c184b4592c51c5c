import Workbench.Proofs.Flow.Walks
import Workbench.Proofs.Flow.Behaviour

/-!
# Behaviours in a draft

A drawn statement depicts a behaviour if every marking of the new draft has room for the
behaviour's logs, and if every marking of the old draft with room for them extends to the new
one without admitting more. Behaviours are put together the way statements are drawn: one after
the other, side by side from a fork, and in the rounds of a loop.
-/

namespace Workbench.Flow

/-! ## Room for a behaviour -/

/-- The place where an outcome leads has room for the log; after an outcome that goes on, the log is
among those expected next. -/
def Accepts (A : Marking) (P : List String → Prop) (x : Node) (loops : List Loop)
    (Q : List String → Prop) : Outcome → List String → Prop
  | .next, q => Q q
  | .broken, q => ∀ l ∈ loops.head?, A l.exit (q ++ l.exit.log)
  | .continued, q => ∀ l ∈ loops.head?, A l.header (q ++ l.header.log)
  | .left, q => A x (q ++ x.log)
  | .stopped, q => P q

/-- Whatever log the behaviour begins with, there is room for what comes of it. -/
def Carries (A : Marking) (P : List String → Prop) (x : Node) (loops : List Loop)
    (Q : List String → Prop) (b : Behaviour) (start : List String → Prop) : Prop :=
  ∀ q w o, start q → b w o → Accepts A P x loops Q o (q ++ w)

/-- The behaviour is what was drawn from `c`; it goes on at the ends. -/
structure Depicts (x c : Node) (b : Behaviour) (d : Draft) (ends : List Node) (d' : Draft) :
    Prop extends Extends x d d' where
  loops : d'.loops = d.loops
  stands : ∀ n ∈ ends, d'.graph.Has n ∧ n.kind ≠ .exit
  complete : ∀ A P, Marked A P d'.graph →
    Carries A P x d.loops (fun q => ∃ n ∈ ends, A n q) b (A c)
  sound : ∀ A P Q, Marked A P d.graph → Carries A P x d.loops Q b (A c) →
    ∃ A', Agrees d A A' ∧ Marked A' P d'.graph ∧ ∀ n ∈ ends, ∀ q, A' n q → Q q

section
variable {x c n : Node} {d d₁ d' : Draft} {a b : Behaviour} {l l' : List Node} {A A' : Marking}
  {P Q Q' : List String → Prop} {o : Outcome} {q : List String} {loops : List Loop}

theorem Accepts.mono (h : Accepts A P x loops Q o q) (hq : ∀ q, Q q → Q' q) :
    Accepts A P x loops Q' o q := by
  cases o with
  | next => exact hq q h
  | broken => exact h
  | continued => exact h
  | left => exact h
  | stopped => exact h

theorem Accepts.of_ne_next (h : Accepts A P x loops Q o q) (ho : o ≠ .next) :
    Accepts A P x loops Q' o q := by
  cases o with
  | next => exact absurd rfl ho
  | broken => exact h
  | continued => exact h
  | left => exact h
  | stopped => exact h

theorem Accepts.agrees (hg : Grounded x d) (ha : Agrees d A A')
    (h : Accepts A P x d.loops Q o q) : Accepts A' P x d.loops Q o q := by
  have hmem : ∀ k ∈ d.loops.head?, k ∈ d.loops := fun k hk => List.mem_of_mem_head? hk
  cases o with
  | next => exact h
  | broken =>
    intro k hk
    rw [ha _ (hg.loops k (hmem k hk)).2]
    exact h k hk
  | continued =>
    intro k hk
    rw [ha _ (hg.loops k (hmem k hk)).1]
    exact h k hk
  | left =>
    rw [Accepts, ha x hg.has_exit]
    exact h
  | stopped => exact h

theorem Agrees.trans {A₁ A₂ : Marking} (h : Agrees d A A₁) (h' : Agrees d₁ A₁ A₂)
    (hd : ∀ n, d.graph.Has n → d₁.graph.Has n) : Agrees d A A₂ :=
  fun n hn => (h' n (hd n hn)).trans (h n hn)

/-! ## Nothing, and one thing after the other -/

/-- The first of two behaviours ends with logs from which the second is accepted. -/
theorem Carries.first {start : List String → Prop} (h : Carries A P x loops Q (a.seq b) start) :
    Carries A P x loops (fun q => ∀ v o, b v o → Accepts A P x loops Q o (q ++ v)) a start := by
  intro q w o hq hw
  by_cases ho : o = .next
  · subst ho
    intro v o' hv
    rw [List.append_assoc]
    exact h q _ o' hq (.inl ⟨w, v, rfl, hw, hv⟩)
  · exact (h q w o hq (.inr ⟨hw, ho⟩)).of_ne_next ho

theorem Depicts.refl (hg : Grounded x d) (hc : d.graph.Has c) (hk : c.kind ≠ .exit) :
    Depicts x c (.ends [] .next) d [c] d where
  toExtends := .refl hg
  loops := rfl
  stands := fun n hn => List.mem_singleton.1 hn ▸ ⟨hc, hk⟩
  complete := by
    rintro A P - q w o hq ⟨rfl, rfl⟩
    exact ⟨c, List.mem_singleton_self c, by rwa [List.append_nil]⟩
  sound := by
    intro A P Q hA hcarry
    refine ⟨A, fun _ _ => rfl, hA, fun n hn q hq => ?_⟩
    rw [List.mem_singleton.1 hn] at hq
    have h := hcarry q [] .next hq ⟨rfl, rfl⟩
    rwa [List.append_nil] at h

theorem Depicts.seq (hg : Grounded x d) (h₁ : Depicts x c a d [n] d₁) (h₂ : Depicts x n b d₁ l d') :
    Depicts x c (a.seq b) d l d' where
  toExtends := h₁.toExtends.trans h₂.toExtends
  loops := h₂.loops.trans h₁.loops
  stands := h₂.stands
  complete := by
    intro A P hA q w o hq hw
    rcases hw with ⟨u, v, rfl, hu, hv⟩ | ⟨hw, ho⟩
    · obtain ⟨k, hk, hn⟩ := h₁.complete A P (h₂.marked hA) q u .next hq hu
      rw [List.mem_singleton.1 hk] at hn
      rw [← List.append_assoc, ← h₁.loops]
      exact h₂.complete A P hA _ v o hn hv
    · exact (h₁.complete A P (h₂.marked hA) q w o hq hw).of_ne_next ho
  sound := by
    intro A P Q hA hcarry
    obtain ⟨A₁, hag₁, hA₁, hends₁⟩ := h₁.sound A P _ hA hcarry.first
    obtain ⟨A₂, hag₂, hA₂, hends₂⟩ := h₂.sound A₁ P Q hA₁ (by
      intro q v o hq hv
      rw [h₁.loops]
      exact (hends₁ n (List.mem_singleton_self n) q hq v o hv).agrees hg hag₁)
    exact ⟨A₂, hag₁.trans hag₂ h₁.has, hA₂, hends₂⟩

/-- What would follow a behaviour that never goes on does not matter. -/
theorem Depicts.seq_of_nil (h : Depicts x c a d [] d') (b : Behaviour) :
    Depicts x c (a.seq b) d [] d' where
  toExtends := h.toExtends
  loops := h.loops
  stands := nofun
  complete := by
    intro A P hA q w o hq hw
    rcases hw with ⟨u, v, rfl, hu, -⟩ | ⟨hw, -⟩
    · obtain ⟨k, hk, -⟩ := h.complete A P hA q u .next hq hu
      cases hk
    · exact h.complete A P hA q w o hq hw
  sound := by
    intro A P Q hA hcarry
    obtain ⟨A', hag, hA', -⟩ := h.sound A P _ hA hcarry.first
    exact ⟨A', hag, hA', nofun⟩

theorem Depicts.either (hg : Grounded x d) (hc : d.graph.Has c) (h₁ : Depicts x c a d l d₁)
    (h₂ : Depicts x c b d₁ l' d') : Depicts x c (a.either b) d (l ++ l') d' where
  toExtends := h₁.toExtends.trans h₂.toExtends
  loops := h₂.loops.trans h₁.loops
  stands := by
    intro n hn
    rcases List.mem_append.1 hn with hn | hn
    · exact ⟨h₂.has n (h₁.stands n hn).1, (h₁.stands n hn).2⟩
    · exact h₂.stands n hn
  complete := by
    intro A P hA q w o hq hw
    rcases hw with hw | hw
    · refine (h₁.complete A P (h₂.marked hA) q w o hq hw).mono ?_
      rintro q ⟨n, hn, hq⟩
      exact ⟨n, List.mem_append_left _ hn, hq⟩
    · rw [← h₁.loops]
      refine (h₂.complete A P hA q w o hq hw).mono ?_
      rintro q ⟨n, hn, hq⟩
      exact ⟨n, List.mem_append_right _ hn, hq⟩
  sound := by
    intro A P Q hA hcarry
    obtain ⟨A₁, hag₁, hA₁, hends₁⟩ := h₁.sound A P Q hA fun q w o hq hw =>
      hcarry q w o hq (.inl hw)
    obtain ⟨A₂, hag₂, hA₂, hends₂⟩ := h₂.sound A₁ P Q hA₁ (by
      intro q w o hq hw
      rw [hag₁ c hc] at hq
      rw [h₁.loops]
      exact (hcarry q w o hq (.inr hw)).agrees hg hag₁)
    refine ⟨A₂, hag₁.trans hag₂ h₁.has, hA₂, fun n hn q hq => ?_⟩
    rcases List.mem_append.1 hn with hn | hn
    · rw [hag₂ n (h₁.stands n hn).1] at hq
      exact hends₁ n hn q hq
    · exact hends₂ n hn q hq

/-! ## Single nodes -/

section
variable {kind : NodeKind} {label : Label} {edgeLabel : String} {edge : EdgeKind}

theorem Grounded.grown (hg : Grounded x d) (hc : d.graph.Has c) :
    Grounded x (d.grown c kind label edge edgeLabel) :=
  (hg.withNode kind label).withEdge ((Draft.has_withNode hg.numbered).2 (.inl hc))
    (Draft.has_fresh_withNode hg.numbered)

theorem Marked.grown (h : Marked A P d.graph) (hd : d.graph.Numbered) (hc : d.graph.Has c)
    {S : List String → Prop} (hs : (d.fresh kind label).Stops → ∀ q, S q → P q)
    (he : ∀ q, A c q → S (q ++ (d.fresh kind label).log)) :
    Marked (A.set (d.fresh kind label) S) P (d.grown c kind label edge edgeLabel).graph := by
  refine (h.withNode hd S hs).withEdge (hd.addNode _ _ _) ((Draft.has_withNode hd).2 (.inl hc))
    (Draft.has_fresh_withNode hd) fun q hq => ?_
  rw [agrees_set hd A S c hc] at hq
  rw [A.set_self]
  exact he q hq

theorem Marked.behind (h : Marked A P (d.grown c kind label edge edgeLabel).graph)
    (hd : d.graph.Numbered) (hc : d.graph.Has c) (hq : A c q) :
    A (d.fresh kind label) (q ++ (d.fresh kind label).log) :=
  h.edge ((Draft.has_grown hd hc).2 (.inl hc)) ((Draft.has_grown hd hc).2 (.inr rfl))
    ((Draft.linked_grown hd).2 (.inr ⟨rfl, rfl⟩)) hq

/-- A new node logs itself, if it is of a logged kind, and the flow goes on from it. -/
theorem Depicts.append (hg : Grounded x d) (hc : d.graph.Has c) (kind : NodeKind) (label : Label)
    (edge : EdgeKind) (edgeLabel : String) (hk : kind ≠ .exit) :
    Depicts x c (.ends (d.fresh kind label).log .next) d [d.fresh kind label]
      (d.grown c kind label edge edgeLabel) where
  toExtends := .grown hg hc _ _ _ _
  loops := rfl
  stands := by
    intro n hn
    rw [List.mem_singleton.1 hn]
    exact ⟨(Draft.has_grown hg.numbered hc).2 (.inr rfl), hk⟩
  complete := by
    rintro A P hA q w o hq ⟨rfl, rfl⟩
    exact ⟨_, List.mem_singleton_self _, hA.behind hg.numbered hc hq⟩
  sound := by
    intro A P Q hA hcarry
    refine ⟨A.set (d.fresh kind label) Q, agrees_set hg.numbered A Q,
      hA.grown hg.numbered hc (fun hs => absurd hs.1 hk) fun q hq => hcarry q _ .next hq ⟨rfl, rfl⟩,
      fun n hn q hq => ?_⟩
    rwa [List.mem_singleton.1 hn, A.set_self] at hq

theorem Depicts.withNode (hg : Grounded x d) (hc : d.graph.Has c) (hk : c.kind ≠ .exit)
    (kind : NodeKind) (label : Label) (hkind : kind ≠ .exit) :
    Depicts x c (.ends [] .next) d [c] (d.withNode kind label) := by
  have hext := Extends.withNode hg kind label
  refine ⟨hext, rfl, fun n hn => List.mem_singleton.1 hn ▸ ⟨hext.has c hc, hk⟩, ?_, ?_⟩
  · rintro A P - q w o hq ⟨rfl, rfl⟩
    exact ⟨c, List.mem_singleton_self c, by rwa [List.append_nil]⟩
  · intro A P Q hA hcarry
    have hag : Agrees d A (A.set (d.fresh kind label) fun _ => False) := agrees_set hg.numbered A _
    refine ⟨_, hag, hA.withNode hg.numbered _ fun hs => absurd hs.1 hkind, fun n hn q hq => ?_⟩
    rw [List.mem_singleton.1 hn, hag c hc] at hq
    have h := hcarry q [] .next hq ⟨rfl, rfl⟩
    rwa [List.append_nil] at h

theorem Depicts.leave (hg : Grounded x d) (hc : d.graph.Has c) (label : String) (edge : EdgeKind)
    (hl : label ≠ "panic!") :
    Depicts x c (.ends [label] .left) d []
      ((d.grown c .exit label .seq "").withEdge (d.fresh .exit label) x edge "") := by
  have hd := hg.numbered
  have hext₁ := Extends.grown hg hc .exit label .seq ""
  have hn : (d.grown c .exit label .seq "").graph.Has (d.fresh .exit label) :=
    (Draft.has_grown hd hc).2 (.inr rfl)
  have hx := hext₁.has x hg.has_exit
  have hext₂ := Extends.withEdge hext₁.grounded hn hx edge ""
  refine ⟨hext₁.trans hext₂, by simp, nofun, ?_, ?_⟩
  · rintro A P hA q w o hq ⟨rfl, rfl⟩
    exact hA.edge (hext₂.has _ hn) (hext₂.has x hx) (Draft.linked_withEdge.2 (.inr ⟨rfl, rfl⟩))
      ((hext₂.marked hA).behind hd hc hq)
  · intro A P Q hA hcarry
    have hag : Agrees d A (A.set (d.fresh .exit label) fun q => A x (q ++ x.log)) :=
      agrees_set hd A _
    have hA₁ : Marked (A.set (d.fresh .exit label) fun q => A x (q ++ x.log)) P
        (d.grown c .exit label .seq "").graph :=
      hA.grown hd hc (fun hs => absurd hs.2 hl) fun q hq => hcarry q _ .left hq ⟨rfl, rfl⟩
    refine ⟨_, hag, hA₁.withEdge hext₁.grounded.numbered hn hx fun q hq => ?_, nofun⟩
    rw [A.set_self] at hq
    rw [hag x hg.has_exit]
    exact hq

theorem Depicts.stop (hg : Grounded x d) (hc : d.graph.Has c) :
    Depicts x c (.ends ["panic!"] .stopped) d [] (d.grown c .exit "panic!" .seq "") where
  toExtends := .grown hg hc _ _ _ _
  loops := rfl
  stands := nofun
  complete := by
    rintro A P hA q w o hq ⟨rfl, rfl⟩
    exact hA.stop ((Draft.has_grown hg.numbered hc).2 (.inr rfl)) ⟨rfl, rfl⟩
      (hA.behind hg.numbered hc hq)
  sound := by
    intro A P Q hA hcarry
    exact ⟨_, agrees_set hg.numbered A P, hA.grown hg.numbered hc (fun _ _ h => h)
      fun q hq => hcarry q _ .stopped hq ⟨rfl, rfl⟩, nofun⟩

end

/-! ## Jumps -/

/-- An edge to the place of the innermost loop where an outcome leads. Outside of all loops nothing
is drawn, and anything is accepted. -/
theorem Depicts.jumped {place : Loop → Node} {label : String} {e : Outcome} (hg : Grounded x d)
    (hc : d.graph.Has c) (hplace : ∀ k ∈ d.loops, d.graph.Has (place k))
    (he : ∀ {A P Q q}, Accepts A P x d.loops Q e q ↔
      ∀ k ∈ d.loops.head?, A (place k) (q ++ (place k).log)) :
    Depicts x c (.ends [] e) d [] (d.jumped c place label) := by
  unfold Draft.jumped
  split
  next hl =>
    refine ⟨.refl hg, rfl, nofun, ?_, fun A P Q hA _ => ⟨A, fun _ _ => rfl, hA, nofun⟩⟩
    rintro A P hA q w o hq ⟨rfl, rfl⟩
    rw [he, hl]
    simp
  next k rest hl =>
    have ht := hplace k (hl ▸ List.mem_cons_self)
    have hext := Extends.withEdge hg hc ht .jump label
    refine ⟨hext, rfl, nofun, ?_, ?_⟩
    · rintro A P hA q w o hq ⟨rfl, rfl⟩
      rw [he, hl, List.append_nil]
      rintro _ ⟨⟩
      exact hA.edge (hext.has c hc) (hext.has _ ht) (Draft.linked_withEdge.2 (.inr ⟨rfl, rfl⟩)) hq
    · intro A P Q hA hcarry
      refine ⟨A, fun _ _ => rfl, hA.withEdge hg.numbered hc ht fun q hq => ?_, nofun⟩
      have h := he.1 (hcarry q [] e hq ⟨rfl, rfl⟩) k (by rw [hl]; rfl)
      rwa [List.append_nil] at h

theorem depicts_break (hg : Grounded x d) (hc : d.graph.Has c) :
    Depicts x c (.ends [] .broken) d [] (d.jumped c Loop.exit "break") :=
  .jumped hg hc (fun k hk => (hg.loops k hk).2) .rfl

theorem depicts_continue (hg : Grounded x d) (hc : d.graph.Has c) :
    Depicts x c (.ends [] .continued) d [] (d.jumped c Loop.header "continue") :=
  .jumped hg hc (fun k hk => (hg.loops k hk).1) .rfl

/-! ## Joins -/

theorem Depicts.join (h : Depicts x c b d l d₁) (label : String) (strokes : List Stroke)
    (hl : strokes.map Stroke.source = l) (ht : ∀ s ∈ strokes, s.target = d₁.fresh .join label) :
    Depicts x c b d [d₁.fresh .join label] ((d₁.withNode .join label).withEdges strokes) := by
  subst hl
  have hd := h.grounded.numbered
  have hsrc : ∀ s ∈ strokes, s.source ∈ strokes.map Stroke.source :=
    fun s hmem => List.mem_map_of_mem hmem
  have hjoin : (d₁.withNode .join label).graph.Has (d₁.fresh .join label) :=
    Draft.has_fresh_withNode hd
  have hends : ∀ s ∈ strokes, (d₁.withNode .join label).graph.Has s.source ∧
      (d₁.withNode .join label).graph.Has s.target :=
    fun s hmem => ⟨(Draft.has_withNode hd).2 (.inl (h.stands _ (hsrc s hmem)).1), ht s hmem ▸ hjoin⟩
  have hext₂ := Extends.withEdges (h.grounded.withNode .join label) hends
  have hext := (Extends.withNode h.grounded .join label).trans hext₂
  refine ⟨h.toExtends.trans hext, ?_, ?_, ?_, ?_⟩
  · rw [Draft.loops_withEdges, Draft.loops_withNode, h.loops]
  · intro n hn
    rw [List.mem_singleton.1 hn]
    exact ⟨hext₂.has _ hjoin, show NodeKind.join ≠ .exit by decide⟩
  · intro A P hA q w o hq hw
    refine (h.complete A P (hext.marked hA) q w o hq hw).mono ?_
    rintro q ⟨n, hn, hq⟩
    obtain ⟨s, hmem, rfl⟩ := List.mem_map.1 hn
    refine ⟨_, List.mem_singleton_self _, ?_⟩
    have hedge := hA.edge (hext.has _ (h.stands _ hn).1) (hext₂.has _ hjoin)
      (Draft.linked_withEdges.2 (.inr ⟨s, hmem, rfl, by rw [ht s hmem]⟩)) hq
    rwa [show (d₁.fresh .join label).log = [] from rfl, List.append_nil] at hedge
  · intro A P Q hA hcarry
    obtain ⟨A₁, hag, hA₁, hQ⟩ := h.sound A P Q hA hcarry
    refine ⟨A₁.set (d₁.fresh .join label) Q, hag.trans (agrees_set hd A₁ Q) h.has, ?_, ?_⟩
    · refine (hA₁.withNode hd Q fun hs => absurd hs.1 (show NodeKind.join ≠ .exit by decide)).withEdges
        hends (hd.addNode _ _ _) ?_
      intro s hmem q hq
      rw [agrees_set hd A₁ Q _ (h.stands _ (hsrc s hmem)).1] at hq
      rw [ht s hmem, A₁.set_self, show (d₁.fresh .join label).log = [] from rfl, List.append_nil]
      exact hQ _ (hsrc s hmem) q hq
    · intro n hn q hq
      rwa [List.mem_singleton.1 hn, A₁.set_self] at hq

/-! ## Leading on to a node -/

/-- The behaviour is what was drawn from `c`; where it goes on, it is led to `j`. -/
structure Feeds (x c j : Node) (b : Behaviour) (d d' : Draft) : Prop extends Extends x d d' where
  loops : d'.loops = d.loops
  complete : ∀ A P, Marked A P d'.graph →
    Carries A P x d.loops (fun q => A j (q ++ j.log)) b (A c)
  sound : ∀ A P, Marked A P d.graph → Carries A P x d.loops (fun q => A j (q ++ j.log)) b (A c) →
    ∃ A', Agrees d A A' ∧ Marked A' P d'.graph

theorem Depicts.feeds {j : Node} (h : Depicts x c b d l d₁) (hj : d.graph.Has j) :
    Feeds x c j b d (d₁.joined l j) := by
  rw [Draft.joined_eq_withEdges]
  have hends : ∀ s ∈ strokesTo j .seq "" l, d₁.graph.Has s.source ∧ d₁.graph.Has s.target := by
    intro s hmem
    obtain ⟨n, hn, rfl⟩ := mem_strokesTo.1 hmem
    exact ⟨(h.stands n hn).1, h.has j hj⟩
  have hext := Extends.withEdges h.grounded hends
  refine ⟨h.toExtends.trans hext, (Draft.loops_withEdges _ _).trans h.loops, ?_, ?_⟩
  · intro A P hA q w o hq hw
    refine (h.complete A P (hext.marked hA) q w o hq hw).mono ?_
    rintro q ⟨n, hn, hq⟩
    exact hA.edge (hext.has n (h.stands n hn).1) (hext.has j (h.has j hj))
      (Draft.linked_withEdges.2 (.inr ⟨_, mem_strokesTo.2 ⟨n, hn, rfl⟩, rfl, rfl⟩)) hq
  · intro A P hA hcarry
    obtain ⟨A', hag, hA', hQ⟩ := h.sound A P _ hA hcarry
    refine ⟨A', hag, hA'.withEdges hends h.grounded.numbered ?_⟩
    intro s hmem q hq
    obtain ⟨n, hn, rfl⟩ := mem_strokesTo.1 hmem
    rw [hag j hj]
    exact hQ n hn q hq

theorem Feeds.never {j : Node} (hg : Grounded x d) : Feeds x c j .never d d where
  toExtends := .refl hg
  loops := rfl
  complete := fun _ _ _ _ _ _ _ hw => hw.elim
  sound := fun A _ hA _ => ⟨A, fun _ _ => rfl, hA⟩

theorem Feeds.either {j : Node} (hg : Grounded x d) (hc : d.graph.Has c) (hj : d.graph.Has j)
    (h₁ : Feeds x c j a d d₁) (h₂ : Feeds x c j b d₁ d') : Feeds x c j (a.either b) d d' where
  toExtends := h₁.toExtends.trans h₂.toExtends
  loops := h₂.loops.trans h₁.loops
  complete := by
    intro A P hA q w o hq hw
    rcases hw with hw | hw
    · exact h₁.complete A P (h₂.marked hA) q w o hq hw
    · rw [← h₁.loops]
      exact h₂.complete A P hA q w o hq hw
  sound := by
    intro A P hA hcarry
    obtain ⟨A₁, hag₁, hA₁⟩ := h₁.sound A P hA fun q w o hq hw => hcarry q w o hq (.inl hw)
    obtain ⟨A₂, hag₂, hA₂⟩ := h₂.sound A₁ P hA₁ (by
      intro q w o hq hw
      rw [hag₁ c hc] at hq
      rw [h₁.loops, hag₁ j hj]
      exact (hcarry q w o hq (.inr hw)).agrees hg hag₁)
    exact ⟨A₂, hag₁.trans hag₂ h₁.has, hA₂⟩

theorem Depicts.not_next (h : Depicts x c b d [] d') (w : List String) : ¬ b w .next := by
  intro hw
  have hA : Marked (fun _ _ => True) (fun _ => True) d'.graph :=
    ⟨fun _ _ _ _ _ => trivial, fun _ _ _ _ => trivial⟩
  obtain ⟨n, hn, -⟩ := h.complete _ _ hA [] w .next trivial hw
  cases hn

theorem Feeds.depicts {label : String} (hg : Grounded x d) (hc : d.graph.Has c)
    (h : Feeds x c (d.fresh .join label) b (d.withNode .join label) d') :
    Depicts x c b d [d.fresh .join label] d' := by
  have hd := hg.numbered
  have hlog : (d.fresh .join label).log = [] := rfl
  refine ⟨(Extends.withNode hg .join label).trans h.toExtends, h.loops, ?_, ?_, ?_⟩
  · intro n hn
    rw [List.mem_singleton.1 hn]
    exact ⟨h.has _ (Draft.has_fresh_withNode hd), show NodeKind.join ≠ .exit by decide⟩
  · intro A P hA q w o hq hw
    refine (h.complete A P hA q w o hq hw).mono fun q hq => ⟨_, List.mem_singleton_self _, ?_⟩
    rwa [hlog, List.append_nil] at hq
  · intro A P Q hA hcarry
    have hag : Agrees d A (A.set (d.fresh .join label) Q) := agrees_set hd A Q
    obtain ⟨A', hag', hA'⟩ := h.sound (A.set (d.fresh .join label) Q) P
      (hA.withNode hd Q fun hs => absurd hs.1 (show NodeKind.join ≠ .exit by decide)) (by
        intro q w o hq hw
        rw [hag c hc] at hq
        refine ((hcarry q w o hq hw).agrees hg hag).mono fun q hq => ?_
        rwa [A.set_self, hlog, List.append_nil])
    refine ⟨A', hag.trans hag' (Extends.withNode hg .join label).has, hA', fun n hn q hq => ?_⟩
    rwa [List.mem_singleton.1 hn, hag' _ (Draft.has_fresh_withNode hd), A.set_self] at hq

theorem Depicts.without_ends (h : Depicts x c b d l d') (hb : ∀ w, ¬ b w .next) :
    Depicts x c b d [] d' where
  toExtends := h.toExtends
  loops := h.loops
  stands := nofun
  complete := by
    intro A P hA q w o hq hw
    refine (h.complete A P hA q w o hq hw).of_ne_next ?_
    rintro rfl
    exact hb w hw
  sound := by
    intro A P Q hA hcarry
    obtain ⟨A', hag, hA', -⟩ := h.sound A P Q hA hcarry
    exact ⟨A', hag, hA', nofun⟩

/-! ## Loops -/

section
variable {h e : Node} {checked : Prop}

def arrivals (start : List String → Prop) (head : List String) (b : Behaviour) :
    List String → Prop :=
  fun q => ∃ p v, start p ∧ Behaviour.Arrives head b v ∧ q = p ++ v

theorem Carries.done (hcarry : Carries A P x loops Q (.Rounds h.log checked b) (A c))
    (hc : checked) (hq : arrivals (A c) h.log b q) : Q q := by
  obtain ⟨p, v, hp, hv, rfl⟩ := hq
  have hdone := hv.rounds (t := []) (by rw [List.append_nil]; exact .done hc)
  rw [List.append_nil] at hdone
  exact hcarry p v .next hp hdone

/-- From every arrival at the header there is room for a round that ends where rounds may end. -/
theorem Carries.round (hcarry : Carries A P x loops Q (.Rounds h.log checked b) (A c))
    (hh : A' h = arrivals (A c) h.log b) (he : A' e = Q) (hx : A' x = A x) (hlog : e.log = []) :
    Carries A' P x (⟨h, e⟩ :: loops) (fun q => arrivals (A c) h.log b (q ++ h.log)) b (A' h) := by
  intro q w o hq hb
  rw [hh] at hq
  obtain ⟨p, v, hp, hv, rfl⟩ := hq
  cases o with
  | next =>
    refine ⟨p, _, hp, .again hv hb (.inl rfl), ?_⟩
    simp only [List.append_assoc]
  | broken =>
    rintro _ ⟨⟩
    rw [he, hlog, List.append_nil, List.append_assoc]
    exact hcarry p _ .next hp (hv.rounds (.broken hb))
  | continued =>
    rintro _ ⟨⟩
    rw [hh]
    refine ⟨p, _, hp, .again hv hb (.inr rfl), ?_⟩
    simp only [List.append_assoc]
  | left =>
    rw [Accepts, hx, List.append_assoc p]
    exact hcarry p _ .left hp (hv.rounds (.away hb (.inl rfl)))
  | stopped =>
    rw [Accepts, List.append_assoc]
    exact hcarry p _ .stopped hp (hv.rounds (.away hb (.inr rfl)))

theorem Carries.rounds (hround : Carries A P x (⟨h, e⟩ :: loops) (fun q => A h (q ++ h.log)) b (A h))
    (hout : checked → ∀ q, A h q → A e q) (hlog : e.log = []) {w : List String}
    (hr : Behaviour.Rounds h.log checked b w o) :
    ∀ q, A h (q ++ h.log) → Accepts A P x loops (A e) o (q ++ w) := by
  induction hr with
  | done hc => exact fun q hq => hout hc _ hq
  | @again u v o o' hb ho _ ih =>
    intro q hq
    have hback : A h (q ++ h.log ++ u ++ h.log) := by
      rcases ho with rfl | rfl
      · exact hround _ u _ hq hb
      · exact hround _ u _ hq hb _ rfl
    rw [← List.append_assoc, ← List.append_assoc]
    exact ih _ hback
  | broken hb =>
    intro q hq
    have hexit := hround _ _ _ hq hb _ rfl
    rw [hlog, List.append_nil, List.append_assoc] at hexit
    exact hexit
  | away hb ho =>
    intro q hq
    rw [← List.append_assoc]
    have h := hround _ _ _ hq hb
    rcases ho with rfl | rfl
    · exact h
    · exact h

/-- The header of a loop behind `c`, its exit, perhaps with an edge between them, and the loop open:
the header may get any logs that come from `c`, and the exit any at all. -/
structure Looped (x c h e : Node) (checked : Prop) (d d' : Draft) : Prop extends
    Extends x d d' where
  loops : d'.loops = ⟨h, e⟩ :: d.loops
  has_header : d'.graph.Has h
  has_exit : d'.graph.Has e
  exit_kind : e.kind = .join
  enter : d'.graph.Linked c.id h.id
  extend : ∀ A P H Q, Marked A P d.graph → (∀ q, A c q → H (q ++ h.log)) →
    (checked → ∀ q, H q → Q q) →
    ∃ A', Agrees d A A' ∧ A' h = H ∧ A' e = Q ∧ Marked A' P d'.graph

theorem Looped.opened {kind : NodeKind} {label exitLabel : String} (hg : Grounded x d)
    (hc : d.graph.Has c) (hk : kind ≠ .exit) (hh : h = d.fresh kind label)
    (hd₁ : d₁ = d.grown c kind label .seq "") (he : e = d₁.fresh .join exitLabel)
    (strokes : List Stroke)
    (hs : ∀ s ∈ strokes, checked ∧ s.source = h ∧ s.target = e) :
    Looped x c h e checked d (((d₁.withNode .join exitLabel).withEdges strokes).withLoops
      (⟨h, e⟩ :: d.loops)) := by
  have hext₁ : Extends x d d₁ := hd₁ ▸ .grown hg hc kind label .seq ""
  have hext₂ := Extends.withNode hext₁.grounded .join exitLabel
  have hg₂ := hext₂.grounded
  have hh₁ : d₁.graph.Has h := by
    rw [hd₁, hh]
    exact (Draft.has_grown hg.numbered hc).2 (.inr rfl)
  have he₂ : (d₁.withNode .join exitLabel).graph.Has e :=
    he ▸ Draft.has_fresh_withNode hext₁.grounded.numbered
  have hends : ∀ s ∈ strokes, (d₁.withNode .join exitLabel).graph.Has s.source ∧
      (d₁.withNode .join exitLabel).graph.Has s.target := by
    intro s hmem
    obtain ⟨-, hsrc, htgt⟩ := hs s hmem
    rw [hsrc, htgt]
    exact ⟨hext₂.has h hh₁, he₂⟩
  have hext₃ := Extends.withEdges hg₂ hends
  have hext := hext₁.trans (hext₂.trans hext₃)
  refine ⟨hext.withLoops ?_, rfl, hext₃.has h (hext₂.has h hh₁), hext₃.has e he₂, by rw [he]; rfl,
    hext₃.linked _ _ (hext₂.linked _ _ ?_), ?_⟩
  · refine List.forall_mem_cons.2 ⟨⟨hext₃.has h (hext₂.has h hh₁), hext₃.has e he₂⟩, ?_⟩
    exact fun l hl => ⟨hext.has _ (hg.loops l hl).1, hext.has _ (hg.loops l hl).2⟩
  · rw [hd₁, hh]
    exact (Draft.linked_grown hg.numbered).2 (.inr ⟨rfl, rfl⟩)
  · intro A P H Q hA hH hQ
    have hag₁ : Agrees d A (A.set h H) := by
      rw [hh]
      exact agrees_set hg.numbered A H
    have hag₂ : Agrees d₁ (A.set h H) ((A.set h H).set e Q) := by
      rw [he]
      exact agrees_set hext₁.grounded.numbered (A.set h H) Q
    have hA₁ : Marked (A.set h H) P d₁.graph := by
      rw [hh] at hH ⊢
      rw [hd₁]
      exact hA.grown hg.numbered hc (fun hstop => absurd hstop.1 hk) hH
    have hA₂ : Marked ((A.set h H).set e Q) P (d₁.withNode .join exitLabel).graph := by
      rw [he]
      exact hA₁.withNode hext₁.grounded.numbered Q
        fun hstop => absurd hstop.1 (show NodeKind.join ≠ .exit by decide)
    have hh' : (A.set h H).set e Q h = H := (hag₂ h hh₁).trans (A.set_self h H)
    have he' : (A.set h H).set e Q e = Q := Marking.set_self _ e Q
    refine ⟨_, hag₁.trans hag₂ hext₁.has, hh', he',
      hA₂.withEdges hends hg₂.numbered ?_⟩
    intro s hmem q hq
    obtain ⟨hchecked, hsrc, htgt⟩ := hs s hmem
    rw [hsrc, hh'] at hq
    rw [htgt, he', he]
    simpa [Node.log, NodeKind.logged, Draft.fresh, Graph.fresh, Graph.addNode] using hQ hchecked q hq

/-- The rounds of an open loop, with edges back to the header and out to the exit. -/
theorem Depicts.loop {d₂ : Draft} {finish : List Node} (hg : Grounded x d) (hc : d.graph.Has c)
    (hl : Looped x c h e checked d d₁) (hround : Depicts x h b d₁ finish d₂)
    (strokes : List Stroke)
    (hs : ∀ s ∈ strokes, s.source ∈ finish ∧ s.target = h ∨ checked ∧ s.source = h ∧ s.target = e)
    (hback : ∀ n ∈ finish, ∃ s ∈ strokes, s.source = n ∧ s.target = h)
    (hout : checked → d₁.graph.Linked h.id e.id ∨ ∃ s ∈ strokes, s.source = h ∧ s.target = e) :
    Depicts x c (.Rounds h.log checked b) d [e]
      ((d₂.withEdges strokes).withLoops (d₂.withEdges strokes).loops.tail) := by
  have hlog : e.log = [] := by rw [Node.log, hl.exit_kind]; rfl
  have hh₂ := hround.has h hl.has_header
  have he₂ := hround.has e hl.has_exit
  have hends : ∀ s ∈ strokes, d₂.graph.Has s.source ∧ d₂.graph.Has s.target := by
    intro s hmem
    rcases hs s hmem with ⟨hsrc, htgt⟩ | ⟨-, hsrc, htgt⟩
    · exact ⟨(hround.stands _ hsrc).1, htgt ▸ hh₂⟩
    · exact ⟨hsrc ▸ hh₂, htgt ▸ he₂⟩
  have hext₂ := Extends.withEdges hround.grounded hends
  have hext := (hl.toExtends.trans hround.toExtends).trans hext₂
  have hloops : (d₂.withEdges strokes).loops.tail = d.loops := by
    rw [Draft.loops_withEdges, hround.loops, hl.loops, List.tail_cons]
  refine ⟨hext.withLoops ?_, hloops, ?_, ?_, ?_⟩
  · rw [hloops]
    exact fun l hmem => ⟨hext.has _ (hg.loops l hmem).1, hext.has _ (hg.loops l hmem).2⟩
  · intro n hn
    rw [List.mem_singleton.1 hn]
    exact ⟨hext₂.has e he₂, by rw [hl.exit_kind]; decide⟩
  · -- there is room for every number of rounds
    intro A P hA q w o hq hw
    have hA₂ : Marked A P d₂.graph := hext₂.marked hA
    have hA₁ := hround.marked hA₂
    have hcarry : Carries A P x (⟨h, e⟩ :: d.loops) (fun q => A h (q ++ h.log)) b (A h) := by
      intro q w o hq hb
      have hacc := hround.complete A P hA₂ q w o hq hb
      rw [hl.loops] at hacc
      refine hacc.mono ?_
      rintro q ⟨n, hn, hq⟩
      obtain ⟨s, hmem, rfl, htgt⟩ := hback n hn
      exact hA.edge (hext₂.has _ (hround.stands _ hn).1) (hext₂.has h hh₂)
        (Draft.linked_withEdges.2 (.inr ⟨s, hmem, rfl, by rw [htgt]⟩)) hq
    have hleave : checked → ∀ q, A h q → A e q := by
      intro hchecked q hq
      have hlink : (d₂.withEdges strokes).graph.Linked h.id e.id := by
        rcases hout hchecked with hlink | ⟨s, hmem, hsrc, htgt⟩
        · exact hext₂.linked _ _ (hround.linked _ _ hlink)
        · exact Draft.linked_withEdges.2 (.inr ⟨s, hmem, by rw [hsrc], by rw [htgt]⟩)
      have := hA.edge (hext₂.has h hh₂) (hext₂.has e he₂) hlink hq
      rwa [hlog, List.append_nil] at this
    have henter : A h (q ++ h.log) :=
      hA₁.edge (hl.has c hc) hl.has_header hl.enter hq
    refine (hcarry.rounds hleave hlog hw q henter).mono fun q hq => ?_
    exact ⟨e, List.mem_singleton_self e, hq⟩
  · -- the header gets the logs with which rounds arrive, the exit those expected next
    intro A P Q hA hcarry
    obtain ⟨A₁, hag₁, hh', he', hA₁⟩ := hl.extend A P (arrivals (A c) h.log b) Q hA
      (fun q hq => ⟨q, h.log, hq, .first, rfl⟩) fun hchecked q hq => hcarry.done hchecked hq
    have hround' := hcarry.round hh' he' (hag₁ x hg.has_exit) hlog
    rw [← hl.loops] at hround'
    obtain ⟨A₂, hag₂, hA₂, hQ⟩ := hround.sound A₁ P _ hA₁ hround'
    refine ⟨A₂, hag₁.trans hag₂ hl.has, hA₂.withEdges hends hround.grounded.numbered ?_, ?_⟩
    · intro s hmem q hq
      rcases hs s hmem with ⟨hsrc, htgt⟩ | ⟨hchecked, hsrc, htgt⟩
      · rw [htgt, hag₂ h hl.has_header, hh']
        exact hQ _ hsrc q hq
      · rw [hsrc, hag₂ h hl.has_header, hh'] at hq
        rw [htgt, hag₂ e hl.has_exit, he', hlog, List.append_nil]
        exact hcarry.done hchecked hq
    · intro n hn q hq
      rw [List.mem_singleton.1 hn, hag₂ e hl.has_exit, he'] at hq
      exact hq

end

end

end Workbench.Flow
