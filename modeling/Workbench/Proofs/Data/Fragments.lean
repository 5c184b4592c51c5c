import Workbench.Proofs.Data.Spelling

/-!
# Fragments of a text

Where a text of tokens is cut at a character that stands only between quotes, the reader of a later
piece takes texts for what lies between them, and what lies between them for texts. Of two texts side
by side a mark stands between, so each text it finds holds a mark, and no field that it reads has a
name without one.
-/

namespace Workbench.Json

/-! ## Names of fields -/

theorem get?_set_of_ne {key name : String} (h : key ≠ name) (v : Value) (fields : Fields) :
    Fields.get? name (Fields.set key v fields) = Fields.get? name fields := by
  induction fields with
  | nil => simp [Fields.set, Fields.get?, h]
  | cons p fields ih =>
    obtain ⟨k, w⟩ := p
    unfold Fields.get? at ih ⊢
    by_cases hk : k = key
    · simp [Fields.set, hk, h]
    · by_cases hn : k = name
      · subst hn
        simp [Fields.set, hk]
      · simp [Fields.set, hk, hn, ih]

def Frame.Lacks (name : String) : Frame → Prop
  | .list _ => True
  | .dict fields key => key ≠ name ∧ Fields.get? name fields = none

structure Machine.Lacks (name : String) (m : Machine) : Prop where
  frames : ∀ f ∈ m.frames, f.Lacks name
  result : ∀ v, m.want = .nothing v → v.field? name = none

section
variable {name : String}

theorem field?_of_number? {s : List Char} {v : Value} (h : number? s = some v) :
    v.field? name = none := by
  unfold number? at h
  split at h
  split at h
  split at h
  · cases h
  split at h
  · cases h
    rfl
  · split at h
    split at h
    · cases h
    · obtain ⟨e, _, rfl⟩ := Option.map_eq_some_iff.1 h
      rfl
  · obtain ⟨e, _, rfl⟩ := Option.map_eq_some_iff.1 h
    rfl

theorem field?_of_word {limits : Limits} {w : List Char} {v : Value} (h : word limits w = .ok v) :
    v.field? name = none := by
  unfold word at h
  repeat' split at h
  all_goals cases h
  any_goals rfl
  next hnumber => exact field?_of_number? hnumber

theorem lacks_open {fs : List Frame} {want : Want} (hfs : ∀ f ∈ fs, f.Lacks name)
    (hwant : ∀ v, want ≠ .nothing v) : (Machine.mk fs want).Lacks name :=
  ⟨hfs, fun v hv => absurd hv (hwant v)⟩

theorem lacks_deliver {v : Value} (hv : v.field? name = none) {fs : List Frame}
    (hfs : ∀ f ∈ fs, f.Lacks name) : (Machine.deliver v fs).Lacks name := by
  cases fs with
  | nil =>
    refine ⟨hfs, ?_⟩
    intro w hw
    cases hw
    exact hv
  | cons f fs =>
    obtain ⟨hf, hrest⟩ := List.forall_mem_cons.1 hfs
    cases f with
    | list items => exact lacks_open (List.forall_mem_cons.2 ⟨trivial, hrest⟩) nofun
    | dict fields key =>
      have hset := (get?_set_of_ne hf.1 v fields).trans hf.2
      exact lacks_open (List.forall_mem_cons.2 ⟨⟨hf.1, hset⟩, hrest⟩) nofun

theorem lacks_enter {limits : Limits} {fs : List Frame} {f : Frame} {want : Want} {m : Machine}
    (h : Machine.enter limits fs f want = .ok m) (hf : f.Lacks name) (hfs : ∀ f ∈ fs, f.Lacks name)
    (hwant : ∀ v, want ≠ .nothing v) : m.Lacks name := by
  unfold Machine.enter at h
  split at h
  · cases h
  · cases h
    exact lacks_open (List.forall_mem_cons.2 ⟨hf, hfs⟩) hwant

theorem lacks_key {fs r : List Frame} {fields : Fields} {key s : String} {m : Machine}
    (hfs : ∀ f ∈ fs, f.Lacks name) (h : fs = .dict fields key :: r) (hs : Token.text s ≠ .text name)
    (hm : .ok ⟨.dict fields s :: r, .colon⟩ = (.ok m : Except Fault Machine)) : m.Lacks name := by
  subst h
  cases hm
  obtain ⟨hdict, hr⟩ := List.forall_mem_cons.1 hfs
  have hname : s ≠ name := fun h => hs (h ▸ rfl)
  exact lacks_open (List.forall_mem_cons.2 ⟨⟨hname, hdict.2⟩, hr⟩) nofun

theorem lacks_begin {limits : Limits} {fs : List Frame} {t : Token} {m : Machine}
    (hname : "" ≠ name) (h : Machine.begin limits fs t = .ok m) (hfs : ∀ f ∈ fs, f.Lacks name) :
    m.Lacks name := by
  cases t with
  | text s =>
    cases h
    exact lacks_deliver rfl hfs
  | word w =>
    change (word limits w).map _ = _ at h
    cases hw : word limits w with
    | error fault =>
      rw [hw] at h
      cases h
    | ok v =>
      rw [hw] at h
      cases h
      exact lacks_deliver (field?_of_word hw) hfs
  | listOpen => exact lacks_enter h trivial hfs nofun
  | dictOpen => exact lacks_enter h ⟨hname, rfl⟩ hfs nofun
  | listClose => cases h
  | dictClose => cases h
  | comma => cases h
  | colon => cases h

theorem lacks_close {fs : List Frame} {t : Token} {m : Machine} (h : Machine.close t fs = .ok m)
    (hfs : ∀ f ∈ fs, f.Lacks name) : m.Lacks name := by
  unfold Machine.close at h
  split at h
  · cases h
    exact lacks_deliver rfl fun f hf => hfs f (List.mem_cons_of_mem _ hf)
  · next fields key r =>
    cases h
    have hdict : Frame.Lacks name (.dict fields key) := hfs _ List.mem_cons_self
    exact lacks_deliver (v := .dict fields) hdict.2 fun f hf => hfs f (List.mem_cons_of_mem _ hf)
  · cases h

theorem lacks_step {limits : Limits} {m m' : Machine} {t : Token} (hname : "" ≠ name)
    (hm : m.Lacks name) (ht : t ≠ .text name) (h : m.step limits t = .ok m') : m'.Lacks name := by
  obtain ⟨fs, want⟩ := m
  have hfs : ∀ f ∈ fs, f.Lacks name := hm.frames
  unfold Machine.step at h
  split at h
  · exact lacks_begin hname h hfs
  · exact lacks_close h hfs
  · exact lacks_begin hname h hfs
  · exact lacks_close h hfs
  · next hfields => exact lacks_key hfs hfields ht h
  · next hfields => exact lacks_key hfs hfields ht h
  · cases h
    exact lacks_open hfs nofun
  · next hitems =>
    cases h
    exact lacks_open (hitems ▸ hfs) nofun
  · next hfields =>
    cases h
    exact lacks_open (hfields ▸ hfs) nofun
  · exact lacks_close h hfs
  · cases h

theorem lacks_run {limits : Limits} {m m' : Machine} {ts : List Token} (hname : "" ≠ name)
    (hm : m.Lacks name) (hts : .text name ∉ ts) (h : m.run limits ts = .ok m') : m'.Lacks name := by
  induction ts generalizing m with
  | nil =>
    cases h
    exact hm
  | cons t ts ih =>
    rw [Machine.run] at h
    cases hstep : m.step limits t with
    | error fault =>
      rw [hstep] at h
      cases h
    | ok next =>
      rw [hstep] at h
      have ht : t ≠ .text name := fun ht => hts (ht ▸ List.mem_cons_self)
      exact ih (lacks_step hname hm ht hstep) (fun hin => hts (List.mem_cons_of_mem t hin)) h

theorem read_eq_ok {limits : Limits} {s : String} {v : Value} (h : read limits s = .ok v) :
    (Lexeme.outside.tokens s.toList).2 = true ∧
      ∃ m, (Machine.mk [] .value).run limits (Lexeme.outside.tokens s.toList).1 = .ok m ∧
        m.want = .nothing v := by
  unfold read at h
  change ((Machine.mk [] .value).run limits _).bind _ = _ at h
  cases hrun : (Machine.mk [] .value).run limits (Lexeme.outside.tokens s.toList).1 with
  | error fault =>
    rw [hrun] at h
    cases h
  | ok m =>
    rw [hrun] at h
    dsimp only [Except.bind] at h
    split at h
    · next hwhole hwant =>
      cases h
      exact ⟨hwhole, m, rfl, hwant⟩
    · cases h

/-- A value that is read has no field whose name is not among the texts. -/
theorem field?_of_read {limits : Limits} {s : String} {v : Value} (hname : "" ≠ name)
    (hs : .text name ∉ (Lexeme.outside.tokens s.toList).1) (h : read limits s = .ok v) :
    v.field? name = none := by
  obtain ⟨-, m, hrun, hwant⟩ := read_eq_ok h
  have hstart : (Machine.mk [] .value).Lacks name := lacks_open (List.forall_mem_nil _) nofun
  exact (lacks_run hname hstart hs hrun).result v hwant

end

/-! ## Characters beyond ASCII stand only in texts -/

theorem ne_of_large {c d : Char} (h : 0x7F < c.toNat) (hd : d.toNat ≤ 0x7F) : c ≠ d := by
  rintro rfl
  omega

theorem not_le_of_large {c d : Char} (h : 0x7F < c.toNat) (hd : d.toNat ≤ 0x7F) : ¬c ≤ d := by
  rw [Char.le_def, UInt32.le_iff_toNat_le]
  exact Nat.not_le.2 (Nat.lt_of_le_of_lt hd h)

theorem isBareChar_of_large {c : Char} (h : 0x7F < c.toNat) : isBareChar c = false := by
  have hdigit : c.isAlphanum = false := by
    have hupper : c.isUpper = false := by
      refine decide_eq_false fun hc => ?_
      exact not_le_of_large (d := 'Z') h (by decide) hc.2
    have hlower : c.isLower = false := by
      refine Bool.and_eq_false_iff.2 (.inr (decide_eq_false ?_))
      exact not_le_of_large (d := 'z') h (by decide)
    have hfigure : c.isDigit = false := by
      refine Bool.and_eq_false_iff.2 (.inr (decide_eq_false ?_))
      exact not_le_of_large (d := '9') h (by decide)
    change (c.isUpper || c.isLower || c.isDigit) = false
    rw [hupper, hlower, hfigure]
    rfl
  have hminus : c ≠ '-' := ne_of_large h (by decide)
  have hplus : c ≠ '+' := ne_of_large h (by decide)
  have hpoint : c ≠ '.' := ne_of_large h (by decide)
  simp [isBareChar, hdigit, hminus, hplus, hpoint]

theorem mark?_of_large {c : Char} (h : 0x7F < c.toNat) : mark? c = none := by
  unfold mark?
  split
  all_goals first | rfl | exact absurd h (by decide)

theorem openLexeme_of_large {c : Char} (h : 0x7F < c.toNat) : openLexeme c = ([], none) := by
  have hblank : ¬IsBlank c := by
    rintro (rfl | rfl | rfl | rfl) <;> exact absurd h (by decide)
  have hquote : c ≠ '"' := ne_of_large h (by decide)
  calc openLexeme c
    _ = _ := if_neg hblank
    _ = _ := if_neg hquote
    _ = _ := if_neg (by rw [isBareChar_of_large h]; exact Bool.false_ne_true)
    _ = ([], none) := by rw [mark?_of_large h]

theorem escaped?_of_large {c : Char} (h : 0x7F < c.toNat) : escaped? c = none := by
  unfold escaped?
  split
  all_goals first | rfl | exact absurd h (by decide)

theorem hexValue?_of_large {c : Char} (h : 0x7F < c.toNat) : hexValue? c = none := by
  unfold hexValue?
  rw [if_neg fun hc => not_le_of_large h (by decide) hc.2,
    if_neg fun hc => not_le_of_large h (by decide) hc.2,
    if_neg fun hc => not_le_of_large h (by decide) hc.2]

theorem inText_of_large {s : Lexeme} {c : Char} {r : List Char} (h : 0x7F < c.toNat)
    (hs : (s.tokens (c :: r)).2 = true) : ∃ seen, s = .text seen := by
  have hstuck : (∃ ts, s.take c = (ts, none)) → False := by
    rintro ⟨ts, htake⟩
    rw [Lexeme.tokens_stuck htake] at hs
    cases hs
  cases s with
  | outside => exact (hstuck ⟨_, openLexeme_of_large h⟩).elim
  | word seen =>
    refine (hstuck ⟨[.word seen.reverse], ?_⟩).elim
    simp [Lexeme.take, isBareChar_of_large h, openLexeme_of_large h]
  | text seen => exact ⟨seen, rfl⟩
  | escape seen =>
    have hu : c ≠ 'u' := ne_of_large h (by decide)
    refine (hstuck ⟨[], ?_⟩).elim
    simp [Lexeme.take, hu, escaped?_of_large h]
  | hex seen need code =>
    refine (hstuck ⟨[], ?_⟩).elim
    simp [Lexeme.take, hexValue?_of_large h]

/-! ## Two readers, one inside of texts where the other is outside -/

inductive Lexeme.Between : Lexeme → Prop where
  | outside : Between .outside
  | word (seen : List Char) : Between (.word seen)

theorem Lexeme.between_iff {s : Lexeme} : s.Between ↔ s = .outside ∨ ∃ seen, s = .word seen := by
  constructor
  · rintro (_ | seen)
    · exact .inl rfl
    · exact .inr ⟨seen, rfl⟩
  · rintro (rfl | ⟨seen, rfl⟩)
    · exact .outside
    · exact .word seen

def HoldsMark (l : List Char) : Prop := ∃ c ∈ l, (mark? c).isSome = true

/-- One reader is inside of a text where the other, which has still to find some tokens, is outside.
What the latter takes for a text has a mark in it, or the other has just ended one. -/
inductive Opposed : Lexeme → List Token → Lexeme → Prop where
  | inside {seen : List Nat} {ts : List Token} {f : Lexeme} :
      f.Between → Opposed (.text seen) ts f
  | between {t : Lexeme} {ts : List Token} {gap : List Char} :
      t.Between → (HoldsMark gap ∨ ∃ x : Token, ¬x.IsMark ∧ Apart (x :: ts)) →
      Opposed t ts (.text (gap.map Char.toNat))

theorem half_char_toNat (c : Char) :
    Half.isHigh c.toNat = false ∧ Half.isLow c.toNat = false ∧ Half.char c.toNat = c := by
  have hvalid : c.toNat < 0xd800 ∨ 0xdfff < c.toNat ∧ c.toNat < 0x110000 := c.valid
  have hhigh : Half.isHigh c.toNat = false := by
    simp only [Half.isHigh, Bool.and_eq_false_iff, decide_eq_false_iff_not]
    omega
  have hlow : Half.isLow c.toNat = false := by
    simp only [Half.isLow, Bool.and_eq_false_iff, decide_eq_false_iff_not]
    omega
  refine ⟨hhigh, hlow, ?_⟩
  simp [Half.char, hhigh, hlow]

theorem join_map_toNat (l : List Char) : Half.join (l.map Char.toNat) = l := by
  induction l with
  | nil => rfl
  | cons c l ih =>
    cases l with
    | nil => simp [Half.join, half_char_toNat]
    | cons d l =>
      simp only [List.map_cons] at ih ⊢
      simp [Half.join, half_char_toNat, ih]

theorem ne_of_isBareChar {c : Char} (h : isBareChar c = true) : c ≠ '"' ∧ c ≠ '\\' := by
  constructor <;> rintro rfl <;> cases h

theorem ne_of_mark? {c : Char} {t : Token} (h : mark? c = some t) : c ≠ '"' ∧ c ≠ '\\' := by
  constructor <;> rintro rfl <;> cases h

theorem openLexeme_next {c : Char} {f : Lexeme} (h : (openLexeme c).2 = some f) :
    c = '"' ∧ f = .text [] ∨ (c ≠ '"' ∧ c ≠ '\\') ∧ f.Between := by
  unfold openLexeme at h
  split at h
  · next hblank =>
    cases h
    obtain rfl | rfl | rfl | rfl := hblank <;> exact Or.inr ⟨by decide, .outside⟩
  · split at h
    · next hquote =>
      cases h
      exact Or.inl ⟨hquote, rfl⟩
    · split at h
      · next hbare =>
        cases h
        exact Or.inr ⟨ne_of_isBareChar hbare, .word [c]⟩
      · split at h
        · next hmark =>
          cases h
          exact Or.inr ⟨ne_of_mark? hmark, .outside⟩
        · cases h

theorem mem_openLexeme {c : Char} {t : Token} (h : t ∈ (openLexeme c).1) : mark? c = some t := by
  unfold openLexeme at h
  split at h
  · cases h
  · split at h
    · cases h
    · split at h
      · cases h
      · split at h
        · next hmark => rw [hmark, List.mem_singleton.1 h]
        · cases h

theorem take_next {f f' : Lexeme} {c : Char} (hf : f.Between) (h : (f.take c).2 = some f') :
    c = '"' ∧ f' = .text [] ∨ (c ≠ '"' ∧ c ≠ '\\') ∧ f'.Between := by
  cases hf with
  | outside => exact openLexeme_next h
  | word seen =>
    cases hbare : isBareChar c with
    | true =>
      rw [Lexeme.take, if_pos hbare] at h
      cases h
      exact Or.inr ⟨ne_of_isBareChar hbare, .word _⟩
    | false =>
      rw [take_word hbare] at h
      exact openLexeme_next h

theorem mem_take {f : Lexeme} {c : Char} {t : Token} (hf : f.Between) (h : t ∈ (f.take c).1) :
    mark? c = some t ∨ ∃ w, t = .word w := by
  cases hf with
  | outside => exact Or.inl (mem_openLexeme h)
  | word seen =>
    cases hbare : isBareChar c with
    | true =>
      rw [Lexeme.take, if_pos hbare] at h
      cases h
    | false =>
      rw [take_word hbare] at h
      cases h with
      | head => exact Or.inr ⟨_, rfl⟩
      | tail _ h => exact Or.inl (mem_openLexeme h)

theorem isMark_of_mark? {c : Char} {t : Token} (h : mark? c = some t) : t.IsMark := by
  unfold mark? at h
  split at h <;> cases h <;> trivial

theorem not_text_of_between {f : Lexeme} {c : Char} (hf : f.Between) (s : String) :
    .text s ∉ (f.take c).1 := by
  intro h
  cases mem_take hf h with
  | inl hmark => exact isMark_of_mark? hmark
  | inr hword =>
    obtain ⟨w, hw⟩ := hword
    cases hw

theorem take_inside {s s' : Lexeme} {c : Char} {ts : List Token} (hs : ¬s.Between)
    (h : s.take c = (ts, some s')) : (∃ u, ts = [.text u]) ∨ ts = [] ∧ ¬s'.Between := by
  cases s with
  | outside => exact absurd .outside hs
  | word seen => exact absurd (.word seen) hs
  | text seen =>
    rw [Lexeme.take] at h
    split at h
    · cases h
      exact Or.inl ⟨_, rfl⟩
    · split at h
      · cases h
        exact Or.inr ⟨rfl, by simp [Lexeme.between_iff]⟩
      · split at h
        · cases h
        · cases h
          exact Or.inr ⟨rfl, by simp [Lexeme.between_iff]⟩
  | escape seen =>
    rw [Lexeme.take] at h
    split at h
    · cases h
      exact Or.inr ⟨rfl, by simp [Lexeme.between_iff]⟩
    · obtain ⟨hts, hs'⟩ := Prod.mk.inj h
      obtain ⟨d, -, rfl⟩ := Option.map_eq_some_iff.1 hs'
      exact Or.inr ⟨hts.symm, by simp [Lexeme.between_iff]⟩
  | hex seen need code =>
    obtain ⟨hts, hs'⟩ := Prod.mk.inj h
    obtain ⟨d, -, rfl⟩ := Option.map_eq_some_iff.1 hs'
    refine Or.inr ⟨hts.symm, ?_⟩
    by_cases hneed : need ≤ 1
    · simp [hneed, Lexeme.between_iff]
    · simp [hneed, Lexeme.between_iff]

/-- A reader inside of a text that comes to its end ends the text first. -/
theorem head_of_inside {s : Lexeme} {r : List Char} {ts : List Token} (hs : ¬s.Between)
    (h : s.tokens r = (ts, true)) : ∃ u us, ts = .text u :: us := by
  induction r generalizing s ts with
  | nil =>
    cases s with
    | outside => exact absurd .outside hs
    | word seen => exact absurd (.word seen) hs
    | text seen => cases h
    | escape seen => cases h
    | hex seen need code => cases h
  | cons c r ih =>
    match htake : s.take c with
    | (us, none) =>
      rw [Lexeme.tokens_stuck htake] at h
      cases h
    | (us, some s') =>
      rw [Lexeme.tokens_cons htake] at h
      obtain ⟨hts, hend⟩ := Prod.mk.inj h
      cases take_inside hs htake with
      | inl hus =>
        obtain ⟨u, rfl⟩ := hus
        exact ⟨u, _, hts.symm⟩
      | inr hus =>
        obtain ⟨rfl, hs'⟩ := hus
        exact ih hs' (Prod.ext hts hend)

theorem Apart.head {x t : Token} {ts : List Token} (h : Apart (x :: t :: ts)) (hx : ¬x.IsMark) :
    t.IsMark :=
  (List.isChain_cons_cons.1 h).1.resolve_left hx

/-- Outside of texts, the first token behind a text or a word is a mark. -/
theorem mark?_of_apart {t s : Lexeme} {c : Char} {x y : Token} {ts us : List Token} (ht : t.Between)
    (htake : t.take c = (y :: ts, some s)) (hx : ¬x.IsMark) (hapart : Apart (x :: y :: us)) :
    mark? c = some y := by
  have hy : y ∈ (t.take c).1 := by
    rw [htake]
    exact List.mem_cons_self
  cases mem_take ht hy with
  | inl hmark => exact hmark
  | inr hword =>
    obtain ⟨w, rfl⟩ := hword
    exact (hapart.head hx).elim

theorem holdsMark_of_quote {t : Lexeme} {gap r : List Char} {ts us : List Token} (ht : t.Between)
    (htake : t.take '"' = (ts, some (.text []))) (hrest : (Lexeme.text []).tokens r = (us, true))
    (h : HoldsMark gap ∨ ∃ x : Token, ¬x.IsMark ∧ Apart (x :: (ts ++ us))) : HoldsMark gap := by
  cases h with
  | inl h => exact h
  | inr h =>
    obtain ⟨x, hx, hapart⟩ := h
    obtain ⟨u, vs, rfl⟩ := @head_of_inside (.text []) r us nofun hrest
    cases ts with
    | nil => exact (hapart.head hx).elim
    | cons y ts => cases mark?_of_apart ht htake hx hapart

theorem holdsMark_cons {t t' : Lexeme} {c : Char} {gap : List Char} {ts us : List Token}
    (ht : t.Between) (htake : t.take c = (ts, some t'))
    (h : HoldsMark gap ∨ ∃ x : Token, ¬x.IsMark ∧ Apart (x :: (ts ++ us))) :
    HoldsMark (c :: gap) ∨ ∃ x : Token, ¬x.IsMark ∧ Apart (x :: us) := by
  cases h with
  | inl h =>
    obtain ⟨d, hd, hmark⟩ := h
    exact Or.inl ⟨d, List.mem_cons_of_mem c hd, hmark⟩
  | inr h =>
    obtain ⟨x, hx, hapart⟩ := h
    cases ts with
    | nil => exact Or.inr ⟨x, hx, hapart⟩
    | cons y ts =>
      have hmark := mark?_of_apart ht htake hx hapart
      exact Or.inl ⟨c, List.mem_cons_self, by rw [hmark]; rfl⟩

theorem Opposed.step {t t' f : Lexeme} {c : Char} {r : List Char} {ts us : List Token}
    (h : Opposed t (ts ++ us) f) (htake : t.take c = (ts, some t')) (hrest : t'.tokens r = (us, true))
    (hapart : Apart (ts ++ us)) :
    (∀ s, .text s ∈ (f.take c).1 → HoldsMark s.toList) ∧
      ∀ f', (f.take c).2 = some f' → Opposed t' us f' := by
  cases h with
  | inside hf =>
    refine ⟨fun s hs => absurd hs (not_text_of_between hf s), ?_⟩
    intro f' hf'
    cases take_next hf hf' with
    | inl hc =>
      obtain ⟨rfl, rfl⟩ := hc
      cases htake
      exact @Opposed.between _ _ [] .outside (Or.inr ⟨_, id, hapart⟩)
    | inr hc =>
      obtain ⟨⟨hquote, hback⟩, hbetween⟩ := hc
      rw [Lexeme.take, if_neg hquote, if_neg hback] at htake
      split at htake
      · cases htake
      · cases htake
        exact .inside hbetween
  | @between _ _ gap ht hgap =>
    cases take_next ht (congrArg Prod.snd htake) with
    | inl hc =>
      obtain ⟨rfl, rfl⟩ := hc
      have hmark := holdsMark_of_quote ht htake hrest hgap
      constructor
      · intro s hs
        rw [Lexeme.take, if_pos rfl, List.mem_singleton, ← List.map_reverse, join_map_toNat] at hs
        cases hs
        obtain ⟨d, hd, hmark⟩ := hmark
        exact ⟨d, by simpa using hd, hmark⟩
      · intro f' hf'
        cases hf'
        exact .inside .outside
    | inr hc =>
      obtain ⟨⟨hquote, hback⟩, ht'⟩ := hc
      rw [Lexeme.take, if_neg hquote, if_neg hback]
      split
      · exact ⟨by simp, by simp⟩
      · refine ⟨by simp, ?_⟩
        intro f' hf'
        cases hf'
        exact @Opposed.between _ _ (c :: gap) ht' (holdsMark_cons ht htake hgap)

theorem Opposed.run {t f : Lexeme} {l r : List Char} {ts : List Token} (h : Opposed t ts f)
    (htokens : t.tokens (l ++ r) = (ts, true)) (hapart : Apart ts) :
    ∀ s, .text s ∈ (f.tokens l).1 → HoldsMark s.toList := by
  induction l generalizing t f ts with
  | nil =>
    intro s hs
    cases f <;> simp [Lexeme.tokens] at hs
  | cons c l ih =>
    intro s hs
    rcases htake : t.take c with ⟨us, _ | t'⟩
    · rw [List.cons_append, Lexeme.tokens_stuck htake] at htokens
      cases htokens
    · rw [List.cons_append, Lexeme.tokens_cons htake] at htokens
      obtain ⟨rfl, hwhole⟩ := Prod.mk.inj htokens
      obtain ⟨hnow, hnext⟩ := h.step htake (Prod.ext rfl hwhole) hapart
      rcases hread : f.take c with ⟨vs, _ | f'⟩
      · rw [hread] at hnow
        rw [Lexeme.tokens_stuck hread] at hs
        exact hnow s hs
      · rw [hread] at hnow hnext
        rw [Lexeme.tokens_cons hread] at hs
        cases List.mem_append.1 hs with
        | inl hs => exact hnow s hs
        | inr hs =>
          exact ih (hnext f' rfl) (Prod.ext rfl hwhole) (List.isChain_append.1 hapart).2.1 s hs

/-! ## Pieces of a text that was cut -/

section
variable {l r : List Char} {c : Char} {ts : List Token}

theorem tokens_before_cut (hc : 0x7F < c.toNat)
    (h : (Lexeme.outside.tokens (l ++ c :: r)).2 = true) :
    (Lexeme.outside.tokens l).2 = false := by
  obtain ⟨us, s, hleads⟩ := Lexeme.exists_leads h
  rw [hleads.tokens] at h
  obtain ⟨seen, rfl⟩ := inText_of_large hc h
  have hend := hleads.tokens []
  rw [List.append_nil] at hend
  rw [hend]
  rfl

theorem texts_after_cut (hc : 0x7F < c.toNat) {piece : List Char}
    (h : Lexeme.outside.tokens (l ++ c :: (piece ++ r)) = (ts, true)) (hts : Apart ts) :
    ∀ s, .text s ∈ (Lexeme.outside.tokens piece).1 → HoldsMark s.toList := by
  obtain ⟨us, s, hleads⟩ := Lexeme.exists_leads (congrArg Prod.snd h)
  rw [hleads.tokens] at h
  obtain ⟨rfl, hwhole⟩ := Prod.mk.inj h
  obtain ⟨seen, rfl⟩ := inText_of_large hc hwhole
  have hquote : c ≠ '"' := ne_of_large hc (by decide)
  have hback : c ≠ '\\' := ne_of_large hc (by decide)
  have htake : (Lexeme.text seen).take c = ([], some (.text (c.toNat :: seen))) := by
    simp [Lexeme.take, hquote, hback, show ¬c.toNat < 0x20 by omega]
  rw [Lexeme.tokens_cons htake] at hwhole hts
  exact Opposed.run (.inside .outside) (Prod.ext rfl hwhole) (List.isChain_append.1 hts).2.1

/-- No field of a value that is read behind a cut has a name without a mark. -/
theorem field?_after_cut (hc : 0x7F < c.toNat) {piece : String} {name : String}
    (h : Lexeme.outside.tokens (l ++ c :: (piece.toList ++ r)) = (ts, true)) (hts : Apart ts)
    (hname : ¬HoldsMark name.toList) (hempty : "" ≠ name) {limits : Limits} {v : Value}
    (hread : read limits piece = .ok v) : v.field? name = none :=
  field?_of_read hempty (fun hin => hname (texts_after_cut hc h hts name hin)) hread

end

end Workbench.Json
