import Mathlib.Data.List.Chain
import Mathlib.Tactic.Common
import Workbench.Data.JsonReader

/-!
# Tokens as they are written

A token is a mark, a text between quotes, or a bare word, and blanks may stand around it. Where of two
tokens side by side at least one is a mark, the tokens that are read are those that were written.
-/

namespace Workbench.Json

/-! ## Reading a part of a text -/

namespace Lexeme

/-- A part of a text leads from one state of the reader to another, and some tokens end in it. -/
inductive Leads : Lexeme → List Char → List Token → Lexeme → Prop where
  | nil (s : Lexeme) : Leads s [] [] s
  | cons {s s' s'' : Lexeme} {c : Char} {l : List Char} {ts us : List Token} :
      s.take c = (ts, some s') → Leads s' l us s'' → Leads s (c :: l) (ts ++ us) s''

theorem Leads.single {s s' : Lexeme} {c : Char} {ts : List Token} (h : s.take c = (ts, some s')) :
    Leads s [c] ts s' := by
  have hleads := Leads.cons h (.nil s')
  rwa [List.append_nil] at hleads

theorem Leads.append {s s' s'' : Lexeme} {l r : List Char} {ts us : List Token}
    (hl : Leads s l ts s') (hr : Leads s' r us s'') : Leads s (l ++ r) (ts ++ us) s'' := by
  induction hl with
  | nil => exact hr
  | cons htake _ ih =>
    rw [List.append_assoc]
    exact Leads.cons htake (ih hr)

theorem tokens_cons {s s' : Lexeme} {c : Char} {ts : List Token} (h : s.take c = (ts, some s'))
    (r : List Char) : s.tokens (c :: r) = (ts ++ (s'.tokens r).1, (s'.tokens r).2) := by
  rw [tokens, h]

theorem tokens_stuck {s : Lexeme} {c : Char} {ts : List Token} (h : s.take c = (ts, none))
    (r : List Char) : s.tokens (c :: r) = (ts, false) := by
  rw [tokens, h]

theorem Leads.tokens {s s' : Lexeme} {l : List Char} {ts : List Token} (h : Leads s l ts s')
    (r : List Char) : s.tokens (l ++ r) = (ts ++ (s'.tokens r).1, (s'.tokens r).2) := by
  induction h with
  | nil => rfl
  | cons htake _ ih =>
    rw [List.cons_append, tokens_cons htake, ih]
    simp

theorem exists_leads {s : Lexeme} {l r : List Char} (h : (s.tokens (l ++ r)).2 = true) :
    ∃ ts s', Leads s l ts s' := by
  induction l generalizing s with
  | nil => exact ⟨[], s, .nil s⟩
  | cons c l ih =>
    match htake : s.take c with
    | (ts, none) =>
      rw [List.cons_append, tokens_stuck htake] at h
      cases h
    | (ts, some s') =>
      rw [List.cons_append, tokens_cons htake] at h
      obtain ⟨us, s'', hleads⟩ := ih h
      exact ⟨ts ++ us, s'', .cons htake hleads⟩

end Lexeme

/-! ## Texts between quotes -/

structure HexDigit where
  char : Char
  value : Nat
  isHex : hexValue? char = some value

inductive Glyph where
  | plain (c : Char) (h : 0x20 ≤ c.toNat ∧ c ≠ '"' ∧ c ≠ '\\')
  | short (c d : Char) (h : escaped? c = some d)
  | code (a b c d : HexDigit)

namespace Glyph

def chars : Glyph → List Char
  | .plain c _ => [c]
  | .short c _ _ => ['\\', c]
  | .code a b c d => ['\\', 'u', a.char, b.char, c.char, d.char]

def point : Glyph → Nat
  | .plain c _ => c.toNat
  | .short _ d _ => d.toNat
  | .code a b c d => ((a.value * 16 + b.value) * 16 + c.value) * 16 + d.value

theorem leads (g : Glyph) (seen : List Nat) :
    Lexeme.Leads (.text seen) g.chars [] (.text (g.point :: seen)) := by
  cases g with
  | plain c h =>
    apply Lexeme.Leads.single
    simp [Lexeme.take, h, point]
  | short c d h =>
    have hu : c ≠ 'u' := by
      rintro rfl
      cases h
    apply @Lexeme.Leads.cons _ (.escape seen) _ _ _ [] [] rfl
    apply Lexeme.Leads.single
    simp [Lexeme.take, hu, h, point]
  | code a b c d =>
    apply @Lexeme.Leads.cons _ (.escape seen) _ _ _ [] [] rfl
    apply @Lexeme.Leads.cons _ (.hex seen 4 0) _ _ _ [] [] rfl
    apply @Lexeme.Leads.cons _ (.hex seen 3 a.value) _ _ _ [] [] (by simp [Lexeme.take, a.isHex])
    apply @Lexeme.Leads.cons _ (.hex seen 2 (a.value * 16 + b.value)) _ _ _ [] []
      (by simp [Lexeme.take, b.isHex])
    apply @Lexeme.Leads.cons _ (.hex seen 1 ((a.value * 16 + b.value) * 16 + c.value)) _ _ _ [] []
      (by simp [Lexeme.take, c.isHex])
    apply Lexeme.Leads.single
    simp [Lexeme.take, d.isHex, point]

end Glyph

def said (glyphs : List Glyph) : String := String.ofList (Half.join (glyphs.map Glyph.point))

def spell (s : List Char) (h : s.all fun c => 0x20 ≤ c.toNat ∧ c ≠ '"' ∧ c ≠ '\\') : List Glyph :=
  s.pmap Glyph.plain fun c hc => of_decide_eq_true (List.all_eq_true.1 h c hc)

theorem leads_glyphs (glyphs : List Glyph) (seen : List Nat) :
    Lexeme.Leads (.text seen) (glyphs.flatMap Glyph.chars) []
      (.text ((glyphs.map Glyph.point).reverse ++ seen)) := by
  induction glyphs generalizing seen with
  | nil => exact .nil _
  | cons g glyphs ih =>
    have hrest := ih (g.point :: seen)
    rw [List.flatMap_cons, List.map_cons, List.reverse_cons, List.append_assoc]
    exact (g.leads seen).append hrest

/-! ## Tokens -/

inductive Symbol where
  | mark (c : Char) (t : Token) (h : mark? c = some t)
  | quoted (glyphs : List Glyph)
  | bare (w : List Char) (h : w ≠ [] ∧ ∀ c ∈ w, isBareChar c = true)

namespace Symbol

def chars : Symbol → List Char
  | .mark c _ _ => [c]
  | .quoted glyphs => '"' :: (glyphs.flatMap Glyph.chars ++ ['"'])
  | .bare w _ => w

def token : Symbol → Token
  | .mark _ t _ => t
  | .quoted glyphs => .text (said glyphs)
  | .bare w _ => .word w

end Symbol

def IsBlank (c : Char) : Prop := c = ' ' ∨ c = '\t' ∨ c = '\n' ∨ c = '\r'

/-- Some tokens are written one after another, with blanks anywhere around them. -/
inductive Spaced : List Symbol → List Char → Prop where
  | nil {blanks : List Char} : (∀ c ∈ blanks, IsBlank c) → Spaced [] blanks
  | cons {blanks : List Char} (p : Symbol) {ps : List Symbol} {l : List Char} :
      (∀ c ∈ blanks, IsBlank c) → Spaced ps l → Spaced (p :: ps) (blanks ++ (p.chars ++ l))

theorem spaced_flatMap (ps : List Symbol) : Spaced ps (ps.flatMap Symbol.chars) := by
  induction ps with
  | nil => exact .nil (List.forall_mem_nil _)
  | cons p ps ih =>
    rw [List.flatMap_cons]
    exact .cons p (List.forall_mem_nil _) ih

theorem take_of_isBlank {c : Char} (h : IsBlank c) :
    Lexeme.outside.take c = ([], some .outside) :=
  if_pos h

theorem take_of_mark {c : Char} {t : Token} (h : mark? c = some t) :
    Lexeme.outside.take c = ([t], some .outside) := by
  unfold mark? at h
  split at h <;> cases h <;> rfl

theorem isBareChar_of_isBlank {c : Char} (h : IsBlank c) : isBareChar c = false := by
  obtain rfl | rfl | rfl | rfl := h <;> rfl

theorem isBareChar_of_mark {c : Char} {t : Token} (h : mark? c = some t) : isBareChar c = false := by
  unfold mark? at h
  split at h <;> cases h <;> rfl

theorem take_of_isBareChar {c : Char} (h : isBareChar c = true) :
    Lexeme.outside.take c = ([], some (.word [c])) := by
  have hblank : ¬IsBlank c := fun hc => by
    rw [isBareChar_of_isBlank hc] at h
    cases h
  have hquote : c ≠ '"' := by
    rintro rfl
    cases h
  calc openLexeme c
    _ = _ := if_neg hblank
    _ = _ := if_neg hquote
    _ = _ := if_pos h

theorem leads_blanks {blanks : List Char} (h : ∀ c ∈ blanks, IsBlank c) :
    Lexeme.Leads .outside blanks [] .outside := by
  induction blanks with
  | nil => exact .nil _
  | cons c blanks ih =>
    have hc := take_of_isBlank (h c List.mem_cons_self)
    exact .cons hc (ih fun x hx => h x (List.mem_cons_of_mem c hx))

theorem leads_word {w : List Char} (h : ∀ c ∈ w, isBareChar c = true) (seen : List Char) :
    Lexeme.Leads (.word seen) w [] (.word (w.reverse ++ seen)) := by
  induction w generalizing seen with
  | nil => exact .nil _
  | cons c w ih =>
    have hc : (Lexeme.word seen).take c = ([], some (.word (c :: seen))) := by
      simp [Lexeme.take, h c List.mem_cons_self]
    rw [List.reverse_cons, List.append_assoc]
    exact .cons hc (ih (fun x hx => h x (List.mem_cons_of_mem c hx)) (c :: seen))

theorem leads_bare {w : List Char} (h : w ≠ [] ∧ ∀ c ∈ w, isBareChar c = true) :
    Lexeme.Leads .outside w [] (.word w.reverse) := by
  cases w with
  | nil => exact absurd rfl h.1
  | cons c w =>
    rw [List.reverse_cons]
    apply Lexeme.Leads.cons (take_of_isBareChar (h.2 c List.mem_cons_self))
    exact leads_word (fun x hx => h.2 x (List.mem_cons_of_mem c hx)) [c]

theorem leads_quoted (glyphs : List Glyph) :
    Lexeme.Leads .outside (Symbol.quoted glyphs).chars [.text (said glyphs)] .outside := by
  have hend : (Lexeme.text ((glyphs.map Glyph.point).reverse ++ [])).take '"' =
      ([.text (said glyphs)], some .outside) := by
    simp [Lexeme.take, said]
  apply @Lexeme.Leads.cons _ (.text []) _ _ _ [] [.text (said glyphs)] rfl
  exact (leads_glyphs glyphs []).append (.single hend)

theorem take_word {c : Char} (h : isBareChar c = false) (seen : List Char) :
    (Lexeme.word seen).take c = (.word seen.reverse :: (openLexeme c).1, (openLexeme c).2) := by
  simp [Lexeme.take, h]

theorem tokens_word {l : List Char} (h : ∀ c, l.head? = some c → isBareChar c = false)
    (seen : List Char) :
    (Lexeme.word seen).tokens l =
      (.word seen.reverse :: (Lexeme.outside.tokens l).1, (Lexeme.outside.tokens l).2) := by
  cases l with
  | nil => rfl
  | cons c l =>
    have htake := take_word (h c rfl) seen
    match hopen : openLexeme c with
    | (ts, none) =>
      rw [hopen] at htake
      rw [Lexeme.tokens_stuck htake, @Lexeme.tokens_stuck .outside c ts hopen]
    | (ts, some s) =>
      rw [hopen] at htake
      rw [Lexeme.tokens_cons htake, @Lexeme.tokens_cons .outside s c ts hopen]
      rfl

/-! ## Reading what is written -/

def Token.IsMark : Token → Prop
  | .text _ => False
  | .word _ => False
  | _ => True

def Apart (ts : List Token) : Prop := ts.IsChain fun t u => t.IsMark ∨ u.IsMark

theorem Spaced.head {ps : List Symbol} {l : List Char} (h : Spaced ps l)
    (hps : ∀ p, ps.head? = some p → p.token.IsMark) :
    ∀ c, l.head? = some c → isBareChar c = false := by
  intro c hc
  cases h with
  | nil hblanks => exact isBareChar_of_isBlank (hblanks c (List.mem_of_mem_head? hc))
  | @cons blanks p ps l hblanks _ =>
    cases blanks with
    | cons b blanks =>
      cases hc
      exact isBareChar_of_isBlank (hblanks c List.mem_cons_self)
    | nil =>
      cases p with
      | mark d t hd =>
        cases hc
        exact isBareChar_of_mark hd
      | quoted glyphs => exact absurd (hps _ rfl) id
      | bare w hw => exact absurd (hps _ rfl) id

theorem tokens_of_spaced {ps : List Symbol} {l : List Char} (h : Spaced ps l)
    (hps : Apart (ps.map Symbol.token)) : Lexeme.outside.tokens l = (ps.map Symbol.token, true) := by
  induction h with
  | nil hblanks =>
    have hleads := (leads_blanks hblanks).tokens []
    rwa [List.append_nil] at hleads
  | @cons blanks p ps l hblanks hl ih =>
    have hrest := ih hps.tail
    rw [(leads_blanks hblanks).tokens]
    cases p with
    | mark c t hc =>
      rw [Symbol.chars, (Lexeme.Leads.single (take_of_mark hc)).tokens, hrest]
      rfl
    | quoted glyphs =>
      rw [(leads_quoted glyphs).tokens, hrest]
      rfl
    | bare w hw =>
      have hnext : ∀ q, ps.head? = some q → q.token.IsMark := by
        intro q hq
        cases ps with
        | nil => cases hq
        | cons q' ps =>
          cases hq
          exact (List.isChain_cons_cons.1 hps).1.resolve_left id
      rw [Symbol.chars, (leads_bare hw).tokens, tokens_word (hl.head hnext), hrest]
      simp [Symbol.token]

end Workbench.Json
