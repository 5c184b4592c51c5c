import Workbench.Proofs.Flow.Quoting
import Workbench.Proofs.World.Session

/-!
# Words, signs and quoted texts

How a rendering is cut into tokens: blanks separate, some characters are signs of their own, a text in
quotes is one token, and whatever else stands together is a word. A piece of text lexes to some tokens
if it does so wherever it stands between others.
-/

namespace Workbench.Flow

inductive Token where
  | sign (c : Char)
  | word (s : String)
  | text (s : String)
deriving DecidableEq, Repr

namespace Lexer

inductive Mode where
  | gap
  | word (seen : List Char)
  | text (seen : List Char)
  -- in a text, after a backslash
  | escape (seen : List Char)
deriving DecidableEq

structure State where
  mode : Mode
  -- the latest first
  tokens : List Token
deriving DecidableEq

variable (signs : List Char)

def ends (c : Char) : Bool := c == ' ' || c == '\n' || c == '"' || signs.contains c

def outside (tokens : List Token) (c : Char) : State :=
  if c = ' ' ∨ c = '\n' then ⟨.gap, tokens⟩
  else if c = '"' then ⟨.text [], tokens⟩
  else if signs.contains c then ⟨.gap, .sign c :: tokens⟩
  else ⟨.word [c], tokens⟩

def step (s : State) (c : Char) : State :=
  match s.mode with
  | .gap => outside signs s.tokens c
  | .word seen =>
    if ends signs c then outside signs (.word (String.ofList seen) :: s.tokens) c
    else ⟨.word (seen ++ [c]), s.tokens⟩
  | .text seen =>
    if c = '"' then ⟨.gap, .text (String.ofList seen) :: s.tokens⟩
    else if c = '\\' then ⟨.escape seen, s.tokens⟩
    else ⟨.text (seen ++ [c]), s.tokens⟩
  | .escape seen => ⟨.text (seen ++ if c = '"' then ['"'] else ['\\', c]), s.tokens⟩

def lex (text : String) : Option (List Token) :=
  match text.toList.foldl (step signs) ⟨.gap, []⟩ with
  | ⟨.gap, tokens⟩ => some tokens.reverse
  | ⟨.word seen, tokens⟩ => some (.word (String.ofList seen) :: tokens).reverse
  | _ => none

/-- The piece of text gives the tokens, whatever was read before it. -/
def Lexes (s : String) (ts : List Token) : Prop :=
  ∀ before, s.toList.foldl (step signs) ⟨.gap, before⟩ = ⟨.gap, ts.reverse ++ before⟩

variable {signs} {s t : String} {ts us : List Token}

theorem Lexes.append (hs : Lexes signs s ts) (ht : Lexes signs t us) :
    Lexes signs (s ++ t) (ts ++ us) := by
  intro before
  rw [String.toList_append, List.foldl_append, hs, ht, List.reverse_append, List.append_assoc]

variable (signs) in
theorem foldl_frame (l : List Char) (m : Mode) (first before : List Token) :
    l.foldl (step signs) ⟨m, first ++ before⟩ =
      ⟨(l.foldl (step signs) ⟨m, first⟩).mode, (l.foldl (step signs) ⟨m, first⟩).tokens ++ before⟩ := by
  have hout : ∀ first c, outside signs (first ++ before) c =
      ⟨(outside signs first c).mode, (outside signs first c).tokens ++ before⟩ := by
    intro first c
    unfold outside
    split
    · rfl
    · split
      · rfl
      · split
        · rfl
        · rfl
  have hstep : ∀ m first c, step signs ⟨m, first ++ before⟩ c =
      ⟨(step signs ⟨m, first⟩ c).mode, (step signs ⟨m, first⟩ c).tokens ++ before⟩ := by
    intro m first c
    cases m with
    | gap => exact hout first c
    | word seen =>
      simp only [step]
      split
      · exact hout (_ :: first) c
      · rfl
    | text seen =>
      simp only [step]
      split
      · rfl
      · split
        · rfl
        · rfl
    | escape seen => rfl
  induction l generalizing m first with
  | nil => rfl
  | cons c l ih =>
    rw [List.foldl_cons, List.foldl_cons, hstep, ih]

theorem Lexes.of_alone {l : List Char} (h : l.foldl (step signs) ⟨.gap, []⟩ = ⟨.gap, ts.reverse⟩) :
    Lexes signs (String.ofList l) ts := by
  intro before
  have hframe := foldl_frame signs l .gap [] before
  rw [h] at hframe
  rwa [String.toList_ofList]

theorem Lexes.lines {α : Type} {l : List α} {line : α → String} {g : α → List Token}
    (h : ∀ a ∈ l, Lexes signs (line a ++ "\n") (g a)) :
    Lexes signs (printed (l.map line)) (l.flatMap g) := by
  induction l with
  | nil => exact fun _ => rfl
  | cons a l ih =>
    rw [List.map_cons, printed_cons, List.flatMap_cons]
    exact (h a List.mem_cons_self).append (ih fun b hb => h b (List.mem_cons_of_mem a hb))

theorem Lexes.lex_eq (h : Lexes signs s ts) : lex signs s = some ts := by
  rw [lex, h []]
  simp

/-! ## Words -/

theorem foldl_word {w seen : List Char} {before : List Token} (hw : ∀ c ∈ w, ends signs c = false) :
    w.foldl (step signs) ⟨.word seen, before⟩ = ⟨.word (seen ++ w), before⟩ := by
  induction w generalizing seen with
  | nil => rw [List.append_nil]; rfl
  | cons c w ih =>
    have hc : step signs ⟨.word seen, before⟩ c = ⟨.word (seen ++ [c]), before⟩ := by
      simp [step, hw c List.mem_cons_self]
    rw [List.foldl_cons, hc, ih fun d hd => hw d (List.mem_cons_of_mem c hd), List.append_assoc,
      List.singleton_append]

variable (signs) in
def IsWord (s : String) : Prop := s ≠ "" ∧ ∀ c ∈ s.toList, ends signs c = false

theorem IsWord.foldl (hs : IsWord signs s) (before : List Token) :
    s.toList.foldl (step signs) ⟨.gap, before⟩ = ⟨.word s.toList, before⟩ := by
  obtain ⟨hne, hs⟩ := hs
  cases hl : s.toList with
  | nil => exact absurd (String.toList_eq_nil_iff.1 hl) hne
  | cons c w =>
    rw [hl] at hs
    have hc := hs c List.mem_cons_self
    simp only [ends, Bool.or_eq_false_iff, beq_eq_false_iff_ne, List.contains_eq_mem,
      decide_eq_false_iff_not] at hc
    obtain ⟨⟨⟨h₁, h₂⟩, h₃⟩, h₄⟩ := hc
    have hfirst : step signs ⟨.gap, before⟩ c = ⟨.word [c], before⟩ := by
      simp [step, outside, h₁, h₂, h₃, h₄]
    rw [List.foldl_cons, hfirst, foldl_word fun d hd => hs d (List.mem_cons_of_mem c hd)]
    rfl

theorem Lexes.word_blank (hs : IsWord signs s) : Lexes signs (s ++ " ") [.word s] := by
  intro before
  rw [String.toList_append, List.foldl_append, hs.foldl]
  simp [step, ends, outside]

theorem Lexes.word_sign (hs : IsWord signs s) {c : Char} (hc : c ∈ signs)
    (hb : c ≠ ' ' ∧ c ≠ '\n' ∧ c ≠ '"') :
    Lexes signs (s ++ String.singleton c) [.word s, .sign c] := by
  intro before
  rw [String.toList_append, List.foldl_append, hs.foldl]
  simp [step, ends, outside, hc, hb]

theorem Lexes.blanks (n : Nat) : Lexes signs (String.ofList (List.replicate n ' ')) [] := by
  intro before
  rw [String.toList_ofList]
  induction n with
  | zero => rfl
  | succ n ih => exact ih

theorem Lexes.padded (hs : IsWord signs s) (width : Nat) :
    Lexes signs (Text.padRight width s ++ " ") [.word s] := by
  have hswap : Text.padRight width s ++ " " =
      s ++ " " ++ String.ofList (List.replicate (width - s.length) ' ') := by
    apply String.toList_inj.1
    simp only [Text.padRight, String.toList_append, String.toList_ofList, List.append_assoc]
    exact congrArg (s.toList ++ ·) (List.replicate_succ' ..).symm
  rw [hswap]
  exact (Lexes.word_blank hs).append (.blanks _)

/-! ## Quoted texts -/

def Mode.within (escaped : Bool) (seen : List Char) : Mode :=
  if escaped then .escape seen else .text seen

theorem foldl_text {l : List Char} {b e : Bool} (seen : List Char) (before : List Token)
    (h : Quoting.scan true b l = some e) :
    ∃ seen', l.foldl (step signs) ⟨.within b seen, before⟩ = ⟨.within e seen', before⟩ ∧
      seen' ++ (if e then ['\\'] else []) = seen ++ Quoting.unescape b l := by
  -- the flag of the scan is the mode of the lexer
  induction l generalizing b seen with
  | nil =>
    obtain rfl : b = e := by simpa [Quoting.scan] using h
    refine ⟨seen, rfl, ?_⟩
    cases b <;> rfl
  | cons c l ih =>
    rw [List.foldl_cons]
    rw [Quoting.scan] at h
    by_cases hc : c = '\\'
    · subst hc
      rw [if_pos rfl] at h
      cases b with
      | false =>
        obtain ⟨seen', h₁, h₂⟩ := ih (b := true) seen h
        exact ⟨seen', h₁, by simpa [Quoting.unescape] using h₂⟩
      | true =>
        obtain ⟨seen', h₁, h₂⟩ := ih (b := false) (seen ++ ['\\', '\\']) h
        exact ⟨seen', h₁, by simpa [Quoting.unescape] using h₂⟩
    · rw [if_neg hc] at h
      by_cases hq : c = '"'
      · subst hq
        cases b with
        | false => simp at h
        | true =>
          obtain ⟨seen', h₁, h₂⟩ := ih (b := false) (seen ++ ['"']) (by simpa using h)
          exact ⟨seen', h₁, by simpa [Quoting.unescape] using h₂⟩
      · have h' : Quoting.scan true false l = some e := by simpa [hq] using h
        cases b with
        | false =>
          obtain ⟨seen', h₁, h₂⟩ := ih (seen ++ [c]) h'
          refine ⟨seen', ?_, by simpa [Quoting.unescape, hc] using h₂⟩
          simpa [step, Mode.within, hc, hq] using h₁
        | true =>
          obtain ⟨seen', h₁, h₂⟩ := ih (seen ++ ['\\', c]) h'
          refine ⟨seen', ?_, by simpa [Quoting.unescape, hq] using h₂⟩
          simpa [step, Mode.within, hq] using h₁

theorem Lexes.quoted (h : Quoting.Sealed s.toList) :
    Lexes signs ("\"" ++ s ++ "\"") [.text (String.ofList (Quoting.unescape false s.toList))] := by
  intro before
  obtain ⟨seen, h₁, h₂⟩ := foldl_text [] before (Quoting.sealed_iff.1 h)
  obtain rfl : seen = Quoting.unescape false s.toList := by simpa using h₂
  have hopen : step signs ⟨.gap, before⟩ '"' = ⟨.within false [], before⟩ := rfl
  simp only [String.toList_append, List.foldl_append]
  change List.foldl (step signs) (s.toList.foldl (step signs) (step signs ⟨.gap, before⟩ '"')) ['"'] = _
  rw [hopen, h₁]
  rfl

end Lexer

/-! ## Names -/

def startsName (c : Char) : Bool := c.isAlpha || c == '_' || decide (127 < c.toNat)

def inName (c : Char) : Bool := startsName c || c.isDigit

def isName (s : String) : Bool := s.toList.head?.any startsName && s.toList.all inName

theorem isWord_of_isName {signs : List Char} (hsigns : signs.all (fun c => !inName c) = true) {s : String}
    (hs : isName s = true) : Lexer.IsWord signs s := by
  rw [isName, Bool.and_eq_true] at hs
  obtain ⟨hhead, hall⟩ := hs
  refine ⟨fun he => ?_, fun c hc => ?_⟩
  · rw [he] at hhead
    cases hhead
  · have hin : inName c = true := List.all_eq_true.1 hall c hc
    have hnot : ∀ d, inName d = false → c ≠ d := fun d hd he => by
      rw [he, hd] at hin
      cases hin
    have hsign : c ∉ signs := fun hmem => by
      have h := List.all_eq_true.1 hsigns c hmem
      rw [hin] at h
      cases h
    simp [Lexer.ends, hsign, hnot ' ' (by decide), hnot '\n' (by decide), hnot '"' (by decide)]

/-! ## Edges -/

def Graph.Arrow.seenLabel (a : Graph.Arrow) : String :=
  String.ofList (Quoting.unescape false a.label.toList)

def Graph.Arrow.seen (a : Graph.Arrow) : String × String × String :=
  (a.source.id, a.target.id, a.seenLabel)

end Workbench.Flow
