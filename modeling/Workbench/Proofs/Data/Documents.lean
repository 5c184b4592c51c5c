import Workbench.Proofs.Data.Numerals
import Workbench.Proofs.Data.Spelling

/-!
# Documents as they are written

A document is what the standard's grammar allows: constants, numbers, texts, and lists and dictionaries
of documents. Written down with blanks anywhere between its tokens it is read as the value that it
means, unless it goes beyond the limits of the reading.
-/

namespace Workbench.Json

inductive Document where
  | null
  | bool (b : Bool)
  | number (n : Number)
  | text (glyphs : List Glyph)
  | list (items : List Document)
  | dict (entries : List (List Glyph × Document))

namespace Document

/-! ## What is written -/

def constant (b : Bool) : List Char := if b then "true".toList else "false".toList

mutual

def symbols : Document → List Symbol
  | .null => [.bare "null".toList ⟨by decide, List.all_eq_true.1 rfl⟩]
  | .bool b => [.bare (constant b) ⟨by cases b <;> decide, List.all_eq_true.1 (by cases b <;> rfl)⟩]
  | .number n => [.bare n.chars ⟨n.chars_ne rfl, n.isBareChar_chars⟩]
  | .text glyphs => [.quoted glyphs]
  | .list [] => [.mark '[' .listOpen rfl, .mark ']' .listClose rfl]
  | .list (d :: ds) => .mark '[' .listOpen rfl :: (d.symbols ++ moreItems ds)
  | .dict [] => [.mark '\x7b' .dictOpen rfl, .mark '\x7d' .dictClose rfl]
  | .dict ((k, d) :: es) =>
    .mark '\x7b' .dictOpen rfl :: .quoted k :: .mark ':' .colon rfl :: (d.symbols ++ moreEntries es)

def moreItems : List Document → List Symbol
  | [] => [.mark ']' .listClose rfl]
  | d :: ds => .mark ',' .comma rfl :: (d.symbols ++ moreItems ds)

def moreEntries : List (List Glyph × Document) → List Symbol
  | [] => [.mark '\x7d' .dictClose rfl]
  | (k, d) :: es =>
    .mark ',' .comma rfl :: .quoted k :: .mark ':' .colon rfl :: (d.symbols ++ moreEntries es)

end

/-! ## What is meant -/

mutual

def value : Document → Value
  | .null => .null
  | .bool b => .bool b
  | .number n => n.value
  | .text glyphs => .str (said glyphs)
  | .list items => .list (values items)
  | .dict entries => .dict (fieldsAfter [] entries)

def values : List Document → List Value
  | [] => []
  | d :: ds => d.value :: values ds

/-- The fields once some entries have been added: of two entries with one name the later counts. -/
def fieldsAfter (fields : Fields) : List (List Glyph × Document) → Fields
  | [] => fields
  | (k, d) :: es => fieldsAfter (Fields.set (said k) d.value fields) es

end

/-! ## What a reading puts up with -/

mutual

/-- Whether a document, inside as many lists and dictionaries as the level says, stays within the
limits: no list or dictionary lies too deep and no whole number is too long. -/
def fits (limits : Limits) (level : Nat) : Document → Bool
  | .number n => !isOver limits.digits n.length
  | .list items => !isOver limits.depth (level + 1) && itemsFit limits (level + 1) items
  | .dict entries => !isOver limits.depth (level + 1) && entriesFit limits (level + 1) entries
  | _ => true

def itemsFit (limits : Limits) (level : Nat) : List Document → Bool
  | [] => true
  | d :: ds => d.fits limits level && itemsFit limits level ds

def entriesFit (limits : Limits) (level : Nat) : List (List Glyph × Document) → Bool
  | [] => true
  | (_, d) :: es => d.fits limits level && entriesFit limits level es

end

/-! ## Marks between the other tokens -/

def tokens (d : Document) : List Token := d.symbols.map Symbol.token

theorem apart_cons {t : Token} {ts : List Token} (ht : t.IsMark) (hts : Apart ts) :
    Apart (t :: ts) :=
  List.isChain_cons.2 ⟨fun _ _ => Or.inl ht, hts⟩

theorem apart_cons_cons {t u : Token} {ts : List Token} (hu : u.IsMark) (hts : Apart ts) :
    Apart (t :: u :: ts) :=
  List.isChain_cons_cons.2 ⟨Or.inr hu, apart_cons hu hts⟩

theorem apart_append {ts us : List Token} (hts : Apart ts) (hus : Apart us)
    (hhead : ∀ u, us.head? = some u → u.IsMark) : Apart (ts ++ us) :=
  List.isChain_append.2 ⟨hts, hus, fun _ _ u hu => Or.inr (hhead u hu)⟩

theorem head_moreItems (ds : List Document) (t : Token)
    (ht : ((moreItems ds).map Symbol.token).head? = some t) : t.IsMark := by
  cases ds with
  | nil =>
    cases ht
    trivial
  | cons d ds =>
    rw [moreItems] at ht
    cases ht
    trivial

theorem head_moreEntries (es : List (List Glyph × Document)) (t : Token)
    (ht : ((moreEntries es).map Symbol.token).head? = some t) : t.IsMark := by
  cases es with
  | nil =>
    cases ht
    trivial
  | cons e es =>
    rw [moreEntries] at ht
    cases ht
    trivial

mutual

theorem apart_tokens : (d : Document) → Apart d.tokens
  | .null => List.isChain_singleton _
  | .bool _ => List.isChain_singleton _
  | .number _ => List.isChain_singleton _
  | .text _ => List.isChain_singleton _
  | .list [] => apart_cons trivial (List.isChain_singleton _)
  | .list (d :: ds) => by
    rw [tokens, symbols, List.map_cons, List.map_append]
    exact apart_cons trivial (apart_append d.apart_tokens (apart_moreItems ds) (head_moreItems ds))
  | .dict [] => apart_cons trivial (List.isChain_singleton _)
  | .dict ((k, d) :: es) => by
    have hrest := apart_append d.apart_tokens (apart_moreEntries es) (head_moreEntries es)
    rw [tokens, symbols, List.map_cons, List.map_cons, List.map_cons, List.map_append]
    exact apart_cons trivial (apart_cons_cons trivial hrest)

theorem apart_moreItems : (ds : List Document) → Apart ((moreItems ds).map Symbol.token)
  | [] => List.isChain_singleton _
  | d :: ds => by
    rw [moreItems, List.map_cons, List.map_append]
    exact apart_cons trivial (apart_append d.apart_tokens (apart_moreItems ds) (head_moreItems ds))

theorem apart_moreEntries :
    (es : List (List Glyph × Document)) → Apart ((moreEntries es).map Symbol.token)
  | [] => List.isChain_singleton _
  | (k, d) :: es => by
    have hrest := apart_append d.apart_tokens (apart_moreEntries es) (head_moreEntries es)
    rw [moreEntries, List.map_cons, List.map_cons, List.map_cons, List.map_append]
    exact apart_cons trivial (apart_cons_cons trivial hrest)

end

/-! ## Reading a document -/

theorem run_cons {limits : Limits} {m m' : Machine} {t : Token} (h : m.step limits t = .ok m')
    (ts : List Token) : m.run limits (t :: ts) = m'.run limits ts := by
  rw [Machine.run, h]
  rfl

theorem enter_eq (limits : Limits) (frames : List Frame) (frame : Frame) (want : Want) :
    Machine.enter limits frames frame want =
      if isOver limits.depth (frames.length + 1) then .error .tooDeep
      else .ok ⟨frame :: frames, want⟩ := by
  unfold Machine.enter
  cases h : limits.depth with
  | none => rfl
  | some most => rfl

theorem step_valueOrClose (limits : Limits) (fs : List Frame) (d : Document) (rest : List Token) :
    (Machine.mk fs .valueOrClose).run limits (d.tokens ++ rest) =
      (Machine.mk fs .value).run limits (d.tokens ++ rest) := by
  have hhead : ∃ t ts, d.tokens = t :: ts ∧ t ≠ .listClose := by
    cases d with
    | list items => cases items <;> exact ⟨_, _, by rw [tokens, symbols]; rfl, by simp [Symbol.token]⟩
    | dict entries =>
      cases entries <;> exact ⟨_, _, by rw [tokens, symbols]; rfl, by simp [Symbol.token]⟩
    | _ => exact ⟨_, _, by rw [tokens, symbols]; rfl, by simp [Symbol.token]⟩
  obtain ⟨t, ts, hts, ht⟩ := hhead
  rw [hts, List.cons_append, Machine.run, Machine.run]
  congr 1
  cases t <;> simp_all [Machine.step]

theorem run_word {limits : Limits} {w : List Char} {v : Value} (h : word limits w = .ok v)
    (fs : List Frame) (rest : List Token) :
    (Machine.mk fs .value).run limits (.word w :: rest) = (Machine.deliver v fs).run limits rest := by
  apply run_cons
  change (word limits w).map _ = _
  rw [h]
  rfl

-- by recursion on the document; what follows it is read from the state that its value leads to
mutual

theorem run_tokens (limits : Limits) : (d : Document) → (fs : List Frame) → (rest : List Token) →
    ((Machine.mk fs .value).run limits (d.tokens ++ rest)).toOption =
      if d.fits limits fs.length then ((Machine.deliver d.value fs).run limits rest).toOption
      else none
  | .null, fs, rest => congrArg Except.toOption (run_word rfl fs rest)
  | .bool b, fs, rest => by
    cases b with
    | true => exact congrArg Except.toOption (run_word rfl fs rest)
    | false => exact congrArg Except.toOption (run_word rfl fs rest)
  | .number n, fs, rest => by
    have hword := n.word_chars limits
    rw [fits]
    cases h : isOver limits.digits n.length with
    | true =>
      rw [h, if_pos rfl] at hword
      change (((word limits n.chars).map _).bind _).toOption = none
      rw [hword]
      rfl
    | false =>
      rw [h, if_neg Bool.false_ne_true] at hword
      exact congrArg Except.toOption (run_word hword fs rest)
  | .text glyphs, fs, rest => rfl
  | .list [], fs, rest => by
    rw [fits, itemsFit, Bool.and_true]
    change ((Machine.enter limits fs (.list []) .valueOrClose).bind _).toOption = _
    rw [enter_eq]
    cases isOver limits.depth (fs.length + 1) with
    | true => rfl
    | false => rfl
  | .list (d :: ds), fs, rest => by
    have hfirst := run_tokens limits d (.list [] :: fs) ((moreItems ds).map Symbol.token ++ rest)
    have hmore := run_moreItems limits ds [d.value] fs rest
    rw [fits, itemsFit, tokens, symbols, List.map_cons, List.map_append, List.cons_append,
      List.append_assoc]
    change ((Machine.enter limits fs (.list []) .valueOrClose).bind _).toOption = _
    rw [enter_eq]
    cases isOver limits.depth (fs.length + 1) with
    | true => rfl
    | false =>
      change ((Machine.mk (.list [] :: fs) .valueOrClose).run limits (d.tokens ++ _)).toOption = _
      rw [step_valueOrClose, hfirst]
      cases d.fits limits (fs.length + 1) with
      | true =>
        exact hmore
      | false => rfl
  | .dict [], fs, rest => by
    rw [fits, entriesFit, Bool.and_true]
    change ((Machine.enter limits fs (.dict [] "") .keyOrClose).bind _).toOption = _
    rw [enter_eq]
    cases isOver limits.depth (fs.length + 1) with
    | true => rfl
    | false => rfl
  | .dict ((k, d) :: es), fs, rest => by
    have hfirst :=
      run_tokens limits d (.dict [] (said k) :: fs) ((moreEntries es).map Symbol.token ++ rest)
    have hmore := run_moreEntries limits es (Fields.set (said k) d.value []) (said k) fs rest
    rw [fits, entriesFit, tokens, symbols, List.map_cons, List.map_cons, List.map_cons,
      List.map_append, List.cons_append, List.cons_append, List.cons_append, List.append_assoc]
    change ((Machine.enter limits fs (.dict [] "") .keyOrClose).bind _).toOption = _
    rw [enter_eq]
    cases isOver limits.depth (fs.length + 1) with
    | true => rfl
    | false =>
      change ((Machine.mk (.dict [] (said k) :: fs) .value).run limits (d.tokens ++ _)).toOption = _
      rw [hfirst]
      cases d.fits limits (fs.length + 1) with
      | true => exact hmore
      | false => rfl

theorem run_moreItems (limits : Limits) : (ds : List Document) → (items : List Value) →
    (fs : List Frame) → (rest : List Token) →
    ((Machine.mk (.list items :: fs) .commaOrClose).run limits
        ((moreItems ds).map Symbol.token ++ rest)).toOption =
      if itemsFit limits (fs.length + 1) ds then
        ((Machine.deliver (.list (items.reverse ++ values ds)) fs).run limits rest).toOption
      else none
  | [], items, fs, rest => by
    rw [values, List.append_nil]
    rfl
  | d :: ds, items, fs, rest => by
    have hfirst := run_tokens limits d (.list items :: fs) ((moreItems ds).map Symbol.token ++ rest)
    have hmore := run_moreItems limits ds (d.value :: items) fs rest
    rw [itemsFit, moreItems, List.map_cons, List.map_append, List.cons_append, List.append_assoc]
    change ((Machine.mk (.list items :: fs) .value).run limits (d.tokens ++ _)).toOption = _
    rw [hfirst]
    cases d.fits limits (fs.length + 1) with
    | true =>
      rw [List.reverse_cons, List.append_assoc] at hmore
      exact hmore
    | false => rfl

theorem run_moreEntries (limits : Limits) : (es : List (List Glyph × Document)) →
    (fields : Fields) → (key : String) → (fs : List Frame) → (rest : List Token) →
    ((Machine.mk (.dict fields key :: fs) .commaOrClose).run limits
        ((moreEntries es).map Symbol.token ++ rest)).toOption =
      if entriesFit limits (fs.length + 1) es then
        ((Machine.deliver (.dict (fieldsAfter fields es)) fs).run limits rest).toOption
      else none
  | [], fields, key, fs, rest => rfl
  | (k, d) :: es, fields, key, fs, rest => by
    have hfirst :=
      run_tokens limits d (.dict fields (said k) :: fs) ((moreEntries es).map Symbol.token ++ rest)
    have hmore := run_moreEntries limits es (Fields.set (said k) d.value fields) (said k) fs rest
    rw [entriesFit, moreEntries, List.map_cons, List.map_cons, List.map_cons, List.map_append,
      List.cons_append, List.cons_append, List.cons_append, List.append_assoc]
    change ((Machine.mk (.dict fields (said k) :: fs) .value).run limits (d.tokens ++ _)).toOption = _
    rw [hfirst]
    cases d.fits limits (fs.length + 1) with
    | true => exact hmore
    | false => rfl

end

/-- A text in which a document is written is read as what the document means, within the limits. -/
theorem read_of_spaced {d : Document} {s : String} (h : Spaced d.symbols s.toList)
    (limits : Limits) :
    (read limits s).toOption = if d.fits limits 0 then some d.value else none := by
  have htokens := tokens_of_spaced h d.apart_tokens
  have hrun := d.run_tokens limits [] []
  rw [List.append_nil] at hrun
  unfold read
  rw [htokens]
  change (((Machine.mk [] .value).run limits d.tokens).bind _).toOption = _
  cases hread : (Machine.mk [] .value).run limits d.tokens with
  | error fault =>
    rw [hread] at hrun
    cases hfits : d.fits limits 0 with
    | true => simp [hfits, Except.toOption, Machine.run] at hrun
    | false => rfl
  | ok m =>
    rw [hread] at hrun
    cases hfits : d.fits limits 0 with
    | true =>
      have hm : m = ⟨[], .nothing d.value⟩ := by
        simpa [hfits, Except.toOption, Machine.run, Machine.deliver] using hrun
      rw [hm]
      rfl
    | false => simp [hfits, Except.toOption] at hrun

end Document

end Workbench.Json
