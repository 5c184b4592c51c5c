import Workbench.Data.Value
import Workbench.Decimal.Nearest
import Workbench.Text.Half

/-!
# Reading JSON

A text is first cut into tokens by a machine that takes one character at a time, and the tokens are
then put together by a machine that keeps the lists and dictionaries that are still open. Both make
one step per element, so a reading ends after as many steps as the text has characters.

Besides the standard's values the words `NaN`, `Infinity` and `-Infinity` are numbers. A control
character inside a string is refused. Of two fields with one name the later value counts, at the
place of the earlier. A reading can be limited in what it puts up with; it ends with the first fault
in the order of the text.
-/

namespace Workbench.Json

inductive Fault where
  | malformed
  | tooDeep
  | tooManyDigits
deriving DecidableEq, Repr

/-- What a reading puts up with, where there is a limit. -/
structure Limits where
  depth : Option Nat
  digits : Option Nat

def Limits.none : Limits := ⟨.none, .none⟩

def isOver (limit : Option Nat) (n : Nat) : Bool :=
  match limit with
  | some most => most < n
  | none => false

/-! ## Tokens -/

inductive Token where
  | listOpen | listClose | dictOpen | dictClose | comma | colon
  | text (s : String)
  | word (s : List Char)
deriving DecidableEq, Repr

/-- What the reader of tokens is inside of. Characters are kept in reverse, as code points, so that
the two halves of a surrogate pair can stand side by side until the string ends. -/
inductive Lexeme where
  | outside
  | word (seen : List Char)
  | text (seen : List Nat)
  | escape (seen : List Nat)
  | hex (seen : List Nat) (need code : Nat)

def escaped? : Char → Option Char
  | '"' => some '"'
  | '\\' => some '\\'
  | '/' => some '/'
  | 'b' => some '\x08'
  | 'f' => some '\x0c'
  | 'n' => some '\n'
  | 'r' => some '\r'
  | 't' => some '\t'
  | _ => none

def hexValue? (c : Char) : Option Nat :=
  if '0' ≤ c ∧ c ≤ '9' then some (c.toNat - 48)
  else if 'a' ≤ c ∧ c ≤ 'f' then some (c.toNat - 87)
  else if 'A' ≤ c ∧ c ≤ 'F' then some (c.toNat - 55)
  else none

def isBareChar (c : Char) : Bool :=
  c.isAlphanum || c == '-' || c == '+' || c == '.'

def mark? : Char → Option Token
  | '[' => some .listOpen
  | ']' => some .listClose
  | '\x7b' => some .dictOpen
  | '\x7d' => some .dictClose
  | ',' => some .comma
  | ':' => some .colon
  | _ => none

/-- A character between tokens: the token that it is, and what it leads into; `none` if it cannot
stand there. -/
def openLexeme (c : Char) : List Token × Option Lexeme :=
  if c = ' ' ∨ c = '\t' ∨ c = '\n' ∨ c = '\r' then ([], some .outside)
  else if c = '"' then ([], some (.text []))
  else if isBareChar c then ([], some (.word [c]))
  else
    match mark? c with
    | some t => ([t], some .outside)
    | none => ([], none)

/-- Takes one character: the tokens that end before it or with it, and what it leads into. -/
def Lexeme.take (c : Char) : Lexeme → List Token × Option Lexeme
  | .outside => openLexeme c
  | .word seen =>
    if isBareChar c then ([], some (.word (c :: seen)))
    else
      let (ts, next) := openLexeme c
      (.word seen.reverse :: ts, next)
  | .text seen =>
    if c = '"' then ([.text (String.ofList (Half.join seen.reverse))], some .outside)
    else if c = '\\' then ([], some (.escape seen))
    else if c.toNat < 0x20 then ([], none)
    else ([], some (.text (c.toNat :: seen)))
  | .escape seen =>
    if c = 'u' then ([], some (.hex seen 4 0))
    else ([], (escaped? c).map fun d => .text (d.toNat :: seen))
  | .hex seen need code =>
    ([], (hexValue? c).map fun d =>
      let code := code * 16 + d
      if need ≤ 1 then .text (code :: seen) else .hex seen (need - 1) code)

/-- The tokens of a text, and whether they are all of it: the text must end between two tokens. -/
def Lexeme.tokens : Lexeme → List Char → List Token × Bool
  | .outside, [] => ([], true)
  | .word seen, [] => ([.word seen.reverse], true)
  | _, [] => ([], false)
  | s, c :: r =>
    match s.take c with
    | (ts, none) => (ts, false)
    | (ts, some s) =>
      let (rest, whole) := s.tokens r
      (ts ++ rest, whole)

/-! ## Numbers -/

def digits : List Char → Nat × Nat × List Char
  | [] => (0, 0, [])
  | c :: r => go 0 0 (c :: r)
where
  go (value count : Nat) : List Char → Nat × Nat × List Char
    | [] => (value, count, [])
    | c :: r =>
      if c.isDigit then go (value * 10 + (c.toNat - 48)) (count + 1) r else (value, count, c :: r)

/-- The floating-point number nearest to `mant * 10 ^ expo`. Exponents far outside the range of
such numbers are cut down to its border. -/
def scientific (negative : Bool) (mant : Nat) (expo : Int) : Float :=
  let bound : Int := 400 + (Nat.toDigits 10 mant).length
  let expo := max (-bound) (min bound expo)
  let x := Decimal.nearest (mant * Decimal.tenTo expo.toNat) (Decimal.tenTo (-expo).toNat)
  if negative then -x else x

def exponent? : List Char → Option Int
  | [] => some 0
  | c :: r =>
    if c = 'e' ∨ c = 'E' then
      let (negative, r) := match r with
        | '-' :: r => (true, r)
        | '+' :: r => (false, r)
        | r => (false, r)
      match digits r with
      | (n, count, []) => if count = 0 then none else some (if negative then -n else n)
      | _ => none
    else none

/-- A number: an integer unless it has a fraction or an exponent. A zero in front stands alone. -/
def number? (s : List Char) : Option Value :=
  let (negative, s) := match s with
    | '-' :: r => (true, r)
    | r => (false, r)
  let (whole, count, rest) := digits s
  if count = 0 ∨ (1 < count ∧ s.head? = some '0') then none
  else
    match rest with
    | [] => some (.int (if negative then -whole else whole))
    | '.' :: r =>
      let (frac, places, rest) := digits r
      if places = 0 then none
      else (exponent? rest).map fun e =>
        .float (scientific negative (whole * Decimal.tenTo places + frac) (e - places))
    | rest => (exponent? rest).map fun e => .float (scientific negative whole e)

/-- Whether a word starts with a whole number that has too many digits. With a fraction or an
exponent after it the number is not whole. -/
def isTooLong (limits : Limits) (s : List Char) : Bool :=
  let s := match s with
    | '-' :: r => r
    | r => r
  let (_, count, rest) := digits s
  let whole := match rest with
    | '.' :: c :: _ => !c.isDigit
    | e :: sign :: c :: _ =>
      !((e == 'e' || e == 'E') && (sign.isDigit || ((sign == '-' || sign == '+') && c.isDigit)))
    | [e, c] => !((e == 'e' || e == 'E') && c.isDigit)
    | _ => true
  s.head? != some '0' && whole && isOver limits.digits count

def word (limits : Limits) (s : List Char) : Except Fault Value :=
  if s = "null".toList then .ok .null
  else if s = "true".toList then .ok (.bool true)
  else if s = "false".toList then .ok (.bool false)
  else if s = "NaN".toList then .ok (.float (0.0 / 0.0))
  else if s = "Infinity".toList then .ok (.float (1.0 / 0.0))
  else if s = "-Infinity".toList then .ok (.float (-1.0 / 0.0))
  else if isTooLong limits s then .error .tooManyDigits
  else
    match number? s with
    | some v => .ok v
    | none => .error .malformed

/-! ## Values -/

inductive Frame where
  | list (items : List Value)
  | dict (fields : Fields) (key : String)

inductive Want where
  | value | valueOrClose | key | keyOrClose | colon | commaOrClose
  | nothing (result : Value)

structure Machine where
  frames : List Frame
  want : Want

def Machine.deliver (v : Value) : List Frame → Machine
  | [] => ⟨[], .nothing v⟩
  | .list items :: r => ⟨.list (v :: items) :: r, .commaOrClose⟩
  | .dict fields key :: r => ⟨.dict (Fields.set key v fields) key :: r, .commaOrClose⟩

def Machine.enter (limits : Limits) (frames : List Frame) (frame : Frame) (want : Want) :
    Except Fault Machine :=
  if limits.depth.isSome && isOver limits.depth (frames.length + 1) then .error .tooDeep
  else .ok ⟨frame :: frames, want⟩

def Machine.begin (limits : Limits) (frames : List Frame) : Token → Except Fault Machine
  | .text s => .ok (.deliver (.str s) frames)
  | .word w => (word limits w).map fun v => .deliver v frames
  | .listOpen => enter limits frames (.list []) .valueOrClose
  | .dictOpen => enter limits frames (.dict [] "") .keyOrClose
  | _ => .error .malformed

def Machine.close : Token → List Frame → Except Fault Machine
  | .listClose, .list items :: r => .ok (.deliver (.list items.reverse) r)
  | .dictClose, .dict fields _ :: r => .ok (.deliver (.dict fields) r)
  | _, _ => .error .malformed

def Machine.step (limits : Limits) (m : Machine) (t : Token) : Except Fault Machine :=
  match m.want, m.frames, t with
  | .value, fs, t => begin limits fs t
  | .valueOrClose, fs, .listClose => close .listClose fs
  | .valueOrClose, fs, t => begin limits fs t
  | .keyOrClose, fs, .dictClose => close .dictClose fs
  | .keyOrClose, .dict fields _ :: r, .text s => .ok ⟨.dict fields s :: r, .colon⟩
  | .key, .dict fields _ :: r, .text s => .ok ⟨.dict fields s :: r, .colon⟩
  | .colon, fs, .colon => .ok ⟨fs, .value⟩
  | .commaOrClose, .list items :: r, .comma => .ok ⟨.list items :: r, .value⟩
  | .commaOrClose, .dict fields key :: r, .comma => .ok ⟨.dict fields key :: r, .key⟩
  | .commaOrClose, fs, t => close t fs
  | _, _, _ => .error .malformed

def Machine.run (limits : Limits) : Machine → List Token → Except Fault Machine
  | m, [] => .ok m
  | m, t :: ts => (m.step limits t).bind fun m => m.run limits ts

def read (limits : Limits) (s : String) : Except Fault Value := do
  let (tokens, whole) := Lexeme.outside.tokens s.toList
  let m ← (Machine.mk [] .value).run limits tokens
  match whole, m.want with
  | true, .nothing v => return v
  | _, _ => throw .malformed

end Workbench.Json
