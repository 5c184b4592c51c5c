import Workbench.Data.Display
import Workbench.Data.JsonReader

/-!
# Cutting YAML into tokens

The tokens of a text in the bracketed style of YAML: brackets, commas, colons and scalars, which may
be quoted or plain. Blanks between tokens are spaces, line ends and comments, but not tabs.

A colon makes a key of the bracket or scalar before it only if that started on the same line and not
too far back. Until this is settled for a token, the tokens from it on are held back: a reader that
meets a fault of its own before them never learns of a fault behind them.
-/

namespace Workbench.Yaml

/-- A place in a text; lines and columns count from zero. -/
structure Mark where
  line : Nat
  column : Nat
deriving DecidableEq, Repr

structure Fault where
  -- what was being read, and where it began
  context : Option (String × Mark)
  problem : String
  place : Option Mark
deriving DecidableEq, Repr

inductive Token where
  | listOpen | listClose | dictOpen | dictClose | comma | dash | question
  -- a colon, which may make a key of what stands before it
  | colon (keyed : Bool)
  | quoted (s : String)
  | plain (s : String)
  | finish
deriving DecidableEq, Repr

def Token.word : Token → String
  | .listOpen => "["
  | .listClose => "]"
  | .dictOpen => "\x7b"
  | .dictClose => "\x7d"
  | .comma => ","
  | .dash => "-"
  | .question => "?"
  | .colon _ => ":"
  | .quoted _ | .plain _ => "<scalar>"
  | .finish => "<stream end>"

/-! ## Characters -/

def isBreak (c : Char) : Bool := c == '\n' || c == '\x85' || c == '\u2028' || c == '\u2029'

def breakChar (c : Char) : Char := if c = '\x85' then '\n' else c

def isGap : Option Char → Bool
  | none => true
  | some c => c == ' ' || c == '\t' || isBreak c

def isBracketMark (c : Char) : Bool :=
  c == ',' || c == '[' || c == ']' || c == '\x7b' || c == '\x7d'

def isIndicator (c : Char) : Bool := "-?:,[]\x7b\x7d#&*!|>'\"%@`".toList.contains c

structure Cursor where
  rest : List Char
  index : Nat
  mark : Mark

/-- The place after one more character. A byte order mark takes no column. -/
def Mark.past (m : Mark) (c : Char) : Mark :=
  if isBreak c then ⟨m.line + 1, 0⟩
  else if c = '\uFEFF' then m
  else ⟨m.line, m.column + 1⟩

def Cursor.advance (c : Cursor) (n : Nat) : Cursor :=
  let read := c.rest.take n
  ⟨c.rest.drop n, c.index + read.length, read.foldl Mark.past c.mark⟩

def gapLength (comment : Bool) : List Char → Nat
  | [] => 0
  | c :: r =>
    if isBreak c then gapLength false r + 1
    else if comment || c == '#' then gapLength true r + 1
    else if c = ' ' then gapLength false r + 1
    else 0

/-! ## Quoted scalars -/

/-- Line ends and the blanks around them, from the first line end on: a single line feed becomes a
space, of several the first is dropped. -/
def folded (run : List Char) : List Char :=
  match (run.filter isBreak).map breakChar with
  | [] => []
  | '\n' :: [] => [' ']
  | '\n' :: more => more
  | breaks => breaks

def escaped? (c : Char) : Option Char :=
  let table : List (Char × Nat) := [('0', 0), ('a', 7), ('b', 8), ('t', 9), ('\t', 9), ('n', 10),
    ('v', 11), ('f', 12), ('r', 13), ('e', 27), (' ', 32), ('"', 34), ('\\', 92), ('/', 47),
    ('N', 0x85), ('_', 0xA0), ('L', 0x2028), ('P', 0x2029)]
  (table.find? fun p => p.1 == c).map fun p => Char.ofNat p.2

def escapeLength? : Char → Option Nat
  | 'x' => some 2
  | 'u' => some 4
  | 'U' => some 8
  | _ => none

def escape (start : Mark) (c : Cursor) : Except Fault (List Char × Cursor) :=
  let fault := fun problem place =>
    Fault.mk (some ("while scanning a double-quoted scalar", start)) problem (some place)
  let shown := fun (x : Option Char) => Text.quoted (String.ofList [x.getD '\x00'])
  match c.rest with
  | [] => .error (fault ("found unknown escape character " ++ shown none) c.mark)
  | ch :: r =>
    match escaped? ch, escapeLength? ch with
    | some d, _ => .ok ([d], c.advance 1)
    | none, some n =>
      let digits := r.take n
      match digits.mapM Json.hexValue? with
      | some ds =>
        if ds.length < n then
          .error (fault ("expected escape sequence of " ++ Decimal.digitText n ++
            " hexdecimal numbers, but found " ++ shown none) (c.advance 1).mark)
        else
          let code := ds.foldl (fun a d => a * 16 + d) 0
          if 0x110000 ≤ code then .error ⟨none, "chr() arg not in range(0x110000)", none⟩
          else .ok ([Half.char code], c.advance (n + 1))
      | none =>
        let bad := digits.find? fun d => (Json.hexValue? d).isNone
        .error (fault ("expected escape sequence of " ++ Decimal.digitText n ++
          " hexdecimal numbers, but found " ++ shown bad) (c.advance 1).mark)
    | none, none =>
      if isBreak ch then
        let run := r.takeWhile fun x => x == ' ' || x == '\t' || isBreak x
        .ok ((run.filter isBreak).map breakChar, c.advance (run.length + 1))
      else .error (fault ("found unknown escape character " ++ shown (some ch)) c.mark)

/-- The inside of a quoted scalar, in at most so many steps. `seen` holds what was read of it, in
reverse. -/
def quotedFrom (double : Bool) (start : Mark) :
    Nat → List Char → Cursor → Except Fault (List Char × Cursor)
  | 0, seen, c => .ok (seen.reverse, c)
  | steps + 1, seen, c =>
    match c.rest with
    | [] => .error ⟨some ("while scanning a quoted scalar", start),
        "found unexpected end of stream", some c.mark⟩
    | '"' :: _ =>
      if double then .ok (seen.reverse, c.advance 1)
      else quotedFrom double start steps ('"' :: seen) (c.advance 1)
    | '\'' :: r =>
      if double then quotedFrom double start steps ('\'' :: seen) (c.advance 1)
      else if r.head? = some '\'' then quotedFrom double start steps ('\'' :: seen) (c.advance 2)
      else .ok (seen.reverse, c.advance 1)
    | ch :: _ =>
      if double && ch == '\\' then do
        let (cs, c) ← escape start (c.advance 1)
        quotedFrom double start steps (cs.reverse ++ seen) c
      else
        let blanks := c.rest.takeWhile fun x => x == ' ' || x == '\t'
        if (c.rest.drop blanks.length).head?.any isBreak then
          let run := c.rest.takeWhile fun x => x == ' ' || x == '\t' || isBreak x
          quotedFrom double start steps ((folded run).reverse ++ seen) (c.advance run.length)
        else quotedFrom double start steps (ch :: seen) (c.advance 1)

/-! ## Plain scalars -/

def plainChunk (inside : Bool) : List Char → List Char
  | [] => []
  | c :: r =>
    if isGap (some c) then []
    else if c == ':' && (isGap r.head? || (inside && r.head?.any isBracketMark)) then []
    else if inside && (isBracketMark c || c == '?') then []
    else c :: plainChunk inside r

def plainGap (s : List Char) : List Char :=
  let blanks := s.takeWhile (· == ' ')
  if (s.drop blanks.length).head?.any isBreak then
    s.takeWhile fun c => c == ' ' || isBreak c
  else blanks

def plainFrom (inside : Bool) : Nat → List Char → List Char → Cursor → List Char × Bool × Cursor
  | 0, seen, _, c => (seen, false, c)
  | steps + 1, seen, gap, c =>
    let chunk := if c.rest.head? = some '#' then [] else plainChunk inside c.rest
    if chunk.isEmpty then (seen, gap.any isBreak, c)
    else
      let between := if gap.any isBreak then folded gap else gap
      let c := c.advance chunk.length
      let gap := plainGap c.rest
      let seen := seen ++ between ++ chunk
      if gap.isEmpty then (seen, false, c)
      else plainFrom inside steps seen gap (c.advance gap.length)

/-! ## Tokens -/

/-- A token that a colon may turn into a key. -/
structure Candidate where
  number : Nat
  index : Nat
  line : Nat

structure Located where
  token : Token
  mark : Mark

structure Scanner where
  cursor : Cursor
  -- the candidate of each open level, innermost first; outside of all brackets there is one
  keys : List (Option Candidate)
  fresh : Bool
  tokens : List Located

namespace Scanner

def start (s : List Char) : Scanner :=
  let c : Cursor := ⟨s, 0, ⟨0, 0⟩⟩
  ⟨if s.head? = some '\uFEFF' then c.advance 1 else c, [none], true, []⟩

def inside (s : Scanner) : Bool := 1 < s.keys.length

def emit (s : Scanner) (t : Token) : Scanner :=
  { s with tokens := ⟨t, s.cursor.mark⟩ :: s.tokens }

def skip (s : Scanner) : Scanner :=
  let n := gapLength false s.cursor.rest
  let crossed := (s.cursor.rest.take n).any isBreak
  { s with cursor := s.cursor.advance n, fresh := s.fresh || (crossed && !s.inside) }

def keyReach : Nat := 1024

def forget (s : Scanner) : Scanner :=
  { s with keys := s.keys.map fun k => k.filter fun k =>
      k.line == s.cursor.mark.line && s.cursor.index ≤ k.index + keyReach }

def propose (s : Scanner) : Scanner :=
  match s.keys with
  | _ :: outer =>
    if s.fresh then
      { s with keys := some ⟨s.tokens.length, s.cursor.index, s.cursor.mark.line⟩ :: outer }
    else s
  | [] => s

def dropKey (s : Scanner) : Scanner := { s with keys := none :: s.keys.drop 1 }

def openWith (s : Scanner) (t : Token) : Scanner :=
  let s := s.propose.emit t
  { s with keys := none :: s.keys, fresh := true, cursor := s.cursor.advance 1 }

def closeWith (s : Scanner) (t : Token) : Scanner :=
  let s := s.emit t
  let outer := s.keys.drop 1
  { s with
    keys := if outer.isEmpty then [none] else outer
    fresh := false, cursor := s.cursor.advance 1 }

def commaWith (s : Scanner) : Scanner :=
  let s := s.dropKey.emit .comma
  { s with fresh := true, cursor := s.cursor.advance 1 }

def markWith (s : Scanner) (t : Token) : Scanner :=
  let s := s.emit t
  { s with cursor := s.cursor.advance 1 }

def colonWith (s : Scanner) : Except Fault Scanner :=
  match s.keys with
  | some _ :: _ =>
    let s := s.dropKey.emit (.colon true)
    .ok { s with fresh := false, cursor := s.cursor.advance 1 }
  | _ =>
    if !s.inside && !s.fresh then
      .error ⟨none, "mapping values are not allowed here", some s.cursor.mark⟩
    else
      let s := s.dropKey.emit (.colon false)
      .ok { s with fresh := !s.inside, cursor := s.cursor.advance 1 }

def quotedWith (s : Scanner) (double : Bool) : Except Fault Scanner := do
  let s := s.propose
  let rest := s.cursor.rest.length
  let (cs, c) ← quotedFrom double s.cursor.mark rest [] (s.cursor.advance 1)
  return { s.emit (.quoted (String.ofList cs)) with fresh := false, cursor := c }

def plainWith (s : Scanner) : Scanner :=
  let s := s.propose
  let (cs, ended, c) := plainFrom s.inside s.cursor.rest.length [] [] s.cursor
  { s.emit (.plain (String.ofList cs)) with fresh := ended, cursor := c }

def startsPlain (s : Scanner) (c : Char) (next : Option Char) : Bool :=
  !(isGap (some c) || isIndicator c) ||
    (!isGap next && (c == '-' || (!s.inside && (c == '?' || c == ':'))))

def token (s : Scanner) (c : Char) (next : Option Char) : Except Fault Scanner :=
  if c = '[' then .ok (s.openWith .listOpen)
  else if c = '\x7b' then .ok (s.openWith .dictOpen)
  else if c = ']' then .ok (s.closeWith .listClose)
  else if c = '\x7d' then .ok (s.closeWith .dictClose)
  else if c = ',' then .ok s.commaWith
  else if c == '-' && isGap next then .ok (s.markWith .dash)
  else if c == '?' && (s.inside || isGap next) then .ok (s.markWith .question)
  else if c == ':' && (s.inside || isGap next) then s.colonWith
  else if c = '\'' then s.quotedWith false
  else if c = '"' then s.quotedWith true
  else if s.startsPlain c next then .ok s.plainWith
  else .error ⟨some ("while scanning for the next token", s.cursor.mark),
    "found character " ++ Text.quoted (String.ofList [c]) ++ " that cannot start any token",
    some s.cursor.mark⟩

/-- The tokens that a reader gets before a fault: those before the first candidate. -/
def released (s : Scanner) : List Located :=
  let held := s.keys.filterMap fun k => k.map Candidate.number
  s.tokens.reverse.take (held.foldl min s.tokens.length)

def run : Nat → Scanner → List Located × Option Fault
  | 0, s => (s.tokens.reverse, none)
  | steps + 1, s =>
    let s := s.skip.forget
    match s.cursor.rest with
    | [] => ((s.emit .finish).tokens.reverse, none)
    | c :: r =>
      match s.token c r.head? with
      | .error f => (s.released, some f)
      | .ok s => run steps s

end Scanner

def tokens (s : String) : List Located × Option Fault :=
  Scanner.run (s.length + 1) (.start s.toList)

end Workbench.Yaml
