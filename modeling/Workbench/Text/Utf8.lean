/-!
# UTF-8

Reading and writing text as bytes, one byte at a time. A `Utf8.State` says which bytes may come
next. The strict reader stops at the first byte that cannot follow; the lenient one leaves out the
sequence that this byte cuts short and begins again with it.
-/

namespace Workbench

abbrev Bytes := List UInt8

namespace Utf8

/-- Between two characters, or inside a sequence that still needs `need` bytes. The next of them
lies between `low` and `high`, and `bits` holds what was read so far. -/
inductive State where
  | start
  | within (need low high bits : Nat)
deriving DecidableEq, Repr

/-- The state after a first byte that is not a character of its own. Overlong forms, surrogates and
numbers past the last plane are excluded by the bounds on the second byte. -/
def lead (n : Nat) : Option State :=
  if n < 0xC2 then none
  else if n < 0xE0 then some (.within 1 0x80 0xBF (n - 0xC0))
  else if n < 0xF0 then
    some (.within 2 (if n = 0xE0 then 0xA0 else 0x80) (if n = 0xED then 0x9F else 0xBF) (n - 0xE0))
  else if n < 0xF5 then
    some (.within 3 (if n = 0xF0 then 0x90 else 0x80) (if n = 0xF4 then 0x8F else 0xBF) (n - 0xF0))
  else none

def step (b : UInt8) : State → Option (Option Char × State)
  | .start =>
    if b.toNat < 0x80 then some (some (Char.ofNat b.toNat), .start)
    else (lead b.toNat).map fun s => (none, s)
  | .within need low high bits =>
    if low ≤ b.toNat ∧ b.toNat ≤ high then
      let bits := bits * 64 + b.toNat % 64
      if need ≤ 1 then some (some (Char.ofNat bits), .start)
      else some (none, .within (need - 1) 0x80 0xBF bits)
    else none

def emit : Option Char → List Char → List Char
  | none, s => s
  | some c, s => c :: s

inductive Reason where
  | start
  | continuation
  | truncated
deriving DecidableEq, Repr

/-- The first bytes that are no character: where they begin and which ones they are. -/
structure Fault where
  position : Nat
  bytes : Bytes
  reason : Reason
deriving DecidableEq, Repr

/-- Reads the bytes from a state on; fails unless they are whole characters. `position` counts the
bytes before the current sequence, and `seen` holds those of the sequence so far, in reverse. -/
def decodeFrom (position : Nat) (seen : Bytes) : State → Bytes → Except Fault (List Char)
  | .start, [] => .ok []
  | .within .., [] => .error ⟨position, seen.reverse, .truncated⟩
  | s, b :: r =>
    match s, step b s with
    | .start, none => .error ⟨position, [b], .start⟩
    | .within .., none => .error ⟨position, seen.reverse, .continuation⟩
    | _, some (some c, s) => (decodeFrom (position + seen.length + 1) [] s r).map (c :: ·)
    | _, some (none, s) => decodeFrom position (b :: seen) s r

def decode (s : Bytes) : Except Fault String :=
  (decodeFrom 0 [] .start s).map String.ofList

def salvageFrom : State → Bytes → List Char
  | _, [] => []
  | s, b :: r =>
    match step b s with
    | some (c, s) => emit c (salvageFrom s r)
    | none =>
      match step b .start with
      | some (c, s) => emit c (salvageFrom s r)
      | none => salvageFrom .start r

def salvage (s : Bytes) : String := String.ofList (salvageFrom .start s)

def encodeChar (c : Char) : Bytes :=
  let n := c.toNat
  if n < 0x80 then [UInt8.ofNat n]
  else if n < 0x800 then [UInt8.ofNat (0xC0 + n / 64), UInt8.ofNat (0x80 + n % 64)]
  else if n < 0x10000 then
    [UInt8.ofNat (0xE0 + n / 4096), UInt8.ofNat (0x80 + n / 64 % 64), UInt8.ofNat (0x80 + n % 64)]
  else
    [UInt8.ofNat (0xF0 + n / 262144), UInt8.ofNat (0x80 + n / 4096 % 64),
      UInt8.ofNat (0x80 + n / 64 % 64), UInt8.ofNat (0x80 + n % 64)]

def encode (s : String) : Bytes := s.toList.flatMap encodeChar

end Utf8

end Workbench
