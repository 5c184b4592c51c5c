import Workbench.Decimal.Notation

/-!
# Moments

A moment of the calendar, and the two forms in which reports write it.
-/

namespace Workbench

structure Moment where
  year : Nat
  month : Nat
  day : Nat
  hour : Nat
  minute : Nat
  second : Nat
deriving DecidableEq, Repr

namespace Moment

def padded (width n : Nat) : String :=
  let ds := Nat.toDigits 10 n
  String.ofList (List.replicate (width - ds.length) '0' ++ ds)

def stamp (m : Moment) : String :=
  padded 4 m.year ++ "-" ++ padded 2 m.month ++ "-" ++ padded 2 m.day ++ " " ++
    padded 2 m.hour ++ ":" ++ padded 2 m.minute ++ ":" ++ padded 2 m.second

def tag (m : Moment) : String :=
  padded 4 m.year ++ padded 2 m.month ++ padded 2 m.day ++ "_" ++
    padded 2 m.hour ++ padded 2 m.minute ++ padded 2 m.second

end Moment

end Workbench
