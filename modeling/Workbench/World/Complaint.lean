import Workbench.Data.Display
import Workbench.World.Reading

/-!
# Complaints

What is said about a file that cannot be opened, and about bytes and characters that are no text.
-/

namespace Workbench

def byteText (b : UInt8) : String := "0x" ++ String.ofList (Text.hexText 2 b.toNat)

def Utf8.Fault.message (f : Utf8.Fault) : String :=
  let place := match f.bytes with
    | [b] => "byte " ++ byteText b ++ " in position " ++ Decimal.digitText f.position
    | bs => "bytes in position " ++ Decimal.digitText f.position ++ "-" ++
        Decimal.digitText (f.position + bs.length - 1)
  let reason := match f.reason with
    | .start => "invalid start byte"
    | .continuation => "invalid continuation byte"
    | .truncated => "unexpected end of data"
  "'utf-8' codec can't decode " ++ place ++ ": " ++ reason

def halfMessage (text : String) : String :=
  let before := text.toList.takeWhile fun c => (Half.of? c).isNone
  let halves := (text.toList.drop before.length).takeWhile fun c => (Half.of? c).isSome
  let place := match halves with
    | [h] => "character " ++ Text.quoted (String.ofList [h]) ++ " in position " ++
        Decimal.digitText before.length
    | hs => "characters in position " ++ Decimal.digitText before.length ++ "-" ++
        Decimal.digitText (before.length + hs.length - 1)
  "'utf-8' codec can't encode " ++ place ++ ": surrogates not allowed"

def FileFault.message (name : String) : FileFault → String
  | .notFound => "[Errno 2] No such file or directory: " ++ Text.quoted name
  | .taken => "[Errno 17] File exists: " ++ Text.quoted name
  | .notFolder => "[Errno 20] Not a directory: " ++ Text.quoted name
  | .isFolder => "[Errno 21] Is a directory: " ++ Text.quoted name
  | .tooLong => "[Errno 36] File name too long: " ++ Text.quoted name
  | .badName => "embedded null byte"
  | .unencodable => halfMessage name

def ReadFault.message (name : String) : ReadFault → String
  | .file f => f.message name
  | .text f => f.message

end Workbench
