import Workbench.Text.Find
import Workbench.Text.Pattern
import Workbench.World.Session

/-!
# Extraction requests

Has a server extract the mathematics of a chunk. Chunks without a sign of mathematics are not sent.
A chunk is tried several times; what a good reply holds is stripped of code fences.
-/

namespace Workbench.Extraction

structure Config where
  extractionKey : String
  extractionUrl : String
  model : String
  pdfKey : String
  pdfUrl : String

/-- The replies to the attempts at a chunk, counted from zero. -/
abbrev Replies := Nat → Reply

/-- The replies of a server to a chunk in its place. -/
abbrev Server := Nat → String → Replies

/-! ## Replies -/

inductive Failure where
  | reply (fault : ReplyFault)
  | noField
  | noItem
  | badShape
deriving DecidableEq, Repr

def fieldOf (key : String) : Value → Except Failure Value
  | .dict fields =>
    match Fields.get? key fields with
    | some v => .ok v
    | none => .error .noField
  | _ => .error .badShape

def firstOf : Value → Except Failure Value
  | .list (v :: _) => .ok v
  | .list [] => .error .noItem
  | .str s =>
    match s.toList with
    | c :: _ => .ok (.str (String.ofList [c]))
    | [] => .error .noItem
  | .dict _ => .error .noField
  | _ => .error .badShape

open Pattern in
def fence : Pattern := literal "```" ++ [.many Char.isAlpha]

def withoutFences (s : List Char) : List Char :=
  Text.strip (Pattern.erase [Pattern.literal "```"] (Pattern.erase [fence] s))

def contentOf (reply : Reply) : Except Failure String := do
  let body ← match reply.body with
    | .ok v => pure v
    | .error f => throw (.reply f)
  let message ← fieldOf "message" (← firstOf (← fieldOf "choices" body))
  match ← fieldOf "content" message with
  | .str s => return String.ofList (withoutFences s.toList)
  | _ => throw .badShape

/-! ## Attempts -/

structure Attempts where
  -- the text of the first good reply, or the failure of the last one; nothing without attempts
  result : Except Failure (Option String)
  requests : Nat
  pauses : Nat

/-- Tries until a reply is good or no attempts are left; there is a pause between two attempts. -/
def attemptFrom (content : Nat → Except Failure String) (attempt : Nat) : Nat → Attempts
  | 0 => ⟨.ok none, 0, 0⟩
  | left + 1 =>
    match content attempt with
    | .ok s => ⟨.ok (some s), 1, 0⟩
    | .error f =>
      if left = 0 then ⟨.error f, 1, 0⟩
      else
        let later := attemptFrom content (attempt + 1) left
        ⟨later.result, later.requests + 1, later.pauses + 1⟩

def attemptChunk (replies : Replies) (attempts : Nat) : Attempts :=
  attemptFrom (fun k => contentOf (replies k)) 0 attempts

def attemptLimit : Nat := 3

def Config.chunkPost (config : Config) (chunk : String) : Post :=
  { url := config.extractionUrl ++ "/chat/completions"
    auth := "Bearer " ++ config.extractionKey
    content := [("model", config.model), ("chunk", chunk)] }

def noteAttempts {ε : Type} (config : Config) (chunk : String) (a : Attempts) : Session ε Unit :=
  Session.note (List.replicate a.requests (config.chunkPost chunk)) a.pauses

/-! ## Batches -/

def keywords : List String :=
  ["theorem", "definition", "lemma", "proof", "proposition", "定理", "定义", "命题", "let", "assume",
    "suppose", "=", "\\", "corollary", "推论", "example", "例"]

/-- Whether a chunk shows a sign of mathematics. Only the letters of ASCII have other forms: the
small form of no other character spells a part of a keyword. -/
def isMathematical (chunk : String) : Bool :=
  let small := chunk.toList.map Char.toLower
  keywords.any fun k => Text.occursIn k.toList small

def Attempts.text (a : Attempts) : String :=
  match a.result with
  | .ok (some s) => s
  | _ => ""

/-- Puts the texts of finished chunks into their places and joins those that are not empty. -/
def assemble (count : Nat) (finished : List (Nat × String)) : String :=
  let places := finished.foldl (fun ps (i, s) => ps.set i s) (List.replicate count "")
  String.intercalate "\n\n" (places.filter (· != ""))

def sentChunks (chunks : List String) : List (Nat × String) :=
  (chunks.zipIdx.map fun (c, i) => (i, c)).filter fun p => isMathematical p.2

def finishedChunks (server : Server) (chunks : List String) : List (Nat × Attempts) :=
  (sentChunks chunks).map fun (i, c) => (i, attemptChunk (server i c) attemptLimit)

def extractAll {ε : Type} (config : Config) (server : Server) (chunks : List String) :
    Session ε String := do
  for (i, chunk) in sentChunks chunks do
    noteAttempts config chunk (attemptChunk (server i chunk) attemptLimit)
  return assemble chunks.length ((finishedChunks server chunks).map fun (i, a) => (i, a.text))

end Workbench.Extraction
