import Metrology.Declaration.Token
import Metrology.Except

/-!
# Readers

A reader goes on from the tokens that are left, and keeps the delimiters of the groups in which it
left strays.  What it takes off is kept as the words that it is written out with; a group is one
word.
-/

namespace Metrology.Declaration

def Delimiter.enclose (d : Delimiter) (words : List String) : String :=
  let inside := " ".intercalate words
  match d with
  | .parentheses => "(" ++ inside ++ ")"
  | .brackets => "[" ++ inside ++ "]"
  | .braces => if words.isEmpty then "\x7b \x7d" else "\x7b " ++ inside ++ " \x7d"

mutual

/-- The words of tokens that are taken as they are.  Joint marks make up one word. -/
def wordsOf : List Token → List String
  | [] => []
  | .punctuation c true :: ts =>
    match wordsOf ts with
    | [] => [String.singleton c]
    | word :: words => (String.singleton c ++ word) :: words
  | t :: ts => wordOf t :: wordsOf ts

def wordOf : Token → String
  | .identifier name => name
  | .literal spelling _ => spelling
  | .punctuation c _ => String.singleton c
  | .group d content => d.enclose (wordsOf content)

end

abbrev Reader := StateT Reading (Except DeclarationError)

namespace Reader

variable {α : Type}

def front : Reader (List Token) := (·.2) <$> get

def leave (r : List Token) : Reader Unit := modify fun (found, _) => (found, r)

def inside (d : Delimiter) (content : List Token) (x : Reader α) : Reader α := fun (found, ts) => do
  let (a, found, surplus) ← x (found, content)
  return (a, found ++ strays d surplus, ts)

def skipWord (word : String) : Reader Bool := do
  match ← front with
  | .identifier name :: r => if name = word then leave r; return true else return false
  | _ => return false

/-- Passes over a mark of one character, which may be the first half of a longer one. -/
def skipMark (mark : Char) : Reader Bool := do
  match ← front with
  | .punctuation c _ :: r => if c = mark then leave r; return true else return false
  | _ => return false

def skipSeparator : Reader Bool := do
  match ← front with
  | .punctuation ':' true :: .punctuation ':' _ :: r => leave r; return true
  | _ => return false

def expect (mark : Char) : Reader Unit := do
  if !(← skipMark mark) then throw (.expectedMark (String.singleton mark))

def optionalWord (word : String) : Reader (List String) := do
  return if ← skipWord word then [word] else []

def optionalMark (mark : Char) : Reader (List String) := do
  return if ← skipMark mark then [String.singleton mark] else []

end Reader

end Metrology.Declaration
