import Metrology.Declaration.Type

/-!
# Expressions

The value behind the equals sign of an attribute, or of a variant, is an expression.  Reading one
finds where it ends, or why it is none; nothing else of it is kept.  Blocks are taken as they are,
and so is everything behind a word or mark that starts a closure or a branch.
-/

namespace Metrology.Declaration

namespace Expression

inductive Operator where
  | assignment
  | connective
  | comparison
  | arithmetic
  | range
  deriving DecidableEq, Repr

/-- The operators between two operands.  Each stands behind the longer ones that start with it. -/
def operators : List (String × Operator) :=
  [("<<=", .assignment), (">>=", .assignment), ("&&", .connective), ("||", .connective),
   ("<<", .arithmetic), (">>", .arithmetic), ("==", .comparison), ("<=", .comparison),
   ("!=", .comparison), (">=", .comparison), ("+=", .assignment), ("-=", .assignment),
   ("*=", .assignment), ("/=", .assignment), ("%=", .assignment), ("^=", .assignment),
   ("&=", .assignment), ("|=", .assignment), ("=", .assignment), ("<", .comparison),
   (">", .comparison), ("+", .arithmetic), ("-", .arithmetic), ("*", .arithmetic),
   ("/", .arithmetic), ("%", .arithmetic), ("^", .arithmetic), ("&", .arithmetic),
   ("|", .arithmetic), ("..", .range)]

def readOperator (ts : List Token) : Option (Operator × List Token) :=
  if startsMark "=>" ts then none
  else (operators.find? fun (mark, _) => startsMark mark ts).map fun (mark, o) =>
    (o, ts.drop mark.length)

def boundless : List String :=
  [",", ";", "?", "=", "+", "/", "%", "^", ">", "<=", "!=", "-=", "*=", "&=", "|=", "<<="]

def endsRange : List Token → Bool
  | [] => true
  | .identifier "as" :: _ => true
  | ts => (startsMark "." ts && !startsMark ".." ts) || boundless.any (startsMark · ts)

/-- What a row of operands has gone through, as far as it restricts the operators to come. -/
structure Row where
  isCompared : Bool
  isRange : Bool
  deriving DecidableEq, Repr

def Row.empty : Row := ⟨false, false⟩

def skipReference : List Token → List Token
  | .identifier "raw" :: .identifier "mut" :: r => r
  | .identifier "raw" :: .identifier "const" :: r => r
  | .identifier "mut" :: r => r
  | ts => ts

def isIndex (spelling : String) : Bool := spelling.toList.all fun c => c.isDigit || c == '.'

def startsOperand : List Token → Bool
  | .group _ _ :: _ | .literal _ _ :: _ | .identifier _ :: _ => true
  | ts => ["..", "::", "'", "#"].any (startsMark · ts)
      || ["!", "-", "*", "|", "&", "<"].any fun mark =>
        startsMark mark ts && !startsMark (mark ++ "=") ts
          && !startsMark "->" ts && !startsMark "<<=" ts

def blockWords : List String := ["unsafe", "loop", "try", "async", "const"]

/-- Words behind which everything is taken as it is. -/
def branchWords : List String := ["if", "while", "for", "match", "let", "become"]

def readClosure : List Token → Except DeclarationError Reading
  | .identifier "static" :: r => readClosure r
  | .identifier "async" :: r => readClosure r
  | .identifier "move" :: r => readClosure r
  | .punctuation '|' _ :: _ => .ok ([], [])
  | _ => .error (.expectedMark "|")

def readHead (name : String) (ts : List Token) : Except DeclarationError Reading :=
  if ["unsafe", "loop"].contains name then .error (missing .curlyBraces ts)
  else if ["move", "static", "const"].contains name then readClosure ts
  else if name == "async" && (startsMark "|" ts || startsWord "move" ts) then readClosure ts
  else if branchWords.contains name then
    if ts.isEmpty then .error (missing .expression ts) else .ok ([], [])
  else .error (.expected .expression false)

mutual

def readRow : (fuel : Nat) → Row → List Token → Except DeclarationError Reading
  | 0, _, ts => .error (missing .expression ts)
  | fuel + 1, row, ts =>
    if startsMark ".." ts then readRange fuel ts
    else do
      let (found, r) ← readOperand fuel ts
      let (found', r) ← readOperators fuel row r
      return (found ++ found', r)

def readOperators : (fuel : Nat) → Row → List Token → Except DeclarationError Reading
  | 0, _, ts => .ok ([], ts)
  | fuel + 1, row, .identifier "as" :: r => do
    let (_, found, r) ← runTypeReader (readRow fuel .empty) (·.readType false) r
    let (found', r) ← readOperators fuel row r
    return (found ++ found', r)
  | fuel + 1, row, ts =>
    match readOperator ts with
    | none => .ok ([], ts)
    | some (.arithmetic, r) => readRow fuel row r
    | some (.connective, r) => readRow fuel { row with isCompared := false } r
    | some (.comparison, r) =>
      if row.isCompared then .error .chainedComparison
      else readRow fuel { row with isCompared := true } r
    | some (.assignment, r) => if row.isRange then .ok ([], ts) else readRow fuel .empty r
    | some (.range, _) => if row.isRange then .ok ([], ts) else readRange fuel ts

def readRange : (fuel : Nat) → List Token → Except DeclarationError Reading
  | 0, ts => .ok ([], ts)
  | fuel + 1, ts =>
    if startsMark "..." ts then .error (.expectedMark "..=")
    else if startsMark "..=" ts then readRow fuel ⟨false, true⟩ (ts.drop 3)
    else if endsRange (ts.drop 2) then .ok ([], ts.drop 2)
    else readRow fuel ⟨false, true⟩ (ts.drop 2)

def readOperand : (fuel : Nat) → List Token → Except DeclarationError Reading
  | fuel + 1, .punctuation '#' _ :: .group .brackets _ :: r => readOperand fuel r
  | _ + 1, .punctuation '#' _ :: r => .error (missing .squareBrackets r)
  | fuel + 1, .punctuation '-' _ :: r => readOperand fuel r
  | fuel + 1, .punctuation '!' _ :: r => readOperand fuel r
  | fuel + 1, .punctuation '*' _ :: r => readOperand fuel r
  | fuel + 1, .punctuation '&' _ :: r => readOperand fuel (skipReference r)
  | _ + 1, .punctuation '|' _ :: _ => .ok ([], [])
  | _ + 1, .punctuation '\'' _ :: .identifier _ :: .punctuation ':' _ :: _ => .ok ([], [])
  | _ + 1, .punctuation '\'' _ :: _ => .error (.expectedMark ":")
  | fuel + 1, .punctuation '<' joint :: r => do
    let (_, found, r) ← runTypeReader (readRow fuel .empty) (·.readQualifier)
      (.punctuation '<' joint :: r)
    if !startsMark "::" r then throw (.expectedMark "::")
    let (found', r) ← readSegments fuel r
    return (found ++ found', r)
  | fuel + 1, .punctuation ':' true :: .punctuation ':' joint :: r =>
    readSegments fuel (.punctuation ':' true :: .punctuation ':' joint :: r)
  | fuel + 1, .literal _ _ :: r => readTrailers fuel r
  | fuel + 1, .group .braces _ :: r => readTrailers fuel r
  | fuel + 1, .group .parentheses content :: r => do
    let found ← readOperands fuel content
    let (found', r) ← readTrailers fuel r
    return (found ++ found', r)
  | fuel + 1, .group .brackets content :: r => do
    let found ← readArray fuel content
    let (found', r) ← readTrailers fuel r
    return (found ++ found', r)
  | fuel + 1, .identifier name :: r => readWord fuel name r
  | _, ts => .error (missing .expression ts)

def readWord : (fuel : Nat) → String → List Token → Except DeclarationError Reading
  | 0, _, ts => .ok ([], ts)
  | fuel + 1, name, ts =>
    if ["true", "false", "_", "continue"].contains name then readTrailers fuel ts
    else if isPathWord name || (name == "try" && (startsMark "!" ts || startsMark "::" ts)) then
      readSegments fuel ts
    else if ["return", "break", "yield"].contains name then
      if startsOperand ts then readRow fuel .empty ts else readTrailers fuel ts
    else match ts with
      | .group .braces _ :: r =>
        if blockWords.contains name then readTrailers fuel r else readHead name ts
      | .identifier "move" :: .group .braces _ :: r =>
        if name == "async" then readTrailers fuel r else readHead name ts
      | ts => readHead name ts

def readSegments : (fuel : Nat) → List Token → Except DeclarationError Reading
  | fuel + 1, .punctuation ':' true :: .punctuation ':' _ :: .punctuation '<' _ :: r => do
    let (_, found, r) ← runTypeReader (readRow fuel .empty) (·.readArguments) r
    let (found', r) ← readSegments fuel r
    return (found ++ found', r)
  | fuel + 1, .punctuation ':' true :: .punctuation ':' _ :: .identifier name :: r =>
    if isSegment name then readSegments fuel r else .error (.keyword name)
  | _ + 1, .punctuation ':' true :: .punctuation ':' joint :: .group .parentheses content :: r =>
    .ok ([], .punctuation ':' true :: .punctuation ':' joint :: .group .parentheses content :: r)
  | _ + 1, .punctuation ':' true :: .punctuation ':' _ :: r => .error (missing .identifier r)
  | fuel + 1, .group .braces _ :: r => readTrailers fuel r
  | fuel + 1, .punctuation '!' joint :: r =>
    if startsMark "!=" (.punctuation '!' joint :: r) then .ok ([], .punctuation '!' joint :: r)
    else match r with
      | .group _ _ :: r => readTrailers fuel r
      | r => .error (missing .delimiter r)
  | fuel + 1, ts => readTrailers fuel ts
  | 0, ts => .ok ([], ts)

def readTrailers : (fuel : Nat) → List Token → Except DeclarationError Reading
  | fuel + 1, .group .parentheses content :: r => do
    let found ← readOperands fuel content
    let (found', r) ← readTrailers fuel r
    return (found ++ found', r)
  | fuel + 1, .group .brackets content :: r => do
    let (found, surplus) ← readRow fuel .empty content
    let (found', r) ← readTrailers fuel r
    return (found ++ strays .brackets surplus ++ found', r)
  | fuel + 1, .punctuation '?' _ :: r => readTrailers fuel r
  | fuel + 1, .punctuation '.' joint :: r =>
    if startsMark ".." (.punctuation '.' joint :: r) then .ok ([], .punctuation '.' joint :: r)
    else readMember fuel r
  | _, ts => .ok ([], ts)

def readMember : (fuel : Nat) → List Token → Except DeclarationError Reading
  | fuel + 1, .identifier name :: .punctuation ':' true :: .punctuation ':' _ :: r =>
    if keywords.contains name then .error (.expected .member false)
    else match r with
      | .punctuation '<' _ :: r => do
        let (_, found, r) ← runTypeReader (readRow fuel .empty) (·.readArguments) r
        let (found', r) ← readTrailers fuel r
        return (found ++ found', r)
      | _ => .error (.expectedMark "<")
  | fuel + 1, .identifier name :: r =>
    if keywords.contains name && name != "await" then .error (.expected .member false)
    else readTrailers fuel r
  | fuel + 1, .literal spelling value? :: r =>
    if isIndex spelling then readTrailers fuel r
    else .error (missing .member (.literal spelling value? :: r))
  | _, ts => .error (missing .member ts)

def readOperands : (fuel : Nat) → List Token → Except DeclarationError (List Delimiter)
  | _, [] => .ok []
  | 0, _ => .ok []
  | fuel + 1, ts => do
    match ← readRow fuel .empty ts with
    | (found, []) => return found
    | (found, .punctuation ',' _ :: r) => return found ++ (← readOperands fuel r)
    | _ => .error (.expectedMark ",")

def readArray : (fuel : Nat) → List Token → Except DeclarationError (List Delimiter)
  | _, [] => .ok []
  | 0, _ => .ok []
  | fuel + 1, ts => do
    match ← readRow fuel .empty ts with
    | (found, []) => return found
    | (found, .punctuation ',' _ :: r) => return found ++ (← readOperands fuel r)
    | (found, .punctuation ';' _ :: r) => do
      let (found', surplus) ← readRow fuel .empty r
      return found ++ found' ++ strays .brackets surplus
    | _ => .error (.expected .separatorOrLength false)

end

/-- Steps enough for every expression: no token takes more than four. -/
def steps (ts : List Token) : Nat := 4 * (totalWeight ts + 1)

def read (ts : List Token) : Except DeclarationError Reading := do
  let (found, r) ← readRow (steps ts) .empty ts
  return (found, ts.drop (ts.length - r.length))

theorem read_length {ts r : List Token} {found : List Delimiter} (h : read ts = .ok (found, r)) :
    r.length ≤ ts.length := by
  obtain ⟨⟨found', q⟩, -, h⟩ := bind_eq_ok.1 h
  cases h
  simp

end Expression

structure TypeReading where
  words : List String
  strays : List Delimiter
  rest : List Token

def readType : List Token → Except DeclarationError TypeReading
  | [] => .error (missing .type [])
  | t :: ts => do
    let ((_, words), found, r) ← runTypeReader Expression.read (·.readType true) (t :: ts)
    return ⟨words, found, ts.drop (ts.length - r.length)⟩

theorem readType_length {ts : List Token} {x : TypeReading} (h : readType ts = .ok x) :
    x.rest.length < ts.length := by
  cases ts with
  | nil => cases h
  | cons t ts =>
      obtain ⟨⟨⟨form, words⟩, found, r⟩, -, h⟩ := bind_eq_ok.1 h
      cases h
      simp only [List.length_drop, List.length_cons]
      omega

end Metrology.Declaration
