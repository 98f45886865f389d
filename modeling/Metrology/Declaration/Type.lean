import Metrology.Declaration.Reader

/-!
# Types

Paths with their arguments, references and pointers, tuples, arrays, functions, and bounds.
Whatever is not read to its end in one go is read by the readers of one level further inside, so
that the levels are the only recursion.
-/

namespace Metrology.Declaration

open Reader

/-- What a type is, as far as that decides what may stand behind it. -/
inductive TypeForm where
  | segment
  | path
  | parenthesized
  | bound
  | other
  deriving DecidableEq, Repr

inductive ArgumentsForm where
  | none
  | empty
  | filled
  deriving DecidableEq, Repr

structure TypePath where
  front : List String
  arguments : List String
  form : ArgumentsForm
  isPlain : Bool
  isSingle : Bool

namespace TypePath

def words (p : TypePath) : List String := p.front ++ p.arguments

def follow (p q : TypePath) : TypePath :=
  ⟨p.words ++ "::" :: q.front, q.arguments, q.form, p.isPlain && p.form == .none && q.isPlain,
    false⟩

def behind (words : List String) (p : TypePath) : TypePath :=
  { p with front := words ++ p.front, isSingle := false }

end TypePath

structure Listed where
  isLifetime : Bool
  words : List String
  hasComma : Bool
  deriving DecidableEq, Repr

def Listed.separated : List Listed → List String
  | [] => []
  | [a] => if a.hasComma then a.words ++ [","] else a.words
  | a :: as => a.words ++ "," :: separated as

/-- Lifetimes are written in front of all else. -/
def Listed.inOrder (as : List Listed) : List String :=
  separated (as.filter (·.isLifetime) ++ as.filter (!·.isLifetime))

/-- What an item or a bound declares for the types in it.  The words leave the default out. -/
structure Parameter where
  isLifetime : Bool
  name : String
  words : List String
  default : List String
  deriving DecidableEq, Repr

structure TypeReaders where
  type : (allowsPlus : Bool) → Reader (TypeForm × List String)
  /-- Bounds with plus signs between them, as long as the condition holds behind a plus sign.  The
  flag of the result tells whether one of them is a trait. -/
  bounds : (goesOn : List Token → Bool) → Reader (Bool × List String)
  segments : (isQualified : Bool) → Reader TypePath
  calls : TypePath → Reader TypePath
  arguments : Reader (List Listed)
  parameters : Reader (List String)
  row : Reader (List String)
  inputs : (isFirst : Bool) → Reader (List String)
  expression : List Token → Except DeclarationError Reading

def startsWord (word : String) : List Token → Bool
  | .identifier name :: _ => name == word
  | _ => false

def startsParentheses : List Token → Bool
  | .group .parentheses _ :: _ => true
  | _ => false

def startsLifetime : List Token → Bool
  | .punctuation '\'' _ :: .identifier _ :: _ => true
  | _ => false

def startsPathWord : List Token → Bool
  | .identifier name :: _ => isPathWord name
  | _ => false

def startsArguments : List Token → Bool
  | .punctuation ':' true :: .punctuation ':' _ :: .punctuation '<' _ :: _ => true
  | ts => startsMark "<" ts && !startsMark "<=" ts && !startsMark "<<=" ts

def startsCall : List Token → Bool
  | .punctuation ':' true :: .punctuation ':' _ :: r => startsParentheses r
  | ts => startsParentheses ts

def startsFunction (ts : List Token) : Bool := ["fn", "unsafe", "extern"].any (startsWord · ts)

def startsBound : List Token → Bool
  | .identifier _ :: _ => true
  | ts => startsMark "::" ts || startsMark "?" ts || startsLifetime ts || startsParentheses ts

def endsBounds (marks : List String) (ts : List Token) : Bool := marks.any (startsMark · ts)

def startsConstant : List Token → Bool
  | .literal _ _ :: _ | .group .braces _ :: _ => true
  | .punctuation '-' _ :: .literal spelling _ :: _ => spelling.toList.head?.any Char.isDigit
  | .identifier name :: _ => name == "true" || name == "false"
  | _ => false

def startsNamed (isFirst : Bool) : List Token → Bool
  | .identifier name :: r =>
    (!keywords.contains name || name == "_" || isFirst && name == "self")
      && startsMark ":" r && !startsMark "::" r
  | _ => false

/-- Whether a word may stand behind a separator.  One keyword more than in front of a path may. -/
def isSegment (name : String) : Bool := isPathWord name || name == "try"

def readConstant : Reader (List String) := do
  match ← front with
  | .literal spelling _ :: r => leave r; return [spelling]
  | .punctuation '-' _ :: .literal spelling _ :: r => leave r; return ["-", spelling]
  | .group .braces content :: r => leave r; return [wordOf (.group .braces content)]
  | .identifier name :: r =>
    if ["true", "false"].contains name || !keywords.contains name then leave r; return [name]
    else throw (.unexpectedToken none)
  | [] => throw (.other "unexpected end of input")
  | _ => throw (.unexpectedToken none)

def skipLifetime : Reader (List String) := do
  match ← front with
  | .punctuation '\'' _ :: .identifier name :: r => leave r; return ["'" ++ name]
  | _ => return []

def lifetimesAt (ends : List Token → Bool) :
    List Token → Except DeclarationError (List String × List Token)
  | .punctuation '\'' _ :: .identifier name :: .punctuation '+' _ :: r => do
    if ends r then return (["'" ++ name, "+"], r)
    else do
      let (words, q) ← lifetimesAt ends r
      return (("'" ++ name) :: "+" :: words, q)
  | .punctuation '\'' _ :: .identifier name :: r => .ok (["'" ++ name], r)
  | ts => .error (missing .lifetime ts)

def attributesAt : List Token → Except DeclarationError (List String × List Token)
  | .punctuation '#' _ :: .group .brackets content :: r => do
    let (words, q) ← attributesAt r
    return ("#" :: wordOf (.group .brackets content) :: words, q)
  | .punctuation '#' _ :: r => .error (missing .squareBrackets r)
  | ts => .ok ([], ts)

def skipAttributes : Reader (List String) := do
  let (words, r) ← attributesAt (← front)
  leave r
  return words

namespace TypeReaders

variable (inner : TypeReaders)

/-! ## Parameters -/

def readColonBounds (ends : List Token → Bool) : Reader (List String) := do
  if !(← skipMark ':') || ends (← front) then return []
  let (_, words) ← inner.bounds (!ends ·)
  return ":" :: words

def readDefault (isConstant : Bool) : Reader (List String) := do
  if !(← skipMark '=') then return []
  if isConstant then return "=" :: (← readConstant)
  let (_, words) ← inner.type true
  return "=" :: words

def readParameter (what : Expected) : Reader Parameter := do
  match ← front with
  | .punctuation '\'' _ :: .identifier name :: r =>
    leave r
    if !(← skipMark ':') || endsBounds [",", ">"] (← front) then
      return ⟨true, "'" ++ name, ["'" ++ name], []⟩
    let (words, r) ← lifetimesAt (endsBounds [",", ">"]) (← front)
    leave r
    return ⟨true, "'" ++ name, ("'" ++ name) :: ":" :: words, []⟩
  | .identifier "const" :: r =>
    let (name, r) ← readIdentifier r
    leave r
    expect ':'
    let (_, words) ← inner.type true
    return ⟨false, name, "const" :: name :: ":" :: words, ← inner.readDefault true⟩
  | .identifier name :: r =>
    if keywords.contains name then throw (.expected what false)
    leave r
    let bounds ← inner.readColonBounds (endsBounds [",", ">", "="])
    return ⟨false, name, name :: bounds, ← inner.readDefault false⟩
  | ts => throw (missing what ts)

def readParameters : Reader (List String) := do
  if ← skipMark '>' then return [">"]
  let attributes ← skipAttributes
  let parameter ← inner.readParameter .boundParameter
  let words := attributes ++ parameter.words ++ parameter.default
  if ← skipMark '>' then return words ++ [">"]
  expect ','
  return words ++ "," :: (← inner.parameters)

def readBinder : Reader (List String) := do
  if !(← skipWord "for") then return []
  expect '<'
  return "for" :: "<" :: (← inner.parameters)

/-! ## Paths -/

def readSegment : Reader TypePath := do
  match ← front with
  | .identifier name :: r =>
    if !isSegment name then throw (.keyword name)
    leave r
    if keywords.contains name && name != "Self" || !startsArguments r then
      return ⟨[name], [], .none, true, true⟩
    let separator := if ← skipSeparator then ["::"] else []
    expect '<'
    let arguments ← inner.arguments
    return ⟨[name], separator ++ "<" :: Listed.inOrder arguments ++ [">"],
      if arguments.isEmpty then .empty else .filled, true, true⟩
  | ts => throw (missing .identifier ts)

/-- Words with double colons between them.  No parentheses follow a double colon, except behind a
type in angle brackets. -/
def readSegments (isQualified : Bool) : Reader TypePath := do
  let p ← inner.readSegment
  if !isQualified && startsCall (← front) then return p
  if !(← skipSeparator) then return p
  return p.follow (← inner.segments isQualified)

def readPath : Reader TypePath := do
  if ← skipSeparator then return (← inner.readSegments false).behind ["::"]
  else inner.readSegments false

def readQualifier : Reader (List String) := do
  expect '<'
  let (_, words) ← inner.type true
  let words ←
    if ← skipWord "as" then pure (words ++ "as" :: (← inner.readPath).words) else pure words
  expect '>'
  return "<" :: words ++ [">"]

def readQualified : Reader TypePath := do
  let qualifier ← inner.readQualifier
  if !(← skipSeparator) then throw (.expectedMark "::")
  return (← inner.segments true).behind (qualifier ++ ["::"])

def readOutput : Reader (Option TypeForm × List String) := do
  match ← front with
  | .punctuation '-' true :: .punctuation '>' _ :: r =>
    leave r
    let (form, words) ← inner.type false
    return (form, "->" :: words)
  | _ => return (none, [])

def readCall : Reader (Bool × List String) := do
  let _ ← skipSeparator
  match ← front with
  | .group .parentheses content :: r =>
    leave r
    let words ← inside .parentheses content inner.row
    let (form, output) ← inner.readOutput
    return (form.all (· == .parenthesized), Delimiter.parentheses.enclose words :: output)
  | ts => throw (missing .parentheses ts)

/-- Arguments in parentheses behind the last word, in the place of empty angle brackets if such
stand there. -/
def readCalls (p : TypePath) : Reader TypePath := do
  if p.form == .filled || !startsCall (← front) then return p
  let (goesOn, arguments) ← inner.readCall
  let p := { p with arguments, form := .filled, isSingle := false }
  if !goesOn || startsCall (← front) then return p
  if !(← skipSeparator) then return p
  inner.calls (p.follow (← inner.segments false))

def readTrait : Reader (List String) := do
  let binder ← inner.readBinder
  let mark ← optionalMark '?'
  let binder' ← if binder.isEmpty && !mark.isEmpty then inner.readBinder else pure []
  let p ← inner.readPath
  let words := binder ++ mark ++ binder'
  if p.form == .filled || !startsCall (← front) then return words ++ p.words
  let (_, arguments) ← inner.readCall
  return words ++ p.front ++ arguments

def readBound : Reader (Bool × List String) := do
  match ← front with
  | .punctuation '\'' _ :: .identifier name :: r => leave r; return (false, ["'" ++ name])
  | .group .parentheses content :: r =>
    leave r
    return (true, [Delimiter.parentheses.enclose (← inside .parentheses content inner.readTrait)])
  | _ => return (true, ← inner.readTrait)

def readPlus (goesOn : List Token → Bool) : Reader (Bool × List String) := do
  if !(← skipMark '+') then return (false, [])
  if !goesOn (← front) then return (false, ["+"])
  let (isTrait, words) ← inner.bounds goesOn
  return (isTrait, "+" :: words)

def readBounds (goesOn : List Token → Bool) : Reader (Bool × List String) := do
  let (isTrait, words) ← inner.readBound
  let (isTrait', words') ← inner.readPlus goesOn
  return (isTrait || isTrait', words ++ words')

def readObject (message : String) (allowsPlus : Bool) : Reader (List String) := do
  let (isTrait, words) ← if allowsPlus then inner.readBounds startsBound else inner.readBound
  if isTrait then return words else throw (.other message)

def readFunction : Reader (List String) := do
  let safety ← optionalWord "unsafe"
  let abi ← optionalWord "extern"
  let name ← do
    match abi.isEmpty, ← front with
    | false, .literal spelling (some _) :: r => leave r; pure [spelling]
    | _, _ => pure []
  if !(← skipWord "fn") then throw (missing (.word "fn") (← front))
  match ← front with
  | .group .parentheses content :: r =>
    leave r
    let words ← inside .parentheses content (inner.inputs true)
    let (_, output) ← inner.readOutput
    return safety ++ abi ++ name ++ "fn" :: Delimiter.parentheses.enclose words :: output
  | ts => throw (missing .parentheses ts)

def readElements : Reader (Bool × TypeForm × List String) := do
  let (form, words) ← inner.type true
  if ← skipMark ',' then return (true, .other, words ++ "," :: (← inner.row))
  else return (false, form, words)

def readParentheses (allowsPlus : Bool) (content : List Token) :
    Reader (TypeForm × List String) := do
  let enclosed (words : List String) := [Delimiter.parentheses.enclose words]
  if content.isEmpty then return (.other, enclosed [])
  if startsLifetime content then
    let words ← inside .parentheses content
      (inner.readObject "at least one trait is required for an object type" true)
    return (.parenthesized, enclosed words)
  if startsMark "?" content then
    let words ← inside .parentheses content inner.readTrait
    let (_, more) ← inner.readPlus fun _ => true
    return (if more.isEmpty then .bound else .other, enclosed words ++ more)
  let (isTuple, form, words) ← inside .parentheses content inner.readElements
  if isTuple then return (.other, enclosed words)
  if allowsPlus && startsMark "+" (← front) && [.segment, .path, .bound].contains form then
    let (_, more) ← inner.readPlus fun _ => true
    return (.other, enclosed words ++ more)
  return (.parenthesized, enclosed words)

def readArray : Reader (List String) := do
  let (_, words) ← inner.type true
  if !(← skipMark ';') then return words
  let ts ← front
  let (found, r) ← inner.expression ts
  modify fun (found', _) => (found' ++ found, r)
  return words ++ ";" :: wordsOf (ts.take (ts.length - r.length))

def readPathType (allowsPlus : Bool) (binder : List String) : Reader (TypeForm × List String) := do
  if startsMark "<" (← front) then
    return (.other, (← inner.readCalls (← inner.readQualified)).words)
  let p ← inner.readCalls (← inner.readPath)
  let ts ← front
  if startsMark "!" ts && !startsMark "!=" ts && p.isPlain && p.form == .none then
    match ts.tail with
    | .group d content :: r => leave r; return (.other, p.words ++ ["!", wordOf (.group d content)])
    | r => throw (missing .delimiter r)
  if binder.isEmpty && !(allowsPlus && startsMark "+" ts) then
    return (if p.isSingle then .segment else .path, p.words)
  let (_, more) ← if allowsPlus then inner.readPlus startsBound else pure (false, [])
  return (if more.isEmpty then .bound else .other, binder ++ p.words ++ more)

/-! ## Types -/

def readType (allowsPlus : Bool) : Reader (TypeForm × List String) := do
  let binder ← inner.readBinder
  let ts ← front
  if !binder.isEmpty && !startsPathWord ts && !startsFunction ts then throw (missing .boundType ts)
  if startsFunction ts then return (.other, binder ++ (← inner.readFunction))
  if startsPathWord ts || startsMark "::" ts || startsMark "<" ts then
    inner.readPathType allowsPlus binder
  else match ts with
    | .group .parentheses content :: r => leave r; inner.readParentheses allowsPlus content
    | .group .brackets content :: r =>
      leave r
      return (.other, [Delimiter.brackets.enclose (← inside .brackets content inner.readArray)])
    | .identifier "dyn" :: r =>
      leave r
      let star ← optionalMark '*'
      let words ← inner.readObject "at least one trait is required for an object type" allowsPlus
      return (.other, "dyn" :: star ++ words)
    | .identifier "impl" :: r =>
      leave r
      return (.other, "impl" ::
        (← inner.readObject "at least one trait must be specified" allowsPlus))
    | .punctuation '*' _ :: .identifier name :: r =>
      if name != "const" && name != "mut" then throw (.expected .pointerKind false)
      leave r
      let (_, words) ← inner.type false
      return (.other, "*" :: name :: words)
    | .punctuation '*' _ :: r => throw (missing .pointerKind r)
    | .punctuation '&' _ :: r =>
      leave r
      let lifetime ← skipLifetime
      let exclusive ← optionalWord "mut"
      let (_, words) ← inner.type false
      return (.other, "&" :: lifetime ++ exclusive ++ words)
    | .punctuation '!' _ :: r => leave r; return (.other, ["!"])
    | .identifier "_" :: r => leave r; return (.other, ["_"])
    | ts =>
      if startsLifetime ts then
        return (.other, ← inner.readObject "at least one trait is required for an object type" true)
      else throw (missing .type ts)

def readArgument : Reader (Bool × List String) := do
  let ts ← front
  if startsLifetime ts && !startsMark "+" (ts.drop 2) then return (true, ← skipLifetime)
  if startsConstant ts then return (false, ← readConstant)
  let (form, words) ← inner.readType true
  if form != .segment then return (false, words)
  if ← skipMark '=' then
    if startsConstant (← front) then return (false, words ++ "=" :: (← readConstant))
    let (_, value) ← inner.type true
    return (false, words ++ "=" :: value)
  if ← skipMark ':' then
    if endsBounds [",", ">"] (← front) then return (false, words ++ [":"])
    let (_, bounds) ← inner.bounds (!endsBounds [",", ">"] ·)
    return (false, words ++ ":" :: bounds)
  return (false, words)

def readArguments : Reader (List Listed) := do
  if ← skipMark '>' then return []
  let (isLifetime, words) ← inner.readArgument
  if ← skipMark '>' then return [⟨isLifetime, words, false⟩]
  expect ','
  return ⟨isLifetime, words, true⟩ :: (← inner.arguments)

def readRow : Reader (List String) := do
  if (← front).isEmpty then return []
  let (_, words) ← inner.readType true
  if (← front).isEmpty then return words
  expect ','
  return words ++ "," :: (← inner.row)

def readVariadic : Reader (List String) := do
  match ← front with
  | .punctuation '.' true :: .punctuation '.' true :: .punctuation '.' _ :: r =>
    leave r
    return ["..."]
  | .identifier name :: .punctuation ':' _ :: .punctuation '.' true :: .punctuation '.' true ::
      .punctuation '.' _ :: r =>
    if keywords.contains name && name != "_" then return []
    leave r
    return [name, ":", "..."]
  | _ => return []

def readInput (isFirst : Bool) : Reader (List String) := do
  let ts ← front
  let exclusive ← if isFirst && startsWord "self" ts.tail then optionalWord "mut" else pure []
  if startsNamed isFirst (← front) then
    match ← front with
    | .identifier name :: r =>
      leave r.tail
      let (_, words) ← inner.type true
      return exclusive ++ name :: ":" :: words
    | _ => return []
  if !exclusive.isEmpty then return exclusive ++ (← optionalWord "self")
  return (← inner.readType true).2

def readInputs (isFirst : Bool) : Reader (List String) := do
  if (← front).isEmpty then return []
  let attributes ← skipAttributes
  let dots ← readVariadic
  if !dots.isEmpty then return attributes ++ dots ++ (← optionalMark ',')
  let words ← inner.readInput isFirst
  if (← front).isEmpty then return attributes ++ words
  expect ','
  return attributes ++ words ++ "," :: (← inner.inputs false)

end TypeReaders

/-! ## Whole types -/

/-- The readers that go `level` levels further inside. -/
def typeReaders (expression : List Token → Except DeclarationError Reading) :
    (level : Nat) → TypeReaders
  | 0 =>
    { type := fun _ => throw (.expected .type false)
      bounds := fun _ => throw (.expected .boundType false)
      segments := fun _ => throw (.expected .identifier false)
      calls := pure
      arguments := throw (.expectedMark ">")
      parameters := throw (.expectedMark ">")
      row := pure []
      inputs := fun _ => pure []
      expression }
  | level + 1 =>
    let inner := typeReaders expression level
    { type := inner.readType
      bounds := inner.readBounds
      segments := inner.readSegments
      calls := inner.readCalls
      arguments := inner.readArguments
      parameters := inner.readParameters
      row := inner.readRow
      inputs := inner.readInputs
      expression }

def runTypeReader {α : Type} (expression : List Token → Except DeclarationError Reading)
    (x : TypeReaders → Reader α) (ts : List Token) : Except DeclarationError (α × Reading) :=
  x (typeReaders expression (totalWeight ts + 1)) ([], ts)

end Metrology.Declaration
