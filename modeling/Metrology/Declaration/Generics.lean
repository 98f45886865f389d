import Metrology.Declaration.Visibility

/-!
# Generics

The parameters that an item declares in angle brackets, and the conditions on them.
-/

namespace Metrology.Declaration

open Reader

structure Generics where
  parameters : List (Parameter × Bool)
  conditions : List String
  deriving DecidableEq, Repr

namespace Generics

def empty : Generics := ⟨[], []⟩

def listed (g : Generics) (words : Parameter → List String) : List String :=
  if g.parameters.isEmpty then []
  else "<" :: Listed.inOrder (g.parameters.map fun (p, hasComma) =>
    ⟨p.isLifetime, words p, hasComma⟩)
    ++ [">"]

end Generics

def readParameterAttributes : Reader (List String) := fun (found, ts) => do
  let ((_, found'), r) ← readAttributes ts
  return (wordsOf (ts.take (ts.length - r.length)), found ++ found', r)

def readItemParameters (types : TypeReaders) : (fuel : Nat) → Reader (List (Parameter × Bool))
  | 0 => return []
  | fuel + 1 => do
    if ← skipMark '>' then return []
    let attributes ← readParameterAttributes
    let p ← types.readParameter .parameter
    let p := { p with words := attributes ++ p.words }
    if ← skipMark '>' then return [(p, false)]
    expect ','
    return (p, true) :: (← readItemParameters types fuel)

def readGenerics (ts : List Token) :
    Except DeclarationError (List (Parameter × Bool) × Reading) :=
  runTypeReader Expression.read (fun types => do
    if ← skipMark '<' then readItemParameters types ts.length else return []) ts

def endsConditions (ts : List Token) : Bool :=
  match ts with
  | [] | .group .braces _ :: _ => true
  | ts => startsMark "," ts || startsMark ";" ts || startsMark "=" ts
      || startsMark ":" ts && !startsMark "::" ts

/-- What starts like parameters of the conditions, which have none. -/
def startsReserved : List Token → Bool
  | .punctuation '<' _ :: ts =>
    let named (r : List Token) := startsMark ">" r || startsMark "," r || startsMark "=" r
      || startsMark ":" r && !startsMark "::" r
    match ts with
    | .punctuation '\'' _ :: .identifier _ :: r => named r
    | .identifier name :: r => name == "const" || !keywords.contains name && named r
    | ts => startsMark ">" ts || startsMark "#" ts
  | _ => false

def readCondition (types : TypeReaders) : Reader (List String) := do
  match ← front with
  | .punctuation '\'' _ :: .identifier name :: .punctuation ':' _ :: r =>
    if endsConditions r then leave r; return ["'" ++ name, ":"]
    let (words, r) ← lifetimesAt endsConditions r
    leave r
    return ("'" ++ name) :: ":" :: words
  | _ =>
    let binder ← types.readBinder
    let (_, words) ← types.readType true
    expect ':'
    if endsConditions (← front) then return binder ++ words ++ [":"]
    let (_, bounds) ← types.readBounds (!endsConditions ·)
    return binder ++ words ++ ":" :: bounds

def readConditionList (types : TypeReaders) : (fuel : Nat) → Reader (List String)
  | 0 => return []
  | fuel + 1 => do
    if endsConditions (← front) then return []
    let words ← readCondition types
    if ← skipMark ',' then return words ++ "," :: (← readConditionList types fuel) else return words

def readConditions (ts : List Token) : Except DeclarationError (List String × Reading) :=
  runTypeReader Expression.read (fun types => do
    if !(← skipWord "where") then return []
    if startsReserved (← front) then
      throw (.other "generic parameters on \x60where\x60 clauses are reserved for future use")
    let words ← readConditionList types ts.length
    return if words.isEmpty then [] else "where" :: words) ts

end Metrology.Declaration
