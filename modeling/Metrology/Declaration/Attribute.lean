import Metrology.Declaration.Expression

/-!
# Attributes

An attribute stands in brackets behind a number sign: a path, and perhaps arguments in a group or a
value behind an equals sign.
-/

namespace Metrology.Declaration

inductive AttributeArguments where
  | bare
  | list (content : List Token)
  | value (tokens : List Token)
  deriving Repr

structure Attribute where
  isRooted : Bool
  path : List String
  arguments : AttributeArguments
  deriving Repr

namespace Attribute

/-- The attribute that describes a unit.  A longer path that ends in the same word is another. -/
def isUnit (a : Attribute) : Bool := !a.isRooted && a.path == ["unit"]

end Attribute

def segmentFault (isFirst : Bool) (ts : List Token) : DeclarationError :=
  match isFirst, ts with
  | true, .identifier name :: _ => .keyword name
  | true, ts => missing .identifier ts
  | false, ts => missing .pathSegment ts

def readSegments (isFirst : Bool) :
    List Token → Except DeclarationError (List String × List Token)
  | .identifier name :: .punctuation ':' true :: .punctuation ':' joint :: r =>
    if isPathWord name then do
      let (names, q) ← readSegments false r
      return (name :: names, q)
    else
      .error (segmentFault isFirst
        (.identifier name :: .punctuation ':' true :: .punctuation ':' joint :: r))
  | .identifier name :: r =>
    if isPathWord name then .ok ([name], r)
    else .error (segmentFault isFirst (.identifier name :: r))
  | ts => .error (segmentFault isFirst ts)

def readPath : List Token → Except DeclarationError ((Bool × List String) × List Token)
  | .punctuation ':' true :: .punctuation ':' _ :: r => do
    let (names, q) ← readSegments true r
    return ((true, names), q)
  | ts => do
    let (names, q) ← readSegments true ts
    return ((false, names), q)

def readAttributePath : List Token → Except DeclarationError ((Bool × List String) × List Token)
  | .identifier "unsafe" :: r => .ok ((false, ["unsafe"]), r)
  | ts => readPath ts

def readAttributeValue : List Token → Except DeclarationError Reading
  | [.literal _ _] => .ok ([], [])
  | .punctuation '#' _ :: .group .brackets _ :: _ => .error .nestedAttribute
  | ts => Expression.read ts

/-- The arguments behind a path.  Of a longer mark the equals sign is no part. -/
def readArguments (ts : List Token) :
    Except DeclarationError ((AttributeArguments × List Delimiter) × List Token) :=
  match ts with
  | .group _ content :: r => .ok ((.list content, []), r)
  | .punctuation '=' joint :: r =>
    if startsMark "==" ts || startsMark "=>" ts then
      .ok ((.bare, []), .punctuation '=' joint :: r)
    else do
      let (found, surplus) ← readAttributeValue r
      return ((.value r, found), surplus)
  | ts => .ok ((.bare, []), ts)

def readAttribute (ts : List Token) : Except DeclarationError (Attribute × List Delimiter) := do
  let ((isRooted, path), r) ← readAttributePath ts
  let ((arguments, found), surplus) ← readArguments r
  return (⟨isRooted, path, arguments⟩, found ++ strays .brackets surplus)

def readAttributes :
    List Token → Except DeclarationError ((List Attribute × List Delimiter) × List Token)
  | .punctuation '#' _ :: .group .brackets content :: r => do
    let (a, found) ← readAttribute content
    let ((as, found'), q) ← readAttributes r
    return ((a :: as, found ++ found'), q)
  | .punctuation '#' _ :: r => .error (missing .squareBrackets r)
  | ts => .ok (([], []), ts)

theorem readAttributes_length {ts r : List Token} {x : List Attribute × List Delimiter}
    (h : readAttributes ts = .ok (x, r)) : r.length ≤ ts.length := by
  fun_induction readAttributes ts generalizing x with
  | case1 joint content rest ih =>
    obtain ⟨⟨a, found⟩, -, h⟩ := bind_eq_ok.1 h
    obtain ⟨⟨⟨as, found'⟩, q⟩, hq, h⟩ := bind_eq_ok.1 h
    cases h
    have hr := ih hq
    simp only [List.length_cons]
    omega
  | case2 => cases h
  | case3 => cases h; exact Nat.le_refl _

end Metrology.Declaration
