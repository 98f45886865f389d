import Metrology.Declaration.Body

/-!
# Items

An item declares a type: attributes, a visibility, a keyword, a name, generics and a body.
-/

namespace Metrology.Declaration

structure Item where
  attributes : List Attribute
  visibility : Visibility
  name : String
  generics : Generics
  body : Body
  deriving Repr

def readDeclaration (ts : List Token) :
    Except DeclarationError ((String × Generics × Body) × Reading) := do
  let (readBody, r) ← show Except DeclarationError _ from match ts with
    | .identifier "struct" :: r => .ok (readStructBody, r)
    | .identifier "enum" :: r => .ok (readEnumBody, r)
    | .identifier "union" :: r => .ok (readUnionBody, r)
    | ts => .error (missing .itemKeyword ts)
  let (name, r) ← readIdentifier r
  let (parameters, found, r) ← readGenerics r
  let (((body, conditions), found'), r) ← readBody r
  return ((name, ⟨parameters, conditions⟩, body), found ++ found', r)

def Item.read (ts : List Token) : Except DeclarationError Item := do
  let ((attributes, found), r) ← readAttributes ts
  let ((visibility, found'), r) ← readVisibility r
  let ((name, generics, body), found'', r) ← readDeclaration r
  match found ++ found' ++ found'' with
  | d :: _ => .error (.unexpectedToken (some d))
  | [] =>
    if r.isEmpty then return ⟨attributes, visibility, name, generics, body⟩
    else .error (.unexpectedToken none)

end Metrology.Declaration
