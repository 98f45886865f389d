import Metrology.Declaration.Generics

/-!
# Bodies

The body of an item holds its fields or its variants.  Of a body only its form is kept, and the
names of its variants.
-/

namespace Metrology.Declaration

inductive Body where
  | semicolon
  | braces
  | parentheses
  | variants (names : List String)
  | union
  deriving DecidableEq, Repr

def readFieldName : List Token → Except DeclarationError (List Token)
  | .identifier "_" :: r => .ok r
  | ts => do
    let (_, r) ← readIdentifier ts
    return r

def readColon : List Token → Except DeclarationError (List Token)
  | .punctuation ':' _ :: r => .ok r
  | _ => .error (.expectedMark ":")

def readFront (ts : List Token) : Except DeclarationError Reading := do
  let ((_, found), r) ← readAttributes ts
  let ((_, found'), r) ← readVisibility r
  return (found ++ found', r)

def readNamedField (ts : List Token) : Except DeclarationError Reading := do
  let (found, r) ← readFront ts
  let type ← readType (← readColon (← readFieldName r))
  return (found ++ type.strays, type.rest)

def readTupleField (ts : List Token) : Except DeclarationError Reading := do
  let (found, r) ← readFront ts
  let type ← readType r
  return (found ++ type.strays, type.rest)

theorem readFieldName_length {ts r : List Token} (h : readFieldName ts = .ok r) :
    r.length < ts.length := by
  unfold readFieldName at h
  split at h
  · cases h; simp
  · obtain ⟨⟨name, q⟩, hq, h⟩ := bind_eq_ok.1 h
    cases h
    exact readIdentifier_length hq

theorem readColon_length {ts r : List Token} (h : readColon ts = .ok r) :
    r.length < ts.length := by
  unfold readColon at h
  split at h
  · cases h; simp
  · cases h

theorem readFront_length {ts r : List Token} {found : List Delimiter}
    (h : readFront ts = .ok (found, r)) : r.length ≤ ts.length := by
  obtain ⟨⟨⟨attributes, found₁⟩, r₁⟩, h₁, h⟩ := bind_eq_ok.1 h
  obtain ⟨⟨⟨visibility, found₂⟩, r₂⟩, h₂, h⟩ := bind_eq_ok.1 h
  cases h
  have := readAttributes_length h₁
  have := readVisibility_length h₂
  omega

theorem readNamedField_length {ts r : List Token} {found : List Delimiter}
    (h : readNamedField ts = .ok (found, r)) : r.length < ts.length := by
  obtain ⟨⟨found', r₁⟩, h₁, h⟩ := bind_eq_ok.1 h
  obtain ⟨r₂, h₂, h⟩ := bind_eq_ok.1 h
  obtain ⟨r₃, h₃, h⟩ := bind_eq_ok.1 h
  obtain ⟨type, h₄, h⟩ := bind_eq_ok.1 h
  cases h
  have := readFront_length h₁
  have := readFieldName_length h₂
  have := readColon_length h₃
  have := readType_length h₄
  omega

theorem readTupleField_length {ts r : List Token} {found : List Delimiter}
    (h : readTupleField ts = .ok (found, r)) : r.length < ts.length := by
  obtain ⟨⟨found', r₁⟩, h₁, h⟩ := bind_eq_ok.1 h
  obtain ⟨type, h₂, h⟩ := bind_eq_ok.1 h
  cases h
  have := readFront_length h₁
  have := readType_length h₂
  omega

def readNamedFields (content : List Token) : Except DeclarationError (List Delimiter) := do
  return (← readSeparated readNamedField readNamedField_length content).flatten

def readTupleFields (content : List Token) : Except DeclarationError (List Delimiter) := do
  return (← readSeparated readTupleField readTupleField_length content).flatten

def readVariantFields : List Token → Except DeclarationError Reading
  | .group .braces content :: r => do return (← readNamedFields content, r)
  | .group .parentheses content :: r => do return (← readTupleFields content, r)
  | ts => .ok ([], ts)

def readDiscriminant : List Token → Except DeclarationError Reading
  | .punctuation '=' _ :: r => Expression.read r
  | ts => .ok ([], ts)

def readVariant (ts : List Token) :
    Except DeclarationError ((String × List Delimiter) × List Token) := do
  let (found, r) ← readFront ts
  let (name, r) ← readIdentifier r
  let (found', r) ← readVariantFields r
  let (found'', r) ← readDiscriminant r
  return ((name, found ++ found' ++ found''), r)

theorem readVariantFields_length {ts r : List Token} {found : List Delimiter}
    (h : readVariantFields ts = .ok (found, r)) : r.length ≤ ts.length := by
  unfold readVariantFields at h
  split at h
  · obtain ⟨found', -, h⟩ := bind_eq_ok.1 h
    cases h; simp
  · obtain ⟨found', -, h⟩ := bind_eq_ok.1 h
    cases h; simp
  · cases h; exact Nat.le_refl _

theorem readDiscriminant_length {ts r : List Token} {found : List Delimiter}
    (h : readDiscriminant ts = .ok (found, r)) : r.length ≤ ts.length := by
  unfold readDiscriminant at h
  split at h
  · have := Expression.read_length h
    simp only [List.length_cons]
    omega
  · cases h; exact Nat.le_refl _

theorem readVariant_length {ts r : List Token} {x : String × List Delimiter}
    (h : readVariant ts = .ok (x, r)) : r.length < ts.length := by
  obtain ⟨⟨found₁, r₁⟩, h₁, h⟩ := bind_eq_ok.1 h
  obtain ⟨⟨name, r₂⟩, h₂, h⟩ := bind_eq_ok.1 h
  obtain ⟨⟨found₃, r₃⟩, h₃, h⟩ := bind_eq_ok.1 h
  obtain ⟨⟨found₄, r₄⟩, h₄, h⟩ := bind_eq_ok.1 h
  cases h
  have := readFront_length h₁
  have := readIdentifier_length h₂
  have := readVariantFields_length h₃
  have := readDiscriminant_length h₄
  omega

def readVariants (content : List Token) :
    Except DeclarationError (List String × List Delimiter) := do
  let variants ← readSeparated readVariant readVariant_length content
  return (variants.map (·.1), (variants.map (·.2)).flatten)

abbrev ConstrainedBody := Body × List String

def readStructBody (ts : List Token) :
    Except DeclarationError ((ConstrainedBody × List Delimiter) × List Token) := do
  let (conditions, found, r) ← readConditions ts
  match r, startsWord "where" ts with
  | .punctuation ';' _ :: r, _ => return (((.semicolon, conditions), found), r)
  | .group .braces content :: r, _ =>
    return (((.braces, conditions), found ++ (← readNamedFields content)), r)
  | .group .parentheses content :: r, false => do
    let found ← readTupleFields content
    let (conditions, found', q) ← readConditions r
    match q with
    | .punctuation ';' _ :: q => return (((.parentheses, conditions), found ++ found'), q)
    | q => .error (missing (if startsWord "where" r then .word ";" else .endOfTuple) q)
  | r, isConstrained => .error (missing (if isConstrained then .constrainedBody else .body) r)

def readEnumBody (ts : List Token) :
    Except DeclarationError ((ConstrainedBody × List Delimiter) × List Token) := do
  let (conditions, found, r) ← readConditions ts
  match r with
  | .group .braces content :: r =>
    let (names, found') ← readVariants content
    return (((.variants names, conditions), found ++ found'), r)
  | r => .error (missing .curlyBraces r)

def readUnionBody (ts : List Token) :
    Except DeclarationError ((ConstrainedBody × List Delimiter) × List Token) := do
  let (conditions, found, r) ← readConditions ts
  match r with
  | .group .braces content :: r =>
    return (((.union, conditions), found ++ (← readNamedFields content)), r)
  | r => .error (missing .curlyBraces r)

end Metrology.Declaration
