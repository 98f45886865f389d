import Metrology.Declaration.Parser

/-!
# Entries

The arguments of a unit attribute are entries: a key, an equals sign and a value, with a comma
behind it or not.  Entries are read from left to right, so that the first faulty one is the one
reported.
-/

namespace Metrology.Declaration

/-- A string literal as it is spelled, and the text it stands for. -/
structure StringLiteral where
  spelling : String
  value : String
  deriving DecidableEq, Repr

inductive Entry where
  | name (text : StringLiteral)
  | symbol (text : StringLiteral)
  | dimension (words : List String)
  deriving DecidableEq, Repr

namespace Entry

def key : Entry → Key
  | .name _ => .name
  | .symbol _ => .symbol
  | .dimension _ => .dimension

def name? : Entry → Option StringLiteral
  | .name text => some text
  | _ => none

def symbol? : Entry → Option StringLiteral
  | .symbol text => some text
  | _ => none

def dimension? : Entry → Option (List String)
  | .dimension words => some words
  | _ => none

end Entry

def Key.ofText? : String → Option Key
  | "name" => some .name
  | "symbol" => some .symbol
  | "dimension" => some .dimension
  | _ => none

def readEquals : List Token → Except DeclarationError (List Token)
  | .punctuation '=' _ :: r => .ok r
  | _ => .error (.expectedMark "=")

def readString : List Token → Except DeclarationError (StringLiteral × List Token)
  | .literal spelling (some value) :: r => .ok (⟨spelling, value⟩, r)
  | ts => .error (missing .stringLiteral ts)

namespace Parser

variable (parser : Parser)

def readValue (key : Key) (ts : List Token) : Except DeclarationError (Entry × Reading) :=
  match key with
  | .name => do
    let (text, r) ← readString ts
    return (.name text, [], r)
  | .symbol => do
    let (text, r) ← readString ts
    return (.symbol text, [], r)
  | .dimension => do
    let x ← parser.readType ts
    return (.dimension x.words, x.strays, x.rest)

/-- An unknown key is reported in front of its value, whatever that is. -/
def readEntry (ts : List Token) : Except DeclarationError (Entry × Reading) := do
  let (word, r) ← readIdentifier ts
  let r ← readEquals r
  match Key.ofText? word with
  | some key => parser.readValue key r
  | none => .error (.unknownKey word)

end Parser

def skipComma : List Token → List Token
  | .punctuation ',' _ :: r => r
  | ts => ts

theorem skipComma_length (ts : List Token) : (skipComma ts).length ≤ ts.length := by
  unfold skipComma
  split <;> simp

theorem readEquals_length {ts r : List Token} (h : readEquals ts = .ok r) :
    r.length < ts.length := by
  unfold readEquals at h
  split at h
  · cases h; simp
  · cases h

theorem readString_length {ts r : List Token} {text : StringLiteral}
    (h : readString ts = .ok (text, r)) : r.length < ts.length := by
  unfold readString at h
  split at h
  · cases h; simp
  · cases h

namespace Parser

variable {parser : Parser}

theorem readValue_length {key : Key} {ts r : List Token} {entry : Entry} {found : List Delimiter}
    (h : parser.readValue key ts = .ok (entry, found, r)) : r.length < ts.length := by
  cases key with
  | name | symbol =>
    obtain ⟨⟨text, q⟩, hq, h⟩ := bind_eq_ok.1 h
    cases h
    exact readString_length hq
  | dimension =>
    obtain ⟨x, hx, h⟩ := bind_eq_ok.1 h
    cases h
    exact parser.readType_length hx

theorem readEntry_length {ts r : List Token} {entry : Entry} {found : List Delimiter}
    (h : parser.readEntry ts = .ok (entry, found, r)) : r.length < ts.length := by
  obtain ⟨⟨word, r₁⟩, h₁, h⟩ := bind_eq_ok.1 h
  obtain ⟨r₂, h₂, h⟩ := bind_eq_ok.1 h
  have hw := readIdentifier_length h₁
  have he := readEquals_length h₂
  split at h
  · have hv := readValue_length h
    omega
  · cases h

/-- Reads a list of tokens as entries.  What is left in a group of a value is kept aside. -/
def readEntries (parser : Parser) (ts : List Token) :
    Except DeclarationError (List Entry × List Delimiter) :=
  match ts with
  | [] => .ok ([], [])
  | t :: ts =>
    match _ : parser.readEntry (t :: ts) with
    | .error e => .error e
    | .ok (entry, found, r) => do
      let (entries, found') ← readEntries parser (skipComma r)
      return (entry :: entries, found ++ found')
  termination_by ts.length
  decreasing_by
    have := readEntry_length ‹_›
    have := skipComma_length r
    simp only [List.length_cons] at *
    omega

end Parser

end Metrology.Declaration
