import Metrology.Json.Token
import Metrology.Quantity.Basic
import Metrology.Scalar.Text
import Metrology.Text.Quoted
import Metrology.Unit.Named

/-!
# Tagged quantities

A tagged quantity is a JSON object with its number under `value` and the symbol of its unit under
`unit`.  Reading asks for a dimension and a precision.  The entries may come in any order and the
unit may be left out; a unit that is present must be the base symbol or the named symbol of the
dimension asked for.  Entries are read in document order and the first fault is the one reported.
-/

namespace Metrology.Json

open Metrology.Text

inductive Expectation where
  | number (p : Precision)
  | string
  | object
  deriving DecidableEq, Repr

inductive DataError where
  | invalidType (found : Token) (expected : Expectation)
  | missingValue
  | duplicateField (key : String)
  | unknownField (key : String)
  | unitMismatch (expected found : String)
  deriving DecidableEq, Repr

inductive ReadError where
  | fault (f : Fault)
  | data (e : DataError)
  deriving DecidableEq, Repr

/-- Positional notation from `1e-5` up to `1e16`, scientific notation outside; of two shortest
decimals that are equally near, the even one. -/
def floatText (word : Nat) : String :=
  (Binary.Layout.double.decode word).text fun m e =>
    if m = 0 then ['0', '.', '0']
    else
      let d := Decimal.shortest .toEven .double m e
      if -5 < d.point && d.point ≤ 16 then d.positionalWithPoint else d.scientificSigned

def Numeral.describe (n : Numeral) : String :=
  if n.isWordInteger then
    "integer \x60" ++ (if n.negative then "-" else "") ++ toString n.coefficient ++ "\x60"
  else "floating point \x60" ++ floatText ((n.word? .double).getD 0) ++ "\x60"

def Token.describe : Token → String
  | .null => "null"
  | .bool true => "boolean \x60true\x60"
  | .bool false => "boolean \x60false\x60"
  | .number n => n.describe
  | .string s => "string " ++ Text.quoted s
  | .sequence => "sequence"
  | .map => "map"
  | .fault _ => ""

def Expectation.describe : Expectation → String
  | .number .single => "f32"
  | .number .double => "f64"
  | .string => "a string"
  | .object => "struct Quantity with value and unit fields"

def DataError.message : DataError → String
  | .invalidType found expected =>
    "invalid type: " ++ found.describe ++ ", expected " ++ expected.describe
  | .missingValue => "missing field \x60value\x60"
  | .duplicateField key => "duplicate field \x60" ++ key ++ "\x60"
  | .unknownField key =>
    "unknown field \x60" ++ key ++ "\x60, expected \x60value\x60 or \x60unit\x60"
  | .unitMismatch expected found =>
    "unit mismatch: expected '" ++ expected ++ "', found '" ++ found ++ "'"

/-- A token of another type than the one expected.  A number is read before it is refused, so one
that is out of range is a fault of the text. -/
def unexpected (token : Token) (expected : Expectation) : ReadError :=
  match token with
  | .fault f => .fault f
  | .number n =>
    if n.isWordInteger || (n.word? .double).isSome then .data (.invalidType token expected)
    else .fault .malformed
  | _ => .data (.invalidType token expected)

def readNumber (p : Precision) : Token → Except ReadError (Machine p)
  | .number n =>
    match n.word? p.layout with
    | some word => .ok (Machine.ofWord p word)
    | none => .error (.fault .malformed)
  | token => .error (unexpected token (.number p))

def readString : Token → Except ReadError String
  | .string s => .ok s
  | token => .error (unexpected token .string)

abbrev Entry := String × Token

structure Fields (p : Precision) where
  value : Option (Machine p)
  unit : Option String

def Fields.empty (p : Precision) : Fields p := ⟨none, none⟩

def Fields.read {p : Precision} (fields : Fields p) : Entry → Except ReadError (Fields p)
  | (key, token) =>
    if key = "value" then
      if fields.value.isSome then .error (.data (.duplicateField key))
      else do return { fields with value := some (← readNumber p token) }
    else if key = "unit" then
      if fields.unit.isSome then .error (.data (.duplicateField key))
      else do return { fields with unit := some (← readString token) }
    else .error (.data (.unknownField key))

def namesUnit (d : Dimension) (text : String) : Bool :=
  text == d.symbol || (NamedUnit.lookup d).map (·.symbol) == some text

def Fields.finish {p : Precision} (d : Dimension) (fields : Fields p) :
    Except ReadError (Machine p) :=
  match fields.value, fields.unit with
  | none, _ => .error (.data .missingValue)
  | some x, none => .ok x
  | some x, some text =>
    if namesUnit d text then .ok x else .error (.data (.unitMismatch d.symbol text))

def readEntries (d : Dimension) (p : Precision) (entries : List Entry) :
    Except ReadError (Machine p) := do
  (← entries.foldlM Fields.read (.empty p)).finish d

/-- An object as far as it can be read: its entries, and what follows its closing brace or why there
is none. -/
structure Members (s : List Char) where
  entries : List Entry
  ending : Except Fault (Rest s)

def Token.isClosed : Token → Bool
  | .sequence | .map | .fault _ => false
  | _ => true

def scanMember (s : List Char) : Token × Rest s :=
  match skipSpace s with
  | ⟨':' :: r, h⟩ =>
    let ⟨r₁, h₁⟩ := skipSpace r
    let (token, ⟨r₂, h₂⟩) := scanToken r₁
    (token, ⟨r₂, by simp only [List.length_cons] at h; omega⟩)
  | ⟨[], h⟩ => (.fault .endOfText, ⟨[], h⟩)
  | r => (.fault .malformed, r)

def openKey (first : Bool) : (s : List Char) → Except Fault (ShorterRest s)
  | '"' :: r => if first then .ok (Rest.all r).shorter else .error .malformed
  | ',' :: r =>
    if first then .error .malformed
    else
      match skipSpace r with
      | ⟨'"' :: r₁, h₁⟩ => .ok ⟨r₁, by simp only [List.length_cons] at h₁ ⊢; omega⟩
      | ⟨[], _⟩ => .error .endOfText
      | _ => .error .malformed
  | _ => .error .malformed

def scanEntry (first : Bool) (s : List Char) : Except Fault (Entry × ShorterRest s) := do
  let ⟨r₁, h₁⟩ ← openKey first s
  let (cs, ⟨r₂, h₂⟩) ← scanString r₁
  let (token, ⟨r₃, h₃⟩) := scanMember r₂
  return ((String.ofList cs, token), ⟨r₃, by omega⟩)

def scanMembers (first : Bool) (s : List Char) : Members s :=
  match skipSpace s with
  | ⟨[], _⟩ => ⟨[], .error .endOfText⟩
  | ⟨'\x7d' :: r, h⟩ => ⟨[], .ok ⟨r, by simp only [List.length_cons] at h; omega⟩⟩
  | ⟨c :: r, h⟩ =>
    match scanEntry first (c :: r) with
    | .error f => ⟨[], .error f⟩
    | .ok (entry, ⟨r₁, h₁⟩) =>
      if entry.2.isClosed then
        let more := scanMembers false r₁
        ⟨entry :: more.entries, more.ending.map fun ⟨r₂, h₂⟩ => ⟨r₂, by omega⟩⟩
      else ⟨[entry], .error .malformed⟩
  termination_by s.length

def readEnd (s : List Char) : Except ReadError Unit :=
  if s.all isSpace then .ok () else .error (.fault .malformed)

def readBare (p : Precision) (text : String) : Except ReadError (Machine p) := do
  let (token, ⟨rest, _⟩) := scanToken (skipSpace text.toList).val
  let x ← readNumber p token
  readEnd rest
  return x

def readTagged (d : Dimension) (p : Precision) (text : String) :
    Except ReadError (Machine p) := do
  match (skipSpace text.toList).val with
  | '\x7b' :: s =>
    let members := scanMembers true s
    let fields ← members.entries.foldlM Fields.read (.empty p)
    match members.ending with
    | .error f => throw (.fault f)
    | .ok ⟨rest, _⟩ =>
      let x ← fields.finish d
      readEnd rest
      return x
  | s => throw (unexpected (scanToken s).1 .object)

def wordText (p : Precision) (word : Nat) : String :=
  let ds := Nat.toDigits 16 word
  String.ofList (List.replicate (2 * p.width - ds.length) '0' ++ ds)

def numberText {p : Precision} (x : Machine p) : String :=
  if Machine.isFinite x then "\"" ++ wordText p (Machine.word x) ++ "\"" else "null"

def bareText (q : Quantity Machine) : String := numberText q.scalar.value

def taggedTextOf (number : String) (d : Dimension) : String :=
  "\x7b\"value\":" ++ number ++ ",\"unit\":\"" ++ d.symbol ++ "\"\x7d"

def taggedText (q : Quantity Machine) : String :=
  taggedTextOf (numberText q.scalar.value) q.dimension

end Metrology.Json
