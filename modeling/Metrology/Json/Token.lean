import Metrology.Json.Numeral
import Metrology.Text.Rest

/-!
# JSON tokens

The first token of a JSON value tells what kind of value it is.  A scalar token carries its content;
an array or an object is known by its bracket alone.  The scanners take a token off the front of a
text and return what is left, which is never longer than what they were given.
-/

namespace Metrology.Json

open Metrology.Text

inductive Fault where
  | malformed
  | endOfText
  deriving DecidableEq, Repr

inductive Token where
  | null
  | bool (b : Bool)
  | number (n : Numeral)
  | string (s : String)
  | sequence
  | map
  | fault (f : Fault)
  deriving DecidableEq, Repr

def isSpace (c : Char) : Bool := c == ' ' || c == '\t' || c == '\n' || c == '\r'

def skipSpace (s : List Char) : Rest s := skip isSpace s

def digitRun (s : List Char) : List Char × Rest s := run Char.isDigit s

def someDigits (s : List Char) : Except Fault (List Char × Rest s) :=
  match digitRun s with
  | ([], ⟨[], _⟩) => .error .endOfText
  | ([], _) => .error .malformed
  | run => .ok run

def integerPart (s : List Char) : Except Fault (List Char × Rest s) :=
  match someDigits s with
  | .ok ('0' :: _ :: _, _) => .error .malformed
  | result => result

def fractionPart : (s : List Char) → Except Fault (List Char × Rest s)
  | '.' :: r => do
    let (ds, ⟨rest, h⟩) ← someDigits r
    return (ds, ⟨rest, by simp only [List.length_cons]; omega⟩)
  | s => .ok ([], .all s)

def exponentSign : (s : List Char) → Bool × Rest s
  | '-' :: r => (true, ⟨r, by simp⟩)
  | '+' :: r => (false, ⟨r, by simp⟩)
  | s => (false, .all s)

def exponentPart : (s : List Char) → Except Fault (Option Int × Rest s)
  | c :: r =>
    if c = 'e' || c = 'E' then do
      let (negative, ⟨r₁, h₁⟩) := exponentSign r
      let (ds, ⟨r₂, h₂⟩) ← someDigits r₁
      let n : Int := Nat.ofDigitChars 10 ds 0
      return (some (if negative then -n else n),
        ⟨r₂, by simp only [List.length_cons]; omega⟩)
    else .ok (none, ⟨c :: r, Nat.le_refl _⟩)
  | [] => .ok (none, ⟨[], Nat.le_refl _⟩)

def scanNumber (negative : Bool) (s : List Char) : Except Fault (Numeral × Rest s) := do
  let (whole, ⟨r₁, h₁⟩) ← integerPart s
  let (fraction, ⟨r₂, h₂⟩) ← fractionPart r₁
  let (exponent, ⟨r₃, h₃⟩) ← exponentPart r₂
  let places := Decimal.dropTrailing '0' fraction
  let numeral : Numeral :=
    { negative := negative
      coefficient := Nat.ofDigitChars 10 (whole ++ places) 0
      exponent := exponent.getD 0 - places.length
      integral := fraction.isEmpty && exponent.isNone }
  return (numeral, ⟨r₃, by omega⟩)

/-- Four hexadecimal digits.  Too few bytes for them are the end of the text, whatever they are. -/
def hexUnit : (s : List Char) → Except Fault (Nat × ShorterRest s)
  | a :: b :: c :: d :: r =>
    match [a, b, c, d].mapM hexValue? with
    | some ds => .ok (ds.foldl (fun n d => n * 16 + d) 0,
        ⟨r, by simp only [List.length_cons]; omega⟩)
    | none => .error .malformed
  | s => .error (if (String.ofList s).utf8ByteSize < 4 then .endOfText else .malformed)

def isHighSurrogate (n : Nat) : Bool := 0xD800 ≤ n && n < 0xDC00

def isLowSurrogate (n : Nat) : Bool := 0xDC00 ≤ n && n < 0xE000

def lowSurrogate (high : Nat) : (s : List Char) → Except Fault (Char × ShorterRest s)
  | '\\' :: 'u' :: r => do
    let (low, ⟨rest, h⟩) ← hexUnit r
    if isLowSurrogate low then
      return (Char.ofNat (0x10000 + (high - 0xD800) * 0x400 + (low - 0xDC00)),
        ⟨rest, by simp only [List.length_cons]; omega⟩)
    else throw .malformed
  | [] | ['\\'] => .error .endOfText
  | _ => .error .malformed

def escaped : (s : List Char) → Except Fault (Char × ShorterRest s)
  | 'u' :: r => do
    let (n, ⟨r₁, h₁⟩) ← hexUnit r
    if isHighSurrogate n then
      let (c, ⟨r₂, h₂⟩) ← lowSurrogate n r₁
      return (c, ⟨r₂, by simp only [List.length_cons]; omega⟩)
    else if isLowSurrogate n then throw .malformed
    else return (Char.ofNat n, ⟨r₁, by simp only [List.length_cons]; omega⟩)
  | c :: r =>
    let plain (c : Char) : Except Fault (Char × ShorterRest (_ :: r)) := .ok (c, ⟨r, by simp⟩)
    match c with
    | '"' => plain '"'
    | '\\' => plain '\\'
    | '/' => plain '/'
    | 'b' => plain '\x08'
    | 'f' => plain '\x0c'
    | 'n' => plain '\n'
    | 'r' => plain '\r'
    | 't' => plain '\t'
    | _ => .error .malformed
  | [] => .error .endOfText

def scanString : (s : List Char) → Except Fault (List Char × ShorterRest s)
  | [] => .error .endOfText
  | '"' :: r => .ok ([], ⟨r, by simp⟩)
  | '\\' :: r => do
    let (c, ⟨r₁, h₁⟩) ← escaped r
    let (cs, ⟨r₂, h₂⟩) ← scanString r₁
    return (c :: cs, ⟨r₂, by simp only [List.length_cons]; omega⟩)
  | c :: r =>
    if c.toNat < 32 then .error .malformed
    else do
      let (cs, ⟨r₁, h₁⟩) ← scanString r
      return (c :: cs, ⟨r₁, by simp only [List.length_cons]; omega⟩)
  termination_by s => s.length

def scanWord : (word s : List Char) → Except Fault (Rest s)
  | [], s => .ok ⟨s, Nat.le_refl _⟩
  | _ :: _, [] => .error .endOfText
  | w :: word, c :: s =>
    if c = w then do
      let ⟨r, h⟩ ← scanWord word s
      return ⟨r, by simp only [List.length_cons]; omega⟩
    else .error .malformed

def literal (token : Token) (word s : List Char) : Token × Rest s :=
  match scanWord word s with
  | .ok r => (token, r)
  | .error f => (.fault f, .all s)

def number (negative : Bool) (s : List Char) : Token × Rest s :=
  match scanNumber negative s with
  | .ok (n, r) => (.number n, r)
  | .error f => (.fault f, .all s)

def scanToken : (s : List Char) → Token × Rest s
  | [] => (.fault .endOfText, ⟨[], Nat.le_refl _⟩)
  | '[' :: r => (.sequence, ⟨r, by simp⟩)
  | '{' :: r => (.map, ⟨r, by simp⟩)
  | '"' :: r =>
    match scanString r with
    | .ok (cs, ⟨rest, h⟩) =>
      (.string (String.ofList cs), ⟨rest, by simp only [List.length_cons]; omega⟩)
    | .error f => (.fault f, ⟨'"' :: r, Nat.le_refl _⟩)
  | '-' :: r =>
    let (token, ⟨rest, h⟩) := number true r
    (token, ⟨rest, by simp only [List.length_cons]; omega⟩)
  | c :: r =>
    if c = 'n' then literal .null ['n', 'u', 'l', 'l'] (c :: r)
    else if c = 't' then literal (.bool true) ['t', 'r', 'u', 'e'] (c :: r)
    else if c = 'f' then literal (.bool false) ['f', 'a', 'l', 's', 'e'] (c :: r)
    else if c.isDigit then number false (c :: r)
    else (.fault .malformed, ⟨c :: r, Nat.le_refl _⟩)

end Metrology.Json
