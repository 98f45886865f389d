import Metrology.Text.Identifier
import Metrology.Text.Rest

/-!
# Literals of source text

Strings, characters and numbers as they are written in source text.  A scanner recognizes a literal
behind its opening character and returns what is left; for a string it returns the value, too, with
all escapes decoded.
-/

namespace Metrology.Declaration

open Metrology.Text

inductive LiteralKind where
  | text
  | bytes
  | terminated
  deriving DecidableEq, Repr

namespace LiteralKind

def admits : LiteralKind → Char → Bool
  | .text, _ => true
  | .bytes, c => c.toNat < 128
  | .terminated, c => c != '\x00'

def admitsHex : LiteralKind → Nat → Bool
  | .text, n => n < 128
  | .bytes, _ => true
  | .terminated, n => n != 0

def admitsUnicode : LiteralKind → Char → Bool
  | .text, _ => true
  | .bytes, _ => false
  | .terminated, c => c != '\x00'

end LiteralKind

def simpleEscape? (kind : LiteralKind) (c : Char) : Option Char :=
  match c with
  | 'n' => some '\n'
  | 'r' => some '\r'
  | 't' => some '\t'
  | '\\' => some '\\'
  | '\'' => some '\''
  | '"' => some '"'
  | '0' => if kind = .terminated then none else some '\x00'
  | _ => none

def unicodeDigits (len value : Nat) : (s : List Char) → Option (Char × Rest s)
  | [] => none
  | c :: r =>
    if c = '_' && 0 < len then (unicodeDigits len value r).map fun (d, q) => (d, q.behind)
    else if c = '\x7d' && 0 < len then
      if value.isValidChar then some (Char.ofNat value, (Rest.all r).behind) else none
    else if len = 6 then none
    else match hexValue? c with
      | some d => (unicodeDigits (len + 1) (value * 16 + d) r).map fun (d, q) => (d, q.behind)
      | none => none

def characterEscape (kind : LiteralKind) : (s : List Char) → Option (Char × Rest s)
  | 'x' :: a :: b :: r => do
    let n := (← hexValue? a) * 16 + (← hexValue? b)
    if kind.admitsHex n then some (Char.ofNat n, (Rest.all r).behind.behind.behind) else none
  | 'u' :: '\x7b' :: r => do
    let (c, q) ← unicodeDigits 0 0 r
    if kind.admitsUnicode c then some (c, q.behind.behind) else none
  | c :: r => (simpleEscape? kind c).map fun d => (d, (Rest.all r).behind)
  | [] => none

def continuation : (s : List Char) → Option (Rest s)
  | [] => none
  | '\r' :: '\n' :: r => (continuation r).map fun q => q.behind.behind
  | '\r' :: _ => none
  | c :: r =>
    if c = ' ' || c = '\t' || c = '\n' then (continuation r).map Rest.behind
    else some (.all (c :: r))

def stringEscape (kind : LiteralKind) : (s : List Char) → Option (List Char × Rest s)
  | [] => none
  | c :: r =>
    if c = '\n' || c = '\r' then (continuation (c :: r)).map fun q => ([], q)
    else (characterEscape kind (c :: r)).map fun (d, q) => ([d], q)

def scanIdentifier : (s : List Char) → Option (List Char × Rest s)
  | [] => none
  | c :: r =>
    if isIdentifierStart c then
      let (cs, q) := run isIdentifierContinue r
      some (c :: cs, q.behind)
    else none

def skipSuffix (s : List Char) : Rest s :=
  match scanIdentifier s with
  | some (_, q) => q
  | none => .all s

def scanString (kind : LiteralKind) : (s : List Char) → Option (List Char × Rest s)
  | [] => none
  | '"' :: r => some ([], (Rest.all r).behind)
  | '\r' :: '\n' :: r => (scanString kind r).map fun (cs, q) => ('\n' :: cs, q.behind.behind)
  | '\r' :: _ => none
  | '\\' :: r => do
    let (ds, q) ← stringEscape kind r
    let (cs, q₁) ← scanString kind q.1
    some (ds ++ cs, (Rest.trans q₁).behind)
  | c :: r =>
    if kind.admits c then (scanString kind r).map fun (cs, q) => (c :: cs, q.behind) else none
  termination_by s => s.length
  decreasing_by
    all_goals simp only [List.length_cons]
    · omega
    · have := q.2; omega
    · omega

/-- The content of a raw string up to a quote with `hashes` signs behind it. -/
def rawBody (kind : LiteralKind) (hashes : Nat) : (s : List Char) → Option (List Char × Rest s)
  | [] => none
  | '\r' :: '\n' :: r => (rawBody kind hashes r).map fun (cs, q) => ('\n' :: cs, q.behind.behind)
  | '\r' :: _ => none
  | c :: r =>
    if c = '"' && (List.replicate hashes '#').isPrefixOf r then
      some ([], ⟨r.drop hashes, by simp only [List.length_drop, List.length_cons]; omega⟩)
    else if kind.admits c then
      (rawBody kind hashes r).map fun (cs, q) => (c :: cs, q.behind)
    else none

def scanRawString (kind : LiteralKind) (s : List Char) : Option (List Char × Rest s) :=
  match run (· == '#') s with
  | (signs, ⟨'"' :: r, h⟩) =>
    if 255 < signs.length then none
    else (rawBody kind signs.length r).map fun (cs, q) =>
      (cs, ⟨q.1, Nat.le_trans q.2 (Nat.le_trans (Nat.le_succ _) h)⟩)
  | _ => none

def scanCharacter (kind : LiteralKind) (s : List Char) : Option (Rest s) :=
  let body : Option (Rest s) := match s with
    | [] => none
    | '\\' :: r => (characterEscape kind r).map fun (_, q) => q.behind
    | c :: r => if kind.admits c then some ((Rest.all r).behind) else none
  match body with
  | some ⟨'\'' :: r, h⟩ => some ⟨r, Nat.le_of_succ_le h⟩
  | _ => none

def isDigitOrUnderscore (c : Char) : Bool := c.isDigit || c == '_'

def scanExponent (signed valued : Bool) : (s : List Char) → Option (Rest s)
  | [] => if valued then some (.all []) else none
  | c :: r =>
    if (c = '+' || c = '-') && !valued then
      if signed then none else (scanExponent true valued r).map Rest.behind
    else if c.isDigit then (scanExponent signed true r).map Rest.behind
    else if c = '_' then (scanExponent signed valued r).map Rest.behind
    else if valued then some (.all (c :: r)) else none

def scanFloat (s : List Char) : Option (Rest s) :=
  match run isDigitOrUnderscore s with
  | (_, ⟨'.' :: r, h⟩) =>
    let startsWord : Bool := match r with
      | c :: _ => c == '.' || isIdentifierStart c
      | [] => false
    if startsWord then none
    else
      let q := skip isDigitOrUnderscore r
      let bound : q.1.length ≤ s.length := Nat.le_trans q.2 (Nat.le_of_succ_le h)
      match q, bound with
      | ⟨c :: t, _⟩, bound =>
        let exponent := if c = 'e' || c = 'E' then scanExponent false false t else none
        match exponent with
        | some e => some ⟨e.1, Nat.le_trans e.2 (Nat.le_of_succ_le bound)⟩
        | none => some ⟨c :: t, bound⟩
      | ⟨[], _⟩, _ => some ⟨[], Nat.zero_le _⟩
  | (_, ⟨c :: r, h⟩) =>
    if c = 'e' || c = 'E' then
      (scanExponent false false r).map fun q => ⟨q.1, Nat.le_trans q.2 (Nat.le_of_succ_le h)⟩
    else none
  | _ => none

/-- Digits of a base, at least one, with underscores.  A decimal digit that is too large for the
base spoils the number; a letter ends it. -/
def scanDigits (base : Nat) (seen : Bool) : (s : List Char) → Option (Rest s)
  | [] => if seen then some (.all []) else none
  | c :: r =>
    if c = '_' then
      if !seen && base == 10 then none else (scanDigits base seen r).map Rest.behind
    else match hexValue? c with
      | some d =>
        if d < base then (scanDigits base true r).map Rest.behind
        else if c.isDigit then none
        else if seen then some (.all (c :: r)) else none
      | none => if seen then some (.all (c :: r)) else none

def scanInteger : (s : List Char) → Option (Rest s)
  | '0' :: 'x' :: r => (scanDigits 16 false r).map fun q => q.behind.behind
  | '0' :: 'o' :: r => (scanDigits 8 false r).map fun q => q.behind.behind
  | '0' :: 'b' :: r => (scanDigits 2 false r).map fun q => q.behind.behind
  | s => scanDigits 10 false s

def numberSuffix (s : List Char) : Option (Rest s) :=
  match skipSuffix s with
  | ⟨c :: r, h⟩ => if isIdentifierContinue c then none else some ⟨c :: r, h⟩
  | q => some q

def scanNumber (s : List Char) : Option (Rest s) :=
  let suffixed (q : Rest s) : Option (Rest s) := (numberSuffix q.1).map Rest.trans
  match (scanFloat s).bind suffixed with
  | some q => some q
  | none => (scanInteger s).bind suffixed

end Metrology.Declaration
