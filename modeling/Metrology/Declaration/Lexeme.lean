import Metrology.Declaration.Literal

/-!
# Lexemes

Source text as a flat list of lexemes: delimiters, identifiers, literals and punctuation.  Blanks
and comments separate lexemes and are dropped, except that a documentation comment stands for the
attribute it abbreviates.  A punctuation character is joint when another one follows it directly.
-/

namespace Metrology.Declaration

open Metrology.Text

inductive Delimiter where
  | parentheses
  | brackets
  | braces
  deriving DecidableEq, Repr

inductive Lexeme where
  | opening (d : Delimiter)
  | closing (d : Delimiter)
  | identifier (name : String)
  | literal (spelling : String) (value? : Option String)
  | punctuation (c : Char) (joint : Bool)
  deriving DecidableEq, Repr

def isBlank (c : Char) : Bool :=
  let n := c.toNat
  (9 ≤ n && n ≤ 13) || n == 0x20 || n == 0x85 || n == 0xA0 || n == 0x1680
    || (0x2000 ≤ n && n ≤ 0x200A) || n == 0x200E || n == 0x200F || n == 0x2028 || n == 0x2029
    || n == 0x202F || n == 0x205F || n == 0x3000

/-- The content of a block comment behind its opening, up to and with its end.  Comments nest. -/
def blockComment (depth : Nat) : (s : List Char) → Option (List Char × Rest s)
  | [] => none
  | '*' :: '/' :: r =>
    match depth with
    | 0 => some ([], (Rest.all r).behind.behind)
    | depth + 1 =>
      (blockComment depth r).map fun (cs, q) => ('*' :: '/' :: cs, q.behind.behind)
  | '/' :: '*' :: r =>
    (blockComment (depth + 1) r).map fun (cs, q) => ('/' :: '*' :: cs, q.behind.behind)
  | c :: r => (blockComment depth r).map fun (cs, q) => (c :: cs, q.behind)

def lineComment (s : List Char) : List Char × Rest s := run (· != '\n') s

def hasBareReturn : List Char → Bool
  | [] => false
  | '\r' :: '\n' :: r => hasBareReturn r
  | '\r' :: _ => true
  | _ :: r => hasBareReturn r

inductive CommentRole where
  | plain
  | outerDoc
  | innerDoc
  deriving DecidableEq, Repr

def lineRole : List Char → CommentRole
  | '/' :: '/' :: _ => .plain
  | '/' :: _ => .outerDoc
  | '!' :: _ => .innerDoc
  | _ => .plain

def blockRole : List Char → CommentRole
  | '*' :: '*' :: _ => .plain
  | '*' :: '/' :: _ => .plain
  | '*' :: _ => .outerDoc
  | '!' :: _ => .innerDoc
  | _ => .plain

/-- The attribute that a documentation comment stands for.  No plain comment stands for one, and
none may hold a bare carriage return. -/
def docAttribute? (role : CommentRole) (content : List Char) : Option (List Lexeme) :=
  let text := String.ofList (content.drop 1)
  let bracketed : List Lexeme :=
    [.opening .brackets, .identifier "doc", .punctuation '=' false,
      .literal text (some text), .closing .brackets]
  if hasBareReturn content then none
  else match role with
    | .plain => none
    | .outerDoc => some (.punctuation '#' false :: bracketed)
    | .innerDoc => some (.punctuation '#' false :: .punctuation '!' false :: bracketed)

def scanComment : (s : List Char) → Option (List Lexeme × Rest s)
  | '/' :: r =>
    let (content, q) := lineComment r
    match lineRole content with
    | .plain => some ([], q.behind)
    | role =>
      let content := if content.getLast? = some '\r' && q.1 ≠ [] then content.dropLast else content
      (docAttribute? role content).map fun lexemes => (lexemes, q.behind)
  | '*' :: r => do
    let (content, q) ← blockComment 0 r
    match blockRole r with
    | .plain => some ([], q.behind)
    | role => (docAttribute? role content).map fun lexemes => (lexemes, q.behind)
  | _ => none

def isPunctuation (c : Char) : Bool := "~!@#$%^&*-=+|;:,<.>/?'".toList.contains c

def startsPunctuation : List Char → Bool
  | '/' :: '/' :: _ => false
  | '/' :: '*' :: _ => false
  | c :: _ => isPunctuation c
  | [] => false

/-- An identifier, with the two characters that mark a raw one.  The names of path roots have no raw
form. -/
def scanName : (s : List Char) → Option (String × Rest s)
  | 'r' :: '#' :: r => do
    let (cs, q) ← scanIdentifier r
    let name := String.ofList cs
    if ["_", "super", "self", "Self", "crate"].contains name then none
    else some ("r#" ++ name, q.behind.behind)
  | s => (scanIdentifier s).map fun (cs, q) => (String.ofList cs, q)

def startsQuotation : List Char → Bool
  | 'r' :: '"' :: _ | 'r' :: '#' :: '"' :: _ | 'r' :: '#' :: '#' :: _ => true
  | 'b' :: '"' :: _ | 'b' :: '\'' :: _ | 'b' :: 'r' :: '"' :: _ | 'b' :: 'r' :: '#' :: _ => true
  | 'c' :: '"' :: _ | 'c' :: 'r' :: '"' :: _ | 'c' :: 'r' :: '#' :: _ => true
  | _ => false

def scanLiteral (s : List Char) : Option (Option String × ShorterRest s) :=
  let suffixed {c : Char} {r : List Char} (q : Rest r) : ShorterRest (c :: r) :=
    Rest.shorter (Rest.trans (skipSuffix q.1))
  match s with
  | '"' :: r => (scanString .text r).map fun (cs, q) => (some (String.ofList cs), suffixed q)
  | 'r' :: r =>
    (scanRawString .text r).map fun (cs, q) => (some (String.ofList cs), suffixed q)
  | 'b' :: '"' :: r => (scanString .bytes r).map fun (_, q) => (none, suffixed q.behind)
  | 'b' :: 'r' :: r => (scanRawString .bytes r).map fun (_, q) => (none, suffixed q.behind)
  | 'c' :: '"' :: r => (scanString .terminated r).map fun (_, q) => (none, suffixed q.behind)
  | 'c' :: 'r' :: r =>
    (scanRawString .terminated r).map fun (_, q) => (none, suffixed q.behind)
  | 'b' :: '\'' :: r => (scanCharacter .bytes r).map fun q => (none, suffixed q.behind)
  | '\'' :: r => (scanCharacter .text r).map fun q => (none, suffixed q)
  | c :: r =>
    if c.isDigit then
      match scanNumber (c :: r) with
      | some ⟨q, _⟩ =>
        if h : q.length < (c :: r).length then some (none, ⟨q, h⟩) else none
      | none => none
    else none
  | [] => none

/-- A punctuation character.  An apostrophe needs a name behind it, and no second apostrophe behind
that. -/
def scanPunctuation : (s : List Char) → Option (Lexeme × ShorterRest s)
  | '\'' :: r => do
    let (_, q) ← scanName r
    let misplaced : Bool := match q.1 with
      | '\'' :: _ => true
      | '#' :: _ => !"r#".toList.isPrefixOf r
      | _ => false
    if misplaced then none else some (.punctuation '\'' true, (Rest.all r).shorter)
  | c :: r =>
    if startsPunctuation (c :: r) then
      some (.punctuation c (startsPunctuation r), (Rest.all r).shorter)
    else none
  | [] => none

def faultMark : List Char := "(/*ERROR*/)".toList

def scanLexeme (s : List Char) : Option (Lexeme × ShorterRest s) :=
  match s with
  | [] => none
  | c :: r =>
    let mark (l : Lexeme) : Option (Lexeme × ShorterRest (c :: r)) := some (l, (Rest.all r).shorter)
    if faultMark.isPrefixOf (c :: r) then
      some (.literal (String.ofList faultMark) none, (Rest.drop (faultMark.length - 1) r).shorter)
    else if c = '(' then mark (.opening .parentheses)
    else if c = '[' then mark (.opening .brackets)
    else if c = '\x7b' then mark (.opening .braces)
    else if c = ')' then mark (.closing .parentheses)
    else if c = ']' then mark (.closing .brackets)
    else if c = '\x7d' then mark (.closing .braces)
    else match scanLiteral (c :: r) with
      | some (value?, q) =>
        let spelling := (c :: r).take ((c :: r).length - q.1.length)
        some (.literal (String.ofList spelling) value?, q)
      | none =>
        match scanPunctuation (c :: r) with
        | some l => some l
        | none =>
          if startsQuotation (c :: r) then none
          else match scanName (c :: r) with
            | some (name, ⟨q, _⟩) =>
              if h : q.length < (c :: r).length then some (.identifier name, ⟨q, h⟩) else none
            | none => none

def scanLexemes (s : List Char) : Option (List Lexeme) :=
  match s with
  | [] => some []
  | c :: r =>
    if isBlank c then scanLexemes r
    else
      let comment : Option (List Lexeme × Rest r) := if c = '/' then scanComment r else none
      match comment with
      | some (lexemes, ⟨q, _⟩) => (scanLexemes q).map (lexemes ++ ·)
      | none =>
        match scanLexeme (c :: r) with
        | some (l, ⟨q, _⟩) => (scanLexemes q).map (l :: ·)
        | none => none
  termination_by s.length
  decreasing_by all_goals simp only [List.length_cons] at *; omega

def lexemes (source : String) : Option (List Lexeme) :=
  match source.toList with
  | '\uFEFF' :: s => scanLexemes s
  | s => scanLexemes s

end Metrology.Declaration
