import Metrology.Declaration.Lexeme

/-!
# Token trees

Lexemes with matching delimiters form groups.  What a reader of tokens expects and does not find is
a declaration error.
-/

namespace Metrology.Declaration

def Delimiter.closingMark : Delimiter → String
  | .parentheses => ")"
  | .brackets => "]"
  | .braces => "\x7d"

inductive Token where
  | identifier (name : String)
  | literal (spelling : String) (value? : Option String)
  | punctuation (c : Char) (joint : Bool)
  | group (d : Delimiter) (content : List Token)
  deriving Repr

mutual

def Token.decEq : (t u : Token) → Decidable (t = u)
  | .identifier name, .identifier name' => decidable_of_iff (name = name') (by simp)
  | .literal spelling value?, .literal spelling' value?' =>
    decidable_of_iff (spelling = spelling' ∧ value? = value?') (by simp)
  | .punctuation c joint, .punctuation c' joint' =>
    decidable_of_iff (c = c' ∧ joint = joint') (by simp)
  | .group d content, .group d' content' =>
    have := Token.decEqAll content content'
    decidable_of_iff (d = d' ∧ content = content') (by simp)
  | .identifier _, .literal _ _ | .identifier _, .punctuation _ _ | .identifier _, .group _ _
  | .literal _ _, .identifier _ | .literal _ _, .punctuation _ _ | .literal _ _, .group _ _
  | .punctuation _ _, .identifier _ | .punctuation _ _, .literal _ _ | .punctuation _ _, .group _ _
  | .group _ _, .identifier _ | .group _ _, .literal _ _ | .group _ _, .punctuation _ _ =>
    isFalse nofun

def Token.decEqAll : (ts us : List Token) → Decidable (ts = us)
  | [], [] => isTrue rfl
  | t :: ts, u :: us =>
    have := Token.decEq t u
    have := Token.decEqAll ts us
    decidable_of_iff (t = u ∧ ts = us) (by simp)
  | [], _ :: _ | _ :: _, [] => isFalse nofun

end

instance : DecidableEq Token := Token.decEq

/-- Closes groups as their closing delimiters come.  `pending` holds the groups that are still open,
each with what stood in front of it; tokens are collected in reverse. -/
def assemble (pending : List (Delimiter × List Token)) (current : List Token) :
    List Lexeme → Option (List Token)
  | [] => if pending.isEmpty then some current.reverse else none
  | .opening d :: ls => assemble ((d, current) :: pending) [] ls
  | .closing d :: ls =>
    match pending with
    | (opened, outer) :: pending =>
      if opened = d then assemble pending (.group d current.reverse :: outer) ls else none
    | [] => none
  | .identifier name :: ls => assemble pending (.identifier name :: current) ls
  | .literal spelling value? :: ls => assemble pending (.literal spelling value? :: current) ls
  | .punctuation c joint :: ls => assemble pending (.punctuation c joint :: current) ls

def tokens? (source : String) : Option (List Token) := do
  assemble [] [] (← lexemes source)

mutual

def weight : Token → Nat
  | .group _ content => totalWeight content + 1
  | _ => 1

def totalWeight : List Token → Nat
  | [] => 0
  | t :: ts => weight t + totalWeight ts

end

inductive Key where
  | name
  | symbol
  | dimension
  deriving DecidableEq, Repr

def Key.text : Key → String
  | .name => "name"
  | .symbol => "symbol"
  | .dimension => "dimension"

inductive Expected where
  | identifier
  | stringLiteral
  | squareBrackets
  | curlyBraces
  | itemKeyword
  | body
  | endOfTuple
  | constrainedBody
  | parameter
  | boundParameter
  | boundType
  | lifetime
  | parentheses
  | word (name : String)
  | type
  | pathSegment
  | pointerKind
  | expression
  | member
  | delimiter
  | separatorOrLength
  deriving DecidableEq, Repr

def Expected.text : Expected → String
  | .identifier => "identifier"
  | .stringLiteral => "string literal"
  | .squareBrackets => "square brackets"
  | .curlyBraces => "curly braces"
  | .itemKeyword => "one of: \x60struct\x60, \x60enum\x60, \x60union\x60"
  | .body => "one of: \x60where\x60, parentheses, curly braces, \x60;\x60"
  | .endOfTuple => "\x60where\x60 or \x60;\x60"
  | .constrainedBody => "curly braces or \x60;\x60"
  | .type =>
    "one of: \x60for\x60, parentheses, \x60fn\x60, \x60unsafe\x60, \x60extern\x60, identifier, "
      ++ "\x60::\x60, \x60<\x60, \x60dyn\x60, square brackets, \x60*\x60, \x60&\x60, \x60!\x60, "
      ++ "\x60impl\x60, \x60_\x60, lifetime"
  | .parameter => "one of: lifetime, identifier, \x60const\x60"
  | .boundParameter => "one of: identifier, lifetime, \x60const\x60"
  | .boundType => "one of: identifier, \x60fn\x60, \x60unsafe\x60, \x60extern\x60, \x60super\x60, "
      ++ "\x60self\x60, \x60Self\x60, \x60crate\x60"
  | .lifetime => "lifetime"
  | .parentheses => "parentheses"
  | .word name => "\x60" ++ name ++ "\x60"
  | .pathSegment => "path segment after \x60::\x60"
  | .pointerKind => "\x60const\x60 or \x60mut\x60"
  | .expression => "an expression"
  | .member => "identifier or integer"
  | .delimiter => "delimiter"
  | .separatorOrLength => "\x60,\x60 or \x60;\x60"

inductive DeclarationError where
  | unreadable
  | expected (what : Expected) (atEnd : Bool)
  | expectedMark (mark : String)
  | keyword (name : String)
  | unexpectedToken (inside : Option Delimiter)
  | nestedAttribute
  | chainedComparison
  | missingAttribute
  | missingArguments
  | missingParentheses
  | other (message : String)
  | unknownKey (name : String)
  | missingKey (key : Key)
  | emptySymbol
  deriving DecidableEq, Repr

def DeclarationError.message : DeclarationError → String
  | .unreadable => "cannot parse string into token stream"
  | .expected what true => "unexpected end of input, expected " ++ what.text
  | .expected what false => "expected " ++ what.text
  | .expectedMark mark => "expected \x60" ++ mark ++ "\x60"
  | .keyword name => "expected identifier, found keyword \x60" ++ name ++ "\x60"
  | .unexpectedToken none => "unexpected token"
  | .unexpectedToken (some d) => "unexpected token, expected \x60" ++ d.closingMark ++ "\x60"
  | .nestedAttribute => "unexpected attribute inside of attribute"
  | .chainedComparison => "comparison operators cannot be chained"
  | .missingAttribute => "missing #[unit(...)] attribute"
  | .missingArguments => "expected attribute arguments in parentheses: #[unit(...)]"
  | .missingParentheses => "expected parentheses: #[unit(...)]"
  | .other message => message
  | .unknownKey name => "unknown attribute \x60" ++ name ++ "\x60"
  | .missingKey key => "missing required attribute \x60" ++ key.text ++ "\x60"
  | .emptySymbol => "unit symbol must not be empty"

def keywords : List String :=
  ["_", "abstract", "as", "async", "await", "become", "box", "break", "const", "continue", "crate",
   "do", "dyn", "else", "enum", "extern", "false", "final", "fn", "for", "if", "impl", "in", "let",
   "loop", "macro", "match", "mod", "move", "mut", "override", "priv", "pub", "ref", "return",
   "Self", "self", "static", "struct", "super", "trait", "true", "try", "type", "typeof", "unsafe",
   "unsized", "use", "virtual", "where", "while", "yield"]

def pathKeywords : List String := ["super", "self", "Self", "crate"]

def isPathWord (name : String) : Bool := pathKeywords.contains name || !keywords.contains name

/-- The error of a reader that expects something else than the first token. -/
def missing (what : Expected) (ts : List Token) : DeclarationError := .expected what ts.isEmpty

/-- The strays of what was read, and the tokens behind it. -/
abbrev Reading := List Delimiter × List Token

def readIdentifier : List Token → Except DeclarationError (String × List Token)
  | .identifier name :: r =>
    if keywords.contains name then .error (.keyword name) else .ok (name, r)
  | ts => .error (missing .identifier ts)

/-- The delimiter of a group that still holds tokens.  Such strays count only when all around them
is read. -/
def strays (d : Delimiter) (surplus : List Token) : List Delimiter :=
  if surplus.isEmpty then [] else [d]

def markAt : List Token → List Char
  | .punctuation c true :: r => c :: markAt r
  | .punctuation c false :: _ => [c]
  | _ => []

/-- Whether a mark, or a longer one that starts with it, stands at the front. -/
def startsMark (mark : String) (ts : List Token) : Bool := mark.toList.isPrefixOf (markAt ts)

def readSeparated {α : Type} (read : List Token → Except DeclarationError (α × List Token))
    (shorter : ∀ {ts r : List Token} {a : α}, read ts = .ok (a, r) → r.length < ts.length)
    (ts : List Token) : Except DeclarationError (List α) :=
  match ts with
  | [] => .ok []
  | t :: ts =>
    match _ : read (t :: ts) with
    | .error e => .error e
    | .ok (a, []) => .ok [a]
    | .ok (a, .punctuation ',' _ :: r) => do return a :: (← readSeparated read shorter r)
    | .ok _ => .error (.expectedMark ",")
  termination_by ts.length
  decreasing_by
    have := shorter ‹_›
    simp only [List.length_cons] at *
    omega

theorem readIdentifier_length {ts r : List Token} {name : String}
    (h : readIdentifier ts = .ok (name, r)) : r.length < ts.length := by
  unfold readIdentifier at h
  split at h
  · split at h
    · cases h
    · cases h; simp
  · cases h

end Metrology.Declaration
