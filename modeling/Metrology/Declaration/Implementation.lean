import Metrology.Declaration.Entry

/-!
# Implementations

A type whose first unit attribute gives a name, a symbol and a dimension is a named unit.  The
declaration is written out as the implementation of that fact, with the literals and the dimension
spelled as they were.
-/

namespace Metrology.Declaration

structure UnitAttribute where
  name : StringLiteral
  symbol : StringLiteral
  dimension : List String
  deriving DecidableEq, Repr

structure UnitDeclaration extends UnitAttribute where
  symbol_ne_empty : symbol.value ≠ ""
  deriving DecidableEq, Repr

/-- Of several entries with one key the last one counts. -/
def UnitAttribute.ofEntries (entries : List Entry) : Except DeclarationError UnitAttribute :=
  match (entries.filterMap Entry.name?).getLast?, (entries.filterMap Entry.symbol?).getLast?,
      (entries.filterMap Entry.dimension?).getLast? with
  | none, _, _ => .error (.missingKey .name)
  | some _, none, _ => .error (.missingKey .symbol)
  | some _, some _, none => .error (.missingKey .dimension)
  | some name, some symbol, some dimension => .ok ⟨name, symbol, dimension⟩

/-- What a group of a value still holds counts only when no key is missing. -/
def UnitDeclaration.ofEntries (entries : List Entry) (found : List Delimiter) :
    Except DeclarationError UnitDeclaration := do
  let u ← UnitAttribute.ofEntries entries
  match found with
  | d :: _ => .error (.unexpectedToken (some d))
  | [] => if h : u.symbol.value = "" then .error .emptySymbol else return ⟨u, h⟩

structure Implementation where
  typeName : String
  generics : Generics
  unit : UnitDeclaration
  deriving DecidableEq, Repr

namespace Parser

variable (parser : Parser)

def unitDeclaration : AttributeArguments → Except DeclarationError UnitDeclaration
  | .bare => .error .missingArguments
  | .value _ => .error .missingParentheses
  | .list content => do
    let (entries, found) ← parser.readEntries content
    UnitDeclaration.ofEntries entries found

/-- Only the first unit attribute of an item is looked at. -/
def ofItem (item : Item) : Except DeclarationError Implementation :=
  match item.attributes.find? Attribute.isUnit with
  | none => .error .missingAttribute
  | some a => do return ⟨item.name, item.generics, ← parser.unitDeclaration a.arguments⟩

def implementation (source : String) : Except DeclarationError Implementation :=
  match tokens? source with
  | some ts => do parser.ofItem (← parser.readItem ts)
  | none => .error .unreadable

end Parser

namespace Implementation

def ofItem : Item → Except DeclarationError Implementation := standardParser.ofItem

def ofSource : String → Except DeclarationError Implementation := standardParser.implementation

def heading (typeName : String) (generics : Generics) : List String :=
  "impl" :: generics.listed Parameter.words
    ++ ["crate", "::", "unit", "::", "NamedUnit", "for", typeName]
    ++ generics.listed (fun p => [p.name]) ++ generics.conditions

def constant (name spelling : String) : List String :=
  ["const", name, ":", "&", "'static", "str", "=", spelling, ";"]

def words (i : Implementation) : List String :=
  heading i.typeName i.generics ++ ["\x7b", "type", "Dim", "="] ++ i.unit.dimension ++ [";"]
    ++ constant "NAME" i.unit.name.spelling
    ++ constant "SYMBOL" i.unit.symbol.spelling ++ ["\x7d"]

def text (i : Implementation) : String := " ".intercalate i.words

end Implementation

end Metrology.Declaration
