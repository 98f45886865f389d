import Metrology.Declaration.Item

/-!
# Parsers

A unit is declared in terms of two things that a parser of items and of types knows: what a whole
item is, and how far a type goes.  All that is said of declarations is said for any such parser.
-/

namespace Metrology.Declaration

structure Parser where
  readItem : List Token → Except DeclarationError Item
  readType : List Token → Except DeclarationError TypeReading
  readType_length : ∀ {ts : List Token} {x : TypeReading}, readType ts = .ok x →
    x.rest.length < ts.length

/-- The parser of the full language, in which blocks are taken as they are. -/
def standardParser : Parser := ⟨Item.read, readType, readType_length⟩

end Metrology.Declaration
