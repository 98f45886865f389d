import Metrology.Proofs.Declaration.Item
import Metrology.Declaration.Implementation

/-!
# Edits without effect

Of an item only its name and its first unit attribute count.  So what a source text gives, be it an
implementation or an error, outlasts every edit that leaves these two in place.
-/

namespace Metrology.Declaration

def Spelled (source : String) (item : Item) : Prop :=
  ∃ ts, tokens? source = some ts ∧ item.Spells ts

/-- Items that differ in attributes which describe no unit, in what stands behind the first unit
attribute, in the visibility or in the body. -/
inductive Edited : Item → Item → Prop
  | refl (item : Item) : Edited item item
  | insert {item : Item} (before after : List Attribute) {a : Attribute} (h : a.isUnit = false)
      (hitem : item.attributes = before ++ after) :
      Edited item { item with attributes := before ++ a :: after }
  | swap {item : Item} (before after : List Attribute) {a b : Attribute}
      (h : a.isUnit = false ∨ b.isUnit = false)
      (hitem : item.attributes = before ++ a :: b :: after) :
      Edited item { item with attributes := before ++ b :: a :: after }
  | later {item : Item} (before after : List Attribute) (a : Attribute)
      (h : ∃ first ∈ before, first.isUnit = true) (hitem : item.attributes = before ++ after) :
      Edited item { item with attributes := before ++ a :: after }
  | visibility (item : Item) (visibility : Visibility) : Edited item { item with visibility }
  | body (item : Item) (body : Body) : Edited item { item with body }
  | symm {item item' : Item} (h : Edited item item') : Edited item' item
  | trans {item item' item'' : Item} (h : Edited item item') (h' : Edited item' item'') :
      Edited item item''

variable {item item' : Item} {source source' : String}

theorem Edited.heading_eq (h : Edited item item') :
    item.name = item'.name ∧ item.generics = item'.generics := by
  induction h with
  | refl | insert | swap | later | visibility | body => exact ⟨rfl, rfl⟩
  | symm _ ih => exact ⟨ih.1.symm, ih.2.symm⟩
  | trans _ _ ih ih' => exact ⟨ih.1.trans ih'.1, ih.2.trans ih'.2⟩

theorem Edited.first_eq (h : Edited item item') :
    item.attributes.find? Attribute.isUnit = item'.attributes.find? Attribute.isUnit := by
  induction h with
  | refl | visibility | body => rfl
  | insert before after h hitem => simp [hitem, List.find?_append, h]
  | swap before after h hitem =>
      rw [hitem, List.find?_append, List.find?_append]
      congr 1
      rcases h with h | h <;> simp [List.find?_cons, h]
  | later before after a h hitem =>
      have hsome : (before.find? Attribute.isUnit).isSome = true := List.find?_isSome.2 h
      rw [hitem, List.find?_append, List.find?_append, Option.or_of_isSome hsome,
        Option.or_of_isSome hsome]
  | symm _ ih => exact ih.symm
  | trans _ _ ih ih' => exact ih.trans ih'

namespace Implementation

theorem ofItem_of_edited (h : Edited item item') : ofItem item = ofItem item' := by
  obtain ⟨hname, hgenerics⟩ := h.heading_eq
  rw [ofItem, Parser.ofItem, Parser.ofItem, h.first_eq, hname, hgenerics]

theorem ofSource_of_spelled (h : Spelled source item) : ofSource source = ofItem item := by
  obtain ⟨ts, hts, hitem⟩ := h
  simp [ofSource, ofItem, Parser.implementation, standardParser, hts, Item.read_of_spells hitem,
    bind, Except.bind]

/-- Only the name and the first unit attribute of an item count, whether they give an implementation
or an error. -/
theorem first_attribute_decides (h : Spelled source item) (h' : Spelled source' item')
    (hedited : Edited item item') : ofSource source = ofSource source' := by
  rw [ofSource_of_spelled h, ofSource_of_spelled h', ofItem_of_edited hedited]

/-- A documentation comment, an attribute of a longer path, a broken second unit attribute, a
visibility and another body leave an implementation as it is. -/
theorem first_attribute_decides_rod :
    let plain := "#[unit(name = \"rod\" symbol = \"rd\" dimension = Rod)] struct Rod;"
    let edited :=
      "/// A rod.\n#[a::unit] #[unit(name = \"rod\" symbol = \"rd\" dimension = Rod)]" ++
      "#[unit(=)] pub(crate) enum Rod \x7b A, B \x7d"
    ofSource plain = ofSource edited := by
  intro plain edited
  let content : List Token :=
    [.identifier "name", .punctuation '=' false, .literal "\"rod\"" (some "rod"),
      .identifier "symbol", .punctuation '=' false, .literal "\"rd\"" (some "rd"),
      .identifier "dimension", .punctuation '=' false, .identifier "Rod"]
  let unit : Attribute := ⟨false, ["unit"], .list content⟩
  let longer : Attribute := ⟨false, ["a", "unit"], .bare⟩
  let broken : Attribute := ⟨false, ["unit"], .list [.punctuation '=' false]⟩
  have hunit : unit.Spells [.identifier "unit", .group .parentheses content] :=
    ⟨.path (.plain (.last rfl _)), .list _ _⟩
  have hplain : Spelled plain ⟨[unit], .inherited, "Rod", .empty, .semicolon⟩ := by
    have hts : tokens? plain = some [.punctuation '#' false,
        .group .brackets [.identifier "unit", .group .parentheses content],
        .identifier "struct", .identifier "Rod", .punctuation ';' false] := by decide +kernel
    exact ⟨_, hts, by decide, rfl, .cons _ hunit (.nil _), .inherited _, .semicolon _⟩
  have hedited : Spelled edited
      ⟨[.doc " A rod.", longer, unit, broken], .root "crate", "Rod", .empty,
        .variants ["A", "B"]⟩ := by
    have hts : tokens? edited = some [.punctuation '#' false,
        .group .brackets [.identifier "doc", .punctuation '=' false,
          .literal " A rod." (some " A rod.")],
        .punctuation '#' false,
        .group .brackets [.identifier "a", .punctuation ':' true, .punctuation ':' false,
          .identifier "unit"],
        .punctuation '#' false,
        .group .brackets [.identifier "unit", .group .parentheses content],
        .punctuation '#' false,
        .group .brackets [.identifier "unit", .group .parentheses [.punctuation '=' false]],
        .identifier "pub", .group .parentheses [.identifier "crate"],
        .identifier "enum", .identifier "Rod",
        .group .braces [.identifier "A", .punctuation ',' false, .identifier "B"]] := by
      decide +kernel
    have hdoc : (Attribute.doc " A rod.").Spells _ :=
      ⟨.path (.plain (.last (by decide) _)), .literal false _ _⟩
    have hlonger : longer.Spells _ :=
      ⟨.path (.plain (.more false (by decide) (.last (by decide) _))), .bare⟩
    have hbroken : broken.Spells _ := ⟨.path (.plain (.last (by decide) _)), .list .parentheses _⟩
    have hvariants : SpellsVariants ["A", "B"]
        [.identifier "A", .punctuation ',' false, .identifier "B"] :=
      .cons (by decide) (.nil _) (.last (by decide) (.nil _))
    exact ⟨_, hts, by decide, rfl,
      .cons _ hdoc (.cons _ hlonger (.cons _ hunit (.cons _ hbroken (.nil _)))),
      .root (by decide) _, .variants hvariants⟩
  refine first_attribute_decides hplain hedited ?_
  have hdoc := Attribute.doc_isUnit " A rod."
  have hfirst : ∃ a ∈ [.doc " A rod.", longer, unit], a.isUnit = true := ⟨unit, by simp, rfl⟩
  exact .trans (.visibility _ (.root "crate")) <| .trans (.body _ (.variants ["A", "B"])) <|
    .trans (.insert [] [unit] hdoc rfl) <| .trans (.insert [_] [unit] rfl rfl)
      (.later [_, _, _] [] broken hfirst rfl)

end Implementation

end Metrology.Declaration
