import Metrology.Proofs.Declaration.Attribute
import Metrology.Declaration.Item

/-!
# Items as they are written

An item is written as its attributes, its visibility, a keyword, its name and its body.  What is
written so is read as that item: none of the parts has a say in how the others are read.
-/

namespace Metrology.Declaration

inductive Visibility.Spells : Visibility → List Token → List Token → Prop
  | inherited (r : List Token) : Spells .inherited r r
  | exported (r : List Token) : Spells .exported (.identifier "pub" :: r) r
  | root {word : String} (hword : word ∈ ["crate", "self", "super"]) (r : List Token) :
      Spells (.root word) (.identifier "pub" :: .group .parentheses [.identifier word] :: r) r
  | within {isRooted : Bool} {names : List String} {content : List Token}
      (h : SpellsPath isRooted names content []) (r : List Token) :
      Spells (.within isRooted names)
        (.identifier "pub" :: .group .parentheses (.identifier "in" :: content) :: r) r

inductive SpellsVariants : List String → List Token → Prop
  | nil : SpellsVariants [] []
  | last {as : List Attribute} {name : String} {ts : List Token} (hname : name ∉ keywords)
      (h : SpellsAttributes as ts [.identifier name]) : SpellsVariants [name] ts
  | cons {as : List Attribute} {name : String} {names : List String} {ts r : List Token}
      {joint : Bool} (hname : name ∉ keywords)
      (h : SpellsAttributes as ts (.identifier name :: .punctuation ',' joint :: r))
      (hr : SpellsVariants names r) : SpellsVariants (name :: names) ts

inductive Body.Spells (name : String) : Body → List Token → Prop
  | semicolon (joint : Bool) :
      Spells name .semicolon [.identifier "struct", .identifier name, .punctuation ';' joint]
  | braces : Spells name .braces [.identifier "struct", .identifier name, .group .braces []]
  | parentheses (joint : Bool) :
      Spells name .parentheses
        [.identifier "struct", .identifier name, .group .parentheses [], .punctuation ';' joint]
  | variants {names : List String} {content : List Token} (h : SpellsVariants names content) :
      Spells name (.variants names)
        [.identifier "enum", .identifier name, .group .braces content]

def StartsName (ts : List Token) : Prop := ∃ name r, ts = .identifier name :: r ∧ name ≠ "pub"

inductive Item.Spells (item : Item) : List Token → Prop
  | intro {ts₁ ts₂ ts₃ : List Token} (hname : item.name ∉ keywords)
      (hgenerics : item.generics = .empty)
      (hattributes : SpellsAttributes item.attributes ts₁ ts₂)
      (hvisibility : item.visibility.Spells ts₂ ts₃) (hbody : item.body.Spells item.name ts₃) :
      Spells item ts₁

variable {item : Item} {name : String} {names : List String} {ts r : List Token} {body : Body}
  {visibility : Visibility}

theorem readVisibility_of_spells (h : visibility.Spells ts r) (hend : StartsName r) :
    readVisibility ts = .ok ((visibility, []), r) := by
  obtain ⟨name, r', rfl, hname⟩ := hend
  cases h with
  | inherited =>
      unfold readVisibility
      split <;> simp_all
  | exported => rfl
  | root hword =>
      simp only [List.mem_cons, List.not_mem_nil, or_false] at hword
      rcases hword with rfl | rfl | rfl <;> rfl
  | within h =>
      rw [readVisibility, readPath_of_spells h rfl]
      rfl

section Separated

variable {α : Type} {read : List Token → Except DeclarationError (α × List Token)} {x : α}
  (shorter : ∀ {ts r : List Token} {x : α}, read ts = .ok (x, r) → r.length < ts.length)

theorem readSeparated_last (h : read ts = .ok (x, [])) :
    readSeparated read shorter ts = .ok [x] := by
  cases ts with
  | nil => exact absurd (shorter h) (Nat.not_lt_zero _)
  | cons t ts =>
      rw [readSeparated]
      split <;> simp_all

theorem readSeparated_comma {joint : Bool} (h : read ts = .ok (x, .punctuation ',' joint :: r)) :
    readSeparated read shorter ts = (readSeparated read shorter r).map (x :: ·) := by
  cases ts with
  | nil => exact absurd (shorter h) (Nat.not_lt_zero _)
  | cons t ts =>
      rw [readSeparated]
      split
      · simp_all
      · simp_all
      · rename_i h'
        rw [h] at h'
        cases h'
        cases readSeparated read shorter r <;> rfl
      · simp_all

end Separated

theorem readVariant_of_spells {as : List Attribute} (hname : name ∉ keywords)
    (h : SpellsAttributes as ts (.identifier name :: r))
    (hend : r = [] ∨ ∃ joint r', r = .punctuation ',' joint :: r') :
    readVariant ts = .ok ((name, []), r) := by
  have hfields : readVariantFields r = .ok ([], r) := by
    rcases hend with rfl | ⟨joint, r', rfl⟩ <;> rfl
  have hdiscriminant : readDiscriminant r = .ok ([], r) := by
    rcases hend with rfl | ⟨joint, r', rfl⟩
    · rfl
    · simp [readDiscriminant]
  have hvisibility : readVisibility (.identifier name :: r) =
      .ok ((.inherited, []), .identifier name :: r) := by
    refine readVisibility_of_spells (.inherited _) ⟨name, r, rfl, ?_⟩
    rintro rfl
    exact hname (by decide)
  simp [readVariant, readFront, readAttributes_of_spells h rfl, hvisibility, readIdentifier, hname,
    hfields, hdiscriminant, bind, Except.bind, pure, Except.pure]

theorem readVariants_of_spells (h : SpellsVariants names ts) :
    readVariants ts = .ok (names, []) := by
  have hseparated : readSeparated readVariant readVariant_length ts =
      .ok (names.map fun name => (name, [])) := by
    induction h with
    | nil => rw [readSeparated]; rfl
    | last hname h =>
        exact readSeparated_last _ (readVariant_of_spells hname h (.inl rfl))
    | cons hname h _ ih =>
        rw [readSeparated_comma _ (readVariant_of_spells hname h (.inr ⟨_, _, rfl⟩)), ih]
        rfl
  simp [readVariants, hseparated, Function.comp_def, bind, Except.bind, pure, Except.pure]

theorem readDeclaration_of_spells (hname : name ∉ keywords) (h : body.Spells name ts) :
    readDeclaration ts = .ok ((name, .empty, body), [], []) := by
  have hidentifier : ∀ r, readIdentifier (.identifier name :: r) = .ok (name, r) := by
    intro r
    simp [readIdentifier, hname]
  have hnamed : readNamedFields [] = .ok [] := by
    rw [readNamedFields, readSeparated]
    rfl
  have htuple : readTupleFields [] = .ok [] := by
    rw [readTupleFields, readSeparated]
    rfl
  have hgroup : ∀ d content r, readGenerics (.group d content :: r) =
        .ok ([], [], .group d content :: r) ∧
      readConditions (.group d content :: r) = .ok ([], [], .group d content :: r) :=
    fun _ _ _ => ⟨rfl, rfl⟩
  have hsemicolon : ∀ joint, readGenerics [.punctuation ';' joint] =
        .ok ([], [], [.punctuation ';' joint]) ∧
      readConditions [.punctuation ';' joint] = .ok ([], [], [.punctuation ';' joint]) :=
    fun _ => ⟨rfl, rfl⟩
  cases h with
  | semicolon joint =>
      simp [readDeclaration, hidentifier, hsemicolon, readStructBody, bind, Except.bind, pure,
        Except.pure, Generics.empty]
  | braces =>
      simp [readDeclaration, hidentifier, hgroup, readStructBody, hnamed, bind, Except.bind, pure,
        Except.pure, Generics.empty]
  | parentheses joint =>
      simp [readDeclaration, hidentifier, hgroup, hsemicolon, readStructBody, htuple, startsWord,
        bind, Except.bind, pure, Except.pure, Generics.empty]
  | variants h =>
      simp [readDeclaration, hidentifier, hgroup, readEnumBody, readVariants_of_spells h, bind,
        Except.bind, pure, Except.pure, Generics.empty]

theorem Body.Spells.startsName (h : body.Spells name ts) : StartsName ts := by
  cases h with
  | semicolon | braces | parentheses => exact ⟨"struct", _, rfl, by decide⟩
  | variants => exact ⟨"enum", _, rfl, by decide⟩

theorem Visibility.Spells.not_startsWith {c : Char} (h : visibility.Spells ts r)
    (hend : StartsName r) : startsWith c ts = false := by
  obtain ⟨name, r', rfl, -⟩ := hend
  cases h <;> rfl

theorem Item.read_of_spells (h : item.Spells ts) : Item.read ts = .ok item := by
  obtain ⟨attributes, visibility, name, generics, body⟩ := item
  obtain ⟨hname, rfl, hattributes, hvisibility, hbody⟩ := h
  have hstart := hbody.startsName
  simp [Item.read, readAttributes_of_spells hattributes (hvisibility.not_startsWith hstart),
    readVisibility_of_spells hvisibility hstart, readDeclaration_of_spells hname hbody, bind,
    Except.bind, pure, Except.pure]

end Metrology.Declaration
