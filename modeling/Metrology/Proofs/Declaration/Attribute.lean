import Metrology.Proofs.Declaration.Token
import Metrology.Declaration.Attribute

/-!
# Attributes as they are written

An attribute that is written as a path, perhaps with a group or a value behind it, is read as that
attribute, and so is a row of attributes in front of something else.  A documentation comment is
such an attribute in other words.
-/

namespace Metrology.Declaration

inductive SpellsWords : List String → List Token → List Token → Prop
  | last {name : String} (hname : isPathWord name = true) (r : List Token) :
      SpellsWords [name] (.identifier name :: r) r
  | more {name : String} {names : List String} {ts r : List Token} (joint : Bool)
      (hname : isPathWord name = true) (h : SpellsWords names ts r) :
      SpellsWords (name :: names)
        (.identifier name :: .punctuation ':' true :: .punctuation ':' joint :: ts) r

inductive SpellsPath : Bool → List String → List Token → List Token → Prop
  | plain {names : List String} {ts r : List Token} (h : SpellsWords names ts r) :
      SpellsPath false names ts r
  | rooted {names : List String} {ts r : List Token} (joint : Bool) (h : SpellsWords names ts r) :
      SpellsPath true names (.punctuation ':' true :: .punctuation ':' joint :: ts) r

inductive SpellsAttributePath : Bool → List String → List Token → List Token → Prop
  | path {isRooted : Bool} {names : List String} {ts r : List Token}
      (h : SpellsPath isRooted names ts r) : SpellsAttributePath isRooted names ts r
  | lone (r : List Token) : SpellsAttributePath false ["unsafe"] (.identifier "unsafe" :: r) r

variable {isFirst isRooted : Bool} {name : String} {names : List String} {ts r : List Token}

theorem readSegments_of_spells (h : SpellsWords names ts r) (isFirst : Bool)
    (hend : startsWith ':' r = false) : readSegments isFirst ts = .ok (names, r) := by
  induction h generalizing isFirst with
  | last hname r =>
      rw [readSegments, if_pos hname]
      rintro joint r' rfl
      cases hend
  | more joint hname _ ih =>
      rw [readSegments, if_pos hname, ih false hend]
      rfl

theorem SpellsWords.startsIdentifier (h : SpellsWords names ts r) :
    startsIdentifier ts = true := by
  cases h <;> rfl

theorem readPath_of_spells (h : SpellsPath isRooted names ts r)
    (hend : startsWith ':' r = false) : readPath ts = .ok ((isRooted, names), r) := by
  cases h with
  | plain h =>
      obtain ⟨name, r', rfl⟩ := eq_of_startsIdentifier h.startsIdentifier
      rw [readPath, readSegments_of_spells h true hend]
      · rfl
      · rintro _ _ ⟨⟩
  | rooted joint h =>
      rw [readPath, readSegments_of_spells h true hend]
      rfl

theorem SpellsPath.ne_unsafe (h : SpellsPath isRooted names ts r) (r' : List Token) :
    ts ≠ .identifier "unsafe" :: r' := by
  rintro rfl
  cases h with
  | plain h =>
      cases h with
      | last hname => exact absurd hname (by decide)
      | more _ hname => exact absurd hname (by decide)

theorem readAttributePath_of_spells (h : SpellsAttributePath isRooted names ts r)
    (hend : startsWith ':' r = false) :
    readAttributePath ts = .ok ((isRooted, names), r) := by
  cases h with
  | path h =>
      rw [readAttributePath, readPath_of_spells h hend]
      exact h.ne_unsafe
  | lone r => rfl

inductive SpellsArguments : AttributeArguments → List Token → Prop
  | bare : SpellsArguments .bare []
  | list (d : Delimiter) (content : List Token) :
      SpellsArguments (.list content) [.group d content]
  | literal (joint : Bool) (spelling : String) (value? : Option String) :
      SpellsArguments (.value [.literal spelling value?])
        [.punctuation '=' joint, .literal spelling value?]
  | expression {tokens : List Token} {joint : Bool}
      (hequal : startsMark "==" (.punctuation '=' joint :: tokens) = false)
      (harrow : startsMark "=>" (.punctuation '=' joint :: tokens) = false)
      (h : readAttributeValue tokens = .ok ([], [])) :
      SpellsArguments (.value tokens) (.punctuation '=' joint :: tokens)

inductive Attribute.Spells (a : Attribute) : List Token → Prop
  | intro {ts r : List Token} (hpath : SpellsAttributePath a.isRooted a.path ts r)
      (h : SpellsArguments a.arguments r) : Spells a ts

inductive SpellsAttributes : List Attribute → List Token → List Token → Prop
  | nil (r : List Token) : SpellsAttributes [] r r
  | cons {a : Attribute} {as : List Attribute} {content ts r : List Token} (joint : Bool)
      (h : a.Spells content) (hr : SpellsAttributes as ts r) :
      SpellsAttributes (a :: as) (.punctuation '#' joint :: .group .brackets content :: ts) r

theorem startsMark_of_literal (mark : String) (h : 1 < mark.toList.length) (c : Char) (joint : Bool)
    (spelling : String) (value? : Option String) (r : List Token) :
    startsMark mark (.punctuation c joint :: .literal spelling value? :: r) = false := by
  have hmark : markAt (.punctuation c joint :: .literal spelling value? :: r) = [c] := by
    cases joint <;> rfl
  rw [startsMark, hmark, ← Bool.not_eq_true, List.isPrefixOf_iff_prefix]
  intro hprefix
  have hlength := hprefix.length_le
  rw [List.length_singleton] at hlength
  omega

variable {arguments : AttributeArguments} {a : Attribute} {as : List Attribute}

theorem SpellsArguments.not_startsWith (h : SpellsArguments arguments ts) :
    startsWith ':' ts = false := by
  cases h <;> rfl

theorem readArguments_of_spells (h : SpellsArguments arguments ts) :
    readArguments ts = .ok ((arguments, []), []) := by
  cases h with
  | bare => rfl
  | list d content => rfl
  | literal joint spelling value? =>
      rw [readArguments, startsMark_of_literal _ (by decide), startsMark_of_literal _ (by decide)]
      rfl
  | expression hequal harrow h =>
      rw [readArguments, hequal, harrow]
      simp [h, bind, Except.bind]
      rfl

theorem readAttribute_of_spells (h : a.Spells ts) : readAttribute ts = .ok (a, []) := by
  obtain ⟨hpath, harguments⟩ := h
  rw [readAttribute, readAttributePath_of_spells hpath harguments.not_startsWith]
  simp [readArguments_of_spells harguments, bind, Except.bind, strays]
  rfl

theorem readAttributes_of_spells (h : SpellsAttributes as ts r)
    (hend : startsWith '#' r = false) : readAttributes ts = .ok ((as, []), r) := by
  induction h with
  | nil r =>
      rw [readAttributes]
      · rintro joint content r' rfl
        cases hend
      · rintro joint r' rfl
        cases hend
  | cons joint h _ ih =>
      rw [readAttributes, readAttribute_of_spells h]
      simp [ih hend, bind, Except.bind]
      rfl

def Attribute.doc (text : String) : Attribute :=
  ⟨false, ["doc"], .value [.literal text (some text)]⟩

theorem Attribute.doc_isUnit (text : String) : (doc text).isUnit = false := rfl

end Metrology.Declaration
