import Metrology.Declaration.Parser
import Metrology.Proofs.Declaration.Entry

/-!
# Type paths as they are written

A type path is written as words between double colons, each perhaps with arguments in angle brackets
that are type paths again.  Wherever such a path ends an entry, the standard parser takes it for a
type and writes it out as it is spelled.
-/

namespace Metrology.Declaration

/-! ## Single steps of a reader -/

namespace Reader

variable {α β : Type} {found : List Delimiter} {ts r : List Token} {c : Char} {joint : Bool}

@[simp] theorem bind_apply (x : Reader α) (f : α → Reader β) (s : Reading) :
    (x >>= f) s = x s >>= fun y => f y.1 y.2 := rfl

@[simp] theorem map_apply (f : α → β) (x : Reader α) (s : Reading) :
    (f <$> x) s = x s >>= fun y => .ok (f y.1, y.2) := rfl

@[simp] theorem pure_apply (a : α) (s : Reading) : (pure a : Reader α) s = .ok (a, s) := rfl

@[simp] theorem front_apply : front (found, ts) = .ok (ts, found, ts) := rfl

@[simp] theorem leave_apply : leave r (found, ts) = .ok ((), found, r) := rfl

@[simp] theorem ok_bind (a : α) (f : α → Except DeclarationError β) : (.ok a >>= f) = f a := rfl

end Reader

open Reader

/-- The parts that a type path is made of.  Arguments stand for themselves and the closing bracket.
-/
inductive Phrase where
  | path
  | segments
  | segment
  | arguments
  deriving DecidableEq, Repr

inductive Phrase.Spells : Phrase → List String → List Token → Prop
  | plain {name : String} {words : List String} {ts : List Token} (hname : isPathWord name = true)
      (h : Spells .segments (name :: words) (.identifier name :: ts)) :
      Spells .path (name :: words) (.identifier name :: ts)
  | rooted {words : List String} {ts : List Token} (joint : Bool) (h : Spells .segments words ts) :
      Spells .path ("::" :: words) (.punctuation ':' true :: .punctuation ':' joint :: ts)
  | last {words : List String} {ts : List Token} (h : Spells .segment words ts) :
      Spells .segments words ts
  | more {words words' : List String} {ts us : List Token} (joint : Bool)
      (h : Spells .segment words ts) (hr : Spells .segments words' us) :
      Spells .segments (words ++ "::" :: words')
        (ts ++ .punctuation ':' true :: .punctuation ':' joint :: us)
  | word {name : String} (hname : isSegment name = true) :
      Spells .segment [name] [.identifier name]
  | angled {name : String} {words : List String} {ts : List Token} (joint : Bool)
      (hname : name = "Self" ∨ name ∉ keywords) (h : Spells .arguments words ts) :
      Spells .segment (name :: "<" :: words) (.identifier name :: .punctuation '<' joint :: ts)
  | turbofish {name : String} {words : List String} {ts : List Token} (joint joint' : Bool)
      (hname : name = "Self" ∨ name ∉ keywords) (h : Spells .arguments words ts) :
      Spells .segment (name :: "::" :: "<" :: words)
        (.identifier name :: .punctuation ':' true :: .punctuation ':' joint ::
          .punctuation '<' joint' :: ts)
  | closing (joint : Bool) : Spells .arguments [">"] [.punctuation '>' joint]
  | final {words : List String} {ts : List Token} (joint : Bool) (h : Spells .path words ts) :
      Spells .arguments (words ++ [">"]) (ts ++ [.punctuation '>' joint])
  | comma {words words' : List String} {ts us : List Token} (joint : Bool)
      (h : Spells .path words ts) (hr : Spells .arguments words' us) :
      Spells .arguments (words ++ "," :: words') (ts ++ .punctuation ',' joint :: us)

def EndsPath (r : List Token) : Prop := EndsEntry r ∨ startsWith '>' r = true

def StartsPath (ts : List Token) : Prop :=
  (∃ name r, ts = .identifier name :: r ∧ isPathWord name = true) ∨
    ∃ joint r, ts = .punctuation ':' true :: .punctuation ':' joint :: r

variable {expression : List Token → Except DeclarationError Reading} {level : Nat}
  {found : List Delimiter} {phrase : Phrase} {words : List String} {ts us r : List Token}

theorem isPrefixOf_markAt {c : Char} (cs : List Char) (h : startsWith c ts = false) :
    (c :: cs).isPrefixOf (markAt ts) = false := by
  cases ts with
  | nil => rfl
  | cons t ts =>
      cases t with
      | punctuation d joint =>
          have hne : d ≠ c := by simpa [startsWith] using h
          cases joint <;> simp [markAt, List.isPrefixOf, hne.symm]
      | identifier | literal | group => rfl

theorem startsMark_of_startsWith {mark : String} {c : Char} {cs : List Char}
    (hmark : mark.toList = c :: cs) (h : startsWith c ts = false) : startsMark mark ts = false := by
  rw [startsMark, hmark, isPrefixOf_markAt cs h]

theorem EndsPath.not_startsWith {c : Char} (h : EndsPath r) (hcomma : c ≠ ',')
    (hclosing : c ≠ '>') :
    startsWith c r = false := by
  have hmark : ∀ d, startsWith d r = true → c ≠ d → startsWith c r = false := by
    intro d hd hne
    obtain ⟨joint, r, rfl⟩ := eq_of_startsWith hd
    simpa [startsWith] using hne.symm
  rcases h with (rfl | h | h) | h
  · rfl
  · exact startsWith_of_startsIdentifier h
  · exact hmark _ h hcomma
  · exact hmark _ h hclosing

theorem EndsPath.not_startsParentheses (h : EndsPath r) : startsParentheses r = false := by
  rcases h with (rfl | h | h) | h
  · rfl
  · obtain ⟨name, r, rfl⟩ := eq_of_startsIdentifier h
    rfl
  · obtain ⟨joint, r, rfl⟩ := eq_of_startsWith h
    rfl
  · obtain ⟨joint, r, rfl⟩ := eq_of_startsWith h
    rfl

theorem startsCall_of_startsWith (hmark : startsWith ':' r = false)
    (h : startsParentheses r = false) : startsCall r = false := by
  unfold startsCall
  split
  · cases hmark
  · exact h

theorem EndsPath.not_startsCall (h : EndsPath r) : startsCall r = false :=
  startsCall_of_startsWith (h.not_startsWith (by decide) (by decide)) h.not_startsParentheses

theorem EndsPath.not_startsArguments (h : EndsPath r) : startsArguments r = false := by
  unfold startsArguments
  split
  · cases h.not_startsWith (c := ':') (by decide) (by decide)
  · rw [startsMark_of_startsWith rfl (h.not_startsWith (c := '<') (by decide) (by decide))]
    rfl

theorem skipSeparator_of_startsWith (found : List Delimiter) (h : startsWith ':' r = false) :
    skipSeparator (found, r) = .ok (false, found, r) := by
  unfold skipSeparator
  simp only [bind_apply, front_apply, ok_bind]
  split
  · cases h
  · rfl

theorem Phrase.Spells.startsIdentifier (h : phrase.Spells words ts) (r : List Token)
    (hphrase : phrase = .segment ∨ phrase = .segments) : startsIdentifier (ts ++ r) = true := by
  induction h generalizing r with
  | plain | rooted | closing | final | comma => simp at hphrase
  | last h ih => exact ih r (.inl rfl)
  | more joint h hr ih => 
      rw [List.append_assoc]
      exact ih _ (.inl rfl)
  | word | angled | turbofish => rfl

theorem Phrase.Spells.startsPath (h : Phrase.Spells .path words ts) (r : List Token) :
    StartsPath (ts ++ r) := by
  cases h with
  | plain hname => exact .inl ⟨_, _, rfl, hname⟩
  | rooted joint => exact .inr ⟨_, _, rfl⟩

/-! ## Segments -/

theorem readSegment_word {name : String} (hname : isSegment name = true)
    (h : startsArguments r = false) :
    (typeReaders expression level).readSegment (found, .identifier name :: r) =
      .ok (⟨[name], [], .none, true, true⟩, found, r) := by
  simp [TypeReaders.readSegment, hname, h]

theorem startsArguments_opening {joint : Bool} (hequals : startsWith '=' r = false)
    (hopening : startsWith '<' r = false) :
    startsArguments (.punctuation '<' joint :: r) = true := by
  cases joint with
  | false => rfl
  | true =>
      have hlonger : startsMark "<=" (.punctuation '<' true :: r) = false :=
        isPrefixOf_markAt [] hequals
      have hlongest : startsMark "<<=" (.punctuation '<' true :: r) = false :=
        isPrefixOf_markAt ['='] hopening
      change (startsMark "<" _ && !startsMark "<=" _ && !startsMark "<<=" _) = true
      rw [hlonger, hlongest]
      rfl

theorem startsArguments_separator (joint : Bool) (h : startsIdentifier r = true) :
    startsArguments (.punctuation ':' true :: .punctuation ':' joint :: r) = false := by
  obtain ⟨name, r, rfl⟩ := eq_of_startsIdentifier h
  cases joint <;> rfl

theorem StartsPath.skipWord (h : StartsPath ts) (word : String) (hword : isPathWord word = false) :
    skipWord word (found, ts) = .ok (false, found, ts) := by
  obtain ⟨name, r, rfl, hname⟩ | ⟨joint, r, rfl⟩ := h
  · have hne : name ≠ word := by
      rintro rfl
      rw [hword] at hname
      cases hname
    simp [Reader.skipWord, hne]
  · rfl

theorem StartsPath.skipMark {c : Char} (h : StartsPath ts) (hc : c ≠ ':') :
    skipMark c (found, ts) = .ok (false, found, ts) := by
  obtain ⟨name, r, rfl, hname⟩ | ⟨joint, r, rfl⟩ := h
  · rfl
  · simp [Reader.skipMark, hc.symm]

theorem StartsPath.not_startsWord (h : StartsPath ts) (word : String)
    (hword : isPathWord word = false) : startsWord word ts = false := by
  obtain ⟨name, r, rfl, hname⟩ | ⟨joint, r, rfl⟩ := h
  · rw [startsWord, beq_eq_false_iff_ne]
    rintro rfl
    rw [hword] at hname
    cases hname
  · rfl

theorem StartsPath.not_startsFunction (h : StartsPath ts) : startsFunction ts = false := by
  simp [startsFunction, h.not_startsWord "fn" (by decide),
    h.not_startsWord "unsafe" (by decide), h.not_startsWord "extern" (by decide)]

theorem StartsPath.startsPathWord_or (h : StartsPath ts) :
    startsPathWord ts = true ∨ startsMark "::" ts = true := by
  obtain ⟨name, r, rfl, hname⟩ | ⟨joint, r, rfl⟩ := h
  · exact .inl hname
  · cases joint <;> exact .inr rfl

theorem StartsPath.not_startsWith {c : Char} (h : StartsPath ts) (hc : c ≠ ':') :
    startsWith c ts = false := by
  obtain ⟨name, r, rfl, -⟩ | ⟨joint, r, rfl⟩ := h
  · rfl
  · simpa [startsWith] using hc.symm

theorem StartsPath.not_startsConstant (h : StartsPath ts) : startsConstant ts = false := by
  obtain ⟨name, r, rfl, hname⟩ | ⟨joint, r, rfl⟩ := h
  · have hne : ∀ word, isPathWord word = false → name ≠ word := by
      rintro word hword rfl
      rw [hword] at hname
      cases hname
    simp [startsConstant, hne "true" (by decide), hne "false" (by decide)]
  · rfl

theorem readType_of_readPath {p : TypePath} (hstart : StartsPath ts) (hend : EndsPath r)
    (h : (typeReaders expression level).readPath (found, ts) = .ok (p, found, r)) :
    ∃ form, (typeReaders expression level).readType true (found, ts) =
      .ok ((form, p.words), found, r) := by
  have hcalls : (typeReaders expression level).readCalls p (found, r) = .ok (p, found, r) := by
    simp [TypeReaders.readCalls, hend.not_startsCall]
  have hbang : startsMark "!" r = false :=
    startsMark_of_startsWith rfl (hend.not_startsWith (by decide) (by decide))
  have hplus : startsMark "+" r = false :=
    startsMark_of_startsWith rfl (hend.not_startsWith (by decide) (by decide))
  have hopening : startsMark "<" ts = false :=
    startsMark_of_startsWith rfl (hstart.not_startsWith (by decide))
  have hpath : (typeReaders expression level).readPathType true [] (found, ts) =
      .ok ((if p.isSingle then .segment else .path, p.words), found, r) := by
    simp [TypeReaders.readPathType, hopening, h, hcalls, hbang,
      hplus]
  have hbinder : (typeReaders expression level).readBinder (found, ts) = .ok ([], found, ts) := by
    simp [TypeReaders.readBinder, hstart.skipWord "for" (by decide)]
  refine ⟨if p.isSingle then .segment else .path, ?_⟩
  simp [TypeReaders.readType, hbinder, hstart.not_startsFunction,
    hstart.startsPathWord_or, hpath]

variable {as : List Listed}

theorem inOrder_cons {a : Listed} (ha : a.isLifetime = false) (hcomma : a.hasComma = true)
    (has : ∀ a ∈ as, a.isLifetime = false) :
    Listed.inOrder (a :: as) = a.words ++ "," :: Listed.inOrder as := by
  have hfilter : as.filter (·.isLifetime) = [] := by simpa using has
  have hall : as.filter (!·.isLifetime) = as := by simpa using has
  simp only [Listed.inOrder, List.filter_cons, ha, hfilter, hall, Bool.not_false, if_true,
    Bool.false_eq_true, if_false, List.nil_append]
  cases as with
  | nil => simp [Listed.separated, hcomma]
  | cons b as => rfl

theorem isSegment_of_takesArguments {name : String} (hname : name = "Self" ∨ name ∉ keywords) :
    isSegment name = true ∧ ¬ (name ∈ keywords ∧ name ≠ "Self") := by
  rcases hname with rfl | hname
  · exact ⟨by decide, by simp⟩
  · simp [isSegment, isPathWord, hname]

theorem readSegment_angled {name : String} {joint : Bool} (hname : name = "Self" ∨ name ∉ keywords)
    (hequals : startsWith '=' ts = false) (hopening : startsWith '<' ts = false)
    (h : (typeReaders expression level).arguments (found, ts) = .ok (as, found, r)) :
    ∃ p, (typeReaders expression level).readSegment
        (found, .identifier name :: .punctuation '<' joint :: ts) = .ok (p, found, r) ∧
      p.words = name :: "<" :: Listed.inOrder as ++ [">"] := by
  obtain ⟨hsegment, htakes⟩ := isSegment_of_takesArguments hname
  have hseparator : skipSeparator (found, .punctuation '<' joint :: ts) =
      .ok (false, found, .punctuation '<' joint :: ts) := rfl
  have hbracket : expect '<' (found, .punctuation '<' joint :: ts) = .ok ((), found, ts) := rfl
  refine ⟨⟨[name], "<" :: Listed.inOrder as ++ [">"],
    if as.isEmpty then .empty else .filled, true, true⟩, ?_, rfl⟩
  simp [TypeReaders.readSegment, hsegment,
    htakes, startsArguments_opening hequals hopening, hseparator, hbracket, h]

theorem readSegment_turbofish {name : String} {joint joint' : Bool}
    (hname : name = "Self" ∨ name ∉ keywords)
    (h : (typeReaders expression level).arguments (found, ts) = .ok (as, found, r)) :
    ∃ p, (typeReaders expression level).readSegment (found, .identifier name ::
        .punctuation ':' true :: .punctuation ':' joint :: .punctuation '<' joint' :: ts) =
          .ok (p, found, r) ∧
      p.words = name :: "::" :: "<" :: Listed.inOrder as ++ [">"] := by
  obtain ⟨hsegment, htakes⟩ := isSegment_of_takesArguments hname
  have hseparator : skipSeparator (found, .punctuation ':' true :: .punctuation ':' joint ::
      .punctuation '<' joint' :: ts) = .ok (true, found, .punctuation '<' joint' :: ts) := rfl
  have hbracket : expect '<' (found, .punctuation '<' joint' :: ts) = .ok ((), found, ts) := rfl
  refine ⟨⟨[name], "::" :: "<" :: Listed.inOrder as ++ [">"],
    if as.isEmpty then .empty else .filled, true, true⟩, ?_, rfl⟩
  simp [TypeReaders.readSegment, hsegment,
    htakes, startsArguments, hseparator, hbracket, h]

theorem readSegments_last {p : TypePath} (hend : EndsPath r)
    (h : (typeReaders expression level).readSegment (found, ts) = .ok (p, found, r)) :
    (typeReaders expression level).readSegments false (found, ts) = .ok (p, found, r) := by
  have hseparator := skipSeparator_of_startsWith found
    (hend.not_startsWith (c := ':') (by decide) (by decide))
  simp [TypeReaders.readSegments, h, hend.not_startsCall,
    hseparator]

theorem readSegments_more {p q : TypePath} {joint : Bool} (hus : startsIdentifier us = true)
    (h : (typeReaders expression level).readSegment (found, ts) =
      .ok (p, found, .punctuation ':' true :: .punctuation ':' joint :: us))
    (hr : (typeReaders expression level).segments false (found, us) = .ok (q, found, r)) :
    (typeReaders expression level).readSegments false (found, ts) = .ok (p.follow q, found, r) := by
  have hcall : startsCall (.punctuation ':' true :: .punctuation ':' joint :: us) = false := by
    obtain ⟨name, us, rfl⟩ := eq_of_startsIdentifier hus
    rfl
  have hseparator : skipSeparator (found, .punctuation ':' true :: .punctuation ':' joint :: us) =
      .ok (true, found, us) := rfl
  simp [TypeReaders.readSegments, h, hcall, hseparator,
    hr]

theorem readPath_plain {p : TypePath} (hts : startsIdentifier ts = true)
    (h : (typeReaders expression level).readSegments false (found, ts) = .ok (p, found, r)) :
    (typeReaders expression level).readPath (found, ts) = .ok (p, found, r) := by
  have hseparator := skipSeparator_of_startsWith found (startsWith_of_startsIdentifier hts)
  simp [TypeReaders.readPath, hseparator, h]

theorem readPath_rooted {p : TypePath} {joint : Bool}
    (h : (typeReaders expression level).readSegments false (found, ts) = .ok (p, found, r)) :
    (typeReaders expression level).readPath
      (found, .punctuation ':' true :: .punctuation ':' joint :: ts) =
        .ok (p.behind ["::"], found, r) := by
  have hseparator : skipSeparator (found, .punctuation ':' true :: .punctuation ':' joint :: ts) =
      .ok (true, found, ts) := rfl
  simp [TypeReaders.readPath, hseparator, h]

theorem StartsPath.not_startsLifetime (h : StartsPath ts) : startsLifetime ts = false := by
  obtain ⟨name, r, rfl, -⟩ | ⟨joint, r, rfl⟩ := h <;> rfl

theorem readArgument_of_readType {form : TypeForm} (hstart : StartsPath ts)
    (hequals : skipMark '=' (found, r) = .ok (false, found, r))
    (hcolon : skipMark ':' (found, r) = .ok (false, found, r))
    (h : (typeReaders expression level).readType true (found, ts) = .ok ((form, words), found, r)) :
    (typeReaders expression level).readArgument (found, ts) = .ok ((false, words), found, r) := by
  by_cases hform : form = .segment
  · simp [TypeReaders.readArgument, hstart.not_startsLifetime,
      hstart.not_startsConstant, h, hform, hequals, hcolon]
  · simp [TypeReaders.readArgument, hstart.not_startsLifetime,
      hstart.not_startsConstant, h, hform]

theorem readArguments_final {joint : Bool} (hstart : StartsPath ts)
    (h : (typeReaders expression level).readArgument (found, ts) =
      .ok ((false, words), found, .punctuation '>' joint :: r)) :
    (typeReaders expression level).readArguments (found, ts) =
      .ok ([⟨false, words, false⟩], found, r) := by
  have hclosing : skipMark '>' (found, .punctuation '>' joint :: r) = .ok (true, found, r) := rfl
  simp [TypeReaders.readArguments, h, hclosing, hstart.skipMark (c := '>') (by decide)]

theorem readArguments_comma {joint : Bool} (hstart : StartsPath ts)
    (h : (typeReaders expression level).readArgument (found, ts) =
      .ok ((false, words), found, .punctuation ',' joint :: us))
    (hr : (typeReaders expression level).arguments (found, us) = .ok (as, found, r)) :
    (typeReaders expression level).readArguments (found, ts) =
      .ok (⟨false, words, true⟩ :: as, found, r) := by
  have hclosing : skipMark '>' (found, .punctuation ',' joint :: us) =
      .ok (false, found, .punctuation ',' joint :: us) := rfl
  have hcomma : expect ',' (found, .punctuation ',' joint :: us) = .ok ((), found, us) := rfl
  simp [TypeReaders.readArguments, h, hclosing, hcomma, hr,
    hstart.skipMark (c := '>') (by decide)]

/-! ## Whole paths -/

/-- A phrase is read where there is room for its tokens. -/
def Phrase.IsRead (expression : List Token → Except DeclarationError Reading) (level : Nat)
    (words : List String) (ts : List Token) : Phrase → Prop
  | .path => ∀ found r, EndsPath r → ∃ form,
      (typeReaders expression level).readType true (found, ts ++ r) = .ok ((form, words), found, r)
  | .segments => ∀ found r, EndsPath r → ∃ p,
      (typeReaders expression level).readSegments false (found, ts ++ r) = .ok (p, found, r) ∧
        p.words = words
  | .segment => ∀ found r, startsArguments r = false → ∃ p,
      (typeReaders expression level).readSegment (found, ts ++ r) = .ok (p, found, r) ∧
        p.words = words
  | .arguments => ∀ found r, ∃ as,
      (typeReaders expression level).readArguments (found, ts ++ r) = .ok (as, found, r) ∧
        Listed.inOrder as ++ [">"] = words ∧ ∀ a ∈ as, a.isLifetime = false

theorem totalWeight_identifier (name : String) (ts : List Token) :
    totalWeight (.identifier name :: ts) = totalWeight ts + 1 := by
  simp [totalWeight, weight, Nat.add_comm]

theorem totalWeight_punctuation (c : Char) (joint : Bool) (ts : List Token) :
    totalWeight (.punctuation c joint :: ts) = totalWeight ts + 1 := by
  simp [totalWeight, weight, Nat.add_comm]

theorem totalWeight_append (ts us : List Token) :
    totalWeight (ts ++ us) = totalWeight ts + totalWeight us := by
  induction ts with
  | nil => simp [totalWeight]
  | cons t ts ih => simp [totalWeight, ih, Nat.add_assoc]

theorem Phrase.Spells.not_opening {c : Char} (h : Phrase.Spells .arguments words ts)
    (r : List Token) (hcolon : c ≠ ':') (hclosing : c ≠ '>') : startsWith c (ts ++ r) = false := by
  cases h with
  | closing joint => simpa [startsWith] using hclosing.symm
  | final joint h =>
      rw [List.append_assoc]
      exact (h.startsPath _).not_startsWith hcolon
  | comma joint h =>
      rw [List.append_assoc]
      exact (h.startsPath _).not_startsWith hcolon

theorem Phrase.Spells.isRead (h : phrase.Spells words ts) (hroom : totalWeight ts ≤ level) :
    phrase.IsRead expression level words ts := by
  induction h generalizing level with
  | @plain name words ts hname h ih =>
      intro found r hend
      obtain ⟨p, hp, hwords⟩ := ih hroom found r hend
      rw [← hwords]
      exact readType_of_readPath (.inl ⟨name, _, rfl, hname⟩) hend (readPath_plain rfl hp)
  | @rooted words ts joint h ih =>
      intro found r hend
      simp only [totalWeight_punctuation] at hroom
      obtain ⟨p, hp, rfl⟩ := ih (show totalWeight ts ≤ level by omega) found r hend
      exact readType_of_readPath (.inr ⟨joint, _, rfl⟩) hend (readPath_rooted hp)
  | last h ih =>
      intro found r hend
      obtain ⟨p, hp, hwords⟩ := ih hroom found r hend.not_startsArguments
      exact ⟨p, readSegments_last hend hp, hwords⟩
  | @more words words' ts us joint h hr ih ihr =>
      intro found r hend
      simp only [totalWeight_append, totalWeight_punctuation] at hroom
      obtain ⟨below, rfl⟩ := Nat.exists_eq_succ_of_ne_zero (show level ≠ 0 by omega)
      have hus := hr.startsIdentifier r (.inr rfl)
      obtain ⟨p, hp, rfl⟩ := ih (show totalWeight ts ≤ below + 1 by omega) found _
        (startsArguments_separator joint hus)
      obtain ⟨q, hq, rfl⟩ := ihr (show totalWeight us ≤ below by omega) found r hend
      refine ⟨p.follow q, ?_, by simp [TypePath.follow, TypePath.words]⟩
      rw [List.append_assoc]
      exact readSegments_more hus hp hq
  | word hname =>
      intro found r hend
      exact ⟨_, readSegment_word hname hend, rfl⟩
  | @angled name words ts joint hname h ih =>
      intro found r hend
      simp only [totalWeight_identifier, totalWeight_punctuation] at hroom
      obtain ⟨below, rfl⟩ := Nat.exists_eq_succ_of_ne_zero (show level ≠ 0 by omega)
      obtain ⟨as, has, rfl, -⟩ := ih (show totalWeight ts ≤ below by omega) found r
      exact readSegment_angled hname (h.not_opening r (by decide) (by decide))
        (h.not_opening r (by decide) (by decide)) has
  | @turbofish name words ts joint joint' hname h ih =>
      intro found r hend
      simp only [totalWeight_identifier, totalWeight_punctuation] at hroom
      obtain ⟨below, rfl⟩ := Nat.exists_eq_succ_of_ne_zero (show level ≠ 0 by omega)
      obtain ⟨as, has, rfl, -⟩ := ih (show totalWeight ts ≤ below by omega) found r
      exact readSegment_turbofish hname has
  | closing joint => exact fun found r => ⟨[], rfl, rfl, by simp⟩
  | @final words ts joint h ih =>
      intro found r
      simp only [totalWeight_append, totalWeight_punctuation] at hroom
      obtain ⟨form, hform⟩ := ih (show totalWeight ts ≤ level by omega) found
        (.punctuation '>' joint :: r) (.inr rfl)
      have hstart := h.startsPath (.punctuation '>' joint :: r)
      refine ⟨[⟨false, words, false⟩], ?_, rfl, by simp⟩
      rw [List.append_assoc]
      exact readArguments_final hstart (readArgument_of_readType hstart rfl rfl hform)
  | @comma words words' ts us joint h hr ih ihr =>
      intro found r
      simp only [totalWeight_append, totalWeight_punctuation] at hroom
      obtain ⟨below, rfl⟩ := Nat.exists_eq_succ_of_ne_zero (show level ≠ 0 by omega)
      obtain ⟨form, hform⟩ := ih (show totalWeight ts ≤ below + 1 by omega) found
        (.punctuation ',' joint :: (us ++ r)) (.inl (.inr (.inr rfl)))
      obtain ⟨as, has, rfl, hall⟩ := ihr (show totalWeight us ≤ below by omega) found r
      have hstart := h.startsPath (.punctuation ',' joint :: (us ++ r))
      refine ⟨⟨false, words, true⟩ :: as, ?_, ?_, by simpa using hall⟩
      · rw [List.append_assoc]
        exact readArguments_comma hstart (readArgument_of_readType hstart rfl rfl hform) has
      · rw [inOrder_cons rfl rfl hall]
        simp

/-- A type path is a type for the standard parser, and is written out word for word. -/
theorem standardParser_reads_path (h : Phrase.Spells .path words ts) :
    standardParser.Reads words ts := by
  intro r hr
  obtain ⟨t, ts, rfl⟩ : ∃ t ts', ts = t :: ts' := by
    cases h <;> exact ⟨_, _, rfl⟩
  have hread :
      Phrase.IsRead Expression.read (totalWeight (t :: ts ++ r) + 1) words (t :: ts) .path :=
    h.isRead (by rw [totalWeight_append]; omega)
  obtain ⟨form, hform⟩ := hread [] r (.inl hr)
  rw [List.cons_append] at hform
  simp only [standardParser, readType, List.cons_append, runTypeReader]
  rw [hform]
  simp [bind, Except.bind]
  rfl

end Metrology.Declaration
