import Metrology.Declaration.Entry
import Metrology.Proofs.Declaration.Token

/-!
# Lists of entries

A list of entries is written down one entry after the other, each with a comma behind it or not.
What is written so is read back, whatever stands behind it.  What the reader refuses, it refuses for
the leftmost entry that does not parse.
-/

namespace Metrology.Declaration

variable (parser : Parser)

def EndsEntry (r : List Token) : Prop :=
  r = [] ∨ startsIdentifier r = true ∨ startsWith ',' r = true

/-- The parser takes these tokens for a type, wherever they are the end of an entry, and writes it
out with these words. -/
def Parser.Reads (words : List String) (front : List Token) : Prop :=
  ∀ r, EndsEntry r → parser.readType (front ++ r) = .ok ⟨words, [], r⟩

inductive Entry.Spells : Entry → List Token → Prop
  | name (text : StringLiteral) (joint : Bool) :
      Spells (.name text) [.identifier "name", .punctuation '=' joint,
        .literal text.spelling (some text.value)]
  | symbol (text : StringLiteral) (joint : Bool) :
      Spells (.symbol text) [.identifier "symbol", .punctuation '=' joint,
        .literal text.spelling (some text.value)]
  | dimension {words : List String} {ts : List Token} (joint : Bool) (h : parser.Reads words ts) :
      Spells (.dimension words) (.identifier "dimension" :: .punctuation '=' joint :: ts)

/-- Tokens that neither go on with an entry nor are the comma behind it. -/
def Entry.EndsBefore (entry : Entry) (r : List Token) : Prop :=
  startsWith ',' r = false ∧ (entry.key = .dimension → r = [] ∨ startsIdentifier r = true)

/-- Tokens that entries make up in front of others, each with a comma behind it or not. -/
inductive Written : List Entry → List Token → (behind : List Token) → Prop
  | nil (r : List Token) : Written [] [] r
  | bare {entry : Entry} {entries : List Entry} {ts us r : List Token} (h : entry.Spells parser ts)
      (hend : us = [] → entry.EndsBefore r) (hr : Written entries us r) :
      Written (entry :: entries) (ts ++ us) r
  | comma {entry : Entry} {entries : List Entry} {ts us r : List Token} (joint : Bool)
      (h : entry.Spells parser ts) (hr : Written entries us r) :
      Written (entry :: entries) (ts ++ .punctuation ',' joint :: us) r

/-- An entry as it is read off the front of a token list, with the groups in it that hold strays and
the tokens behind it. -/
inductive EntryAt : List Token → Entry → List Delimiter → List Token → Prop
  | name (text : StringLiteral) (joint : Bool) (r : List Token) :
      EntryAt (.identifier "name" :: .punctuation '=' joint ::
        .literal text.spelling (some text.value) :: r) (.name text) [] r
  | symbol (text : StringLiteral) (joint : Bool) (r : List Token) :
      EntryAt (.identifier "symbol" :: .punctuation '=' joint ::
        .literal text.spelling (some text.value) :: r) (.symbol text) [] r
  | dimension {x : TypeReading} {ts : List Token} (joint : Bool) (h : parser.readType ts = .ok x) :
      EntryAt (.identifier "dimension" :: .punctuation '=' joint :: ts) (.dimension x.words)
        x.strays x.rest

inductive EntriesAt : List Token → List Entry → List Delimiter → Prop
  | nil : EntriesAt [] [] []
  | cons {entry : Entry} {entries : List Entry} {found found' : List Delimiter} {ts r : List Token}
      (h : EntryAt parser ts entry found r) (hr : EntriesAt (skipComma r) entries found') :
      EntriesAt ts (entry :: entries) (found ++ found')

def startsText : List Token → Bool
  | .literal _ (some _) :: _ => true
  | _ => false

/-- Why no entry is read off the front of a token list.  A stray comma is a key that is no
identifier. -/
inductive EntryFault : List Token → DeclarationError → Prop
  | key {t : Token} {r : List Token} (h : ∀ name, t ≠ .identifier name) :
      EntryFault (t :: r) (.expected .identifier false)
  | keyword {name : String} {r : List Token} (h : name ∈ keywords) :
      EntryFault (.identifier name :: r) (.keyword name)
  | equals {name : String} {r : List Token} (hname : name ∉ keywords)
      (h : startsWith '=' r = false) :
      EntryFault (.identifier name :: r) (.expectedMark "=")
  | unknownKey {name : String} {joint : Bool} {r : List Token} (hname : name ∉ keywords)
      (h : ∀ key : Key, name ≠ key.text) :
      EntryFault (.identifier name :: .punctuation '=' joint :: r) (.unknownKey name)
  | text {key : Key} {joint : Bool} {r : List Token} (hkey : key ≠ .dimension)
      (h : startsText r = false) :
      EntryFault (.identifier key.text :: .punctuation '=' joint :: r) (missing .stringLiteral r)
  | dimension {joint : Bool} {r : List Token} {e : DeclarationError}
      (h : parser.readType r = .error e) :
      EntryFault (.identifier "dimension" :: .punctuation '=' joint :: r) e

inductive FirstFault : List Token → DeclarationError → Prop
  | here {ts : List Token} {e : DeclarationError} (h : EntryFault parser ts e) : FirstFault ts e
  | behind {entry : Entry} {found : List Delimiter} {ts r : List Token} {e : DeclarationError}
      (h : EntryAt parser ts entry found r) (hr : FirstFault (skipComma r) e) : FirstFault ts e

/-- Tokens that are faulty for one reason, whatever stands behind them. -/
def Faulty (ts : List Token) (e : DeclarationError) : Prop :=
  ts ≠ [] ∧ ∀ behind, EntryFault parser (ts ++ behind) e

variable {parser} {entry : Entry} {entries : List Entry} {key : Key} {ts us r : List Token}
  {found found' : List Delimiter} {e : DeclarationError}

/-! ## Reading one entry -/

theorem ofText?_text (key : Key) : Key.ofText? key.text = some key := by
  cases key <;> rfl

theorem ofText?_eq_none_iff {name : String} :
    Key.ofText? name = none ↔ ∀ key : Key, name ≠ key.text := by
  constructor
  · rintro h key rfl
    rw [ofText?_text] at h
    cases h
  · intro h
    unfold Key.ofText?
    split
    · exact absurd rfl (h .name)
    · exact absurd rfl (h .symbol)
    · exact absurd rfl (h .dimension)
    · rfl

theorem text_not_mem_keywords (key : Key) : key.text ∉ keywords := by
  cases key <;> decide

theorem readString_of_startsText (h : startsText r = false) :
    readString r = .error (missing .stringLiteral r) := by
  unfold readString
  split
  · cases h
  · rfl

namespace Parser

theorem readEntry_of_key (key : Key) (joint : Bool) (r : List Token) :
    parser.readEntry (.identifier key.text :: .punctuation '=' joint :: r) =
      parser.readValue key r := by
  simp [readEntry, readIdentifier, readEquals, text_not_mem_keywords, ofText?_text, bind,
    Except.bind]

theorem readEntry_of_entryAt (h : EntryAt parser ts entry found r) :
    parser.readEntry ts = .ok (entry, found, r) := by
  cases h with
  | name text joint => exact readEntry_of_key .name joint _
  | symbol text joint => exact readEntry_of_key .symbol joint _
  | @dimension x ts joint h =>
      refine (readEntry_of_key .dimension joint ts).trans ?_
      rw [readValue, h]
      rfl

theorem readEntry_of_entryFault (h : EntryFault parser ts e) : parser.readEntry ts = .error e := by
  cases h with
  | @key t r h =>
      cases t with
      | identifier name => exact absurd rfl (h name)
      | literal | punctuation | group => rfl
  | keyword h => simp [readEntry, readIdentifier, h, bind, Except.bind]
  | @equals name r hname h =>
      have hequals : readEquals r = .error (.expectedMark "=") := by
        unfold readEquals
        split
        · cases h
        · rfl
      simp [readEntry, readIdentifier, hname, hequals, bind, Except.bind]
  | unknownKey hname h =>
      simp [readEntry, readIdentifier, readEquals, hname, ofText?_eq_none_iff.2 h, bind,
        Except.bind]
  | @text key joint r hkey h =>
      rw [readEntry_of_key]
      cases key with
      | name | symbol => rw [readValue, readString_of_startsText h]; rfl
      | dimension => exact absurd rfl hkey
  | @dimension joint r e h =>
      refine (readEntry_of_key .dimension joint r).trans ?_
      rw [readValue, h]
      rfl

end Parser

theorem entryAt_or_entryFault_of_key (key : Key) (joint : Bool) (r : List Token) :
    (∃ entry found q, EntryAt parser (.identifier key.text :: .punctuation '=' joint :: r)
        entry found q) ∨
      ∃ e, EntryFault parser (.identifier key.text :: .punctuation '=' joint :: r) e := by
  by_cases hkey : key = .dimension
  · subst hkey
    cases h : parser.readType r with
    | ok x => exact .inl ⟨_, _, _, .dimension joint h⟩
    | error e => exact .inr ⟨e, .dimension h⟩
  cases htext : startsText r with
  | false => exact .inr ⟨_, .text hkey htext⟩
  | true =>
      unfold startsText at htext
      split at htext
      · cases key with
        | name => exact .inl ⟨_, _, _, .name ⟨_, _⟩ joint _⟩
        | symbol => exact .inl ⟨_, _, _, .symbol ⟨_, _⟩ joint _⟩
        | dimension => exact absurd rfl hkey
      · cases htext

theorem entryAt_or_entryFault (t : Token) (ts : List Token) :
    (∃ entry found r, EntryAt parser (t :: ts) entry found r) ∨
      ∃ e, EntryFault parser (t :: ts) e := by
  by_cases ht : ∃ name, t = .identifier name
  · obtain ⟨name, rfl⟩ := ht
    by_cases hname : name ∈ keywords
    · exact .inr ⟨_, .keyword hname⟩
    cases hequals : startsWith '=' ts with
    | false => exact .inr ⟨_, .equals hname hequals⟩
    | true =>
        obtain ⟨joint, r, rfl⟩ := eq_of_startsWith hequals
        by_cases hkey : ∃ key : Key, name = key.text
        · obtain ⟨key, rfl⟩ := hkey
          exact entryAt_or_entryFault_of_key key joint r
        · exact .inr ⟨_, .unknownKey hname (not_exists.1 hkey)⟩
  · exact .inr ⟨_, .key (not_exists.1 ht)⟩

/-! ## Reading all of them -/

namespace Parser

theorem readEntries_nil : parser.readEntries [] = .ok ([], []) := by
  rw [readEntries]

theorem readEntries_of_entryAt (h : EntryAt parser ts entry found r) :
    parser.readEntries ts =
      (parser.readEntries (skipComma r)).map fun x => (entry :: x.1, found ++ x.2) := by
  have hentry := readEntry_of_entryAt h
  cases ts with
  | nil => cases hentry
  | cons t ts =>
      rw [readEntries]
      split
      · rename_i h'
        rw [hentry] at h'
        cases h'
      · rename_i h'
        rw [hentry] at h'
        cases h'
        cases parser.readEntries (skipComma r) <;> rfl

theorem readEntries_of_entryFault (h : EntryFault parser ts e) :
    parser.readEntries ts = .error e := by
  have hentry := readEntry_of_entryFault h
  cases ts with
  | nil => cases h
  | cons t ts =>
      rw [readEntries]
      split
      · rename_i h'
        rw [hentry] at h'
        cases h'
        rfl
      · rename_i h'
        rw [hentry] at h'
        cases h'

theorem readEntries_of_entriesAt (h : EntriesAt parser ts entries found) :
    parser.readEntries ts = .ok (entries, found) := by
  induction h with
  | nil => exact readEntries_nil
  | cons h _ ih => rw [readEntries_of_entryAt h, ih]; rfl

theorem readEntries_of_firstFault (h : FirstFault parser ts e) :
    parser.readEntries ts = .error e := by
  induction h with
  | here h => exact readEntries_of_entryFault h
  | behind h _ ih => rw [readEntries_of_entryAt h, ih]; rfl

end Parser

theorem entriesAt_or_firstFault (parser : Parser) (ts : List Token) :
    (∃ x : List Entry × List Delimiter, EntriesAt parser ts x.1 x.2) ∨
      ∃ e, FirstFault parser ts e := by
  cases ts with
  | nil => exact .inl ⟨([], []), .nil⟩
  | cons t ts =>
      rcases entryAt_or_entryFault t ts with ⟨entry, found, r, h⟩ | ⟨e, h⟩
      · have hlength := Parser.readEntry_length (Parser.readEntry_of_entryAt h)
        have hskip := skipComma_length r
        rcases entriesAt_or_firstFault parser (skipComma r) with ⟨x, hr⟩ | ⟨e, hr⟩
        · exact .inl ⟨(_, _), .cons h hr⟩
        · exact .inr ⟨e, .behind h hr⟩
      · exact .inr ⟨e, .here h⟩
  termination_by ts.length
  decreasing_by
    simp only [List.length_cons] at *
    omega

theorem Parser.readEntries_accepts_and_refuses (ts : List Token) :
    (∀ x, parser.readEntries ts = .ok x ↔ EntriesAt parser ts x.1 x.2) ∧
      ∀ e, parser.readEntries ts = .error e ↔ FirstFault parser ts e :=
  accepts_and_refuses (fun _ => readEntries_of_entriesAt) (fun _ => readEntries_of_firstFault)
    (entriesAt_or_firstFault parser ts)

theorem Parser.readEntries_eq_ok_iff :
    parser.readEntries ts = .ok (entries, found) ↔ EntriesAt parser ts entries found :=
  (readEntries_accepts_and_refuses ts).1 (entries, found)

theorem Parser.readEntries_eq_error_iff :
    parser.readEntries ts = .error e ↔ FirstFault parser ts e :=
  (readEntries_accepts_and_refuses ts).2 e

theorem Entry.Spells.startsIdentifier (h : entry.Spells parser ts) (r : List Token) :
    startsIdentifier (ts ++ r) = true := by
  cases h <;> rfl

theorem Entry.Spells.entryAt (h : entry.Spells parser ts)
    (hend : entry.key = .dimension → EndsEntry r) : EntryAt parser (ts ++ r) entry [] r := by
  cases h with
  | name text joint => exact .name text joint r
  | symbol text joint => exact .symbol text joint r
  | dimension joint h => exact .dimension joint (h r (hend rfl))

theorem Written.startsIdentifier_or_nil (h : Written parser entries ts r) :
    ts = [] ∨ ∀ us, startsIdentifier (ts ++ us) = true := by
  cases h with
  | nil => exact .inl rfl
  | bare h | comma _ h =>
      refine .inr fun us => ?_
      rw [List.append_assoc]
      exact h.startsIdentifier _

theorem skipComma_of_startsWith (h : startsWith ',' ts = false) : skipComma ts = ts := by
  unfold skipComma
  split
  · cases h
  · rfl

theorem Written.endsBefore (h : Written parser entries us r)
    (hend : us = [] → entry.EndsBefore r) : entry.EndsBefore (us ++ r) := by
  rcases h.startsIdentifier_or_nil with rfl | hus
  · exact hend rfl
  · exact ⟨startsWith_of_startsIdentifier (hus r), fun _ => .inr (hus r)⟩

theorem Parser.readEntries_append (h : Written parser entries ts r) :
    parser.readEntries (ts ++ r) = (parser.readEntries r).map fun x => (entries ++ x.1, x.2) := by
  induction h with
  | nil r => rw [List.nil_append]; cases parser.readEntries r <;> rfl
  | @bare entry entries ts us r h hend hr ih =>
      obtain ⟨hcomma, htype⟩ := hr.endsBefore hend
      have hat := h.entryAt fun hkey => (htype hkey).imp_right .inl
      rw [List.append_assoc, readEntries_of_entryAt hat, skipComma_of_startsWith hcomma, ih]
      cases parser.readEntries r <;> rfl
  | @comma entry entries ts us r joint h hr ih =>
      have hat : EntryAt parser (ts ++ .punctuation ',' joint :: (us ++ r)) entry []
          (.punctuation ',' joint :: (us ++ r)) := h.entryAt fun _ => .inr (.inr rfl)
      rw [List.append_assoc, List.cons_append, readEntries_of_entryAt hat, skipComma, ih]
      cases parser.readEntries r <;> rfl

theorem Parser.readEntries_of_written (h : Written parser entries ts []) :
    parser.readEntries ts = .ok (entries, []) := by
  have hread := readEntries_append h
  rw [List.append_nil, readEntries_nil] at hread
  simpa [Except.map] using hread

/-! ## What settles a fault -/

theorem Entry.EndsBefore.append (h : entry.EndsBefore r) (hr : r ≠ []) (behind : List Token) :
    entry.EndsBefore (r ++ behind) := by
  obtain ⟨hcomma, htype⟩ := h
  rw [EndsBefore, startsWith_append hr, startsIdentifier_append hr]
  exact ⟨hcomma, fun hkey => .inr ((htype hkey).resolve_left hr)⟩

theorem Written.append (h : Written parser entries ts r) (hr : r ≠ []) (behind : List Token) :
    Written parser entries ts (r ++ behind) := by
  induction h with
  | nil => exact .nil _
  | bare h hend _ ih => exact .bare h (fun hus => (hend hus).append hr behind) (ih hr)
  | comma joint h _ ih => exact .comma joint h (ih hr)

theorem Parser.readEntries_of_faulty (h : Written parser entries ts us)
    (hfault : Faulty parser us e)
    (behind : List Token) : parser.readEntries (ts ++ (us ++ behind)) = .error e := by
  rw [readEntries_append (h.append hfault.1 behind), readEntries_of_entryFault (hfault.2 behind)]
  rfl

end Metrology.Declaration
