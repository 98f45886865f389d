import Metrology.Worksheet
import Metrology.Proofs.Unit.Symbol
import Metrology.Proofs.Json.Numeral
import Metrology.Proofs.Json.Token
import Mathlib

/-!
# Reading tagged quantities back

A tagged object that was written for a quantity is read back as that quantity, and no other
dimension accepts it: its unit is a base symbol, which neither the base symbol nor the named symbol
of another dimension equals.  How numbers are written is left open; all that is asked of their text
is that it can be read as a bare number.
-/

namespace Metrology.Json

open Metrology.Text

theorem namesUnit_symbol_iff {d e : Dimension} : namesUnit d e.symbol = true ↔ e = d := by
  constructor
  · intro h
    rcases Bool.or_eq_true _ _ ▸ h with h | h
    · exact Dimension.symbol_injective (beq_iff_eq.1 h)
    · obtain ⟨unit, hunit, hsymbol⟩ := Option.map_eq_some_iff.1 (beq_iff_eq.1 h)
      obtain ⟨hmem, rfl⟩ := NamedUnit.lookup_eq_some hunit
      exact (NamedUnit.dimension_eq_of_symbol_eq hmem hsymbol).symm
  · rintro rfl
    simp [namesUnit]

theorem isPlain_of_isAlphanum {c : Char} (h : c.isAlphanum = true) : isPlain c = true := by
  have hval : c.toNat = c.val.toNat := rfl
  have hquote : c ≠ '"' := by
    rintro rfl
    revert h
    decide
  have hslash : c ≠ '\\' := by
    rintro rfl
    revert h
    decide
  simp only [Char.isAlphanum, Char.isAlpha, Char.isDigit, Char.isUpper, Char.isLower,
    Bool.or_eq_true, Bool.and_eq_true, decide_eq_true_eq, UInt32.le_iff_toNat_le] at h
  have hlow : 32 ≤ c.toNat := by
    simp at h
    omega
  simp [isPlain, hquote, hslash, hlow]

theorem all_isPlain_symbol (d : Dimension) : d.symbol.toList.all isPlain = true := by
  rw [List.all_eq_true]
  intro c hc
  rcases Dimension.mem_symbol hc with rfl | rfl | rfl | hc
  · rfl
  · rfl
  · rfl
  · exact isPlain_of_isAlphanum hc

/-! ## Entries of a text -/

def Members.Closes {s : List Char} (members : Members s) (es : List Entry) (r : List Char) : Prop :=
  members.entries = es ∧ members.ending.map (·.1) = .ok r

variable {s r r₁ r₂ : List Char} {token : Token} {first : Bool} {es : List Entry}

theorem scanMember_colon (hr : Scans (skipSpace r).1 token r₁) :
    (scanMember (':' :: r)).1 = token ∧ (scanMember (':' :: r)).2.1 = r₁ := hr

theorem scanEntry_leaves (key : List Char)
    (hopen : ∃ h, openKey first s = .ok ⟨key ++ '"' :: ':' :: r, h⟩)
    (hkey : key.all isPlain = true)
    (hvalue : Scans (skipSpace r).1 token r₁) :
    Leaves (scanEntry first s) (String.ofList key, token) r₁ := by
  obtain ⟨_, hopen⟩ := hopen
  obtain ⟨_, hstring⟩ := scanString_plain (r := ':' :: r) hkey
  obtain ⟨rfl, rfl⟩ := scanMember_colon hvalue
  exact ⟨_, bind_eq_ok.2 ⟨_, hopen, bind_eq_ok.2 ⟨_, hstring, rfl⟩⟩⟩

theorem scanMembers_entry {c : Char} {entry : Entry} (hs : (skipSpace s).1 = c :: r)
    (hc : c ≠ '\x7d') (hentry : Leaves (scanEntry first (c :: r)) entry r₁)
    (hclosed : entry.2.isClosed = true) (hrest : (scanMembers false r₁).Closes es r₂) :
    (scanMembers first s).Closes (entry :: es) r₂ := by
  have hskip : skipSpace s = ⟨c :: r, hs ▸ (skipSpace s).2⟩ := Subtype.ext hs
  obtain ⟨_, hok⟩ := hentry
  unfold Members.Closes
  rw [scanMembers, hskip]
  split
  · rename_i heq
    cases heq
  · rename_i heq
    exact absurd (List.cons.inj (Subtype.mk.inj heq)).1 hc
  · rename_i heq
    cases heq
    obtain ⟨hentries, hending⟩ := hrest
    simp only [hok, hclosed, if_true, hentries, true_and]
    cases hmore : (scanMembers false r₁).ending with
    | error f =>
        rw [hmore] at hending
        cases hending
    | ok q =>
        rw [hmore] at hending
        exact hending

theorem scanMembers_brace (hs : (skipSpace s).1 = '\x7d' :: r) :
    (scanMembers first s).Closes [] r := by
  have hbrace : skipSpace s = ⟨'\x7d' :: r, hs ▸ (skipSpace s).2⟩ := Subtype.ext hs
  unfold Members.Closes
  rw [scanMembers, hbrace]
  exact ⟨rfl, rfl⟩

def Denotes (text : String) (token : Token) : Prop :=
  ∃ r : List Char, (∀ c ∈ r, isSpace c = true) ∧
    ∀ t, EndsNumber t → Scans (skipSpace (text.toList ++ t)).1 token (r ++ t)

theorem readEnd_eq_ok {s : List Char} {u : Unit} (h : readEnd s = .ok u) :
    ∀ c ∈ s, isSpace c = true := by
  unfold readEnd at h
  split at h
  · exact List.all_eq_true.1 ‹_›
  · cases h

theorem readNumber_eq_ok {p : Precision} {x : Machine p} (h : readNumber p token = .ok x) :
    ∃ n, token = .number n := by
  cases token with
  | number n => exact ⟨n, rfl⟩
  | _ => cases h

theorem readBare_denotes {p : Precision} {text : String} {x : Machine p}
    (h : readBare p text = .ok x) :
    ∃ token, Denotes text token ∧ token.isClosed = true ∧ readNumber p token = .ok x := by
  have hread : (do
      let x ← readNumber p (scanToken (skipSpace text.toList).1).1
      readEnd (scanToken (skipSpace text.toList).1).2.1
      return x) = Except.ok x := h
  obtain ⟨y, hy, hread⟩ := bind_eq_ok.1 hread
  obtain ⟨_, hend, hread⟩ := bind_eq_ok.1 hread
  cases hread
  obtain ⟨n, hn⟩ := readNumber_eq_ok hy
  refine ⟨.number n, ⟨_, readEnd_eq_ok hend, fun t ht => ?_⟩, rfl, hn ▸ hy⟩
  have hne : text.toList.dropWhile isSpace ≠ [] := by
    intro hnil
    have hskip : (skipSpace text.toList).1 = [] := hnil
    rw [hskip] at hn
    cases hn
  have hskip : (skipSpace (text.toList ++ t)).1 = (skipSpace text.toList).1 ++ t := by
    change (text.toList ++ t).dropWhile isSpace = text.toList.dropWhile isSpace ++ t
    rw [List.dropWhile_append, if_neg (by simpa using hne)]
  rw [hskip]
  exact scans_number_append ht ⟨hn, rfl⟩

theorem null_denotes : Denotes "null" .null :=
  ⟨[], by simp, fun _ _ => scans_null⟩

theorem skipSpace_append (h : ∀ c ∈ r, isSpace c = true) {c : Char} (hc : isSpace c = false) :
    (skipSpace (r ++ c :: s)).1 = c :: s := by
  change (r ++ c :: s).dropWhile isSpace = c :: s
  rw [List.dropWhile_append_of_pos h, List.dropWhile_cons_of_neg (by simpa using hc)]

theorem toList_taggedTextOf (number : String) (d : Dimension) :
    (taggedTextOf number d).toList =
      '\x7b' :: '"' :: ("value".toList ++ '"' :: ':' :: (number.toList ++
        ',' :: '"' :: ("unit".toList ++ '"' :: ':' :: ('"' :: d.symbol.toList ++
          '"' :: ['\x7d'])))) := by
  simp [taggedTextOf]

theorem scanMembers_taggedTextOf {number : String} {d : Dimension} (h : Denotes number token)
    (hclosed : token.isClosed = true) :
    ∃ s, (skipSpace (taggedTextOf number d).toList).1 = '\x7b' :: s ∧
      (scanMembers true s).Closes [("value", token), ("unit", .string d.symbol)] [] := by
  obtain ⟨r, hr, hscan⟩ := h
  rw [toList_taggedTextOf]
  refine ⟨_, rfl, ?_⟩
  have hsymbol : Scans ('"' :: d.symbol.toList ++ ['"', '\x7d']) (.string d.symbol) ['\x7d'] := by
    have hscans := scans_string (r := ['\x7d']) (all_isPlain_symbol d)
    rwa [String.ofList_toList] at hscans
  have hends : EndsNumber (',' :: '"' :: ("unit".toList ++ '"' :: ':' ::
      ('"' :: d.symbol.toList ++ ['"', '\x7d']))) := by
    intro c hc
    cases hc
    decide
  refine scanMembers_entry (c := '"') rfl (by decide)
    (scanEntry_leaves "value".toList ⟨_, rfl⟩ rfl (hscan _ hends)) hclosed ?_
  refine scanMembers_entry (c := ',') (skipSpace_append hr rfl) (by decide)
    (scanEntry_leaves "unit".toList ⟨_, rfl⟩ rfl hsymbol) rfl ?_
  exact scanMembers_brace rfl

theorem readTagged_of_closes {d : Dimension} {p : Precision} {text : String}
    (hs : (skipSpace text.toList).1 = '\x7b' :: s) (h : (scanMembers true s).Closes es []) :
    readTagged d p text = readEntries d p es := by
  obtain ⟨rfl, hending⟩ := h
  have hend : ∃ h, (scanMembers true s).ending = .ok ⟨[], h⟩ := by
    cases hmembers : (scanMembers true s).ending with
    | error f =>
        rw [hmembers] at hending
        cases hending
    | ok q =>
        rw [hmembers] at hending
        obtain ⟨q, hq⟩ := q
        cases hending
        exact ⟨hq, rfl⟩
  obtain ⟨_, hend⟩ := hend
  unfold readTagged readEntries
  rw [hs]
  simp only [hend]
  cases (scanMembers true s).entries.foldlM Fields.read (.empty p) with
  | error e => rfl
  | ok fields =>
      change (do
        let x ← fields.finish d
        readEnd []
        return x) = fields.finish d
      cases fields.finish d with
      | error e => rfl
      | ok x => rfl

theorem readEntries_pair {d : Dimension} {p : Precision} {x : Machine p} {symbol : String}
    (h : readNumber p token = .ok x) :
    readEntries d p [("value", token), ("unit", .string symbol)] =
      if namesUnit d symbol then .ok x else .error (.data (.unitMismatch d.symbol symbol)) := by
  simp [readEntries, Fields.read, Fields.empty, Fields.finish, readString, h, pure, Except.pure,
    bind, Except.bind]

theorem readEntries_null {d : Dimension} {p : Precision} {symbol : String} :
    readEntries d p [("value", .null), ("unit", .string symbol)] =
      .error (.data (.invalidType .null (.number p))) := rfl

/-! ## Reading back -/

/-- What is asked of the text of a number.  A finite number is read back as itself. -/
structure WritesNumber {p : Precision} (x : Machine p) (text : String) : Prop where
  finite : Machine.isFinite x = true → readBare p text = .ok x
  other : Machine.isFinite x = false → text = "null"

/-- What a number that was written with the dimension `e` yields for the dimension `d`. -/
def readFor {p : Precision} (d e : Dimension) (x : Machine p) : Except ReadError (Machine p) :=
  if Machine.isFinite x then
    if e = d then .ok x else .error (.data (.unitMismatch d.symbol e.symbol))
  else .error (.data (.invalidType .null (.number p)))

theorem readTagged_taggedTextOf {p : Precision} {x : Machine p} {number : String}
    (h : WritesNumber x number) (d e : Dimension) :
    readTagged d p (taggedTextOf number e) = readFor d e x := by
  unfold readFor
  cases hx : Machine.isFinite x with
  | true =>
      obtain ⟨token, hnumber, hclosed, hread⟩ := readBare_denotes (h.finite hx)
      obtain ⟨s, hs, hmembers⟩ := scanMembers_taggedTextOf (d := e) hnumber hclosed
      rw [readTagged_of_closes hs hmembers, readEntries_pair hread]
      simp only [namesUnit_symbol_iff, if_true]
  | false =>
      rw [h.other hx]
      obtain ⟨s, hs, hmembers⟩ := scanMembers_taggedTextOf (d := e) null_denotes rfl
      rw [readTagged_of_closes hs hmembers]
      exact readEntries_null

def reread (w : Worksheet) (number : String) (q : Quantity Machine) (d : Dimension) :
    Except StepError (Value Machine) :=
  (w.evaluate (.taggedJson d q.scalar.precision (taggedTextOf number q.dimension))).result

theorem reread_eq {w : Worksheet} {number : String} {q : Quantity Machine} {d : Dimension}
    (hd : d.isDimensionless = false) (hn : WritesNumber q.scalar.value number) :
    reread w number q d =
      if Machine.isFinite q.scalar.value then
        if q.dimension = d then .ok (.quantity q)
        else .error (.json (.data (.unitMismatch d.symbol q.dimension.symbol)))
      else .error (.json (.data (.invalidType .null (.number q.scalar.precision)))) := by
  have hempty (s : Scalar Machine) : Quantity.ofScalar? d s = .ok ⟨d, s, hd⟩ := by
    rw [Quantity.ofScalar?, dif_neg (by simp [hd])]
  unfold reread
  simp only [Worksheet.evaluate, Worksheet.readJson, hempty, readTagged_taggedTextOf hn, readFor]
  split_ifs with hx hdim
  · subst hdim
    rfl
  · rfl
  · rfl

/-- A tagged object is read for the dimension it was written for and for no other. -/
theorem reread_own_dimension_only (w : Worksheet) (number : String) (q : Quantity Machine)
    (d : Dimension) (hd : d.isDimensionless = false)
    (hn : WritesNumber q.scalar.value number) :
    ((∃ v, reread w number q d = .ok v) ↔
      q.dimension = d ∧ Machine.isFinite q.scalar.value = true) ∧
    (∀ v, reread w number q d = .ok v → v = .quantity q) ∧
    (Machine.isFinite q.scalar.value = true → q.dimension ≠ d →
      reread w number q d =
        .error (.json (.data (.unitMismatch d.symbol q.dimension.symbol)))) := by
  rw [reread_eq hd hn]
  refine ⟨?_, ?_, ?_⟩
  · split_ifs with hx hdim
    · simp [hx, hdim]
    · simp [hdim]
    · simp [hx]
  · intro v hv
    split_ifs at hv
    cases hv
    rfl
  · intro hx hne
    rw [if_pos hx, if_neg hne]

def twelveNewtons : Quantity Machine :=
  ⟨Kind.force.dimension, ⟨.double, Machine.ofWord .double 0x4028000000000000⟩, rfl⟩

theorem reread_twelve_newtons :
    reread [] "12.0" twelveNewtons Kind.force.dimension = .ok (.quantity twelveNewtons) ∧
      reread [] "12.0" twelveNewtons Kind.length.dimension =
        .error (.json (.data (.unitMismatch "m" "m kg s-2"))) := by
  have hx : Machine.isFinite twelveNewtons.scalar.value = true := rfl
  have hnumber : WritesNumber twelveNewtons.scalar.value "12.0" := by
    refine ⟨fun _ => rfl, fun h => ?_⟩
    rw [hx] at h
    cases h
  obtain ⟨hforce, hvalue, -⟩ := reread_own_dimension_only [] "12.0" twelveNewtons
    Kind.force.dimension rfl hnumber
  obtain ⟨-, -, hlength⟩ := reread_own_dimension_only [] "12.0" twelveNewtons
    Kind.length.dimension rfl hnumber
  constructor
  · obtain ⟨v, hv⟩ := hforce.2 ⟨rfl, hx⟩
    rw [hv, hvalue v hv]
  · exact hlength hx (by decide)

def exactText {p : Precision} (x : Machine p) : String :=
  match Machine.datum x with
  | .finite negative m e => String.ofList (Numeral.exact negative m e).text
  | _ => "null"

theorem readNumber_exact {p : Precision} {x : Machine p} {negative : Bool} {m : Nat} {e : Int}
    (h : Machine.datum x = .finite negative m e) :
    readNumber p (.number (.exact negative m e)) = .ok x := by
  rw [readNumber, Numeral.word?_exact (Machine.word_lt x) h]
  exact congrArg Except.ok (Machine.ofWord_word x)

theorem readBare_text {p : Precision} {x : Machine p} {n : Numeral} (hn : n.integral = false)
    (h : readNumber p (.number n) = .ok x) : readBare p (String.ofList n.text) = .ok x := by
  obtain ⟨htoken, hrest⟩ := Numeral.scans_text hn
  have hskip : (skipSpace n.text).1 = n.text := by
    obtain ⟨c, s, hs, hc⟩ := n.exists_text_eq_cons
    rw [hs]
    exact skipSpace_append (r := []) (by simp) hc
  unfold readBare
  dsimp only
  rw [String.toList_ofList, hskip, htoken, hrest, h]
  rfl

/-- Every number has a text as it is asked for. -/
theorem writesNumber_exactText {p : Precision} (x : Machine p) :
    WritesNumber x (exactText x) := by
  cases hd : Machine.datum x with
  | finite negative m e =>
      have hx : Machine.isFinite x = true := by rw [Machine.isFinite, hd]
      refine ⟨fun _ => ?_, fun h => ?_⟩
      · rw [exactText, hd]
        exact readBare_text Numeral.integral_exact (readNumber_exact hd)
      · rw [hx] at h
        cases h
  | _ =>
      have hx : Machine.isFinite x = false := by rw [Machine.isFinite, hd]
      refine ⟨fun h => ?_, fun _ => by rw [exactText, hd]⟩
      rw [hx] at h
      cases h

/-- With exact numerals every finite quantity is read for its own dimension and for no other. -/
theorem reread_exactText (w : Worksheet) (q : Quantity Machine)
    (hx : Machine.isFinite q.scalar.value = true) :
    reread w (exactText q.scalar.value) q q.dimension = .ok (.quantity q) ∧
      ∀ d : Dimension, d.isDimensionless = false → q.dimension ≠ d →
        reread w (exactText q.scalar.value) q d =
          .error (.json (.data (.unitMismatch d.symbol q.dimension.symbol))) := by
  have hnumber := writesNumber_exactText q.scalar.value
  constructor
  · rw [reread_eq q.dimensional hnumber, if_pos hx, if_pos rfl]
  · intro d hd hne
    rw [reread_eq hd hnumber, if_pos hx, if_neg hne]

end Metrology.Json
