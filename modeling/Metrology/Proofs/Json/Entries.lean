import Metrology.Proofs.Json.Tagged

/-!
# Entries of a tagged object

A tagged object is accepted by what its entries are, in whatever order they come, and refused for
the first entry that is at fault.  Reading keeps two slots; behind a list of entries without a fault
each slot is empty, or holds what the one entry under its key reads as.
-/

namespace Metrology.Json

open Metrology.Text

/-! ## Faults of entries -/

def tokens (key : String) (entries : List Entry) : List Token :=
  entries.filterMap fun entry => if entry.1 = key then some entry.2 else none

/-- Why an entry is refused behind the entries `before`.  An unknown key and a repeated one are
refused whatever token they have. -/
inductive EntryFault (p : Precision) (before : List Entry) : Entry → ReadError → Prop
  | unknown {key : String} {token : Token} (hvalue : key ≠ "value") (hunit : key ≠ "unit") :
      EntryFault p before (key, token) (.data (.unknownField key))
  | repeated {key : String} {token : Token} (hkey : key = "value" ∨ key = "unit")
      (hbefore : tokens key before ≠ []) :
      EntryFault p before (key, token) (.data (.duplicateField key))
  | value {key : String} {token : Token} {e : ReadError} (hkey : key = "value")
      (hbefore : tokens key before = []) (hread : readNumber p token = .error e) :
      EntryFault p before (key, token) e
  | unit {key : String} {token : Token} {e : ReadError} (hkey : key = "unit")
      (hbefore : tokens key before = []) (hread : readString token = .error e) :
      EntryFault p before (key, token) e

def Faultless (p : Precision) (entries : List Entry) : Prop :=
  ∀ before entry after, entries = before ++ entry :: after → ∀ e, ¬ EntryFault p before entry e

inductive FirstFault (p : Precision) : List Entry → ReadError → Prop
  | intro {before : List Entry} {entry : Entry} {e : ReadError} (hbefore : Faultless p before)
      (hentry : EntryFault p before entry e) (after : List Entry) :
      FirstFault p (before ++ entry :: after) e

variable {p : Precision} {before after entries : List Entry} {entry : Entry} {e e' : ReadError}

@[simp] theorem tokens_nil (key : String) : tokens key [] = [] := rfl

theorem tokens_append (key : String) (before after : List Entry) :
    tokens key (before ++ after) = tokens key before ++ tokens key after :=
  List.filterMap_append

theorem tokens_cons (key : String) (entry : Entry) (entries : List Entry) :
    tokens key (entry :: entries) =
      if entry.1 = key then entry.2 :: tokens key entries else tokens key entries := by
  unfold tokens
  by_cases h : entry.1 = key <;> simp [h]

theorem EntryFault.unique (h : EntryFault p before entry e) (h' : EntryFault p before entry e') :
    e = e' := by
  cases h <;> cases h' <;> simp_all

theorem FirstFault.not_faultless (h : FirstFault p entries e) : ¬ Faultless p entries := by
  cases h with
  | intro _ hentry after => exact fun hall => hall _ _ after rfl _ hentry

inductive Slot {β : Type} (read : Token → Except ReadError β) : Option β → List Token → Prop
  | empty : Slot read none []
  | filled {token : Token} {x : β} (h : read token = .ok x) : Slot read (some x) [token]

namespace Slot

variable {β : Type} {read : Token → Except ReadError β} {x y : Option β} {ts rest : List Token}
  {token : Token}

theorem unique (h : Slot read x ts) (h' : Slot read y ts) : x = y := by
  cases h with
  | empty => cases h'; rfl
  | filled hx =>
      cases h' with
      | filled hy =>
          rw [hx] at hy
          cases hy
          rfl

theorem isSome_iff (h : Slot read x ts) : x.isSome = true ↔ ts ≠ [] := by
  cases h <;> simp

theorem none_iff : Slot read none ts ↔ ts = [] :=
  ⟨fun h => by cases h; rfl, fun h => h ▸ .empty⟩

theorem some_iff {y : β} : Slot read (some y) ts ↔ ∃ token, ts = [token] ∧ read token = .ok y := by
  constructor
  · rintro (_ | h)
    exact ⟨_, rfl, h⟩
  · rintro ⟨token, rfl, h⟩
    exact .filled h

theorem alone (h : Slot read x (ts ++ token :: rest)) : ts = [] ∧ ∃ y, read token = .ok y := by
  generalize hall : ts ++ token :: rest = all at h
  cases h with
  | empty => simp at hall
  | filled hy =>
      cases ts with
      | nil =>
          cases hall
          exact ⟨rfl, _, hy⟩
      | cons t ts => simp at hall

end Slot

structure Reads (p : Precision) (entries : List Entry) (fields : Fields p) : Prop where
  known : ∀ entry ∈ entries, entry.1 = "value" ∨ entry.1 = "unit"
  value : Slot (readNumber p) fields.value (tokens "value" entries)
  unit : Slot readString fields.unit (tokens "unit" entries)

theorem Reads.unique {fields fields' : Fields p} (h : Reads p entries fields)
    (h' : Reads p entries fields') : fields = fields' := by
  obtain ⟨value, unit⟩ := fields
  obtain ⟨value', unit'⟩ := fields'
  cases h.value.unique h'.value
  cases h.unit.unique h'.unit
  rfl

theorem Reads.faultless {fields : Fields p} (h : Reads p entries fields) : Faultless p entries := by
  rintro before ⟨key, token⟩ after rfl e hentry
  obtain ⟨hknown, hvalue, hunit⟩ := h
  rw [tokens_append, tokens_cons] at hvalue hunit
  cases hentry with
  | unknown hv hu =>
      rcases hknown (key, token) (by simp) with rfl | rfl
      · exact hv rfl
      · exact hu rfl
  | repeated hkey hbefore =>
      rcases hkey with rfl | rfl
      · exact hbefore hvalue.alone.1
      · exact hbefore hunit.alone.1
  | value hkey _ hread =>
      subst hkey
      obtain ⟨-, x, hx⟩ := hvalue.alone
      rw [hread] at hx
      cases hx
  | unit hkey _ hread =>
      subst hkey
      obtain ⟨-, x, hx⟩ := hunit.alone
      rw [hread] at hx
      cases hx

/-! ## Reading entry by entry -/

def fillSlot {β : Type} (key : String) (read : Token → Except ReadError β) (slot : Option β)
    (token : Token) : Except ReadError β :=
  if slot.isSome then .error (.data (.duplicateField key)) else read token

theorem Fields.read_value (fields : Fields p) (token : Token) :
    fields.read ("value", token) =
      (fillSlot "value" (readNumber p) fields.value token).map
        fun x => { fields with value := some x } := by
  simp only [Fields.read, fillSlot, if_true]
  split
  · rfl
  · cases readNumber p token <;> rfl

theorem Fields.read_unit (fields : Fields p) (token : Token) :
    fields.read ("unit", token) =
      (fillSlot "unit" readString fields.unit token).map
        fun text => { fields with unit := some text } := by
  simp only [Fields.read, fillSlot, if_true, if_false, String.reduceEq]
  split
  · rfl
  · cases readString token <;> rfl

theorem Fields.read_unknown (fields : Fields p) {key : String} (hvalue : key ≠ "value")
    (hunit : key ≠ "unit") (token : Token) :
    fields.read (key, token) = .error (.data (.unknownField key)) := by
  simp [Fields.read, hvalue, hunit]

namespace Slot

variable {β : Type} {key : String} {read : Token → Except ReadError β} {x : Option β} {y : β}
  {ts : List Token} {token : Token}

theorem fill_ok (h : Slot read x ts) (hfill : fillSlot key read x token = .ok y) :
    Slot read (some y) (ts ++ [token]) := by
  cases h with
  | empty => exact .filled hfill
  | filled => cases hfill

theorem fill_error (h : Slot read x ts) (hfill : fillSlot key read x token = .error e) :
    ts ≠ [] ∧ e = .data (.duplicateField key) ∨ ts = [] ∧ read token = .error e := by
  cases h with
  | empty => exact .inr ⟨rfl, hfill⟩
  | filled =>
      cases hfill
      exact .inl ⟨by simp, rfl⟩

end Slot

theorem Reads.empty (p : Precision) : Reads p [] (.empty p) :=
  ⟨by simp, .empty, .empty⟩

theorem Reads.append {fields fields' : Fields p} (h : Reads p before fields)
    (hread : fields.read entry = .ok fields') : Reads p (before ++ [entry]) fields' := by
  obtain ⟨key, token⟩ := entry
  obtain ⟨hknown, hvalue, hunit⟩ := h
  by_cases hv : key = "value"
  · subst hv
    rw [Fields.read_value] at hread
    obtain ⟨x, hfill, rfl⟩ := map_eq_ok.1 hread
    refine ⟨?_, ?_, ?_⟩
    · simpa [or_imp, forall_and] using hknown
    · simpa [tokens_append, tokens_cons] using hvalue.fill_ok hfill
    · simpa [tokens_append, tokens_cons] using hunit
  · by_cases hu : key = "unit"
    · subst hu
      rw [Fields.read_unit] at hread
      obtain ⟨text, hfill, rfl⟩ := map_eq_ok.1 hread
      refine ⟨?_, ?_, ?_⟩
      · simpa [or_imp, forall_and] using hknown
      · simpa [tokens_append, tokens_cons] using hvalue
      · simpa [tokens_append, tokens_cons] using hunit.fill_ok hfill
    · rw [Fields.read_unknown fields hv hu] at hread
      cases hread

theorem Reads.entryFault {fields : Fields p} (h : Reads p before fields)
    (hread : fields.read entry = .error e) : EntryFault p before entry e := by
  obtain ⟨key, token⟩ := entry
  by_cases hv : key = "value"
  · subst hv
    rw [Fields.read_value, map_eq_error] at hread
    rcases h.value.fill_error hread with ⟨hbefore, rfl⟩ | ⟨hbefore, hread⟩
    · exact .repeated (.inl rfl) hbefore
    · exact .value rfl hbefore hread
  · by_cases hu : key = "unit"
    · subst hu
      rw [Fields.read_unit, map_eq_error] at hread
      rcases h.unit.fill_error hread with ⟨hbefore, rfl⟩ | ⟨hbefore, hread⟩
      · exact .repeated (.inr rfl) hbefore
      · exact .unit rfl hbefore hread
    · rw [Fields.read_unknown fields hv hu] at hread
      cases hread
      exact .unknown hv hu

theorem Reads.foldlM_ok {fields fields' : Fields p} (h : Reads p before fields)
    (hfold : entries.foldlM Fields.read fields = .ok fields') :
    Reads p (before ++ entries) fields' := by
  -- The slots hold what the entries in front read as, one entry more at every step.
  induction entries generalizing before fields with
  | nil =>
      cases hfold
      rwa [List.append_nil]
  | cons entry entries ih =>
      rw [List.foldlM_cons] at hfold
      obtain ⟨next, hnext, hfold⟩ := bind_eq_ok.1 hfold
      have := ih (h.append hnext) hfold
      rwa [List.append_assoc] at this

theorem Reads.foldlM_error {fields : Fields p} (h : Reads p before fields)
    (hfold : entries.foldlM Fields.read fields = .error e) :
    FirstFault p (before ++ entries) e := by
  induction entries generalizing before fields with
  | nil => cases hfold
  | cons entry entries ih =>
      rw [List.foldlM_cons] at hfold
      cases hread : fields.read entry with
      | error e' =>
          rw [hread] at hfold
          cases hfold
          exact .intro h.faultless (h.entryFault hread) entries
      | ok next =>
          rw [hread] at hfold
          have := ih (h.append hread) hfold
          rwa [List.append_assoc] at this

/-! ## Whole objects -/

theorem foldlM_read_eq_ok_iff {fields : Fields p} :
    entries.foldlM Fields.read (.empty p) = .ok fields ↔ Reads p entries fields := by
  refine ⟨(Reads.empty p).foldlM_ok, fun h => ?_⟩
  cases hfold : entries.foldlM Fields.read (.empty p) with
  | error e => exact absurd h.faultless ((Reads.empty p).foldlM_error hfold).not_faultless
  | ok fields' => rw [((Reads.empty p).foldlM_ok hfold).unique h]

theorem foldlM_read_eq_error_iff :
    entries.foldlM Fields.read (.empty p) = .error e ↔ FirstFault p entries e := by
  refine ⟨(Reads.empty p).foldlM_error, fun h => ?_⟩
  cases h with
  | @intro before entry _ hbefore hentry after =>
  rw [List.foldlM_append]
  cases hfold : before.foldlM Fields.read (.empty p) with
  | error e' => exact absurd hbefore ((Reads.empty p).foldlM_error hfold).not_faultless
  | ok fields =>
      have hreads := (Reads.empty p).foldlM_ok hfold
      change (entry :: after).foldlM Fields.read fields = .error e
      rw [List.foldlM_cons]
      cases hread : fields.read entry with
      | error e' => rw [(hreads.entryFault hread).unique hentry]; rfl
      | ok next => exact absurd hentry ((hreads.append hread).faultless _ _ [] rfl e)

theorem faultless_iff_reads : Faultless p entries ↔ ∃ fields, Reads p entries fields := by
  constructor
  · intro h
    cases hfold : entries.foldlM Fields.read (.empty p) with
    | error e => exact absurd h (foldlM_read_eq_error_iff.1 hfold).not_faultless
    | ok fields => exact ⟨fields, foldlM_read_eq_ok_iff.1 hfold⟩
  · rintro ⟨fields, h⟩
    exact h.faultless

def SpellsUnit (d : Dimension) (text : String) : Prop :=
  text = d.symbol ∨ ∃ unit, NamedUnit.lookup d = some unit ∧ text = unit.symbol

theorem namesUnit_iff {d : Dimension} {text : String} :
    namesUnit d text = true ↔ SpellsUnit d text := by
  simp [namesUnit, SpellsUnit, Option.map_eq_some_iff, eq_comm (a := text)]

structure Accepts (d : Dimension) (entries : List Entry) {p : Precision} (x : Machine p) :
    Prop where
  known : ∀ entry ∈ entries, entry.1 = "value" ∨ entry.1 = "unit"
  value : ∃ token, tokens "value" entries = [token] ∧ readNumber p token = .ok x
  unit : tokens "unit" entries = [] ∨
    ∃ text, tokens "unit" entries = [.string text] ∧ SpellsUnit d text

/-- Why an object is refused.  The value is missed only when no entry is at fault, and the unit is
looked at only when there is a value. -/
inductive Refuses (d : Dimension) (p : Precision) (entries : List Entry) : ReadError → Prop
  | entry {e : ReadError} (h : FirstFault p entries e) : Refuses d p entries e
  | missingValue (h : Faultless p entries) (hvalue : tokens "value" entries = []) :
      Refuses d p entries (.data .missingValue)
  | unitMismatch {text : String} (h : Faultless p entries) (hvalue : tokens "value" entries ≠ [])
      (hunit : tokens "unit" entries = [.string text]) (hspells : ¬ SpellsUnit d text) :
      Refuses d p entries (.data (.unitMismatch d.symbol text))

theorem readString_eq_ok {token : Token} {text : String} :
    readString token = .ok text ↔ token = .string text := by
  cases token <;> simp [readString]

theorem Accepts.perm {d : Dimension} {x : Machine p} {entries' : List Entry}
    (h : Accepts d entries x) (hperm : entries.Perm entries') : Accepts d entries' x := by
  have htokens (key : String) : (tokens key entries).Perm (tokens key entries') :=
    hperm.filterMap _
  obtain ⟨hknown, ⟨token, hvalue, hread⟩, hunit⟩ := h
  refine ⟨fun entry hentry => hknown entry (hperm.mem_iff.2 hentry), ⟨token, ?_, hread⟩, ?_⟩
  · have := htokens "value"
    rwa [hvalue, List.singleton_perm, eq_comm] at this
  · have := htokens "unit"
    rcases hunit with hnone | ⟨text, hsome, hspells⟩
    · rw [hnone, List.nil_perm] at this
      exact .inl this
    · rw [hsome, List.singleton_perm, eq_comm] at this
      exact .inr ⟨text, this, hspells⟩

theorem Fields.finish_eq_ok_iff {d : Dimension} {fields : Fields p} {x : Machine p} :
    fields.finish d = .ok x ↔ fields.value = some x ∧
      (fields.unit = none ∨ ∃ text, fields.unit = some text ∧ SpellsUnit d text) := by
  obtain ⟨value, unit⟩ := fields
  cases value with
  | none => simp [finish]
  | some y =>
      cases unit with
      | none => simp [finish]
      | some text =>
          by_cases h : SpellsUnit d text
          · simp [finish, namesUnit_iff, h]
          · simp [finish, namesUnit_iff, h]

theorem Fields.finish_eq_error_iff {d : Dimension} {fields : Fields p} :
    fields.finish d = .error e ↔ fields.value = none ∧ e = .data .missingValue ∨
      fields.value.isSome = true ∧ ∃ text, fields.unit = some text ∧ ¬ SpellsUnit d text ∧
        e = .data (.unitMismatch d.symbol text) := by
  obtain ⟨value, unit⟩ := fields
  cases value with
  | none => simp [finish, eq_comm (b := e)]
  | some y =>
      cases unit with
      | none => simp [finish]
      | some text =>
          by_cases h : SpellsUnit d text
          · simp [finish, namesUnit_iff, h]
          · simp [finish, namesUnit_iff, h, eq_comm (b := e)]

theorem readEntries_eq_ok_iff {d : Dimension} {x : Machine p} :
    readEntries d p entries = .ok x ↔ Accepts d entries x := by
  unfold readEntries
  rw [bind_eq_ok]
  simp only [foldlM_read_eq_ok_iff, Fields.finish_eq_ok_iff]
  constructor
  · rintro ⟨fields, ⟨hknown, hvalue, hunit⟩, hx, hspells⟩
    refine ⟨hknown, Slot.some_iff.1 (hx ▸ hvalue), ?_⟩
    rcases hspells with hnone | ⟨text, hsome, hspells⟩
    · exact .inl (Slot.none_iff.1 (hnone ▸ hunit))
    · obtain ⟨token, htoken, hread⟩ := Slot.some_iff.1 (hsome ▸ hunit)
      cases readString_eq_ok.1 hread
      exact .inr ⟨text, htoken, hspells⟩
  · rintro ⟨hknown, hvalue, hunit⟩
    have hslot := Slot.some_iff.2 hvalue
    rcases hunit with hnone | ⟨text, hsome, hspells⟩
    · exact ⟨⟨some x, none⟩, ⟨hknown, hslot, Slot.none_iff.2 hnone⟩, rfl, .inl rfl⟩
    · exact ⟨⟨some x, some text⟩, ⟨hknown, hslot, Slot.some_iff.2 ⟨_, hsome, rfl⟩⟩, rfl,
        .inr ⟨text, rfl, hspells⟩⟩

theorem readEntries_eq_error_iff {d : Dimension} :
    readEntries d p entries = .error e ↔ Refuses d p entries e := by
  unfold readEntries
  rw [bind_eq_error]
  simp only [foldlM_read_eq_ok_iff, foldlM_read_eq_error_iff, Fields.finish_eq_error_iff]
  constructor
  · rintro (h | ⟨fields, h, ⟨hnone, rfl⟩ | ⟨hsome, text, htext, hspells, rfl⟩⟩)
    · exact .entry h
    · exact .missingValue h.faultless (Slot.none_iff.1 (hnone ▸ h.value))
    · obtain ⟨token, htoken, hread⟩ := Slot.some_iff.1 (htext ▸ h.unit)
      cases readString_eq_ok.1 hread
      exact .unitMismatch h.faultless (h.value.isSome_iff.1 hsome) htoken hspells
  · intro h
    cases h with
    | entry h => exact .inl h
    | missingValue h hvalue =>
        obtain ⟨⟨value, unit⟩, hreads⟩ := faultless_iff_reads.1 h
        cases (Slot.none_iff.2 hvalue).unique hreads.value
        exact .inr ⟨_, hreads, .inl ⟨rfl, rfl⟩⟩
    | @unitMismatch text h hvalue hunit hspells =>
        obtain ⟨⟨value, unit⟩, hreads⟩ := faultless_iff_reads.1 h
        have hslot : Slot readString (some text) (tokens "unit" entries) :=
          Slot.some_iff.2 ⟨_, hunit, rfl⟩
        cases hslot.unique hreads.unit
        exact .inr ⟨_, hreads, .inr ⟨hreads.value.isSome_iff.2 hvalue, text, rfl, hspells, rfl⟩⟩

theorem readJson_eq_ok_iff {d : Dimension} {read : Except ReadError (Machine p)}
    {v : Value Machine} :
    Worksheet.readJson read d = .ok v ↔
      ∃ (hd : d.isDimensionless = false) (x : Machine p), read = .ok x ∧
        v = .quantity ⟨d, ⟨p, x⟩, hd⟩ := by
  unfold Worksheet.readJson Quantity.ofScalar?
  by_cases hd : d.isDimensionless = true
  · rw [dif_pos hd]
    constructor
    · intro h
      cases h
    · rintro ⟨hfalse, -⟩
      rw [hd] at hfalse
      cases hfalse
  · rw [dif_neg hd]
    cases read with
    | error e =>
        constructor
        · intro h
          cases h
        · rintro ⟨-, x, hx, -⟩
          cases hx
    | ok x =>
        constructor
        · intro h
          cases h
          exact ⟨by simpa using hd, x, rfl, rfl⟩
        · rintro ⟨-, y, hy, rfl⟩
          cases hy
          rfl

theorem readTagged_of_firstFault {d : Dimension} {text : String} {s : List Char}
    (hs : (skipSpace text.toList).1 = '\x7b' :: s)
    (h : FirstFault p (scanMembers true s).entries e) :
    readTagged d p text = .error e := by
  have hfold := foldlM_read_eq_error_iff.2 h
  unfold readTagged
  split
  · rename_i s' hs'
    rw [hs] at hs'
    cases hs'
    simp only [hfold]
    rfl
  · rename_i hne
    exact absurd hs (hne s)

/-- Entries are accepted by what they are and refused for the first fault, in whatever order they
come, and an object in a text is read as its entries are. -/
theorem readEntries_decided (d : Dimension) (p : Precision) (entries : List Entry) :
    (∀ v, Worksheet.readJson (readEntries d p entries) d = .ok v ↔
      ∃ (hd : d.isDimensionless = false) (x : Machine p), Accepts d entries x ∧
        v = .quantity ⟨d, ⟨p, x⟩, hd⟩) ∧
    (∀ x : Machine p, readEntries d p entries = .ok x ↔ Accepts d entries x) ∧
    (∀ entries' (x : Machine p), entries.Perm entries' → readEntries d p entries = .ok x →
      readEntries d p entries' = .ok x) ∧
    (∀ e, readEntries d p entries = .error e ↔ Refuses d p entries e) ∧
    ∀ text s, (skipSpace text.toList).1 = '\x7b' :: s →
      ((scanMembers true s).Closes entries [] → readTagged d p text = readEntries d p entries) ∧
      ((scanMembers true s).entries = entries → ∀ e, FirstFault p entries e →
        readTagged d p text = .error e) := by
  refine ⟨fun v => ?_, fun x => readEntries_eq_ok_iff, fun entries' x hperm h => ?_,
    fun e => readEntries_eq_error_iff, fun text s hs => ⟨readTagged_of_closes hs, ?_⟩⟩
  · rw [readJson_eq_ok_iff]
    simp only [readEntries_eq_ok_iff]
  · exact readEntries_eq_ok_iff.2 ((readEntries_eq_ok_iff.1 h).perm hperm)
  · rintro rfl e h
    exact readTagged_of_firstFault hs h

end Metrology.Json
