import Metrology.Declaration.Implementation

/-!
# The entries that count

Of several entries with one key the last one counts.  So a list of entries makes a unit exactly when
every key occurs and the last symbol is not empty, and what it makes is read off the last entries.
Nothing that leaves the last entry of each key in place changes it.
-/

namespace Metrology.Declaration

def Occurs (key : Key) (entries : List Entry) : Prop := ∃ entry ∈ entries, entry.key = key

/-- An entry with no other one of its key behind it. -/
def IsLast (entry : Entry) (entries : List Entry) : Prop :=
  ∃ before after, entries = before ++ entry :: after ∧ ¬ Occurs entry.key after

def Key.earlier : Key → List Key
  | .name => []
  | .symbol => [.name]
  | .dimension => [.name, .symbol]

/-- Why entries without a fault of their own do not make a unit, if strays are found in groups of
these delimiters. -/
inductive Incomplete (entries : List Entry) : List Delimiter → DeclarationError → Prop
  | missing {found : List Delimiter} {key : Key} (hearlier : ∀ k ∈ key.earlier, Occurs k entries)
      (h : ¬ Occurs key entries) : Incomplete entries found (.missingKey key)
  | stray {d : Delimiter} {found : List Delimiter} (hall : ∀ key, Occurs key entries) :
      Incomplete entries (d :: found) (.unexpectedToken (some d))
  | empty {text : StringLiteral} (hall : ∀ key, Occurs key entries)
      (h : IsLast (.symbol text) entries) (htext : text.value = "") :
      Incomplete entries [] .emptySymbol

/-- Lists of entries that differ in the order of entries of different keys, or in entries whose key
occurs again behind them. -/
inductive Rearranged : List Entry → List Entry → Prop
  | refl (entries : List Entry) : Rearranged entries entries
  | swap (before : List Entry) {first second : Entry} (after : List Entry)
      (h : first.key ≠ second.key) :
      Rearranged (before ++ first :: second :: after) (before ++ second :: first :: after)
  | overridden (before : List Entry) {entry : Entry} {after : List Entry}
      (h : Occurs entry.key after) : Rearranged (before ++ after) (before ++ entry :: after)
  | symm {entries entries' : List Entry} (h : Rearranged entries entries') :
      Rearranged entries' entries
  | trans {entries entries' entries'' : List Entry} (h : Rearranged entries entries')
      (h' : Rearranged entries' entries'') : Rearranged entries entries''

variable {entry first : Entry} {entries entries' before after : List Entry} {key : Key}
  {found : List Delimiter} {e : DeclarationError}

@[simp] theorem not_occurs_nil (key : Key) : ¬ Occurs key [] := by
  simp [Occurs]

@[simp] theorem occurs_cons :
    Occurs key (first :: entries) ↔ first.key = key ∨ Occurs key entries := by
  simp [Occurs]

@[simp] theorem occurs_append :
    Occurs key (before ++ after) ↔ Occurs key before ∨ Occurs key after := by
  simp [Occurs, or_and_right, exists_or]

@[simp] theorem not_isLast_nil (entry : Entry) : ¬ IsLast entry [] := by
  rintro ⟨before, after, h, -⟩
  simp at h

@[simp] theorem isLast_cons :
    IsLast entry (first :: entries) ↔
      IsLast entry entries ∨ entry = first ∧ ¬ Occurs entry.key entries := by
  constructor
  · rintro ⟨before, after, h, hafter⟩
    cases before with
    | nil =>
        cases h
        exact .inr ⟨rfl, hafter⟩
    | cons entry' before =>
        cases h
        exact .inl ⟨before, after, rfl, hafter⟩
  · rintro (⟨before, after, rfl, hafter⟩ | ⟨rfl, h⟩)
    · exact ⟨first :: before, after, rfl, hafter⟩
    · exact ⟨[], entries, rfl, h⟩

theorem IsLast.occurs (h : IsLast entry entries) : Occurs entry.key entries := by
  obtain ⟨before, after, rfl, -⟩ := h
  simp

theorem isLast_append :
    IsLast entry (before ++ after) ↔
      IsLast entry after ∨ IsLast entry before ∧ ¬ Occurs entry.key after := by
  induction before with
  | nil => simp
  | cons first before ih =>
      simp only [List.cons_append, isLast_cons, ih, occurs_append]
      grind

theorem Rearranged.isLast_iff (h : Rearranged entries entries') (entry : Entry) :
    IsLast entry entries ↔ IsLast entry entries' := by
  induction h with
  | refl => rfl
  | swap before after h =>
      have hkeys : ∀ {first second : Entry}, first.key ≠ second.key → entry = first →
          entry.key ≠ second.key := by
        rintro _ _ h rfl
        exact h
      simp only [isLast_append, isLast_cons, occurs_cons]
      grind
  | overridden before h =>
      simp only [isLast_append, isLast_cons, occurs_cons]
      grind
  | symm _ ih => exact ih.symm
  | trans _ _ ih ih' => exact ih.trans ih'

structure IsSlot {α : Type} (key : Key) (pick : Entry → Option α) (make : α → Entry) : Prop where
  eq_some_iff : ∀ entry x, pick entry = some x ↔ entry = make x
  eq_none_iff : ∀ entry, pick entry = none ↔ entry.key ≠ key

theorem isSlot_name : IsSlot .name Entry.name? Entry.name where
  eq_some_iff entry x := by cases entry <;> simp [Entry.name?]
  eq_none_iff entry := by cases entry <;> simp [Entry.name?, Entry.key]

theorem isSlot_symbol : IsSlot .symbol Entry.symbol? Entry.symbol where
  eq_some_iff entry x := by cases entry <;> simp [Entry.symbol?]
  eq_none_iff entry := by cases entry <;> simp [Entry.symbol?, Entry.key]

theorem isSlot_dimension : IsSlot .dimension Entry.dimension? Entry.dimension where
  eq_some_iff entry x := by cases entry <;> simp [Entry.dimension?]
  eq_none_iff entry := by cases entry <;> simp [Entry.dimension?, Entry.key]

namespace IsSlot

variable {α : Type} {pick : Entry → Option α} {make : α → Entry} {x : α}

theorem pick_make (h : IsSlot key pick make) (x : α) : pick (make x) = some x :=
  (h.eq_some_iff _ _).2 rfl

theorem key_make (h : IsSlot key pick make) (x : α) : (make x).key = key := by
  refine Decidable.byContradiction fun hkey => ?_
  have hnone := (h.eq_none_iff _).2 hkey
  rw [h.pick_make] at hnone
  cases hnone

theorem make_inj (h : IsSlot key pick make) {x y : α} : make x = make y ↔ x = y := by
  rw [← h.eq_some_iff, h.pick_make, Option.some.injEq, eq_comm]

theorem last_eq_none_iff (h : IsSlot key pick make) :
    (entries.filterMap pick).getLast? = none ↔ ¬ Occurs key entries := by
  simp [Occurs, h.eq_none_iff]

theorem last_eq_some_iff (h : IsSlot key pick make) :
    (entries.filterMap pick).getLast? = some x ↔ IsLast (make x) entries := by
  induction entries with
  | nil => simp
  | cons first entries ih =>
      rw [isLast_cons, ← ih, h.key_make, ← h.last_eq_none_iff, List.filterMap_cons]
      cases hpick : pick first with
      | none =>
          have hne : make x ≠ first := by
            rintro rfl
            exact (h.eq_none_iff _).1 hpick (h.key_make x)
          simp [hne]
      | some y =>
          obtain rfl := (h.eq_some_iff _ _).1 hpick
          cases hlast : (entries.filterMap pick).getLast? with
          | none => simp [List.getLast?_cons, hlast, h.make_inj, eq_comm]
          | some z => simp [List.getLast?_cons, hlast]

theorem exists_last (h : IsSlot key pick make) (hkey : Occurs key entries) :
    ∃ x, (entries.filterMap pick).getLast? = some x := by
  cases hlast : (entries.filterMap pick).getLast? with
  | none => exact absurd hkey (h.last_eq_none_iff.1 hlast)
  | some x => exact ⟨x, rfl⟩

theorem last_congr (h : IsSlot key pick make)
    (hlast : ∀ entry, IsLast entry entries ↔ IsLast entry entries') :
    (entries.filterMap pick).getLast? = (entries'.filterMap pick).getLast? := by
  ext x
  rw [h.last_eq_some_iff, h.last_eq_some_iff, hlast]

end IsSlot

theorem UnitAttribute.ofEntries_eq_ok_iff {u : UnitAttribute} :
    ofEntries entries = .ok u ↔
      IsLast (.name u.name) entries ∧ IsLast (.symbol u.symbol) entries ∧
        IsLast (.dimension u.dimension) entries := by
  rw [← isSlot_name.last_eq_some_iff, ← isSlot_symbol.last_eq_some_iff,
    ← isSlot_dimension.last_eq_some_iff]
  unfold ofEntries
  constructor
  · intro h
    split at h
    · cases h
    · cases h
    · cases h
    · rename_i hname hsymbol hdimension
      cases h
      exact ⟨hname, hsymbol, hdimension⟩
  · rintro ⟨hname, hsymbol, hdimension⟩
    rw [hname, hsymbol, hdimension]

theorem UnitAttribute.ofEntries_of_missing (hearlier : ∀ k ∈ key.earlier, Occurs k entries)
    (h : ¬ Occurs key entries) : ofEntries entries = .error (.missingKey key) := by
  cases key with
  | name =>
      have hname := isSlot_name.last_eq_none_iff.2 h
      simp [ofEntries, hname]
  | symbol =>
      obtain ⟨name, hname⟩ := isSlot_name.exists_last (hearlier .name (by simp [Key.earlier]))
      have hsymbol := isSlot_symbol.last_eq_none_iff.2 h
      simp [ofEntries, hname, hsymbol]
  | dimension =>
      obtain ⟨name, hname⟩ := isSlot_name.exists_last (hearlier .name (by simp [Key.earlier]))
      obtain ⟨symbol, hsymbol⟩ :=
        isSlot_symbol.exists_last (hearlier .symbol (by simp [Key.earlier]))
      have hdimension := isSlot_dimension.last_eq_none_iff.2 h
      simp [ofEntries, hname, hsymbol, hdimension]

theorem UnitAttribute.exists_ofEntries (hall : ∀ key, Occurs key entries) :
    ∃ u, ofEntries entries = .ok u := by
  obtain ⟨name, hname⟩ := isSlot_name.exists_last (hall .name)
  obtain ⟨symbol, hsymbol⟩ := isSlot_symbol.exists_last (hall .symbol)
  obtain ⟨words, hdimension⟩ := isSlot_dimension.exists_last (hall .dimension)
  exact ⟨⟨name, symbol, words⟩, by simp [ofEntries, hname, hsymbol, hdimension]⟩

theorem exists_missing_key (h : ¬ ∀ key, Occurs key entries) :
    ∃ key : Key, (∀ k ∈ key.earlier, Occurs k entries) ∧ ¬ Occurs key entries := by
  by_cases hname : Occurs .name entries
  · by_cases hsymbol : Occurs .symbol entries
    · have hdimension : ¬ Occurs .dimension entries := by
        intro hdimension
        refine h fun key => ?_
        cases key with
        | name => exact hname
        | symbol => exact hsymbol
        | dimension => exact hdimension
      exact ⟨.dimension, by simp [Key.earlier, hname, hsymbol], hdimension⟩
    · exact ⟨.symbol, by simp [Key.earlier, hname], hsymbol⟩
  · exact ⟨.name, by simp [Key.earlier], hname⟩

namespace UnitDeclaration

variable {u : UnitDeclaration}

theorem ofEntries_eq_ok_iff :
    ofEntries entries found = .ok u ↔
      found = [] ∧ IsLast (.name u.name) entries ∧ IsLast (.symbol u.symbol) entries ∧
        IsLast (.dimension u.dimension) entries := by
  rw [← UnitAttribute.ofEntries_eq_ok_iff, ofEntries, bind_eq_ok]
  constructor
  · rintro ⟨v, hv, h⟩
    split at h
    · cases h
    · split at h
      · cases h
      · cases h
        exact ⟨rfl, hv⟩
  · rintro ⟨rfl, hu⟩
    exact ⟨u.toUnitAttribute, hu, dif_neg u.symbol_ne_empty⟩

theorem ofEntries_of_incomplete (h : Incomplete entries found e) :
    ofEntries entries found = .error e := by
  rw [ofEntries, bind_eq_error]
  cases h with
  | missing hearlier h => exact .inl (UnitAttribute.ofEntries_of_missing hearlier h)
  | stray hall =>
      obtain ⟨u, hu⟩ := UnitAttribute.exists_ofEntries hall
      exact .inr ⟨u, hu, rfl⟩
  | @empty text hall h htext =>
      obtain ⟨u, hu⟩ := UnitAttribute.exists_ofEntries hall
      refine .inr ⟨u, hu, dif_pos ?_⟩
      obtain ⟨-, hsymbol, -⟩ := UnitAttribute.ofEntries_eq_ok_iff.1 hu
      rw [← isSlot_symbol.last_eq_some_iff] at h hsymbol
      rw [← Option.some.inj (h.symm.trans hsymbol), htext]

theorem ofEntries_ok_or_incomplete (entries : List Entry) (found : List Delimiter) :
    (∃ u, ofEntries entries found = .ok u) ∨ ∃ e, Incomplete entries found e := by
  by_cases hall : ∀ key, Occurs key entries
  · obtain ⟨u, hu⟩ := UnitAttribute.exists_ofEntries hall
    obtain ⟨hname, hsymbol, hdimension⟩ := UnitAttribute.ofEntries_eq_ok_iff.1 hu
    cases found with
    | cons d found => exact .inr ⟨_, .stray hall⟩
    | nil =>
        by_cases htext : u.symbol.value = ""
        · exact .inr ⟨_, .empty hall hsymbol htext⟩
        · exact .inl ⟨⟨u, htext⟩, ofEntries_eq_ok_iff.2 ⟨rfl, hname, hsymbol, hdimension⟩⟩
  · obtain ⟨key, hearlier, hkey⟩ := exists_missing_key hall
    exact .inr ⟨_, .missing hearlier hkey⟩

theorem ofEntries_eq_error_iff : ofEntries entries found = .error e ↔ Incomplete entries found e :=
  (accepts_and_refuses (fun _ => id) (fun _ => ofEntries_of_incomplete)
    (ofEntries_ok_or_incomplete entries found)).2 e

theorem exists_ofEntries_iff :
    (∃ u, ofEntries entries [] = .ok u) ↔
      (∀ key, Occurs key entries) ∧
        ∀ text, IsLast (.symbol text) entries → text.value ≠ "" := by
  constructor
  · rintro ⟨u, hu⟩
    obtain ⟨-, hname, hsymbol, hdimension⟩ := ofEntries_eq_ok_iff.1 hu
    refine ⟨fun key => ?_, fun text htext => ?_⟩
    · cases key with
      | name => exact hname.occurs
      | symbol => exact hsymbol.occurs
      | dimension => exact hdimension.occurs
    · rw [← isSlot_symbol.last_eq_some_iff] at htext hsymbol
      obtain rfl := Option.some.inj (htext.symm.trans hsymbol)
      exact u.symbol_ne_empty
  · rintro ⟨hall, hsymbol⟩
    rcases ofEntries_ok_or_incomplete entries [] with hok | ⟨e, h⟩
    · exact hok
    · cases h with
      | missing hearlier h => exact absurd (hall _) h
      | empty hall h htext => exact absurd htext (hsymbol _ h)

theorem ofEntries_rearranged (h : Rearranged entries entries') (found : List Delimiter) :
    ofEntries entries found = ofEntries entries' found := by
  unfold ofEntries UnitAttribute.ofEntries
  rw [isSlot_name.last_congr h.isLast_iff, isSlot_symbol.last_congr h.isLast_iff,
    isSlot_dimension.last_congr h.isLast_iff]

end UnitDeclaration

end Metrology.Declaration
