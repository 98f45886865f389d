import Metrology.Proofs.Declaration.Last
import Metrology.Proofs.Declaration.Path

/-!
# What a declaration gives

A source text gives an implementation or an error.  Which of the two, and what stands in it, is said
by the first unit attribute of the item: by the last entry of each key if all its entries are sound,
and by the leftmost faulty one otherwise.
-/

namespace Metrology.Declaration

def Item.FirstUnit (item : Item) (a : Attribute) : Prop :=
  ∃ before after, item.attributes = before ++ a :: after ∧ a.isUnit = true ∧
    ∀ b ∈ before, b.isUnit = false

variable (parser : Parser)

/-- An item of this name and these generics, whose first unit attribute holds these tokens. -/
def Holds (source typeName : String) (generics : Generics) (content : List Token) : Prop :=
  ∃ ts item a, tokens? source = some ts ∧ parser.readItem ts = .ok item ∧ item.name = typeName ∧
    item.generics = generics ∧ item.FirstUnit a ∧ a.arguments = .list content

def Declares (source typeName : String) (generics : Generics) (entries : List Entry) : Prop :=
  ∃ content, Holds parser source typeName generics content ∧ Written parser entries content []

inductive ArgumentsFault : AttributeArguments → DeclarationError → Prop
  | bare : ArgumentsFault .bare .missingArguments
  | value (tokens : List Token) : ArgumentsFault (.value tokens) .missingParentheses
  | entry {content : List Token} {e : DeclarationError} (h : FirstFault parser content e) :
      ArgumentsFault (.list content) e
  | incomplete {content : List Token} {entries : List Entry} {found : List Delimiter}
      {e : DeclarationError} (hentries : EntriesAt parser content entries found)
      (h : Incomplete entries found e) : ArgumentsFault (.list content) e

/-- Why a source text gives no implementation. -/
inductive Refuses (source : String) : DeclarationError → Prop
  | unreadable (h : tokens? source = none) : Refuses source .unreadable
  | item {ts : List Token} {e : DeclarationError} (hts : tokens? source = some ts)
      (h : parser.readItem ts = .error e) : Refuses source e
  | unmarked {ts : List Token} {item : Item} (hts : tokens? source = some ts)
      (hitem : parser.readItem ts = .ok item) (h : ∀ a ∈ item.attributes, a.isUnit = false) :
      Refuses source .missingAttribute
  | arguments {ts : List Token} {item : Item} {a : Attribute} {e : DeclarationError}
      (hts : tokens? source = some ts) (hitem : parser.readItem ts = .ok item)
      (ha : item.FirstUnit a) (h : ArgumentsFault parser a.arguments e) : Refuses source e

/-- The leftmost flaw of a list of entries, if a group of a value that holds strays were one. -/
inductive FirstFlaw : List Token → DeclarationError → Prop
  | here {ts : List Token} {e : DeclarationError} (h : EntryFault parser ts e) : FirstFlaw ts e
  | stray {entry : Entry} {d : Delimiter} {found : List Delimiter} {ts r : List Token}
      (h : EntryAt parser ts entry (d :: found) r) : FirstFlaw ts (.unexpectedToken (some d))
  | behind {entry : Entry} {ts r : List Token} {e : DeclarationError}
      (h : EntryAt parser ts entry [] r) (hr : FirstFlaw (skipComma r) e) : FirstFlaw ts e

variable {parser} {source typeName : String} {generics : Generics} {content : List Token}
  {entries : List Entry} {found : List Delimiter} {item : Item} {a : Attribute}
  {e : DeclarationError} {i : Implementation}

theorem Item.firstUnit_iff :
    item.FirstUnit a ↔ item.attributes.find? Attribute.isUnit = some a := by
  rw [List.find?_eq_some_iff_append]
  simp only [Item.FirstUnit, Bool.not_eq_true']
  grind

theorem Item.firstUnit_or_forall (item : Item) :
    (∃ a, item.FirstUnit a) ∨ ∀ a ∈ item.attributes, a.isUnit = false := by
  cases h : item.attributes.find? Attribute.isUnit with
  | some a => exact .inl ⟨a, Item.firstUnit_iff.2 h⟩
  | none =>
      refine .inr fun a ha => ?_
      simpa using List.find?_eq_none.1 h a ha

def held? (parser : Parser) (source : String) : Option (String × Generics × List Token) := do
  let item ← (parser.readItem (← tokens? source)).toOption
  match (← item.attributes.find? Attribute.isUnit).arguments with
  | .list content => return (item.name, item.generics, content)
  | _ => none

theorem held?_eq_some_iff :
    held? parser source = some (typeName, generics, content) ↔
      Holds parser source typeName generics content := by
  have htoOption : ∀ {α : Type} {x : Except DeclarationError α} {y : α},
      x.toOption = some y ↔ x = .ok y := by
    intro α x y
    cases x <;> simp [Except.toOption]
  simp only [held?, Option.bind_eq_bind, Option.bind_eq_some_iff, htoOption, ← Item.firstUnit_iff]
  constructor
  · rintro ⟨ts, hts, item, hitem, a, ha, h⟩
    split at h
    · rename_i content hcontent
      cases h
      exact ⟨ts, item, a, hts, hitem, rfl, rfl, ha, hcontent⟩
    · cases h
  · rintro ⟨ts, item, a, hts, hitem, rfl, rfl, ha, hcontent⟩
    refine ⟨ts, hts, item, hitem, a, ha, ?_⟩
    rw [hcontent]
    rfl

instance (parser : Parser) (source typeName : String) (generics : Generics)
    (content : List Token) : Decidable (Holds parser source typeName generics content) :=
  decidable_of_iff _ held?_eq_some_iff

namespace Parser

theorem ofItem_of_firstUnit (h : item.FirstUnit a) :
    parser.ofItem item =
      (parser.unitDeclaration a.arguments).map (⟨item.name, item.generics, ·⟩) := by
  rw [ofItem, Item.firstUnit_iff.1 h]
  dsimp only
  cases parser.unitDeclaration a.arguments <;> rfl

theorem ofItem_of_forall (h : ∀ a ∈ item.attributes, a.isUnit = false) :
    parser.ofItem item = .error .missingAttribute := by
  have hnone : item.attributes.find? Attribute.isUnit = none := by
    rw [List.find?_eq_none]
    intro a ha
    simp [h a ha]
  rw [ofItem, hnone]

theorem implementation_of_readItem {ts : List Token} (hts : tokens? source = some ts)
    (hitem : parser.readItem ts = .ok item) :
    parser.implementation source = parser.ofItem item := by
  simp [implementation, hts, hitem, bind, Except.bind]

theorem implementation_of_holds (h : Holds parser source typeName generics content) :
    parser.implementation source =
      (parser.unitDeclaration (.list content)).map (⟨typeName, generics, ·⟩) := by
  obtain ⟨ts, item, a, hts, hitem, rfl, rfl, ha, hcontent⟩ := h
  rw [implementation_of_readItem hts hitem, ofItem_of_firstUnit ha, hcontent]

theorem unitDeclaration_of_readEntries (h : parser.readEntries content = .ok (entries, found)) :
    parser.unitDeclaration (.list content) = UnitDeclaration.ofEntries entries found := by
  rw [unitDeclaration, h]
  rfl

theorem implementation_of_declares (h : Declares parser source typeName generics entries) :
    parser.implementation source =
      (UnitDeclaration.ofEntries entries []).map (⟨typeName, generics, ·⟩) := by
  obtain ⟨content, hcontent, hentries⟩ := h
  rw [implementation_of_holds hcontent,
    unitDeclaration_of_readEntries (readEntries_of_written hentries)]

/-! ## Sound entries -/

/-- The last entries of a sound list decide whether there is an implementation and what it says, and
nothing else does: not the order of entries of different keys, not the commas, no entry that another
one of its key follows. -/
theorem last_entries_decide (parser : Parser)
    (h : Declares parser source typeName generics entries) :
    ((∃ i, parser.implementation source = .ok i) ↔
      (∀ key, Occurs key entries) ∧
        ∀ text, IsLast (.symbol text) entries → text.value ≠ "") ∧
    (∀ i, parser.implementation source = .ok i → ∃ name symbol dimension,
      IsLast (.name name) entries ∧ IsLast (.symbol symbol) entries ∧
      IsLast (.dimension dimension) entries ∧
      i.text = " ".intercalate (Implementation.heading typeName generics ++
        ["\x7b", "type", "Dim", "="] ++ dimension ++
        [";", "const", "NAME", ":", "&", "'static", "str", "=", name.spelling,
          ";", "const", "SYMBOL", ":", "&", "'static", "str", "=", symbol.spelling, ";", "\x7d"])) ∧
    (∀ source' entries', Declares parser source' typeName generics entries' →
      Rearranged entries entries' →
      parser.implementation source' = parser.implementation source) ∧
    ∀ source' i, parser.implementation source' = .ok i → i.unit.symbol.value ≠ "" := by
  have hsource := implementation_of_declares h
  refine ⟨?_, fun i hi => ?_, fun source' entries' h' hentries => ?_,
    fun source' i _ => i.unit.symbol_ne_empty⟩
  · rw [← UnitDeclaration.exists_ofEntries_iff, hsource]
    simp only [map_eq_ok]
    exact ⟨fun ⟨_, u, hu, _⟩ => ⟨u, hu⟩, fun ⟨u, hu⟩ => ⟨_, u, hu, rfl⟩⟩
  · rw [hsource, map_eq_ok] at hi
    obtain ⟨u, hu, rfl⟩ := hi
    obtain ⟨-, hname, hsymbol, hdimension⟩ := UnitDeclaration.ofEntries_eq_ok_iff.1 hu
    refine ⟨_, _, _, hname, hsymbol, hdimension, ?_⟩
    simp [Implementation.text, Implementation.words, Implementation.constant]
  · rw [hsource, implementation_of_declares h', UnitDeclaration.ofEntries_rearranged hentries]

/-- A symbol that another one follows may be empty, and does not show. -/
theorem overridden_symbol_does_not_show :
    let overridden :=
      "#[unit(symbol = \"\", name = \"rod\" symbol = \"rd\", dimension = Dim<P1>)]" ++
      "struct Rod<T>;"
    let plain := "#[unit(name = \"rod\", symbol = \"rd\" dimension = Dim<P1>,)] struct Rod<T>;"
    (∃ i, standardParser.implementation overridden = .ok i) ∧
      standardParser.implementation plain = standardParser.implementation overridden := by
  intro overridden plain
  let generics : Generics := ⟨[(⟨false, "T", ["T"], []⟩, false)], []⟩
  let name : StringLiteral := ⟨"\"rod\"", "rod"⟩
  let symbol : StringLiteral := ⟨"\"rd\"", "rd"⟩
  let shared : List Entry := [.name name, .symbol symbol, .dimension ["Dim", "<", "P1", ">"]]
  have hdimension : ∀ joint, standardParser.Reads ["Dim", "<", "P1", ">"]
      [.identifier "Dim", .punctuation '<' false, .identifier "P1", .punctuation '>' joint] :=
    fun joint => standardParser_reads_path (.plain rfl (.last (.angled false (by decide)
      (.final joint (.plain rfl (.last (.word rfl)))))))
  have hoverridden : Declares standardParser overridden "Rod" generics
      (.symbol ⟨"\"\"", ""⟩ :: shared) := by
    refine ⟨_, ?_, .comma false (.symbol _ false) (.bare (.name _ false) (by simp)
      (.comma false (.symbol _ false)
        (.bare (.dimension false (hdimension false)) (fun _ => ⟨rfl, fun _ => .inl rfl⟩)
          (.nil _))))⟩
    decide +kernel
  have hplain : Declares standardParser plain "Rod" generics shared := by
    refine ⟨_, ?_, .comma false (.name _ false) (.bare (.symbol _ false) (by simp)
      (.comma false (.dimension false (hdimension true)) (.nil _)))⟩
    decide +kernel
  obtain ⟨hok, -, hsame, -⟩ := last_entries_decide standardParser hoverridden
  have hsymbol : Occurs .symbol shared := by simp [shared, Entry.key]
  refine ⟨hok.2 ⟨fun key => ?_, fun text htext => ?_⟩, hsame _ _ hplain ?_⟩
  · cases key <;> simp [shared, Entry.key]
  · obtain rfl : text = symbol := by simpa [shared, Entry.key] using htext
    decide
  · exact .symm (.overridden [] hsymbol)

/-! ## The error that is reported -/

theorem unitDeclaration_eq_error_iff {x : AttributeArguments} :
    parser.unitDeclaration x = .error e ↔ ArgumentsFault parser x e := by
  cases x with
  | bare =>
      constructor
      · rintro ⟨⟩
        exact .bare
      · rintro ⟨⟩
        rfl
  | value tokens =>
      constructor
      · rintro ⟨⟩
        exact .value tokens
      · rintro ⟨⟩
        rfl
  | list content =>
      rw [unitDeclaration, bind_eq_error]
      simp only [Prod.exists, readEntries_eq_error_iff, readEntries_eq_ok_iff,
        UnitDeclaration.ofEntries_eq_error_iff]
      constructor
      · rintro (h | ⟨entries, found, hentries, h⟩)
        · exact .entry h
        · exact .incomplete hentries h
      · rintro (_ | _ | h | ⟨hentries, h⟩)
        · exact .inl h
        · exact .inr ⟨_, _, hentries, h⟩

theorem implementation_of_refuses (h : Refuses parser source e) :
    parser.implementation source = .error e := by
  cases h with
  | unreadable h => rw [implementation, h]
  | item hts h => simp [implementation, hts, h, bind, Except.bind]
  | unmarked hts hitem h => rw [implementation_of_readItem hts hitem, ofItem_of_forall h]
  | arguments hts hitem ha h =>
      rw [implementation_of_readItem hts hitem, ofItem_of_firstUnit ha,
        unitDeclaration_eq_error_iff.2 h]
      rfl

theorem ok_or_refuses (parser : Parser) (source : String) :
    (∃ i, parser.implementation source = .ok i) ∨ ∃ e, Refuses parser source e := by
  cases hts : tokens? source with
  | none => exact .inr ⟨_, .unreadable hts⟩
  | some ts =>
      cases hitem : parser.readItem ts with
      | error e => exact .inr ⟨e, .item hts hitem⟩
      | ok item =>
          rcases item.firstUnit_or_forall with ⟨a, ha⟩ | hnone
          · cases hu : parser.unitDeclaration a.arguments with
            | error e =>
                exact .inr ⟨e, .arguments hts hitem ha (unitDeclaration_eq_error_iff.1 hu)⟩
            | ok u =>
                refine .inl ⟨⟨item.name, item.generics, u⟩, ?_⟩
                rw [implementation_of_readItem hts hitem, ofItem_of_firstUnit ha, hu]
                rfl
          · exact .inr ⟨_, .unmarked hts hitem hnone⟩

theorem implementation_eq_error_iff :
    parser.implementation source = .error e ↔ Refuses parser source e :=
  (accepts_and_refuses (fun _ => id) (fun _ => implementation_of_refuses)
    (ok_or_refuses parser source)).2 e

theorem implementation_of_readEntries_error (h : Holds parser source typeName generics content)
    (he : parser.readEntries content = .error e) : parser.implementation source = .error e := by
  rw [implementation_of_holds h, unitDeclaration, he]
  rfl

/-- The error is the one of the first stage that fails: the text, the item, the search for a unit
attribute, its entries from left to right, the keys that are missing, what a value left in a group,
the symbol.  Of the entries the leftmost one that does not parse decides, whatever stands behind it.
-/
theorem error_of_first_fault (parser : Parser) (source : String) :
    (∀ e, parser.implementation source = .error e ↔ Refuses parser source e) ∧
    ((∃ i, parser.implementation source = .ok i) ↔ ∀ e, ¬ Refuses parser source e) ∧
    ∀ typeName generics front faulty behind entries e,
      Holds parser source typeName generics (front ++ (faulty ++ behind)) →
      Written parser entries front faulty → Faulty parser faulty e →
      parser.implementation source = .error e := by
  refine ⟨fun e => implementation_eq_error_iff, ⟨?_, ?_⟩, ?_⟩
  · rintro ⟨i, hi⟩ e he
    rw [implementation_of_refuses he] at hi
    cases hi
  · intro h
    rcases ok_or_refuses parser source with hok | ⟨e, he⟩
    · exact hok
    · exact absurd he (h e)
  · intro typeName generics front faulty behind entries e hcontent hwritten hfaulty
    exact implementation_of_readEntries_error hcontent
      (readEntries_of_faulty hwritten hfaulty behind)

/-- An unknown key comes before the fault of its value and before all that is wrong behind it. -/
theorem unknown_key_comes_first :
    standardParser.implementation "#[unit(name = \"rod\" size = ; symbol)] struct Rod;" =
      .error (.unknownKey "size") := by
  have hunknown : ∀ key : Key, "size" ≠ key.text := by
    intro key
    cases key <;> decide
  have hfaulty : Faulty standardParser [.identifier "size", .punctuation '=' false]
      (.unknownKey "size") := ⟨by simp, fun behind => .unknownKey (by decide) hunknown⟩
  refine (error_of_first_fault standardParser _).2.2 "Rod" .empty _ _
    [.punctuation ';' false, .identifier "symbol"] _ _ ?_
    (.bare (.name ⟨"\"rod\"", "rod"⟩ false) (by simp [Entry.EndsBefore, Entry.key, startsWith])
      (.nil _))
    hfaulty
  decide +kernel

/-- Tokens that are left in a group of a value are a flaw, and yet what is wrong behind them is
reported. -/
theorem stray_comes_late :
    let stray := "#[unit(name = \"rod\", symbol = \"rd\", dimension = (Rod Rod))] struct Rod;"
    let strayFirst := "#[unit(dimension = (Rod Rod), size = 3)] struct Rod;"
    standardParser.implementation stray = .error (.unexpectedToken (some .parentheses)) ∧
    (∃ content, Holds standardParser strayFirst "Rod" .empty content ∧
      FirstFlaw standardParser content (.unexpectedToken (some .parentheses))) ∧
    standardParser.implementation strayFirst = .error (.unknownKey "size") := by
  intro stray strayFirst
  let value : Token := .group .parentheses [.identifier "Rod", .identifier "Rod"]
  let size : List Token := [.identifier "size", .punctuation '=' false, .literal "3" none]
  have hlast : EntryAt standardParser [.identifier "dimension", .punctuation '=' false, value]
      (.dimension ["(Rod)"]) [.parentheses] [] := .dimension (x := ⟨_, _, _⟩) false rfl
  have hfirst : EntryAt standardParser
      (.identifier "dimension" :: .punctuation '=' false :: value :: .punctuation ',' false :: size)
      (.dimension ["(Rod)"]) [.parentheses] (.punctuation ',' false :: size) :=
    .dimension (x := ⟨_, _, _⟩) false rfl
  have hunknown : ∀ key : Key, "size" ≠ key.text := by
    intro key
    cases key <;> decide
  have hstray : Holds standardParser stray "Rod" .empty
      [.identifier "name", .punctuation '=' false, .literal "\"rod\"" (some "rod"),
        .punctuation ',' false,
        .identifier "symbol", .punctuation '=' false, .literal "\"rd\"" (some "rd"),
        .punctuation ',' false, .identifier "dimension", .punctuation '=' false, value] := by
    decide +kernel
  have hstrayFirst : Holds standardParser strayFirst "Rod" .empty
      (.identifier "dimension" :: .punctuation '=' false :: value :: .punctuation ',' false ::
        size) := by
    decide +kernel
  refine ⟨?_, ⟨_, hstrayFirst, .stray hfirst⟩, ?_⟩
  · rw [implementation_of_holds hstray, unitDeclaration_of_readEntries (readEntries_of_entriesAt
      (.cons (.name ⟨_, _⟩ _ _) (.cons (.symbol ⟨_, _⟩ _ _) (.cons hlast .nil))))]
    rfl
  · exact implementation_of_readEntries_error hstrayFirst (readEntries_of_firstFault
      (.behind hfirst (.here (.unknownKey (by decide) hunknown))))

end Parser

end Metrology.Declaration
