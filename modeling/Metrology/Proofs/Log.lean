import Metrology.Proofs.Engineering.Double
import Metrology.Proofs.Engineering.Exponent
import Metrology.Proofs.Worksheet

/-!
# What the records of a run tell

Two kinds of calls may leave a record: looking a prefix up and rendering a quantity.  The records of
a run are those of its calls, in order, and each can be told from what its call returned: the symbol
that was not found, or the exponent that stands behind the mantissa and the unit next to it.
-/

namespace Metrology

open Metrology.Engineering

def Scalar.IsOrdinary (s : Scalar Machine) : Prop :=
  ∃ v : ℚ, s.extended? = some ((v : WithTop ℚ) : Binary.Extended) ∧ v ≠ 0

theorem Scalar.specialText?_eq_none_iff (s : Scalar Machine) :
    specialText? s.toDouble = none ↔ s.IsOrdinary := by
  rw [Machine.specialText?_eq_none_iff, IsOrdinary, ← s.extended?_cast_double]
  rfl

/-- A call that may leave a record. -/
inductive Call where
  | lookup (symbol : String)
  | rendering (q : Quantity Machine) (digits : Nat) (showPlus : Bool)
  | text (q : Quantity Machine) (digits : Nat) (showPlus : Bool)
  | magnitude (q : Quantity Machine) (digits : Nat) (showPlus : Bool)
  | unit (q : Quantity Machine)

namespace Call

inductive Renders : Call → Quantity Machine → Nat → Bool → Engineering → Prop
  | rendering {q : Quantity Machine} {digits : Nat} {showPlus : Bool} {e : Engineering}
      (h : (q.engineering digits showPlus).result = e) :
      Renders (.rendering q digits showPlus) q digits showPlus e
  | text {q : Quantity Machine} {digits : Nat} {showPlus : Bool} {e : Engineering}
      (h : (q.engineeringText digits showPlus).result = e.magnitude ++ " " ++ e.unit) :
      Renders (.text q digits showPlus) q digits showPlus e
  | magnitude {q : Quantity Machine} {digits : Nat} {showPlus : Bool} {e : Engineering}
      (h : (q.engineeringMagnitude digits showPlus).result = e.magnitude) :
      Renders (.magnitude q digits showPlus) q digits showPlus e
  | unit {q : Quantity Machine} {e : Engineering} (h : q.engineeringUnit.result = e.unit) :
      Renders (.unit q) q defaultDigits false e

inductive Reports : Call → List LogRecord → Prop
  | found {symbol : String} {s : Scalar Machine} (h : (lookupPrefix symbol).result = .ok s) :
      Reports (.lookup symbol) []
  | missed {symbol : String} {e : UnknownPrefix}
      (h : (lookupPrefix (α := Machine) symbol).result = .error e) (hsymbol : e.symbol = symbol) :
      Reports (.lookup symbol) [⟨.debug, "prefix lookup failed for '" ++ e.symbol ++ "'"⟩]
  | special {c : Call} {q : Quantity Machine} {digits : Nat} {showPlus : Bool} {e : Engineering}
      {text : String} (h : c.Renders q digits showPlus e) (hvalue : ¬q.scalar.IsOrdinary)
      (htext : text = "NaN" ∨ text = "0" ∨ text = "inf")
      (hmagnitude : e.magnitude.toList = (sign q.scalar.toDouble showPlus).toList ++ text.toList)
      (hunit : e.unit = q.dimension.preferredSymbol) : Reports c []
  | prefixed {c : Call} {q : Quantity Machine} {digits : Nat} {showPlus : Bool} {e : Engineering}
      {k : Int} (h : c.Renders q digits showPlus e) (hvalue : q.scalar.IsOrdinary)
      (htakes : takesPrefix q.dimension k = true)
      (hmagnitude : e.magnitude.toList = signedMantissa q.scalar.toDouble digits showPlus)
      (hunit : e.unit = prefixText k ++ q.dimension.preferredSymbol) : Reports c []
  | exponent {c : Call} {q : Quantity Machine} {digits : Nat} {showPlus : Bool} {e : Engineering}
      {k : Int} (h : c.Renders q digits showPlus e) (hvalue : q.scalar.IsOrdinary)
      (htakes : takesPrefix q.dimension k = false)
      (hmagnitude : e.magnitude.toList =
        signedMantissa q.scalar.toDouble digits showPlus ++ 'e' :: (toString k).toList)
      (hunit : e.unit = q.dimension.preferredSymbol) :
      Reports c
        [⟨.trace, "eng format: exponent " ++ toString k ++ " not expressible as a prefix of '" ++
          e.unit ++ "'"⟩]

def report : Call → List LogRecord
  | .lookup symbol =>
    match (lookupPrefix (α := Machine) symbol).result with
    | .ok _ => []
    | .error e => [e.record]
  | .rendering q digits showPlus | .text q digits showPlus | .magnitude q digits showPlus =>
    (q.engineering digits showPlus).result.report
  | .unit q => (q.engineering defaultDigits false).result.report

def records : Call → List LogRecord
  | .lookup symbol => (lookupPrefix (α := Machine) symbol).records
  | .rendering q digits showPlus => (q.engineering digits showPlus).records
  | .text q digits showPlus => (q.engineeringText digits showPlus).records
  | .magnitude q digits showPlus => (q.engineeringMagnitude digits showPlus).records
  | .unit q => q.engineeringUnit.records

def tells : Except StepError Answer → Bool
  | .error (.unknownPrefix _) | .ok (.engineering _) | .ok (.sameEngineering _) => true
  | _ => false

inductive Answers : List Call → Except StepError Answer → Prop
  | found {symbol : String} {s : Scalar Machine} (h : (lookupPrefix symbol).result = .ok s) :
      Answers [.lookup symbol] (.ok (.value (.scalar s)))
  | missed {symbol : String} {e : UnknownPrefix}
      (h : (lookupPrefix (α := Machine) symbol).result = .error e) :
      Answers [.lookup symbol] (.error (.unknownPrefix e))
  | rendered {q : Quantity Machine} {digits : Nat} {showPlus : Bool} {t : EngineeringTexts}
      (hrendering : t.rendering = (q.engineering digits showPlus).result)
      (htext : t.text = (q.engineeringText digits showPlus).result)
      (hmagnitude : t.magnitude = (q.engineeringMagnitude digits showPlus).result)
      (hunit : t.unit = q.engineeringUnit.result) :
      Answers [.rendering q digits showPlus, .text q digits showPlus, .magnitude q digits showPlus,
        .unit q] (.ok (.engineering t))
  | compared (a b : Quantity Machine) (digits : Nat) :
      Answers [.rendering a digits false, .rendering b digits false]
        (.ok (.sameEngineering
          ((a.engineering digits false).result == (b.engineering digits false).result)))
  | silent {r : Except StepError Answer} (h : tells r = false) : Answers [] r

variable {c : Call} {q : Quantity Machine} {digits : Nat} {showPlus : Bool}

theorem reports_of_renders
    (hc : c.Renders q digits showPlus (q.engineering digits showPlus).result) :
    c.Reports (q.engineering digits showPlus).records := by
  have hrendered : Rendered q.dimension q.scalar.toDouble digits showPlus
      (q.engineering digits showPlus) := rendered_render _ _ _ _
  have hordinary := q.scalar.specialText?_eq_none_iff
  generalize q.engineering digits showPlus = r at hc hrendered ⊢
  cases hrendered with
  | special h hmagnitude hunit =>
      refine .special hc (fun hvalue => ?_) (specialText_cases h) hmagnitude hunit
      rw [hordinary.2 hvalue] at h
      cases h
  | prefixed h htakes hmagnitude hunit =>
      exact .prefixed hc (hordinary.1 h) htakes hmagnitude hunit
  | exponent h htakes hmagnitude hunit =>
      exact .exponent hc (hordinary.1 h) htakes hmagnitude hunit

theorem reports_records (c : Call) : c.Reports c.records := by
  cases c with
  | lookup symbol =>
      dsimp only [records, lookupPrefix]
      cases h : DecimalPrefix.ofSymbol? symbol with
      | some u => exact .found (s := .ofRat u.factor) (by rw [lookupPrefix, h])
      | none => exact .missed (e := ⟨symbol⟩) (by rw [lookupPrefix, h]) rfl
  | rendering q digits showPlus => exact reports_of_renders (.rendering rfl)
  | text q digits showPlus => exact reports_of_renders (.text rfl)
  | magnitude q digits showPlus => exact reports_of_renders (.magnitude rfl)
  | unit q => exact reports_of_renders (.unit rfl)

theorem records_eq_report
    (hlibrary : Machine.AccurateLibrary Float.pow Float.log10 Float.floor) (c : Call) :
    c.records = c.report := by
  have hrender : ∀ (q : Quantity Machine) (digits : Nat) (showPlus : Bool),
      (q.engineering digits showPlus).records = (q.engineering digits showPlus).result.report :=
    fun q digits showPlus => records_render (Machine.faithful hlibrary)
      (fun v hv => Machine.inRange (Machine.denotes_iff.1 hv)) _ _ _
  cases c with
  | lookup symbol =>
      dsimp only [records, report, lookupPrefix]
      cases DecimalPrefix.ofSymbol? symbol <;> rfl
  | rendering q digits showPlus => exact hrender q digits showPlus
  | text q digits showPlus => exact hrender q digits showPlus
  | magnitude q digits showPlus => exact hrender q digits showPlus
  | unit q => exact hrender q defaultDigits false

end Call

namespace Worksheet

/-! ## The calls of a step -/

def callsOf (w : Worksheet) : Step → List Call
  | .store (.multiplier symbol) _ => [.lookup symbol]
  | .ask (.engineering a digits showPlus) =>
    match w.quantity a with
    | .ok q =>
      [.rendering q digits showPlus, .text q digits showPlus, .magnitude q digits showPlus, .unit q]
    | .error _ => []
  | .ask (.sameEngineering a b digits) =>
    match w.quantity a, w.quantity b with
    | .ok q, .ok r =>
      if q.dimension = r.dimension then [.rendering q digits false, .rendering r digits false]
      else []
    | _, _ => []
  | _ => []

def calls (w : Worksheet) : List Step → List (List Call)
  | [] => []
  | s :: steps => w.callsOf s :: (w.step s).2.calls steps

/-- An outcome answers the calls of its step, and what the step has left is what the calls left. -/
structure Told (calls : List Call) (o : Outcome) : Prop where
  answers : Call.Answers calls o.result
  records : emitted o = calls.flatMap Call.records

def Unprefixed {β : Type} (r : Except StepError β) : Prop := ∀ e, r ≠ .error (.unknownPrefix e)

theorem unprefixed_ok {β : Type} (b : β) : Unprefixed (.ok b) := by
  rintro e ⟨⟩

theorem unprefixed_lift {β : Type} (r : Except OperationError β) : Unprefixed (lift r) := by
  cases r <;> rintro e ⟨⟩

theorem Unprefixed.bind {β γ : Type} {r : Except StepError β} {f : β → Except StepError γ}
    (hr : Unprefixed r) (hf : ∀ b, Unprefixed (f b)) : Unprefixed (r >>= f) := by
  cases r with
  | error x => exact fun e h => hr e (congrArg Except.error (Except.error.inj h))
  | ok b => exact hf b

theorem Unprefixed.map {β γ : Type} {r : Except StepError β} (hr : Unprefixed r) (f : β → γ) :
    Unprefixed (r.map f) := by
  cases r with
  | error x => exact fun e h => hr e (congrArg Except.error (Except.error.inj h))
  | ok b => exact unprefixed_ok _

theorem tells_error {β : Type} {x : StepError} (h : Unprefixed (.error x : Except StepError β)) :
    Call.tells (.error x) = false := by
  cases x with
  | unknownPrefix e => exact absurd rfl (h e)
  | _ => rfl

theorem tells_map_value {r : Except StepError (Value Machine)} (hr : Unprefixed r) :
    Call.tells (r.map .value) = false := by
  cases r with
  | error x => exact tells_error hr
  | ok v => rfl

theorem tells_bind {β : Type} {r : Except StepError β} {f : β → Except StepError Answer}
    (hr : Unprefixed r) (hf : ∀ b, Call.tells (f b) = false) : Call.tells (r >>= f) = false := by
  cases r with
  | error x => exact tells_error hr
  | ok b => exact hf b

theorem unprefixed_value (w : Worksheet) (cell : String) : Unprefixed (w.value cell) := by
  unfold value
  cases w.get? cell <;> rintro e ⟨⟩

theorem unprefixed_quantity (w : Worksheet) (cell : String) : Unprefixed (w.quantity cell) :=
  (w.unprefixed_value cell).bind fun _ => unprefixed_lift _

theorem unprefixed_readJson {p : Precision} (read : Except Json.ReadError (Machine p))
    (d : Dimension) : Unprefixed (readJson read d) := by
  refine (unprefixed_lift _).bind fun _ => ?_
  cases read <;> rintro e ⟨⟩

theorem evaluate_silent (w : Worksheet) {source : Source}
    (h : ∀ symbol, source ≠ .multiplier symbol) :
    Unprefixed (w.evaluate source).result ∧ (w.evaluate source).records = [] := by
  cases source with
  | scalar s => exact ⟨unprefixed_ok _, rfl⟩
  | quantity d s => exact ⟨(unprefixed_lift (Quantity.ofScalar? d s)).map Value.quantity, rfl⟩
  | zero d p => exact ⟨(unprefixed_lift (Quantity.ofScalar? d (.zero p))).map Value.quantity, rfl⟩
  | unit set name =>
      dsimp only [evaluate]
      cases set.find? (α := Machine) name with
      | none => exact ⟨by rintro e ⟨⟩, rfl⟩
      | some v => exact ⟨unprefixed_ok _, rfl⟩
  | multiplier symbol => exact absurd rfl (h symbol)
  | bareJson d p text => exact ⟨unprefixed_readJson _ d, rfl⟩
  | taggedJson d p text => exact ⟨unprefixed_readJson _ d, rfl⟩
  | unary op a => exact ⟨(w.unprefixed_value a).bind fun _ => unprefixed_lift _, rfl⟩
  | binary op a b =>
      exact ⟨(w.unprefixed_value a).bind fun _ => (w.unprefixed_value b).bind fun _ =>
        unprefixed_lift _, rfl⟩

theorem told_of_silent {o : Outcome} (h : Call.tells o.result = false) (hrecords : o.records = []) :
    Told [] o := by
  refine ⟨.silent h, ?_⟩
  unfold emitted
  split
  · rename_i t ht
    rw [ht] at h
    cases h
  · exact hrecords

theorem emitted_store (w : Worksheet) (source : Source) (to? : Option String) :
    emitted (w.step (.store source to?)).1 = (w.evaluate source).records := by
  dsimp only [step]
  rcases w.evaluate source with ⟨e | v, records⟩ <;> rfl

theorem store_told_of_silent (w : Worksheet) {source : Source}
    (h : ∀ symbol, source ≠ .multiplier symbol) (to? : Option String) :
    Told [] (w.step (.store source to?)).1 := by
  obtain ⟨hknown, hrecords⟩ := w.evaluate_silent h
  refine ⟨.silent ?_, (w.emitted_store source to?).trans hrecords⟩
  rw [store_result]
  exact tells_map_value hknown

theorem lookup_told (w : Worksheet) (symbol : String) (to? : Option String) :
    Told [.lookup symbol] (w.step (.store (.multiplier symbol) to?)).1 := by
  constructor
  · rw [store_result, evaluate]
    rcases h : lookupPrefix (α := Machine) symbol with ⟨e | s, records⟩
    · exact .missed (by rw [h])
    · exact .found (by rw [h])
  · rw [emitted_store, evaluate, List.flatMap_singleton, Call.records]
    rcases lookupPrefix (α := Machine) symbol with ⟨e | s, records⟩ <;> rfl

theorem assign_told (w : Worksheet) (op : AssignOperation) (a b : String) :
    Told [] (w.step (.assign op a b)).1 := by
  have hknown : Unprefixed (do lift (op.apply (← w.value a) (← w.value b))) :=
    (w.unprefixed_value a).bind fun _ => (w.unprefixed_value b).bind fun _ => unprefixed_lift _
  dsimp only [step]
  generalize (do lift (op.apply (← w.value a) (← w.value b))) = r at hknown ⊢
  cases r with
  | error x => exact told_of_silent (tells_error hknown) rfl
  | ok q => exact told_of_silent rfl rfl

theorem ask_told (w : Worksheet) (query : Query) :
    Told (w.callsOf (.ask query)) (w.step (.ask query)).1 := by
  have hquantity := w.unprefixed_quantity
  cases query with
  | compare a b =>
      exact told_of_silent (tells_bind (hquantity a) fun _ => tells_bind (hquantity b) fun _ =>
        tells_bind (unprefixed_lift _) fun _ => rfl) rfl
  | display a places? => exact told_of_silent (tells_bind (hquantity a) fun _ => rfl) rfl
  | annotated a places? lines => exact told_of_silent (tells_bind (hquantity a) fun _ => rfl) rfl
  | texts a => exact told_of_silent (tells_bind (hquantity a) fun _ => rfl) rfl
  | json a => exact told_of_silent (tells_bind (hquantity a) fun _ => rfl) rfl
  | engineering a digits showPlus =>
      dsimp only [callsOf, step, answer]
      have ha := hquantity a
      cases h : w.quantity a with
      | error x => exact told_of_silent (tells_error (h ▸ ha)) rfl
      | ok q => exact ⟨.rendered rfl rfl rfl rfl, by simp [emitted, Call.records]⟩
  | sameEngineering a b digits =>
      have ha := hquantity a
      have hb := hquantity b
      dsimp only [callsOf, step, answer]
      cases hq : w.quantity a with
      | error x => exact told_of_silent (tells_error (hq ▸ ha)) rfl
      | ok q =>
          cases hr : w.quantity b with
          | error x => exact told_of_silent (tells_error (hr ▸ hb)) rfl
          | ok r =>
              dsimp only [bind, Except.bind]
              by_cases hd : q.dimension = r.dimension
              · have hsame : q.sameDimension r = .ok (q.scalar, r.scalar) := if_pos hd
                rw [if_pos hd, hsame]
                refine ⟨.compared q r digits, ?_⟩
                simp [emitted, Call.records, lift, pure, Except.pure]
              · have hsame : q.sameDimension r = .error .dimensionMismatch := if_neg hd
                rw [if_neg hd, hsame]
                exact told_of_silent rfl rfl

theorem step_told (w : Worksheet) (s : Step) : Told (w.callsOf s) (w.step s).1 := by
  cases s with
  | store source to? =>
      cases source with
      | multiplier symbol => exact w.lookup_told symbol to?
      | _ => exact w.store_told_of_silent (by rintro symbol ⟨⟩) to?
  | assign op a b => exact w.assign_told op a b
  | ask query => exact w.ask_told query

theorem run_told (w : Worksheet) (steps : List Step) :
    List.Forall₂ Told (w.calls steps) (w.run steps).1 := by
  induction steps generalizing w with
  | nil => exact .nil
  | cons s steps ih => exact .cons (step_told w s) (ih _)

theorem records_of_told {calls : List (List Call)} {outcomes : List Outcome}
    (h : List.Forall₂ Told calls outcomes) :
    outcomes.flatMap emitted = calls.flatten.flatMap Call.records := by
  induction h with
  | nil => rfl
  | cons hfirst _ ih => simp [hfirst.records, ih]

theorem records_run (w : Worksheet) (steps : List Step) :
    (w.run steps).1.flatMap emitted = (w.calls steps).flatten.flatMap Call.records :=
  records_of_told (w.run_told steps)

/-- The records of a run are those of its calls, in order, and say what the calls returned.  With an
accurate library, and in faithful arithmetic of any kind, they can be read off the texts alone. -/
theorem records_tell :
    (∀ (w : Worksheet) (steps : List Step),
      List.Forall₂ Told (w.calls steps) (w.run steps).1 ∧
      (w.run steps).1.flatMap emitted = (w.calls steps).flatten.flatMap Call.records) ∧
    (∀ c : Call, c.Reports c.records) ∧
    (Machine.AccurateLibrary Float.pow Float.log10 Float.floor →
      ∀ c : Call, c.records = c.report) ∧
    (∀ (α : Precision → Type) [Decadic α], Faithful α → ∀ (q : Quantity α) (digits : Nat)
      (showPlus : Bool), (∀ v, Denotes q.scalar.toDouble v → v ≠ 0 → InRange v) →
        (q.engineering digits showPlus).records = (q.engineering digits showPlus).result.report) ∧
    Faithful Exact ∧ ∃ pow log10 floor, Machine.AccurateLibrary pow log10 floor :=
  ⟨fun w steps => ⟨w.run_told steps, w.records_run steps⟩, Call.reports_records,
    fun hlibrary c => c.records_eq_report hlibrary,
    fun _ _ hα _ digits showPlus hrange => records_render hα hrange _ digits showPlus,
    faithful_exact, Machine.exists_accurateLibrary⟩

end Worksheet

end Metrology
