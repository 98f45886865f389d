import Metrology.Json.Tagged
import Metrology.Quantity.Operation
import Metrology.Quantity.Text
import Metrology.Unit.Catalogue

/-!
# Worksheets

A worksheet holds values in named cells.  A step reads cells, answers, and may fill one cell; a step
that fails answers with its error and changes no cell.  A run is the list of the answers to a list
of steps on a worksheet that starts out empty.
-/

namespace Metrology

abbrev Worksheet := List (String × Value Machine)

namespace Worksheet

def get? (w : Worksheet) (cell : String) : Option (Value Machine) := w.lookup cell

def set (w : Worksheet) (cell : String) (v : Value Machine) : Worksheet :=
  (cell, v) :: w.filter (·.1 != cell)

end Worksheet

inductive Source where
  | scalar (s : Scalar Machine)
  | quantity (d : Dimension) (s : Scalar Machine)
  | zero (d : Dimension) (p : Precision)
  | unit (set : UnitSet) (name : String)
  | multiplier (symbol : String)
  | bareJson (d : Dimension) (p : Precision) (text : String)
  | taggedJson (d : Dimension) (p : Precision) (text : String)
  | unary (op : UnaryOperation) (a : String)
  | binary (op : BinaryOperation) (a b : String)

inductive Query where
  | compare (a b : String)
  | display (a : String) (places? : Option Nat)
  | annotated (a : String) (places? : Option Nat) (lines : Bool)
  | texts (a : String)
  | engineering (a : String) (digits : Nat) (showPlus : Bool)
  | sameEngineering (a b : String) (digits : Nat)
  | json (a : String)

inductive Step where
  | store (source : Source) (to? : Option String)
  | assign (op : AssignOperation) (a b : String)
  | ask (query : Query)

inductive StepError where
  | operation (e : OperationError)
  | unknownPrefix (e : UnknownPrefix)
  | json (e : Json.ReadError)
  deriving DecidableEq, Repr

structure Comparison where
  ordering : Option Ordering

namespace Comparison

def eq (c : Comparison) : Bool := c.ordering == some .eq

def ne (c : Comparison) : Bool := !c.eq

def lt (c : Comparison) : Bool := c.ordering == some .lt

def gt (c : Comparison) : Bool := c.ordering == some .gt

def le (c : Comparison) : Bool := c.lt || c.eq

def ge (c : Comparison) : Bool := c.gt || c.eq

end Comparison

structure QuantityTexts where
  magnitude : String
  symbol : String
  name : String
  display : String
  named : String

structure EngineeringTexts where
  rendering : Engineering
  text : String
  magnitude : String
  unit : String
  /-- What the renderings behind the last three texts leave. -/
  further : List LogRecord

inductive Answer where
  | value (v : Value Machine)
  | comparison (c : Comparison)
  | text (s : String)
  | texts (t : QuantityTexts)
  | engineering (t : EngineeringTexts)
  | sameEngineering (same : Bool)
  | json (bare tagged : String)

abbrev Outcome := Logged (Except StepError Answer)

namespace Worksheet

def emitted (o : Outcome) : List LogRecord :=
  match o.result with
  | .ok (.engineering t) => o.records ++ t.further
  | _ => o.records

def value (w : Worksheet) (cell : String) : Except StepError (Value Machine) :=
  match w.get? cell with
  | some v => .ok v
  | none => .error (.operation .typeMismatch)

def lift {β : Type} : Except OperationError β → Except StepError β
  | .ok b => .ok b
  | .error e => .error (.operation e)

def quantity (w : Worksheet) (cell : String) : Except StepError (Quantity Machine) := do
  lift (← w.value cell).toQuantity

def readJson {p : Precision} (read : Except Json.ReadError (Machine p)) (d : Dimension) :
    Except StepError (Value Machine) := do
  let empty ← lift (Quantity.ofScalar? d (.zero p))
  match read with
  | .ok x => return .quantity (empty.withScalar ⟨p, x⟩)
  | .error e => throw (.json e)

/-- Computes a value.  Only a prefix that is not found leaves a record. -/
def evaluate (w : Worksheet) : Source → Logged (Except StepError (Value Machine))
  | .scalar s => ⟨.ok (.scalar s), []⟩
  | .quantity d s => ⟨(lift (Quantity.ofScalar? d s)).map .quantity, []⟩
  | .zero d p => ⟨(lift (Quantity.ofScalar? d (.zero p))).map .quantity, []⟩
  | .unit set name =>
    match set.find? name with
    | some v => ⟨.ok v, []⟩
    | none => ⟨.error (.operation .typeMismatch), []⟩
  | .multiplier symbol =>
    match lookupPrefix symbol with
    | ⟨.ok s, records⟩ => ⟨.ok (.scalar s), records⟩
    | ⟨.error e, records⟩ => ⟨.error (.unknownPrefix e), records⟩
  | .bareJson d p text => ⟨readJson (Json.readBare p text) d, []⟩
  | .taggedJson d p text => ⟨readJson (Json.readTagged d p text) d, []⟩
  | .unary op a => ⟨do lift (op.apply (← w.value a)), []⟩
  | .binary op a b => ⟨do lift (op.apply (← w.value a) (← w.value b)), []⟩

def texts (q : Quantity Machine) : QuantityTexts :=
  { magnitude := q.scalar.displayText none
    symbol := q.dimension.symbol
    name := q.dimension.unitName
    display := q.display none
    named := q.namedText }

/-- Answers a query.  Of several renderings of one quantity the first one's records go with the
answer. -/
def answer (w : Worksheet) : Query → Outcome
  | .compare a b =>
    ⟨do
      let a ← w.quantity a
      let b ← w.quantity b
      return .comparison ⟨← lift (a.compare? b)⟩, []⟩
  | .display a places? => ⟨do return .text ((← w.quantity a).display places?), []⟩
  | .annotated a places? lines =>
    ⟨do
      let q ← w.quantity a
      return .text (if lines then q.annotatedLines places? else q.annotated places?), []⟩
  | .texts a => ⟨do return .texts (texts (← w.quantity a)), []⟩
  | .engineering a digits showPlus =>
    match w.quantity a with
    | .error e => ⟨.error e, []⟩
    | .ok q =>
      let rendering := q.engineering digits showPlus
      let text := q.engineeringText digits showPlus
      let magnitude := q.engineeringMagnitude digits showPlus
      let unit := q.engineeringUnit
      ⟨.ok (.engineering
        { rendering := rendering.result
          text := text.result
          magnitude := magnitude.result
          unit := unit.result
          further := text.records ++ magnitude.records ++ unit.records }), rendering.records⟩
  | .sameEngineering a b digits =>
    match (do
      let a ← w.quantity a
      let b ← w.quantity b
      let _ ← lift (Quantity.sameDimension a b)
      return (a.engineering digits false, b.engineering digits false)) with
    | .error e => ⟨.error e, []⟩
    | .ok (a, b) => ⟨.ok (.sameEngineering (a.result == b.result)), a.records ++ b.records⟩
  | .json a =>
    ⟨do
      let q ← w.quantity a
      return .json (Json.bareText q) (Json.taggedText q), []⟩

def step (w : Worksheet) : Step → Outcome × Worksheet
  | .store source to? =>
    match w.evaluate source with
    | ⟨.error e, records⟩ => (⟨.error e, records⟩, w)
    | ⟨.ok v, records⟩ =>
      (⟨.ok (.value v), records⟩, match to? with
        | some cell => w.set cell v
        | none => w)
  | .assign op a b =>
    match (do lift (op.apply (← w.value a) (← w.value b))) with
    | .error e => (⟨.error e, []⟩, w)
    | .ok q => (⟨.ok (.value (.quantity q)), []⟩, w.set a (.quantity q))
  | .ask query => (w.answer query, w)

def run (w : Worksheet) : List Step → List Outcome × Worksheet
  | [] => ([], w)
  | s :: steps =>
    let (outcome, w) := w.step s
    let (outcomes, w) := w.run steps
    (outcome :: outcomes, w)

end Worksheet

end Metrology
