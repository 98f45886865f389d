import Metrology.Proofs.Quantity.Order

/-!
# Assignments and plain operators

An assignment casts its right operand to the precision of its left one, by way of double precision,
and a plain operator widens the narrower operand.  Since a scalar comes back from widening as it
was, the two compute on the same scalars, unless the right operand is the wider one and is narrowed
first.
-/

namespace Metrology

namespace Scalar

/-- Narrowed where it is wider than `p`. -/
def fit {α : Precision → Type} [Arithmetic α] (p : Precision) (s : Scalar α) : Scalar α :=
  if s.precision.width ≤ p.width then s else s.cast p

theorem assigned_eq (f : {p : Precision} → Machine p → Machine p → Machine p)
    (a b : Scalar Machine) : a.assigned f b = promoted f a (b.fit a.precision) := by
  obtain ⟨p, x⟩ := a
  obtain ⟨q, y⟩ := b
  cases p with
  | single =>
      cases q with
      | single => exact congrArg (fun y => Scalar.mk .single (f x y)) (Machine.narrow_widen y)
      | double => rfl
  | double => cases q <;> rfl

end Scalar

namespace Value

variable {α : Precision → Type} [Arithmetic α] {p : Precision} {v : Value α}

def mapMagnitude (f : Scalar α → Scalar α) : Value α → Value α
  | .scalar s => .scalar (f s)
  | .quantity q => .quantity (q.withScalar (f q.scalar))

def cast (p : Precision) (v : Value α) : Value α := v.mapMagnitude (Scalar.cast p)

def fit (p : Precision) (v : Value α) : Value α := v.mapMagnitude (Scalar.fit p)

theorem fit_of_le (h : v.magnitude.precision.width ≤ p.width) : v.fit p = v := by
  cases v with
  | scalar s => exact congrArg Value.scalar (if_pos h)
  | quantity q => exact congrArg (fun s => Value.quantity (q.withScalar s)) (if_pos h)

theorem fit_of_not_le (h : ¬v.magnitude.precision.width ≤ p.width) : v.fit p = v.cast p := by
  cases v with
  | scalar s => exact congrArg Value.scalar (if_neg h)
  | quantity q => exact congrArg (fun s => Value.quantity (q.withScalar s)) (if_neg h)

end Value

namespace AssignOperation

def binary : AssignOperation → BinaryOperation
  | .add => .add
  | .sub => .sub
  | .mul => .mul
  | .div => .div

def operandDimension : AssignOperation → Dimension → Dimension
  | .add, d | .sub, d => d
  | .mul, _ | .div, _ => 1

theorem takes_iff {op : AssignOperation} {α : Precision → Type} {a : Quantity α} {v : Value α} :
    op.Takes a v ↔ v.dimension = op.operandDimension a.dimension := by
  cases v with
  | scalar s =>
      cases op <;> simp [Takes, operandDimension, Value.dimension, a.dimension_ne_one.symm]
  | quantity b =>
      cases op <;> simp [Takes, operandDimension, Value.dimension, b.dimension_ne_one, eq_comm]

theorem onScalars_assigned (f : {p : Precision} → Machine p → Machine p → Machine p)
    {a b : Quantity Machine} (h : a.dimension = b.dimension) :
    Except.map Value.quantity (do
      let (x, y) ← Quantity.sameDimension a b
      return a.withScalar (x.assigned f y)) =
    Value.onQuantities
      (fun a b => do
        let (x, y) ← Quantity.sameDimension a b
        return a.withScalar (x.promoted f y))
      (.quantity a) (.quantity (b.withScalar (b.scalar.fit a.scalar.precision))) := by
  have hplain := (Quantity.onScalars_eq (Scalar.promoted f) a
    (b.withScalar (b.scalar.fit a.scalar.precision))).trans (if_pos h)
  rw [Quantity.onScalars_eq (Scalar.assigned f), if_pos h, Scalar.assigned_eq]
  exact (congrArg (Except.map Value.quantity) hplain).symm

theorem apply_eq {op : AssignOperation} {a : Quantity Machine} {v : Value Machine}
    (h : op.Takes a v) :
    (op.apply (.quantity a) v).map .quantity =
      op.binary.apply (.quantity a) (v.fit a.scalar.precision) := by
  cases v with
  | scalar s =>
      have hscale (f : {p : Precision} → Machine p → Machine p → Machine p) :
          Except.ok (ε := OperationError) (Value.quantity (a.withScalar (a.scalar.assigned f s))) =
            .ok (.quantity (a.withScalar (a.scalar.promoted f (s.fit a.scalar.precision)))) := by
        rw [Scalar.assigned_eq]
      cases op with
      | add | sub => cases h
      | mul => exact hscale Arithmetic.mul
      | div => exact hscale Arithmetic.div
  | quantity b =>
      cases op with
      | add => exact onScalars_assigned Arithmetic.add h
      | sub => exact onScalars_assigned Arithmetic.sub h
      | mul | div => cases h

end AssignOperation

namespace Worksheet

variable {w : Worksheet} {a b : String} {q q' : Quantity Machine} {u v r : Value Machine}

theorem value_eq_ok_iff {cell : String} : w.value cell = .ok v ↔ w.get? cell = some v := by
  rw [value]
  cases w.get? cell <;> simp

theorem lift_values {β : Type} {f : Value Machine → Value Machine → Except OperationError β} {c : β}
    (ha : w.get? a = some u) (hb : w.get? b = some v) (h : f u v = .ok c) :
    (do lift (f (← w.value a) (← w.value b))) = .ok c := by
  rw [value_of_get? ha, value_of_get? hb]
  exact lift_eq_ok.2 h

theorem step_assign {op : AssignOperation} (ha : w.get? a = some (.quantity q))
    (hb : w.get? b = some v) (h : op.apply (.quantity q) v = .ok q') :
    w.step (.assign op a b) = (⟨.ok (.value (.quantity q')), []⟩, w.set a (.quantity q')) := by
  simp only [step, lift_values ha hb h]

theorem step_binary {op : BinaryOperation} {cell : String} (ha : w.get? a = some u)
    (hb : w.get? b = some v) (h : op.apply u v = .ok r) :
    w.step (.store (.binary op a b) (some cell)) = (⟨.ok (.value r), []⟩, w.set cell r) := by
  simp only [step, evaluate, lift_values ha hb h]

theorem step_assign_cases (w : Worksheet) (op : AssignOperation) (a b : String) :
    (w.step (.assign op a b)).2 = w ∨ ∃ q v q', w.get? a = some (.quantity q) ∧
      op.apply (.quantity q) v = .ok q' ∧ (w.step (.assign op a b)).2 = w.set a (.quantity q') := by
  cases hresult : (do lift (op.apply (← w.value a) (← w.value b))) with
  | error e => exact .inl (by simp only [step, hresult])
  | ok q' =>
      obtain ⟨u, hu, h⟩ := bind_eq_ok.1 hresult
      obtain ⟨v, hv, h⟩ := bind_eq_ok.1 h
      cases u with
      | scalar s => cases h
      | quantity q =>
          exact .inr ⟨q, v, q', value_eq_ok_iff.1 hu, lift_eq_ok.1 h, by simp only [step, hresult]⟩

end Worksheet

def Value.shape (v : Value Machine) : Dimension × Precision := (v.dimension, v.magnitude.precision)

theorem Value.exists_quantity_of_shape {v : Value Machine} {q : Quantity Machine}
    (h : v.shape = Value.shape (.quantity q)) :
    ∃ q', v = .quantity q' ∧ q'.dimension = q.dimension ∧
      q'.scalar.precision = q.scalar.precision := by
  obtain ⟨hd, hp⟩ := Prod.mk.inj h
  cases v with
  | scalar s => exact absurd hd.symm q.dimension_ne_one
  | quantity q' => exact ⟨q', rfl, hd, hp⟩

namespace Worksheet

def shape? (w : Worksheet) (cell : String) : Option (Dimension × Precision) :=
  (w.get? cell).map Value.shape

theorem exists_quantity_of_shape? {w w' : Worksheet} {cell : String} {q : Quantity Machine}
    (hshape : w'.shape? = w.shape?) (h : w.get? cell = some (.quantity q)) :
    ∃ q', w'.get? cell = some (.quantity q') ∧ q'.dimension = q.dimension ∧
      q'.scalar.precision = q.scalar.precision := by
  have hcell := congrFun hshape cell
  rw [shape?, shape?, h] at hcell
  obtain ⟨v, hv, hvq⟩ := Option.map_eq_some_iff.1 hcell
  obtain ⟨q', rfl, hq'⟩ := Value.exists_quantity_of_shape hvq
  exact ⟨q', hv, hq'⟩

theorem shape?_step_assign (w : Worksheet) (op : AssignOperation) (a b : String) :
    (w.step (.assign op a b)).2.shape? = w.shape? := by
  rcases w.step_assign_cases op a b with h | ⟨q, v, q', hq, happly, h⟩ <;> rw [h]
  obtain ⟨hd, hp⟩ := AssignOperation.shape_apply happly
  funext cell
  rw [shape?, shape?]
  by_cases hcell : cell = a
  · subst hcell
    rw [get?_set_self, hq]
    exact congrArg some (Prod.ext hd hp)
  · rw [get?_set_of_ne hcell]

end Worksheet

structure Assignment where
  op : AssignOperation
  target : String
  operand : String

namespace Assignment

def step (x : Assignment) : Step := .assign x.op x.target x.operand

/-- The plain operator on the same cells, with its result in place of the left operand. -/
def plain (x : Assignment) : Step := .store (.binary x.op.binary x.target x.operand) (some x.target)

structure On (x : Assignment) (w : Worksheet) (q : Quantity Machine) (v : Value Machine) :
    Prop where
  target : w.get? x.target = some (.quantity q)
  operand : w.get? x.operand = some v
  takes : x.op.Takes q v

def Plain (x : Assignment) (w : Worksheet) : Prop :=
  ∃ q v, x.On w q v ∧ v.magnitude.precision.width ≤ q.scalar.precision.width

variable {w w' : Worksheet} {x : Assignment} {q : Quantity Machine} {v : Value Machine}

theorem Plain.step_eq (h : x.Plain w) : w.step x.step = w.step x.plain := by
  obtain ⟨q, v, hon, hwidth⟩ := h
  obtain ⟨q', hq'⟩ := AssignOperation.exists_apply_eq_ok_iff.2 hon.takes
  have hplain : x.op.binary.apply (.quantity q) v = .ok (.quantity q') := by
    rw [← Value.fit_of_le hwidth, ← AssignOperation.apply_eq hon.takes, hq']
    rfl
  rw [step, plain, Worksheet.step_assign hon.target hon.operand hq',
    Worksheet.step_binary hon.target hon.operand hplain]

theorem Plain.of_shape? (h : x.Plain w) (hshape : w'.shape? = w.shape?) : x.Plain w' := by
  obtain ⟨q, v, hon, hwidth⟩ := h
  obtain ⟨q', hq', hd, hp⟩ := Worksheet.exists_quantity_of_shape? hshape hon.target
  have hoperand := congrFun hshape x.operand
  rw [Worksheet.shape?, Worksheet.shape?, hon.operand] at hoperand
  obtain ⟨v', hv', hshape'⟩ := Option.map_eq_some_iff.1 hoperand
  obtain ⟨hvd, hvp⟩ := Prod.mk.inj hshape'
  refine ⟨q', v', ⟨hq', hv', ?_⟩, ?_⟩
  · rw [AssignOperation.takes_iff, hvd, hd]
    exact AssignOperation.takes_iff.1 hon.takes
  · rw [hvp, hp]
    exact hwidth

theorem shape?_run (w : Worksheet) (xs : List Assignment) :
    (w.run (xs.map step)).2.shape? = w.shape? := by
  induction xs generalizing w with
  | nil => rfl
  | cons x xs ih => exact (ih _).trans (w.shape?_step_assign x.op x.target x.operand)

/-- A run of assignments is one of plain operators.  What the right operands are is asked for at the
start only, since no assignment changes a shape. -/
theorem run_eq_plain {xs : List Assignment} (h : ∀ x ∈ xs, x.Plain w) :
    w.run (xs.map step) = w.run (xs.map plain) := by
  induction xs generalizing w with
  | nil => rfl
  | cons x xs ih =>
      have hx := (h x List.mem_cons_self).step_eq
      have hrest (y : Assignment) (hy : y ∈ xs) : y.Plain (w.step x.step).2 :=
        (h y (List.mem_cons_of_mem x hy)).of_shape? (w.shape?_step_assign x.op x.target x.operand)
      simp only [List.map_cons, Worksheet.run]
      rw [ih hrest, hx]

end Assignment

/-- How assignments to the cells of a worksheet relate to plain operators. -/
structure AssignmentLaws (w : Worksheet) : Prop where
  agrees : ∀ x : Assignment, ∀ q v, x.On w q v →
    ∃ q', (w.step x.step).1.result = .ok (.value (.quantity q')) ∧
      (w.step x.step).2.get? x.target = some (.quantity q') ∧
      (v.magnitude.precision.width ≤ q.scalar.precision.width →
        x.op.binary.apply (.quantity q) v = .ok (.quantity q')) ∧
      (q.scalar.precision = .single → v.magnitude.precision = .double →
        x.op.binary.apply (.quantity q) (v.cast .single) = .ok (.quantity q'))
  keeps : ∀ (xs : List Assignment) cell q, w.get? cell = some (.quantity q) →
    ∃ q', (w.run (xs.map Assignment.step)).2.get? cell = some (.quantity q') ∧
      q'.dimension = q.dimension ∧ q'.scalar.precision = q.scalar.precision
  runs : ∀ xs : List Assignment, (∀ x ∈ xs, x.Plain w) →
    w.run (xs.map Assignment.step) = w.run (xs.map Assignment.plain)

namespace Worksheet

/-- An assignment computes what the plain operator does, in the precision of its cell. -/
theorem assignment_lawful (w : Worksheet) : AssignmentLaws w where
  agrees x q v hon := by
    obtain ⟨q', hq'⟩ := AssignOperation.exists_apply_eq_ok_iff.2 hon.takes
    have hstep := step_assign hon.target hon.operand hq'
    have happly := AssignOperation.apply_eq hon.takes
    rw [hq'] at happly
    rw [Assignment.step, hstep]
    refine ⟨q', rfl, get?_set_self, fun hwidth => ?_, fun hq hv => ?_⟩
    · rw [Value.fit_of_le hwidth] at happly
      exact happly.symm
    · rw [hq, Value.fit_of_not_le (by rw [hv]; decide)] at happly
      exact happly.symm
  keeps xs cell q hq := exists_quantity_of_shape? (Assignment.shape?_run w xs) hq
  runs xs h := Assignment.run_eq_plain h

def metres : Worksheet :=
  [("narrow", .quantity (.metres (.one .single))), ("wide", .quantity (.metres (.one .double)))]

theorem assignment_lawful_metres :
    ∃ q', (metres.step (.assign .add "narrow" "wide")).2.get? "narrow" = some (.quantity q') ∧
      BinaryOperation.add.apply (.quantity (Quantity.metres (.one .single)))
        (.quantity ((Quantity.metres (.one .double)).cast .single)) = .ok (.quantity q') := by
  obtain ⟨q', -, hcell, -, hnarrowed⟩ := (assignment_lawful metres).agrees ⟨.add, "narrow", "wide"⟩
    (.metres (.one .single)) (.quantity (.metres (.one .double))) ⟨rfl, rfl, rfl⟩
  exact ⟨q', hcell, hnarrowed rfl rfl⟩

end Worksheet

end Metrology
