import Metrology.Proofs.Json.Entries
import Metrology.Proofs.Quantity.Kind

/-!
# Runs of a worksheet

What one step may do to the cells, and from it what a whole run does.  A step that is refused
changes nothing, and every quantity in a cell has an exponent that is not zero.
-/

namespace Metrology

def Step.target? : Step → Option String
  | .store _ to? => to?
  | .assign _ a _ => some a
  | .ask _ => none

def Source.dimension? : Source → Option Dimension
  | .quantity d _ | .zero d _ | .bareJson d _ _ | .taggedJson d _ _ => some d
  | _ => none

inductive Source.Unreadable : Source → Json.ReadError → Prop
  | bare {d : Dimension} {p : Precision} {text : String} {e : Json.ReadError}
      (h : Json.readBare p text = .error e) : Unreadable (.bareJson d p text) e
  | tagged {d : Dimension} {p : Precision} {text : String} {e : Json.ReadError}
      (h : Json.readTagged d p text = .error e) : Unreadable (.taggedJson d p text) e

namespace Worksheet

variable {w : Worksheet} {cell other : String} {v : Value Machine}

theorem get?_set_self : (w.set cell v).get? cell = some v := by
  simp [set, get?]

theorem get?_set_of_ne (h : other ≠ cell) : (w.set cell v).get? other = w.get? other := by
  have hne : (other == cell) = false := by simpa using h
  unfold set get?
  rw [List.lookup_cons, hne]
  induction w with
  | nil => rfl
  | cons entry w ih =>
      obtain ⟨name, u⟩ := entry
      by_cases hname : name = cell
      · subst hname
        simpa [List.lookup_cons, hne] using ih
      · simp only [List.filter_cons, bne_iff_ne, ne_eq, hname, not_false_eq_true, if_true,
          List.lookup_cons]
        cases other == name with
        | true => rfl
        | false => exact ih

def put (w : Worksheet) (target? : Option String) : Except StepError (Value Machine) → Worksheet
  | .ok v =>
    match target? with
    | some cell => w.set cell v
    | none => w
  | .error _ => w

theorem get?_put_of_ne {target? : Option String} (h : target? ≠ some cell)
    (r : Except StepError (Value Machine)) : (w.put target? r).get? cell = w.get? cell := by
  cases r with
  | error e => rfl
  | ok v =>
      cases target? with
      | none => rfl
      | some name => exact get?_set_of_ne fun hcell => h (congrArg some hcell.symm)

theorem value_of_get? (h : w.get? cell = some v) : w.value cell = .ok v := by
  rw [value, h]

theorem lift_eq_ok {β : Type} {x : Except OperationError β} {b : β} :
    lift x = .ok b ↔ x = .ok b := by
  cases x <;> simp [lift]

theorem map_value_eq_ok {r : Except StepError (Value Machine)} :
    r.map Answer.value = .ok (.value v) ↔ r = .ok v := by
  cases r <;> simp [Except.map]

theorem map_quantity_eq_ok {r : Except StepError (Quantity Machine)} :
    r.map Value.quantity = .ok v ↔ ∃ q, v = .quantity q ∧ r = .ok q := by
  cases r <;> simp [Except.map, eq_comm]

def result? (w : Worksheet) : Step → Option (Except StepError (Value Machine))
  | .store source _ => some (w.evaluate source).result
  | .assign op a b => some ((do lift (op.apply (← w.value a) (← w.value b))).map .quantity)
  | .ask _ => none

theorem step_of_result {s : Step} {r : Except StepError (Value Machine)}
    (h : w.result? s = some r) :
    (w.step s).1.result = r.map .value ∧ (w.step s).2 = w.put s.target? r := by
  cases s with
  | store source to? =>
      cases h
      dsimp only [step]
      rcases w.evaluate source with ⟨e | v, records⟩
      · exact ⟨rfl, rfl⟩
      · cases to? <;> exact ⟨rfl, rfl⟩
  | assign op a b =>
      cases h
      dsimp only [step]
      generalize (do lift (op.apply (← w.value a) (← w.value b))) = r
      cases r <;> exact ⟨rfl, rfl⟩
  | ask query => cases h

theorem step_of_no_result {s : Step} (h : w.result? s = none) :
    s.target? = none ∧ (w.step s).2 = w := by
  cases s with
  | ask query => exact ⟨rfl, rfl⟩
  | _ => cases h

theorem store_result (source : Source) (to? : Option String) :
    (w.step (.store source to?)).1.result = (w.evaluate source).result.map .value :=
  (step_of_result rfl).1

variable {d : Dimension}

theorem ofScalar?_of_zero (hzero : ∀ e ∈ d.exponents, e = 0) (s : Scalar Machine) :
    Quantity.ofScalar? d s = .error .dimensionless :=
  dif_pos (d.isDimensionless_eq_true_iff.2 (Dimension.eq_one_iff.2 hzero))

theorem dimension_of_ofScalar? {s : Scalar Machine} {q : Quantity Machine}
    (h : Quantity.ofScalar? d s = .ok q) : q.dimension = d := by
  unfold Quantity.ofScalar? at h
  split at h
  · cases h
  · cases h
    rfl

theorem evaluate_of_zero {source : Source} (hd : source.dimension? = some d)
    (hzero : ∀ e ∈ d.exponents, e = 0) :
    (w.evaluate source).result = .error (.operation .dimensionless) := by
  cases source with
  | quantity | zero | bareJson | taggedJson =>
      cases hd
      simp only [evaluate, readJson, ofScalar?_of_zero hzero]
      rfl
  | _ => cases hd

theorem evaluate_of_dimension {source : Source} (hd : source.dimension? = some d)
    (h : (w.evaluate source).result = .ok v) : ∃ q, v = .quantity q ∧ q.dimension = d := by
  cases source with
  | quantity | zero =>
      cases hd
      obtain ⟨q, rfl, hq⟩ := map_quantity_eq_ok.1 h
      exact ⟨q, rfl, dimension_of_ofScalar? (lift_eq_ok.1 hq)⟩
  | bareJson | taggedJson =>
      cases hd
      obtain ⟨_, _, -, rfl⟩ := Json.readJson_eq_ok_iff.1 h
      exact ⟨_, rfl, rfl⟩
  | _ => cases hd

theorem evaluate_of_unreadable {source : Source} {e : Json.ReadError} (h : source.Unreadable e) :
    (w.evaluate source).result ≠ .ok v := by
  intro hok
  cases h with
  | bare h | tagged h =>
      obtain ⟨-, x, hx, -⟩ := Json.readJson_eq_ok_iff.1 hok
      rw [h] at hx
      cases hx

theorem evaluate_multiplier_eq_ok_iff (symbol : String) :
    (∃ v, (w.evaluate (.multiplier symbol)).result = .ok v) ↔
      ∃ u ∈ DecimalPrefix.table, symbol ∈ u.symbols := by
  have hfind : (DecimalPrefix.ofSymbol? symbol).isSome = true ↔
      ∃ u ∈ DecimalPrefix.table, symbol ∈ u.symbols := by
    simp [DecimalPrefix.ofSymbol?, List.find?_isSome]
  rw [← hfind, evaluate, lookupPrefix]
  cases DecimalPrefix.ofSymbol? symbol <;> simp

theorem step_of_error {s : Step} {e : StepError} (h : (w.step s).1.result = .error e) :
    (w.step s).2 = w := by
  cases hr : w.result? s with
  | none => exact (step_of_no_result hr).2
  | some r =>
      obtain ⟨hresult, hsheet⟩ := step_of_result hr
      cases r with
      | error e' => exact hsheet
      | ok v =>
          rw [hresult] at h
          cases h

theorem get?_step_of_ne {s : Step} (h : s.target? ≠ some cell) :
    (w.step s).2.get? cell = w.get? cell := by
  cases hr : w.result? s with
  | none => rw [(step_of_no_result hr).2]
  | some r => rw [(step_of_result hr).2, get?_put_of_ne h]

theorem get?_step_target {s : Step} (htarget : s.target? = some cell)
    (h : (w.step s).1.result = .ok (.value v)) : (w.step s).2.get? cell = some v := by
  cases hr : w.result? s with
  | none =>
      rw [(step_of_no_result hr).1] at htarget
      cases htarget
  | some r =>
      obtain ⟨hresult, hsheet⟩ := step_of_result hr
      rw [hresult, map_value_eq_ok] at h
      rw [hsheet, h, htarget]
      exact get?_set_self

theorem step_unary_result {a : String} {q : Quantity Machine} (ha : w.get? a = some (.quantity q))
    (op : UnaryOperation) (to? : Option String) :
    (w.step (.store (.unary op a) to?)).1.result = .ok (.value v) ↔ op.applyQuantity q = .ok v := by
  have heval : (w.evaluate (.unary op a)).result = lift (op.applyQuantity q) := by
    simp only [evaluate, value_of_get? ha]
    rfl
  rw [store_result, heval, map_value_eq_ok, lift_eq_ok]

theorem step_binary_result {a b : String} {u u' : Value Machine} (ha : w.get? a = some u)
    (hb : w.get? b = some u') (op : BinaryOperation) (to? : Option String) :
    (w.step (.store (.binary op a b) to?)).1.result = .ok (.value v) ↔ op.apply u u' = .ok v := by
  have heval : (w.evaluate (.binary op a b)).result = lift (op.apply u u') := by
    simp only [evaluate, value_of_get? ha, value_of_get? hb]
    rfl
  rw [store_result, heval, map_value_eq_ok, lift_eq_ok]

theorem step_assign_result {a b : String} {q : Quantity Machine} {u r : Value Machine}
    (ha : w.get? a = some (.quantity q)) (hb : w.get? b = some u) (op : AssignOperation) :
    (w.step (.assign op a b)).1.result = .ok (.value r) ↔
      ∃ q', r = .quantity q' ∧ op.apply (.quantity q) u = .ok q' := by
  have hresult := (step_of_result (w := w) (s := .assign op a b) rfl).1
  rw [value_of_get? ha, value_of_get? hb] at hresult
  have hmap : (w.step (.assign op a b)).1.result =
      ((lift (op.apply (.quantity q) u)).map .quantity).map Answer.value := hresult
  rw [hmap, map_value_eq_ok, map_quantity_eq_ok]
  simp only [lift_eq_ok]

end Worksheet

structure StepLaws (w : Worksheet) (s : Step) (o : Outcome) (w' : Worksheet) : Prop where
  refused : ∀ e, o.result = .error e → w' = w
  others : ∀ cell, s.target? ≠ some cell → w'.get? cell = w.get? cell
  filled : ∀ cell v, s.target? = some cell → o.result = .ok (.value v) → w'.get? cell = some v
  dimensional : ∀ cell q, w'.get? cell = some (.quantity q) → ∃ e ∈ q.dimension.exponents, e ≠ 0
  named : ∀ source to? d, s = .store source to? → source.dimension? = some d →
    ((∀ e ∈ d.exponents, e = 0) → o.result = .error (.operation .dimensionless)) ∧
      ∀ v, o.result = .ok (.value v) → ∃ q, v = .quantity q ∧ q.dimension = d
  unread : ∀ source to? e, s = .store source to? → source.Unreadable e →
    ∀ v, o.result ≠ .ok (.value v)
  multiplier : ∀ symbol to?, s = .store (.multiplier symbol) to? →
    ((∃ v, o.result = .ok (.value v)) ↔ ∃ u ∈ DecimalPrefix.table, symbol ∈ u.symbols)
  unary : ∀ op a to? q, s = .store (.unary op a) to? → w.get? a = some (.quantity q) →
    ((∃ v, o.result = .ok (.value v)) ↔ op.Takes q) ∧
      ∀ v, o.result = .ok (.value v) →
        v.dimension = op.dimension q.dimension ∧ (v.isScalar = true ↔ op = .power 0)
  binary : ∀ op a b to? u v, s = .store (.binary op a b) to? → w.get? a = some u →
    w.get? b = some v →
    ((∃ r, o.result = .ok (.value r)) ↔ op.Takes u v) ∧
      ∀ r, o.result = .ok (.value r) →
        r.dimension = op.dimension u.dimension v.dimension ∧ (r.isScalar = true ↔ op.Cancels u v)
  assign : ∀ op a b q v, s = .assign op a b → w.get? a = some (.quantity q) → w.get? b = some v →
    ((∃ r, o.result = .ok (.value r)) ↔ op.Takes q v) ∧
      ∀ r, o.result = .ok (.value r) → ∃ q', r = .quantity q' ∧ q'.dimension = q.dimension ∧
        q'.scalar.precision = q.scalar.precision

namespace Worksheet

theorem step_lawful (w : Worksheet) (s : Step) : StepLaws w s (w.step s).1 (w.step s).2 where
  refused _ h := step_of_error h
  others _ h := get?_step_of_ne h
  filled _ _ htarget h := get?_step_target htarget h
  dimensional _ q _ := Dimension.exists_exponent_ne_zero q.dimension_ne_one
  named source to? d hs hd := by
    subst hs
    rw [store_result]
    refine ⟨fun hzero => ?_, fun v hv => evaluate_of_dimension hd (map_value_eq_ok.1 hv)⟩
    rw [evaluate_of_zero hd hzero]
    rfl
  unread source to? e hs he v hv := by
    subst hs
    rw [store_result, map_value_eq_ok] at hv
    exact evaluate_of_unreadable he hv
  multiplier symbol to? hs := by
    subst hs
    simp only [store_result, map_value_eq_ok]
    exact evaluate_multiplier_eq_ok_iff symbol
  unary op a to? q hs ha := by
    subst hs
    simp only [step_unary_result ha]
    exact ⟨UnaryOperation.exists_applyQuantity_eq_ok_iff, fun v hv =>
      ⟨UnaryOperation.dimension_applyQuantity hv, UnaryOperation.isScalar_iff hv⟩⟩
  binary op a b to? u v hs ha hb := by
    subst hs
    simp only [step_binary_result ha hb]
    exact ⟨BinaryOperation.exists_apply_eq_ok_iff, fun r hr =>
      ⟨BinaryOperation.dimension_apply hr, BinaryOperation.isScalar_iff hr⟩⟩
  assign op a b q v hs ha hb := by
    subst hs
    simp only [step_assign_result ha hb]
    constructor
    · rw [exists_comm]
      simp only [exists_eq_left]
      exact AssignOperation.exists_apply_eq_ok_iff
    · rintro r ⟨q', rfl, hq⟩
      exact ⟨q', rfl, AssignOperation.shape_apply hq⟩

end Worksheet

inductive Lawful : Worksheet → List Step → List Outcome → Worksheet → Prop
  | done (w : Worksheet) : Lawful w [] [] w
  | step {w w' w'' : Worksheet} {s : Step} {o : Outcome} {steps : List Step}
      {outcomes : List Outcome} (hstep : StepLaws w s o w')
      (hrest : Lawful w' steps outcomes w'') : Lawful w (s :: steps) (o :: outcomes) w''

namespace Worksheet

/-- A run keeps the laws from any worksheet on, the empty one among them, and no quantity that it
leaves in a cell is dimensionless. -/
theorem run_lawful (w : Worksheet) (steps : List Step) :
    Lawful w steps (w.run steps).1 (w.run steps).2 ∧
      ∀ cell q, (w.run steps).2.get? cell = some (.quantity q) →
        ∃ e ∈ q.dimension.exponents, e ≠ 0 := by
  refine ⟨?_, fun cell q _ => Dimension.exists_exponent_ne_zero q.dimension_ne_one⟩
  -- On the steps, from any worksheet on, since the first one hands its own over to the rest.
  induction steps generalizing w with
  | nil => exact .done w
  | cons s steps ih => exact .step (step_lawful w s) (ih _)

end Worksheet

end Metrology
