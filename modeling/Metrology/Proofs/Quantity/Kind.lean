import Metrology.Proofs.Quantity.Value
import Metrology.Except

/-!
# Operands and kinds of results

Which operands each operation takes, and when a bare scalar is left.  No quantity is dimensionless,
so that only products and quotients whose exponents cancel and the power of degree zero leave one.
-/

namespace Metrology

namespace Quantity

variable {α : Precision → Type}

theorem dimension_ne_one (q : Quantity α) : q.dimension ≠ 1 :=
  q.dimension.isDimensionless_eq_false_iff.1 q.dimensional

theorem onScalars_eq (f : Scalar α → Scalar α → Scalar α) (a b : Quantity α) :
    (do
      let (x, y) ← sameDimension a b
      return a.withScalar (f x y)) =
    if a.dimension = b.dimension then .ok (a.withScalar (f a.scalar b.scalar))
      else .error .dimensionMismatch := by
  unfold sameDimension
  split <;> rfl

theorem exists_onScalars_eq_ok_iff (f : Scalar α → Scalar α → Scalar α) {a b : Quantity α} :
    (∃ q, (do
      let (x, y) ← sameDimension a b
      return a.withScalar (f x y)) = .ok q) ↔ a.dimension = b.dimension := by
  rw [onScalars_eq]
  split <;> simp [*]

theorem dimension_of_onScalars {f : Scalar α → Scalar α → Scalar α} {a b q : Quantity α}
    (h : (do
      let (x, y) ← sameDimension a b
      return a.withScalar (f x y)) = .ok q) : q.dimension = a.dimension := by
  rw [onScalars_eq] at h
  split at h
  · cases h
    rfl
  · cases h

theorem exists_select_eq_ok_iff {beats : {p : Precision} → α p → α p → Bool} {a b : Quantity α} :
    (∃ q, select beats a b = .ok q) ↔
      a.dimension = b.dimension ∧ a.scalar.precision = b.scalar.precision := by
  unfold select sameDimension
  by_cases hd : a.dimension = b.dimension
  · by_cases hp : a.scalar.precision = b.scalar.precision
    · simp [hd, hp, bind, Except.bind, pure, Except.pure]
    · simp [hd, hp, Ne.symm hp, bind, Except.bind, throw, throwThe, MonadExceptOf.throw]
  · simp [hd, bind, Except.bind]

theorem dimension_of_select {beats : {p : Precision} → α p → α p → Bool} {a b q : Quantity α}
    (h : select beats a b = .ok q) : q.dimension = a.dimension := by
  have hd := (exists_select_eq_ok_iff.1 ⟨q, h⟩).1
  obtain ⟨⟨⟨p, x⟩, ⟨p', y⟩⟩, -, h⟩ := bind_eq_ok.1 h
  dsimp only at h
  split at h
  · cases h
    split
    · exact hd.symm
    · rfl
  · cases h

end Quantity

namespace Value

variable {α : Precision → Type} {f : Quantity α → Quantity α → Except OperationError (Quantity α)}

theorem onQuantities_eq_ok {u v r : Value α} (h : onQuantities f u v = .ok r) :
    ∃ a b q, u = .quantity a ∧ v = .quantity b ∧ f a b = .ok q ∧ r = .quantity q := by
  obtain ⟨a, ha, h⟩ := bind_eq_ok.1 h
  obtain ⟨b, hb, h⟩ := bind_eq_ok.1 h
  obtain ⟨q, hq, h⟩ := bind_eq_ok.1 h
  cases h
  refine ⟨a, b, q, ?_, ?_, hq, rfl⟩
  · cases u <;> cases ha
    rfl
  · cases v <;> cases hb
    rfl

theorem exists_onQuantities_eq_ok_iff {u v : Value α} :
    (∃ r, onQuantities f u v = .ok r) ↔
      ∃ a b, u = .quantity a ∧ v = .quantity b ∧ ∃ q, f a b = .ok q := by
  constructor
  · rintro ⟨r, h⟩
    obtain ⟨a, b, q, rfl, rfl, hq, -⟩ := onQuantities_eq_ok h
    exact ⟨a, b, rfl, rfl, q, hq⟩
  · rintro ⟨a, b, rfl, rfl, q, hq⟩
    exact ⟨.quantity q, bind_eq_ok.2 ⟨a, rfl, bind_eq_ok.2 ⟨b, rfl, bind_eq_ok.2 ⟨q, hq, rfl⟩⟩⟩⟩

end Value

namespace UnaryOperation

def degree? : UnaryOperation → Option Int
  | .sqrt => some 2
  | .root n => some n
  | _ => none

def dimension : UnaryOperation → Dimension → Dimension
  | .square, d => d * d
  | .cube, d => d * d * d
  | .sqrt, d => d.root 2
  | .power n, d => d.power n
  | .root n, d => d.root n
  | _, d => d

variable {α : Precision → Type}

/-- Roots ask for exponents that are multiples of the degree, other operations for nothing. -/
def Takes (op : UnaryOperation) (q : Quantity α) : Prop :=
  ∀ n, op.degree? = some n → q.dimension.HasRoot n

variable [Roots α] {op : UnaryOperation} {q : Quantity α} {v : Value α}

theorem takes_of_applyQuantity (h : op.applyQuantity q = .ok v) : op.Takes q := by
  intro n hn
  by_contra hroot
  cases op with
  | sqrt =>
      cases hn
      rw [applyQuantity, Quantity.sqrt, if_neg hroot] at h
      cases h
  | root =>
      cases hn
      rw [applyQuantity, Quantity.root, if_neg hroot] at h
      cases h
  | _ => cases hn

theorem exists_applyQuantity_eq_ok_iff : (∃ v, op.applyQuantity q = .ok v) ↔ op.Takes q := by
  constructor
  · rintro ⟨v, hv⟩
    exact takes_of_applyQuantity hv
  · intro h
    cases op with
    | sqrt => exact ⟨_, if_pos (h 2 rfl)⟩
    | root n => exact ⟨_, if_pos (h n rfl)⟩
    | _ => exact ⟨_, rfl⟩

theorem dimension_applyQuantity (h : op.applyQuantity q = .ok v) :
    v.dimension = op.dimension q.dimension := by
  have htakes := takes_of_applyQuantity h
  cases op with
  | sqrt =>
      rw [applyQuantity, Quantity.sqrt, if_pos (htakes 2 rfl)] at h
      cases h
      exact Value.dimension_collapse ..
  | root n =>
      rw [applyQuantity, Quantity.root, if_pos (htakes n rfl)] at h
      cases h
      exact Value.dimension_collapse ..
  | square | cube | power =>
      cases h
      exact Value.dimension_collapse ..
  | _ =>
      cases h
      rfl

theorem dimension_eq_one_iff {d : Dimension} (hd : d ≠ 1)
    (hroot : ∀ n, op.degree? = some n → d.HasRoot n) : op.dimension d = 1 ↔ op = .power 0 := by
  cases op with
  | square =>
      have hsquare : d * d ≠ 1 := by
        rw [← pow_two]
        exact mt (Dimension.power_eq_one_iff hd).1 (by decide)
      simp [dimension, hsquare]
  | cube =>
      have hcube : d * d * d ≠ 1 := by
        rw [← pow_two, ← pow_succ]
        exact mt (Dimension.power_eq_one_iff hd).1 (by decide)
      simp [dimension, hcube]
  | sqrt => simp [dimension, Dimension.root_ne_one hd (hroot 2 rfl)]
  | root n => simp [dimension, Dimension.root_ne_one hd (hroot n rfl)]
  | power n => simp [dimension, Dimension.power_eq_one_iff hd]
  | _ => simp [dimension, hd]

theorem isScalar_iff (h : op.applyQuantity q = .ok v) : v.isScalar = true ↔ op = .power 0 := by
  rw [Value.isScalar_iff, dimension_applyQuantity h]
  exact dimension_eq_one_iff q.dimension_ne_one (takes_of_applyQuantity h)

end UnaryOperation

namespace BinaryOperation

def dimension : BinaryOperation → Dimension → Dimension → Dimension
  | .mul, d, e => d * e
  | .div, d, e => d / e
  | _, d, _ => d

variable {α : Precision → Type}

/-- Products and quotients ask for a quantity on one side, sums for one dimension, and a choice for
one precision, too. -/
def Takes : BinaryOperation → Value α → Value α → Prop
  | .mul, u, v | .div, u, v => ¬(u.isScalar = true ∧ v.isScalar = true)
  | .add, .quantity a, .quantity b | .sub, .quantity a, .quantity b => a.dimension = b.dimension
  | .min, .quantity a, .quantity b | .max, .quantity a, .quantity b =>
    a.dimension = b.dimension ∧ a.scalar.precision = b.scalar.precision
  | _, _, _ => False

def Cancels : BinaryOperation → Value α → Value α → Prop
  | .mul, .quantity a, .quantity b => b.dimension = a.dimension.reciprocal
  | .div, .quantity a, .quantity b => a.dimension = b.dimension
  | _, _, _ => False

variable [Arithmetic α] {op : BinaryOperation} {u v r : Value α}

theorem exists_apply_eq_ok_iff : (∃ r, op.apply u v = .ok r) ↔ op.Takes u v := by
  cases op with
  | mul | div =>
      simp only [apply, Value.mul_eq, Value.div_eq, Takes]
      split <;> simp_all
  | add | sub =>
      refine Value.exists_onQuantities_eq_ok_iff.trans ?_
      simp only [Quantity.add, Quantity.sub, Quantity.exists_onScalars_eq_ok_iff Scalar.add,
        Quantity.exists_onScalars_eq_ok_iff Scalar.sub]
      cases u <;> cases v <;> simp [Takes]
  | min | max =>
      refine Value.exists_onQuantities_eq_ok_iff.trans ?_
      simp only [Quantity.min, Quantity.max, Quantity.exists_select_eq_ok_iff]
      cases u <;> cases v <;> simp [Takes]

theorem dimension_apply (h : op.apply u v = .ok r) :
    r.dimension = op.dimension u.dimension v.dimension := by
  cases op with
  | mul | div =>
      simp only [apply, Value.mul_eq, Value.div_eq] at h
      split at h
      · cases h
      · cases h
        exact Value.dimension_collapse ..
  | add | sub =>
      obtain ⟨a, b, q, rfl, rfl, hq, rfl⟩ := Value.onQuantities_eq_ok h
      exact Quantity.dimension_of_onScalars hq
  | min | max =>
      obtain ⟨a, b, q, rfl, rfl, hq, rfl⟩ := Value.onQuantities_eq_ok h
      exact Quantity.dimension_of_select hq

theorem isScalar_iff (h : op.apply u v = .ok r) : r.isScalar = true ↔ op.Cancels u v := by
  have hdim := dimension_apply h
  rw [Value.isScalar_iff, hdim]
  cases op with
  | mul =>
      cases u with
      | scalar s =>
          cases v with
          | scalar t => cases h
          | quantity b => simp [dimension, Value.dimension, b.dimension_ne_one, Cancels]
      | quantity a =>
          cases v with
          | scalar t => simp [dimension, Value.dimension, a.dimension_ne_one, Cancels]
          | quantity b =>
              rw [dimension, mul_eq_one_iff_inv_eq, eq_comm]
              rfl
  | div =>
      cases u with
      | scalar s =>
          cases v with
          | scalar t => cases h
          | quantity b => simp [dimension, Value.dimension, b.dimension_ne_one, Cancels]
      | quantity a =>
          cases v with
          | scalar t => simp [dimension, Value.dimension, a.dimension_ne_one, Cancels]
          | quantity b => exact div_eq_one
  | add | sub | min | max =>
      obtain ⟨a, b, -, rfl, rfl, -, -⟩ := Value.onQuantities_eq_ok h
      simp [dimension, Value.dimension, a.dimension_ne_one, Cancels]

end BinaryOperation

namespace AssignOperation

variable {α : Precision → Type}

def Takes : AssignOperation → Quantity α → Value α → Prop
  | .add, a, .quantity b | .sub, a, .quantity b => a.dimension = b.dimension
  | .mul, _, .scalar _ | .div, _, .scalar _ => True
  | _, _, _ => False

variable [Arithmetic α] {op : AssignOperation} {a q : Quantity α} {v : Value α}

theorem exists_apply_eq_ok_iff : (∃ q, op.apply (.quantity a) v = .ok q) ↔ op.Takes a v := by
  cases op with
  | add | sub =>
      cases v with
      | scalar s => exact iff_of_false (by rintro ⟨q, ⟨⟩⟩) id
      | quantity b => exact Quantity.exists_onScalars_eq_ok_iff _
  | mul | div =>
      cases v with
      | scalar s => exact iff_of_true ⟨_, rfl⟩ trivial
      | quantity b => exact iff_of_false (by rintro ⟨q, ⟨⟩⟩) id

theorem shape_apply (h : op.apply (.quantity a) v = .ok q) :
    q.dimension = a.dimension ∧ q.scalar.precision = a.scalar.precision := by
  cases v with
  | scalar s => cases op <;> cases h <;> exact ⟨rfl, rfl⟩
  | quantity b =>
      cases op with
      | add | sub =>
          have hassigned := (Quantity.onScalars_eq _ a b).symm.trans h
          split at hassigned
          · cases hassigned
            exact ⟨rfl, rfl⟩
          · cases hassigned
      | mul | div => cases h

end AssignOperation

end Metrology
