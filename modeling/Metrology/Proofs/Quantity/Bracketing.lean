import Metrology.Proofs.Quantity.Value
import Metrology.Proofs.Scalar.Exact
import Metrology.Except
import Mathlib.Algebra.BigOperators.Group.List.Basic
import Mathlib.Algebra.GroupWithZero.Basic

/-!
# Bracketings of a product

A product of factors, each to be multiplied or divided, can be ordered and bracketed in many ways.
Depending on the way, an intermediate result may collapse to a bare scalar or not, and other
operators are called.  The result does not depend on it: dimension, kind and precision are those of
the signed factors, over every arithmetic, and over exact scalars so is the number.
-/

namespace Metrology

structure Factor (α : Precision → Type) where
  value : Value α
  divides : Bool

namespace Factor

variable {α : Precision → Type}

def inverse (f : Factor α) : Factor α := { f with divides := !f.divides }

def signed {M : Type} [Inv M] (m : Value α → M) (f : Factor α) : M :=
  if f.divides then (m f.value)⁻¹ else m f.value

theorem signed_inverse {M : Type} [InvolutiveInv M] (m : Value α → M) (f : Factor α) :
    signed m f.inverse = (signed m f)⁻¹ := by
  obtain ⟨v, divides⟩ := f
  cases divides <;> simp [signed, inverse]

end Factor

inductive Bracketing (α : Precision → Type) where
  | factor (v : Value α)
  | mul (a b : Bracketing α)
  | div (a b : Bracketing α)

namespace Bracketing

variable {α : Precision → Type}

/-- The factors from left to right, with the signs that the divisions around them leave. -/
def factors : Bracketing α → List (Factor α)
  | .factor v => [⟨v, false⟩]
  | .mul a b => a.factors ++ b.factors
  | .div a b => a.factors ++ b.factors.map Factor.inverse

def netDimension (factors : List (Factor α)) : Dimension :=
  (factors.map (Factor.signed Value.dimension)).prod

theorem netDimension_perm {l m : List (Factor α)} (h : l.Perm m) :
    netDimension l = netDimension m :=
  (h.map _).prod_eq

variable [Arithmetic α]

def eval : Bracketing α → Except OperationError (Value α)
  | .factor v => .ok v
  | .mul a b => do Value.mul (← a.eval) (← b.eval)
  | .div a b => do Value.div (← a.eval) (← b.eval)

theorem eval_mul_eq_ok {a b : Bracketing α} {v : Value α} (h : (mul a b).eval = .ok v) :
    ∃ x y, a.eval = .ok x ∧ b.eval = .ok y ∧
      v = .collapse (x.dimension * y.dimension) (x.magnitude.mul y.magnitude) := by
  obtain ⟨x, hx, h⟩ := bind_eq_ok.1 h
  obtain ⟨y, hy, h⟩ := bind_eq_ok.1 h
  rw [Value.mul_eq] at h
  split at h
  · cases h
  · exact ⟨x, y, hx, hy, (Except.ok.inj h).symm⟩

theorem eval_div_eq_ok {a b : Bracketing α} {v : Value α} (h : (div a b).eval = .ok v) :
    ∃ x y, a.eval = .ok x ∧ b.eval = .ok y ∧
      v = .collapse (x.dimension / y.dimension) (x.magnitude.div y.magnitude) := by
  obtain ⟨x, hx, h⟩ := bind_eq_ok.1 h
  obtain ⟨y, hy, h⟩ := bind_eq_ok.1 h
  rw [Value.div_eq] at h
  split at h
  · cases h
  · exact ⟨x, y, hx, hy, (Except.ok.inj h).symm⟩

theorem measure_eval {M : Type} [DivisionCommMonoid M] (m : Value α → M)
    (hmul : ∀ x y : Value α,
      m (.collapse (x.dimension * y.dimension) (x.magnitude.mul y.magnitude)) = m x * m y)
    (hdiv : ∀ x y : Value α,
      m (.collapse (x.dimension / y.dimension) (x.magnitude.div y.magnitude)) = m x / m y)
    {t : Bracketing α} {v : Value α} (h : t.eval = .ok v) :
    m v = (t.factors.map (Factor.signed m)).prod := by
  induction t generalizing v with
  | factor w =>
      cases h
      simp [factors, Factor.signed]
  | mul a b iha ihb =>
      obtain ⟨x, y, hx, hy, rfl⟩ := eval_mul_eq_ok h
      rw [hmul, iha hx, ihb hy, factors, List.map_append, List.prod_append]
  | div a b iha ihb =>
      obtain ⟨x, y, hx, hy, rfl⟩ := eval_div_eq_ok h
      have hinv : (b.factors.map Factor.inverse).map (Factor.signed m) =
          (b.factors.map (Factor.signed m)).map fun x => x⁻¹ := by
        rw [List.map_map, List.map_map]
        exact List.map_congr_left fun f _ => Factor.signed_inverse m f
      rw [hdiv, iha hx, ihb hy, factors, List.map_append, List.prod_append, hinv,
        ← List.prod_inv, div_eq_mul_inv]

theorem dimension_eval {t : Bracketing α} {v : Value α} (h : t.eval = .ok v) :
    v.dimension = netDimension t.factors :=
  measure_eval Value.dimension (fun _ _ => Value.dimension_collapse ..)
    (fun _ _ => Value.dimension_collapse ..) h

theorem number_eval {t : Bracketing Exact} {v : Value Exact} (h : t.eval = .ok v) :
    v.magnitude.number =
      (t.factors.map (Factor.signed fun w => w.magnitude.number)).prod :=
  measure_eval (fun w => w.magnitude.number) (fun x y => by simp) (fun x y => by simp) h

theorem join_eq_double_iff (p q : Precision) :
    p.join q = .double ↔ p = .double ∨ q = .double := by
  cases p <;> cases q <;> simp [Precision.join]

theorem precision_eval {t : Bracketing α} {v : Value α} (h : t.eval = .ok v) :
    v.magnitude.precision = .double ↔
      ∃ f ∈ t.factors, f.value.magnitude.precision = .double := by
  induction t generalizing v with
  | factor w =>
      cases h
      simp [factors]
  | mul a b iha ihb =>
      obtain ⟨x, y, hx, hy, rfl⟩ := eval_mul_eq_ok h
      rw [Value.magnitude_collapse, Scalar.precision_mul, join_eq_double_iff, iha hx, ihb hy]
      simp [factors, or_and_right, exists_or]
  | div a b iha ihb =>
      obtain ⟨x, y, hx, hy, rfl⟩ := eval_div_eq_ok h
      rw [Value.magnitude_collapse, Scalar.precision_div, join_eq_double_iff, iha hx, ihb hy]
      simp [factors, or_and_right, exists_or, Factor.inverse]

theorem eq_of_double_iff {p q : Precision} (h : p = .double ↔ q = .double) : p = q := by
  cases p <;> cases q <;> simp at h ⊢

theorem precision_eq_of_perm {s t : Bracketing α} {v w : Value α}
    (hst : s.factors.Perm t.factors) (hs : s.eval = .ok v) (ht : t.eval = .ok w) :
    v.magnitude.precision = w.magnitude.precision := by
  apply eq_of_double_iff
  rw [precision_eval hs, precision_eval ht]
  simp only [hst.mem_iff]

theorem dimension_eq_of_perm {s t : Bracketing α} {v w : Value α}
    (hst : s.factors.Perm t.factors) (hs : s.eval = .ok v) (ht : t.eval = .ok w) :
    v.dimension = w.dimension := by
  rw [dimension_eval hs, dimension_eval ht, netDimension_perm hst]

/-- Two accepted ways to order and bracket the same signed factors agree in kind, dimension and
precision; over exact scalars they agree altogether. -/
theorem eval_perm :
    (∀ {α : Precision → Type} [Arithmetic α] {s t : Bracketing α} {v w : Value α},
      s.factors.Perm t.factors → s.eval = .ok v → t.eval = .ok w →
        v.isScalar = w.isScalar ∧
        (v.isScalar = true ↔ netDimension s.factors = 1) ∧
        v.dimension = w.dimension ∧
        v.dimension = netDimension s.factors ∧
        v.magnitude.precision = w.magnitude.precision ∧
        (v.magnitude.precision = .double ↔
          ∃ f ∈ s.factors, f.value.magnitude.precision = .double)) ∧
    ∀ {s t : Bracketing Exact} {v w : Value Exact},
      s.factors.Perm t.factors → s.eval = .ok v → t.eval = .ok w → v = w := by
  constructor
  · intro α _ s t v w hst hs ht
    have hd := dimension_eq_of_perm hst hs ht
    refine ⟨?_, ?_, hd, dimension_eval hs, precision_eq_of_perm hst hs ht, precision_eval hs⟩
    · rw [Bool.eq_iff_iff, Value.isScalar_iff, Value.isScalar_iff, hd]
    · rw [Value.isScalar_iff, dimension_eval hs]
  · intro s t v w hst hs ht
    have hn : v.magnitude.number = w.magnitude.number := by
      rw [number_eval hs, number_eval ht]
      exact (hst.map _).prod_eq
    exact Value.ext_magnitude (dimension_eq_of_perm hst hs ht)
      (Scalar.ext_number (precision_eq_of_perm hst hs ht) hn)

def metres (p : Precision) (x : ℚ) : Value Exact := .quantity ⟨⟨1, 0, 0, 0, 0, 0, 0⟩, ⟨p, x⟩, rfl⟩

def seconds (p : Precision) (x : ℚ) : Value Exact := .quantity ⟨⟨0, 0, 1, 0, 0, 0, 0⟩, ⟨p, x⟩, rfl⟩

/-- The first quotient collapses, the second way never does. -/
theorem eval_perm_ratio_of_lengths :
    ∃ v w : Value Exact,
      (mul (div (.factor (metres .single 6)) (.factor (metres .double 2)))
        (.factor (seconds .single 5))).eval = .ok v ∧
      (div (mul (.factor (seconds .single 5)) (.factor (metres .single 6)))
        (.factor (metres .double 2))).eval = .ok w ∧
      v.isScalar = w.isScalar ∧ v.magnitude.precision = .double ∧ v = w := by
  have hst : (mul (div (.factor (metres .single 6)) (.factor (metres .double 2)))
        (.factor (seconds .single 5))).factors.Perm
      (div (mul (.factor (seconds .single 5)) (.factor (metres .single 6)))
        (.factor (metres .double 2))).factors :=
    List.perm_append_comm
  refine ⟨_, _, rfl, rfl, (eval_perm.1 hst rfl rfl).1, ?_, eval_perm.2 hst rfl rfl⟩
  obtain ⟨-, -, -, -, -, hp⟩ := eval_perm.1 hst rfl rfl
  exact hp.2 ⟨⟨metres .double 2, true⟩, by simp [factors, Factor.inverse], rfl⟩

end Bracketing

end Metrology
