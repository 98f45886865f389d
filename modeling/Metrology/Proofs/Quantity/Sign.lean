import Metrology.Proofs.Engineering.Sign
import Metrology.Proofs.Quantity.Choice
import Metrology.Proofs.Scalar.Sign

/-!
# Signs of rendered quantities

A quantity and its negative have one unit and, but for the sign, one magnitude, whatever the value.
A minus sign stands in front of the values below zero.  A plus sign, where it is asked for, stands
in front of all others: of the zeros, of what is above zero, and of a not-a-number as well.
-/

namespace Metrology

open Metrology.Binary Metrology.Engineering

namespace Scalar

def IsNegative (s : Scalar Machine) : Prop := ∃ v, s.extended? = some v ∧ v < 0

variable {s : Scalar Machine}

theorem extended?_toDouble (s : Scalar Machine) :
    Machine.extended? (p := .double) s.toDouble = s.extended? :=
  s.extended?_cast_double

theorem lt_zero_iff (s : Scalar Machine) :
    Arithmetic.lt s.toDouble Arithmetic.zero = true ↔ s.IsNegative := by
  rw [Arithmetic.lt, Machine.compare?_eq, extended?_toDouble, Machine.extended?_zero, IsNegative]
  cases s.extended? with
  | none => simp
  | some v => simp [cmp_eq_lt_iff]

theorem toDouble_neg (s : Scalar Machine) : s.neg.toDouble = Arithmetic.neg s.toDouble :=
  Machine.toDouble_neg s.value

end Scalar

namespace Engineering

theorem specialText?_neg (x : Machine .double) :
    specialText? (α := Machine) (Arithmetic.neg x) = specialText? (α := Machine) x := by
  have hfinite : Decadic.isFinite (α := Machine) (Arithmetic.neg x) =
      Decadic.isFinite (α := Machine) x := Machine.isFinite_neg x
  unfold specialText?
  rw [Machine.compare?_neg_zero, hfinite]
  rcases Arithmetic.compare? x Arithmetic.zero with _ | (_ | _ | _) <;> rfl

end Engineering

namespace Quantity

structure SignLaws (q : Quantity Machine) (digits : Nat) (showPlus : Bool) : Prop where
  unit : (q.neg.engineering digits showPlus).result.unit =
    (q.engineering digits showPlus).result.unit
  unsigned : (q.neg.engineering digits showPlus).result.unsigned =
    (q.engineering digits showPlus).result.unsigned
  minus : (q.engineering digits showPlus).result.magnitude.toList.head? = some '-' ↔
    q.scalar.IsNegative
  plus : (q.engineering digits showPlus).result.magnitude.toList.head? = some '+' ↔
    showPlus = true ∧ ¬q.scalar.IsNegative

theorem engineering_neg (q : Quantity Machine) (digits : Nat) (showPlus : Bool) :
    q.neg.engineering digits showPlus =
      render q.dimension (Arithmetic.neg q.scalar.toDouble) digits showPlus :=
  congrArg (fun x => render q.dimension x digits showPlus) q.scalar.toDouble_neg

/-- A quantity and its negative are rendered alike but for the sign, which tells the values below zero.
-/
theorem sign_lawful (q : Quantity Machine) (digits : Nat) (showPlus : Bool) :
    SignLaws q digits showPlus where
  unit := by
    rw [engineering_neg]
    exact unit_render_congr (Machine.abs_neg _) (specialText?_neg _) showPlus
  unsigned := by
    rw [engineering_neg, unsigned_render, engineering, unsigned_render]
    exact body_congr (Machine.abs_neg _) (specialText?_neg _)
  minus := by
    rw [← Scalar.lt_zero_iff]
    exact (head?_magnitude_render _ _ _ _).1
  plus := by
    rw [← Scalar.lt_zero_iff, Bool.not_eq_true]
    exact (head?_magnitude_render _ _ _ _).2

def notANumber : Quantity Machine := ofDoubleWord Layout.double.canonicalNaN

theorem extended?_notANumber : notANumber.scalar.extended? = none := by
  have hdatum : Machine.datum (Machine.ofWord .double Layout.double.canonicalNaN) = .nan :=
    (Machine.datum_ofWord (by decide)).trans (by decide)
  exact congrArg Datum.extended? hdatum

/-- A plus sign in front of a magnitude does not mean that there is a number behind it. -/
theorem plus_on_notANumber :
    ¬ ∀ (q : Quantity Machine) (digits : Nat) (showPlus : Bool),
      (q.engineering digits showPlus).result.magnitude.toList.head? = some '+' ↔
        showPlus = true ∧ ∃ v, q.scalar.extended? = some v ∧ 0 ≤ v := by
  intro h
  have htext : (notANumber.engineering 6 true).result.magnitude = "+NaN" := by decide +kernel
  have hplus := h notANumber 6 true
  rw [htext, extended?_notANumber] at hplus
  simp at hplus

end Quantity

end Metrology
