import Metrology.Proofs.Quantity.Expression
import Metrology.Proofs.Quantity.Order

/-!
# Expressions on a worksheet

A worksheet computes an expression step by step, as a stack would: the left operand goes to the cell
of the result and the right operand to the next one.  The first step that fails is the operator that
refuses the expression.
-/

namespace Metrology

def Value.source : Value Machine → Source
  | .scalar s => .scalar s
  | .quantity q => .quantity q.dimension q.scalar

namespace Worksheet

def register (n : Nat) : String := String.ofList (List.replicate n 'x')

theorem register_injective : Function.Injective register := fun m n h => by
  simpa [register] using congrArg (fun s => s.toList.length) h

def failure? (o : Outcome) : Option StepError :=
  match o.result with
  | .ok _ => none
  | .error e => some e

def firstFailure? (outcomes : List Outcome) : Option StepError := outcomes.findSome? failure?

theorem run_append (w : Worksheet) (steps steps' : List Step) :
    w.run (steps ++ steps') = ((w.run steps).1 ++ ((w.run steps).2.run steps').1,
      ((w.run steps).2.run steps').2) := by
  induction steps generalizing w with
  | nil => rfl
  | cons s steps ih =>
      simp only [List.cons_append, run]
      rw [ih]

theorem firstFailure?_run_append (w : Worksheet) (steps steps' : List Step) :
    firstFailure? (w.run (steps ++ steps')).1 =
      (firstFailure? (w.run steps).1).or (firstFailure? ((w.run steps).2.run steps').1) := by
  rw [run_append]
  exact List.findSome?_append

/-- What is left by steps that end in the register `n`: their value and all that stands below, or
the error of the first step that failed. -/
inductive Computes (w : Worksheet) (steps : List Step) (n : Nat) :
    Except OperationError (Value Machine) → Prop
  | value {v : Value Machine} (hnone : firstFailure? (w.run steps).1 = none)
      (hvalue : (w.run steps).2.get? (register n) = some v)
      (hbelow : ∀ m < n, (w.run steps).2.get? (register m) = w.get? (register m)) :
      Computes w steps n (.ok v)
  | error {e : OperationError} (hfirst : firstFailure? (w.run steps).1 = some (.operation e)) :
      Computes w steps n (.error e)

variable {w : Worksheet} {steps steps' : List Step} {k n : Nat} {u v : Value Machine}
  {x r : Except OperationError (Value Machine)}

theorem Computes.bind {f : Value Machine → Except OperationError (Value Machine)}
    (h : Computes w steps k x) (hnk : n ≤ k)
    (hf : ∀ v w', w'.get? (register k) = some v →
      (∀ m < k, w'.get? (register m) = w.get? (register m)) → Computes w' steps' n (f v)) :
    Computes w (steps ++ steps') n (x >>= f) := by
  cases h with
  | error hfirst =>
      refine .error ?_
      rw [firstFailure?_run_append, hfirst]
      rfl
  | @value v hnone hvalue hbelow =>
      have hrest := hf v _ hvalue hbelow
      change Computes w (steps ++ steps') n (f v)
      generalize f v = r at hrest
      cases hrest with
      | error hfirst =>
          refine .error ?_
          rw [firstFailure?_run_append, hnone]
          exact hfirst
      | value hnone' hvalue' hbelow' =>
          refine .value ?_ ?_ ?_
          · rw [firstFailure?_run_append, hnone]
            exact hnone'
          · rw [run_append]
            exact hvalue'
          · intro m hm
            rw [run_append]
            exact (hbelow' m hm).trans (hbelow m (hm.trans_le hnk))

theorem computes_step {s : Step} (htarget : s.target? = some (register n))
    (h : (w.step s).1.result = (lift r).map .value) : Computes w [s] n r := by
  have hrun : (w.run [s]).1 = [(w.step s).1] := rfl
  cases r with
  | error e =>
      refine .error ?_
      rw [hrun, firstFailure?, List.findSome?_singleton, failure?, h]
      rfl
  | ok v =>
      refine .value ?_ (get?_step_target htarget h) fun m hm => get?_step_of_ne ?_
      · rw [hrun, firstFailure?, List.findSome?_singleton, failure?, h]
        rfl
      · rw [htarget]
        exact fun hn => hm.ne' (register_injective (Option.some.inj hn))

theorem evaluate_source (v : Value Machine) : (w.evaluate v.source).result = .ok v := by
  cases v with
  | scalar s => rfl
  | quantity q =>
      change (lift (Quantity.ofScalar? q.dimension q.scalar)).map Value.quantity = _
      rw [Quantity.ofScalar?, dif_neg (by simp [q.dimensional])]
      rfl

end Worksheet

open Worksheet

/-- The steps that compute an expression into the register `n`. -/
def Expression.steps (n : Nat) : Expression Machine → List Step
  | .value v => [.store v.source (some (register n))]
  | .unary op a => a.steps n ++ [.store (.unary op.toUnary (register n)) (some (register n))]
  | .binary op a b =>
    a.steps n ++ (b.steps (n + 1) ++
      [.store (.binary op (register n) (register (n + 1))) (some (register n))])
  | .assign op a b =>
    a.steps n ++ (b.steps (n + 1) ++ [.assign op (register n) (register (n + 1))])

namespace Worksheet

variable {w : Worksheet} {u v : Value Machine} {n : Nat}

theorem computes_unary (op : RationalOperation) (hv : w.get? (register n) = some v) :
    Computes w [.store (.unary op.toUnary (register n)) (some (register n))] n (op.apply v) := by
  refine computes_step rfl ?_
  rw [store_result, ← op.apply_toUnary]
  simp only [evaluate, value_of_get? hv]
  rfl

theorem computes_binary (op : BinaryOperation) {a b : String} (ha : w.get? a = some u)
    (hb : w.get? b = some v) :
    Computes w [.store (.binary op a b) (some (register n))] n (op.apply u v) := by
  refine computes_step rfl ?_
  rw [store_result]
  simp only [evaluate, value_of_get? ha, value_of_get? hb]
  rfl

theorem computes_assign (op : AssignOperation) {b : String} (ha : w.get? (register n) = some u)
    (hb : w.get? b = some v) :
    Computes w [.assign op (register n) b] n (do return .quantity (← op.apply u v)) := by
  refine computes_step rfl ?_
  rw [(step_of_result (w := w) (s := .assign op (register n) b) rfl).1, value_of_get? ha,
    value_of_get? hb]
  change ((lift (op.apply u v)).map Value.quantity).map Answer.value = _
  cases op.apply u v <;> rfl

/-- A worksheet ends with what an expression is evaluated to, whatever stood in its cells. -/
theorem computes_steps (e : Expression Machine) (n : Nat) (w : Worksheet) :
    Computes w (e.steps n) n e.eval := by
  induction e generalizing n w with
  | value v => exact computes_step rfl (by rw [store_result, evaluate_source]; rfl)
  | unary op a ih => exact (ih n w).bind le_rfl fun v w' hv _ => computes_unary op hv
  | binary op a b iha ihb =>
      refine (iha n w).bind le_rfl fun u w' hu _ => ?_
      refine (ihb (n + 1) w').bind n.le_succ fun v w'' hv hbelow => ?_
      exact computes_binary op ((hbelow n n.lt_succ_self).trans hu) hv
  | assign op a b iha ihb =>
      refine (iha n w).bind le_rfl fun u w' hu _ => ?_
      refine (ihb (n + 1) w').bind n.le_succ fun v w'' hv hbelow => ?_
      exact computes_assign op ((hbelow n n.lt_succ_self).trans hu) hv

/-- Once two expressions are computed, a query compares them as they are compared. -/
theorem answer_compare_steps {a b : Expression Machine} (ha : a.eval = .ok u) (hb : b.eval = .ok v)
    (w : Worksheet) :
    ((w.run (a.steps 0 ++ b.steps 1)).2.answer (.compare (register 0) (register 1))).result =
      (lift (a.compare b)).map .comparison := by
  have hleft := ha ▸ computes_steps a 0 w
  have hright := hb ▸ computes_steps b 1 (w.run (a.steps 0)).2
  obtain ⟨-, hu, -⟩ := hleft
  obtain ⟨-, hv, hbelow⟩ := hright
  rw [run_append, answer_compare ((hbelow 0 Nat.zero_lt_one).trans hu) hv, Expression.compare, ha,
    hb]
  rfl

end Worksheet

end Metrology
