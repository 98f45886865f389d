/-!
# Results and errors

When a computation of several steps ends with a result, when with an error, and what describes it.
-/

namespace Metrology

theorem bind_eq_ok {ε α β : Type} {x : Except ε α} {f : α → Except ε β} {b : β} :
    (x >>= f) = .ok b ↔ ∃ a, x = .ok a ∧ f a = .ok b := by
  cases x <;> simp [bind, Except.bind]

theorem map_eq_ok {ε α β : Type} {x : Except ε α} {f : α → β} {b : β} :
    x.map f = .ok b ↔ ∃ a, x = .ok a ∧ f a = b := by
  cases x <;> simp [Except.map]

theorem map_eq_error {ε α β : Type} {x : Except ε α} {f : α → β} {e : ε} :
    x.map f = .error e ↔ x = .error e := by
  cases x <;> simp [Except.map]

theorem bind_eq_error {ε α β : Type} {x : Except ε α} {f : α → Except ε β} {e : ε} :
    (x >>= f) = .error e ↔ x = .error e ∨ ∃ a, x = .ok a ∧ f a = .error e := by
  cases x <;> simp [bind, Except.bind]

/-- What a reader accepts and what it refuses describe it, once the two leave nothing out. -/
theorem accepts_and_refuses {ε α : Type} {x : Except ε α} {Accepts : α → Prop} {Refuses : ε → Prop}
    (hok : ∀ a, Accepts a → x = .ok a) (herror : ∀ e, Refuses e → x = .error e)
    (h : (∃ a, Accepts a) ∨ ∃ e, Refuses e) :
    (∀ a, x = .ok a ↔ Accepts a) ∧ ∀ e, x = .error e ↔ Refuses e := by
  rcases h with ⟨a, ha⟩ | ⟨e, he⟩
  · refine ⟨fun b => ⟨fun hb => ?_, hok b⟩, fun e => ⟨fun he => ?_, herror e⟩⟩
    · obtain rfl := Except.ok.inj ((hok a ha).symm.trans hb)
      exact ha
    · cases (hok a ha).symm.trans he
  · refine ⟨fun b => ⟨fun hb => ?_, hok b⟩, fun e' => ⟨fun he' => ?_, herror e'⟩⟩
    · cases (herror e he).symm.trans hb
    · obtain rfl := Except.error.inj ((herror e he).symm.trans he')
      exact he

end Metrology
