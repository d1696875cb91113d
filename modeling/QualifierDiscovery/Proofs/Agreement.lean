/-!
# `Proofs.Agreement` — results of two runs that agree

Two runs that are alike fail in the same way or come to results that are alike. What goes on alike from
such results comes to such results again (`Related.bind`), so that two runs are compared step by step.
-/

namespace QualifierDiscovery

/-- Two results that fail in the same way, or are alike. -/
def Related {ε α β : Type} (alike : α → β → Prop) : Except ε α → Except ε β → Prop
  | .ok a, .ok b => alike a b
  | .error failure, .error failure' => failure' = failure
  | _, _ => False

namespace Related

variable {ε α β γ δ : Type} {alike : α → β → Prop} {alikeAfter : γ → δ → Prop}

/-- Results that agree are two that are alike, or the same failure. -/
theorem cases {x : Except ε α} {y : Except ε β} (h : Related alike x y) :
    (∃ a b, x = .ok a ∧ y = .ok b ∧ alike a b) ∨ ∃ failure, x = .error failure ∧ y = .error failure := by
  cases x with
  | error failure =>
    cases y with
    | error failure' => exact Or.inr ⟨failure, rfl, congrArg Except.error h⟩
    | ok b => exact h.elim
  | ok a =>
    cases y with
    | error failure' => exact h.elim
    | ok b => exact Or.inl ⟨a, b, rfl, rfl, h⟩

/-- What goes on alike from results that agree comes to results that agree. -/
theorem bind {x : Except ε α} {y : Except ε β} {next : α → Except ε γ} {next' : β → Except ε δ}
    (h : Related alike x y) (hnext : ∀ a b, alike a b → Related alikeAfter (next a) (next' b)) :
    Related alikeAfter (x >>= next) (y >>= next') := by
  rcases h.cases with ⟨a, b, rfl, rfl, halike⟩ | ⟨failure, rfl, rfl⟩
  · exact hnext a b halike
  · rfl

/-- What goes on alike from one result comes to results that agree. -/
theorem bind_same (x : Except ε α) {next : α → Except ε γ} {next' : α → Except ε δ}
    (hnext : ∀ a, Related alikeAfter (next a) (next' a)) :
    Related alikeAfter (x >>= next) (x >>= next') := by
  cases x with
  | error failure => rfl
  | ok a => exact hnext a

end Related

end QualifierDiscovery
