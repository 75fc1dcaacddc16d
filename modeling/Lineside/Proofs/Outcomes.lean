import Lineside.Error

/-! Computations that can fail, opened from both sides: what a success goes on with, and what a success
must have gone through. -/

namespace Lineside

variable {ε α β : Type}

@[simp] theorem ok_bind (value : α) (next : α → Except ε β) : (Except.ok value >>= next) = next value := rfl

@[simp] theorem error_bind (error : ε) (next : α → Except ε β) : (Except.error error >>= next) = .error error := rfl

@[simp] theorem pure_eq_ok (value : α) : (pure value : Except ε α) = .ok value := rfl

@[simp] theorem map_ok (f : α → β) (value : α) : f <$> (Except.ok value : Except ε α) = .ok (f value) := rfl

@[simp] theorem map_error (f : α → β) (error : ε) : f <$> (Except.error error : Except ε α) = .error error := rfl

theorem bind_eq_ok {first : Except ε α} {next : α → Except ε β} {result : β} :
    first >>= next = .ok result ↔ ∃ value, first = .ok value ∧ next value = .ok result := by
  cases first <;> simp

theorem map_eq_ok {f : α → β} {first : Except ε α} {result : β} :
    f <$> first = .ok result ↔ ∃ value, first = .ok value ∧ f value = result := by
  cases first <;> simp

theorem toOption_eq_some {outcome : Except ε α} {value : α} : outcome.toOption = some value ↔ outcome = .ok value := by
  cases outcome <;> simp [Except.toOption]

namespace Outcome

@[simp] theorem during_ok (activity : Activity) (value : α) : during activity (.ok value) = .ok value := rfl

@[simp] theorem because_ok (cause : ε → Cause) (value : α) : because cause (.ok value) = .ok value := rfl

@[simp] theorem require_some (cause : Cause) (value : α) : require cause (some value) = .ok value := rfl

theorem during_eq_ok {activity : Activity} {outcome : Outcome α} {value : α} :
    during activity outcome = .ok value ↔ outcome = .ok value := by
  cases outcome <;> simp [during]

theorem because_eq_ok {cause : ε → Cause} {outcome : Except ε α} {value : α} :
    because cause outcome = .ok value ↔ outcome = .ok value := by
  cases outcome <;> simp [because, fail]

theorem require_eq_ok {cause : Cause} {entry : Option α} {value : α} :
    require cause entry = .ok value ↔ entry = some value := by
  cases entry <;> simp [require, fail]

end Outcome

end Lineside
