import Mathlib

/-! Reading a computation in `Except` apart by what it returned. -/

namespace Fallible

variable {ε α β : Type}

theorem bind_ok_iff {first : Except ε α} {next : α → Except ε β} {result : β} :
    (first >>= next) = .ok result ↔ ∃ value, first = .ok value ∧ next value = .ok result := by
  cases first <;> simp [bind, Except.bind]

theorem map_ok_iff {first : Except ε α} {f : α → β} {result : β} :
    first.map f = .ok result ↔ ∃ value, first = .ok value ∧ f value = result := by
  cases first <;> simp [Except.map]

@[simp] theorem ok_bind (value : α) (next : α → Except ε β) :
    ((.ok value : Except ε α) >>= next) = next value := rfl

@[simp] theorem error_bind (failure : ε) (next : α → Except ε β) :
    ((.error failure : Except ε α) >>= next) = .error failure := rfl

@[simp] theorem throw_bind (failure : ε) (next : α → Except ε β) :
    ((throw failure : Except ε α) >>= next) = .error failure := rfl

@[simp] theorem map_throw (f : α → β) (failure : ε) :
    (f <$> (throw failure : Except ε α)) = .error failure := rfl

@[simp] theorem pure_ok_iff {value result : α} : (pure value : Except ε α) = .ok result ↔ value = result := by
  simp [pure, Except.pure]

@[simp] theorem throw_ok_iff (failure : ε) (result : α) : (throw failure : Except ε α) = .ok result ↔ False := by
  simp [throw, throwThe, MonadExceptOf.throw]

theorem mapM_ok (f : α → Except ε β) (g : α → β) (items : List α)
    (each : ∀ item ∈ items, f item = .ok (g item)) : items.mapM f = .ok (items.map g) := by
  induction items with
  | nil => rfl
  | cons item rest ih =>
    rw [List.mapM_cons, each item List.mem_cons_self,
      ih (fun other member => each other (List.mem_cons_of_mem _ member))]
    rfl

theorem ok_of_toOption {computation : Except ε α} {result : α}
    (runs : computation.toOption = some result) : computation = .ok result := by
  cases computation with
  | error failure => simp [Except.toOption] at runs
  | ok value => simpa [Except.toOption] using runs

end Fallible
