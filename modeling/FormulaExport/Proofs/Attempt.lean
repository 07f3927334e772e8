import FormulaExport.Traced

/-!
# Outcomes of attempts

What an attempt answers, step by step: the outcome of one attempt after another depends on the
outcomes of the two alone, and the diagnostics of the second follow those of the first.
-/

set_option autoImplicit false

namespace FormulaExport.Attempt

variable {ε ε' α β : Type}

@[simp] theorem outcome_pure (a : α) : outcome (pure a : Attempt ε α) = .ok a := rfl

@[simp] theorem outcome_throw (e : ε) : outcome (throw e : Attempt ε α) = .error e := rfl

@[simp] theorem outcome_note (diagnostic : Diagnostic) :
    outcome (Traced.note diagnostic : Attempt ε Unit) = .ok () := rfl

@[simp] theorem outcome_lift (traced : Traced α) :
    outcome (traced : Attempt ε α) = .ok traced.value := rfl

theorem outcome_bind (first : Attempt ε α) (next : α → Attempt ε β) :
    outcome (first >>= next) =
      match outcome first with
      | .ok a => outcome (next a)
      | .error e => .error e := by
  rcases first with ⟨a | a, log⟩ <;> rfl

theorem log_bind (first : Attempt ε α) (next : α → Attempt ε β) :
    log (first >>= next) = log first ++
      match outcome first with
      | .ok a => log (next a)
      | .error _ => [] := by
  rcases first with ⟨a | a, log⟩ <;> rfl

theorem outcome_bind_eq_ok_iff {first : Attempt ε α} {next : α → Attempt ε β} {b : β} :
    outcome (first >>= next) = .ok b ↔
      ∃ a, outcome first = .ok a ∧ outcome (next a) = .ok b := by
  rw [outcome_bind]
  cases outcome first with
  | ok a => simp
  | error e => simp

theorem outcome_bind_eq_error_iff {first : Attempt ε α} {next : α → Attempt ε β} {e : ε} :
    outcome (first >>= next) = .error e ↔
      outcome first = .error e ∨ ∃ a, outcome first = .ok a ∧ outcome (next a) = .error e := by
  rw [outcome_bind]
  cases outcome first with
  | ok a => simp
  | error e => simp

theorem outcome_adapt (f : ε → ε') (attempt : Attempt ε α) :
    outcome (attempt.adapt f) = (outcome attempt).mapError f := by
  rcases attempt with ⟨e | a, log⟩ <;> rfl

theorem outcome_adapt_eq_ok_iff {f : ε → ε'} {attempt : Attempt ε α} {a : α} :
    outcome (attempt.adapt f) = .ok a ↔ outcome attempt = .ok a := by
  rw [outcome_adapt]
  cases outcome attempt with
  | ok b =>
      show Except.ok b = Except.ok a ↔ Except.ok b = Except.ok a
      rw [Except.ok.injEq, Except.ok.injEq]
  | error e =>
      constructor
      · intro h
        cases h
      · intro h
        cases h

/-! ## Results without their errors -/

theorem toOption_outcome_bind (first : Attempt ε α) (next : α → Attempt ε β) :
    (outcome (first >>= next)).toOption =
      (outcome first).toOption.bind fun a => (outcome (next a)).toOption := by
  rw [outcome_bind]
  cases outcome first <;> rfl

theorem toOption_outcome_adapt (f : ε → ε') (attempt : Attempt ε α) :
    (outcome (attempt.adapt f)).toOption = (outcome attempt).toOption := by
  rw [outcome_adapt]
  cases outcome attempt <;> rfl

/-! ## Parallel outcomes -/

/-- Two outcomes are **parallel** if both are errors, with related causes, or both are results, and
related ones. -/
inductive Parallel {ε' α' : Type} (causes : ε → ε' → Prop) (results : α → α' → Prop) :
    Except ε α → Except ε' α' → Prop where
  | error {e : ε} {e' : ε'} : causes e e' → Parallel causes results (.error e) (.error e')
  | ok {a : α} {a' : α'} : results a a' → Parallel causes results (.ok a) (.ok a')

theorem Parallel.refl {causes : ε → ε → Prop} {results : α → α → Prop}
    (errors : ∀ e, causes e e) (values : ∀ a, results a a) (outcome : Except ε α) :
    Parallel causes results outcome outcome := by
  cases outcome with
  | error e => exact .error (errors e)
  | ok a => exact .ok (values a)

theorem Parallel.imp {α' : Type} {causes : ε → ε' → Prop} {results results' : α → α' → Prop}
    {outcome : Except ε α} {outcome' : Except ε' α'} (h : Parallel causes results outcome outcome')
    (more : ∀ a a', outcome = .ok a → outcome' = .ok a' → results a a' → results' a a') :
    Parallel causes results' outcome outcome' := by
  cases h with
  | error related => exact .error related
  | ok related => exact .ok (more _ _ rfl rfl related)

/-- Attempts go on in parallel if what comes behind them is parallel for all related results. -/
theorem Parallel.bind {α' β' : Type} {causes : ε → ε' → Prop} {results : α → α' → Prop}
    {results' : β → β' → Prop} {first : Attempt ε α} {first' : Attempt ε' α'}
    {next : α → Attempt ε β} {next' : α' → Attempt ε' β'}
    (h : Parallel causes results (outcome first) (outcome first'))
    (behind : ∀ a a', results a a' →
      Parallel causes results' (outcome (next a)) (outcome (next' a'))) :
    Parallel causes results' (outcome (first >>= next)) (outcome (first' >>= next')) := by
  rw [outcome_bind, outcome_bind]
  generalize outcome first = reached at h ⊢
  generalize outcome first' = reached' at h ⊢
  cases h with
  | error related => exact .error related
  | ok related => exact behind _ _ related

end FormulaExport.Attempt
