import FormulaExport.Diagnostic

/-!
# Computations that leave a trace

A **traced** computation has a value and the diagnostics it sent on the way, in order. One that can
fail (`Attempt`) keeps the diagnostics it sent before the failure.
-/

set_option autoImplicit false

namespace FormulaExport

/-- A value together with the **diagnostics** sent while it was computed, in order. -/
structure Traced (α : Type) where
  value : α
  log : List Diagnostic

namespace Traced

def note (diagnostic : Diagnostic) : Traced Unit := ⟨(), [diagnostic]⟩

instance : Monad Traced where
  pure value := ⟨value, []⟩
  map f first := ⟨f first.value, first.log⟩
  bind first next :=
    match first with
    | ⟨value, log⟩ =>
      let last := next value
      ⟨last.value, log ++ last.log⟩

variable {α β : Type}

@[simp] theorem value_pure (a : α) : (pure a : Traced α).value = a := rfl

@[simp] theorem log_pure (a : α) : (pure a : Traced α).log = [] := rfl

@[simp] theorem value_map (f : α → β) (x : Traced α) : (f <$> x).value = f x.value := rfl

@[simp] theorem log_map (f : α → β) (x : Traced α) : (f <$> x).log = x.log := rfl

@[simp] theorem value_bind (x : Traced α) (f : α → Traced β) :
    (x >>= f).value = (f x.value).value := rfl

@[simp] theorem log_bind (x : Traced α) (f : α → Traced β) :
    (x >>= f).log = x.log ++ (f x.value).log := rfl

@[simp] theorem value_note (diagnostic : Diagnostic) : (note diagnostic).value = () := rfl

@[simp] theorem log_note (diagnostic : Diagnostic) : (note diagnostic).log = [diagnostic] := rfl

theorem ext {x y : Traced α} (value : x.value = y.value) (log : x.log = y.log) : x = y := by
  cases x
  cases y
  simp_all

instance : LawfulMonad Traced where
  map_const := rfl
  id_map _ := rfl
  seqLeft_eq x y := ext rfl (by simp [SeqLeft.seqLeft, Seq.seq])
  seqRight_eq x y := ext rfl (by simp [SeqRight.seqRight, Seq.seq])
  pure_seq f x := ext rfl (by simp [Seq.seq])
  bind_pure_comp f x := ext rfl (by simp)
  bind_map f x := rfl
  pure_bind x f := ext rfl (by simp)
  bind_assoc x f g := ext rfl (by simp)

end Traced

/-- A traced computation that can fail. -/
abbrev Attempt (ε α : Type) := ExceptT ε Traced α

namespace Attempt

variable {ε α : Type}

def outcome (attempt : Attempt ε α) : Except ε α := (ExceptT.run attempt).value

/-- The diagnostics an attempt sent, up to its failure if it fails. -/
def log (attempt : Attempt ε α) : List Diagnostic := (ExceptT.run attempt).log

end Attempt

end FormulaExport
