import Mathlib.Logic.Basic

/-!
# Simulation — a program that may raise against an abstract one that may get stuck

`Agree R` says that a program and its abstraction have results related by `R`, or both none.  It passes
through sequencing, so a simulation is proved along the text of the two programs.
-/

namespace Toolchain.Lib

variable {ε α β α' β' : Type}

lemma ok_bind (result : α) (f : α → Except ε β) : (Except.ok result >>= f) = f result := rfl

def Agree (R : α → β → Prop) : Except ε α → Option β → Prop
  | .ok result, some abstract => R result abstract
  | .error _, none => True
  | _, _ => False

namespace Agree

variable {R : α → β → Prop} {S : α' → β' → Prop}

lemma ok {res : α} {abs : β} (h : R res abs) : Agree R (Except.ok res : Except ε α) (some abs) :=
  h

lemma error (e : ε) : Agree R (Except.error e) none := trivial

variable {program : Except ε α} {abstract : Option β}

lemma bind {f : α → Except ε α'} {g : β → Option β'} (h : Agree R program abstract)
    (hnex : ∀ res value, R res value → Agree S (f res) (g value)) :
    Agree S (program >>= f) (abstract >>= g) := by
  cases program with
  | error e =>
    cases abstract with
    | none => exact trivial
    | some value => exact h.elim
  | ok res =>
    cases abstract with
    | none => exact h.elim
    | some value => exact hnex res value h

lemma andThen {R' : α' → β → Prop} (f : α → α')
    (h : Agree R program abstract) (hlas : ∀ res value, R res value → R' (f res) value) :
    Agree R' (program >>= fun res => pure (f res)) abstract := by
  cases program with
  | error e =>
    cases abstract with
    | none => exact trivial
    | some value => exact h.elim
  | ok res =>
    cases abstract with
    | none => exact h.elim
    | some value => exact hlas res value h

lemma exists_ok_iff {good : α → Prop} (h : Agree (fun res _ => good res) program abstract) :
    (∃ res, program = .ok res ∧ good res) ↔ abstract.isSome = true := by
  cases program with
  | error e =>
    cases abstract with
    | none => simp
    | some value => exact h.elim
  | ok res =>
    cases abstract with
    | none => exact h.elim
    | some value => exact ⟨fun _ => rfl, fun _ => ⟨res, rfl, h⟩⟩

end Agree

end Toolchain.Lib
