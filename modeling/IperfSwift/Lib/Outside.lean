import IperfSwift.Lib.Program

/-!
Contract: programs that ask what is outside of them.

Owns: questions with a number, the answers as arbitrary functions of that number,
and what the questions of a program keep. The outside acts at the same time, so
that a question may also change the state.

Does not own: what an answer stands for.
-/

set_option autoImplicit false

namespace IperfSwift.Lib

/-- What the outside answers, by the number of the question. -/
structure Answers where
  succeeds : Nat → Bool
  value : Nat → Int
  descriptor : Nat → Nat

/-- States of programs that ask. -/
class Outside (ρ : Type) where
  question : Program ρ Nat
  answers : ρ → Answers

namespace Program

variable {ρ : Type} [Outside ρ]

/-- Whether a call succeeds, or a condition outside of the program holds. -/
def ask : Program ρ Bool := do
  let number ← Outside.question
  let state ← current
  pure ((Outside.answers state).succeeds number)

def askValue : Program ρ Int := do
  let number ← Outside.question
  let state ← current
  pure ((Outside.answers state).value number)

/-- A number that is not negative. -/
def askDescriptor : Program ρ Int := do
  let number ← Outside.question
  let state ← current
  pure ((Outside.answers state).descriptor number)

/-- A call with something to do when it fails. -/
def askElse (failed : Program ρ Unit) : Program ρ Bool := do
  if ← ask then pure true
  else do
    failed
    pure false

section Preserves

variable {invariant : ρ → Prop} (kept : Preserves invariant (Outside.question : Program ρ Nat))
include kept

theorem preserves_ask : Preserves invariant (ask : Program ρ Bool) :=
  preserves_bind kept fun _ => preserves_bind preserves_current fun _ => preserves_pure _

theorem preserves_askValue : Preserves invariant (askValue : Program ρ Int) :=
  preserves_bind kept fun _ => preserves_bind preserves_current fun _ => preserves_pure _

theorem preserves_askElse {failed : Program ρ Unit} (fails : Preserves invariant failed) :
    Preserves invariant (askElse failed) :=
  preserves_bind (preserves_ask kept) fun _ =>
    preserves_ite (preserves_pure _) (preserves_bind fails fun _ => preserves_pure _)

end Preserves

theorem askDescriptor_nonneg (state : ρ) : 0 ≤ (askDescriptor state).1 := Int.natCast_nonneg _

end Program

end IperfSwift.Lib
