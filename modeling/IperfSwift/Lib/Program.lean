import Mathlib.Tactic

/-!
Contract: state-passing programs, their bounded loops, and the proof rules used
on them.

Owns: the monad of programs over an explicit state; short-circuit sequencing of
programs that report success; a loop with an iteration allowance; the rule that
carries an invariant through one program; the rule that relates two programs
running side by side, for good or until both are stopped.

Does not own: any particular state, or a claim that a loop's allowance is large
enough. That is proved where the loop is used.
-/

set_option autoImplicit false

namespace IperfSwift.Lib

/-- A program reads a state of type `ρ`, returns a value and the next state. -/
abbrev Program (ρ α : Type) : Type := ρ → α × ρ

namespace Program

variable {ρ ρ' α β τ : Type}
variable {first next : Program ρ Bool} {state : ρ} {spent : α} {condition : Prop}
  {yes no : Program ρ α}

instance : Monad (Program ρ) where
  pure value := fun state => (value, state)
  bind first next := fun state => next (first state).1 (first state).2

@[simp] theorem pure_apply (value : α) (state : ρ) :
    (pure value : Program ρ α) state = (value, state) := rfl

@[simp] theorem bind_apply (first : Program ρ α) (next : α → Program ρ β) (state : ρ) :
    (first >>= next) state = next (first state).1 (first state).2 := rfl

@[simp] theorem ite_apply (condition : Prop) [Decidable condition]
    (yes no : Program ρ α) (state : ρ) :
    (if condition then yes else no) state = if condition then yes state else no state := by
  split <;> rfl

/-- Go on from the known outcome of the first program. -/
theorem bind_of_eq {first : Program ρ α} {after : ρ} {value : α}
    (run : first state = (value, after)) (next : α → Program ρ β) :
    (first >>= next) state = next value after := by
  rw [bind_apply, run]

/-- Return the current state. -/
def current : Program ρ ρ := fun state => (state, state)

@[simp] theorem current_apply (state : ρ) : (current : Program ρ ρ) state = (state, state) := rfl

/-- Replace the current state by a function of it. -/
def update (change : ρ → ρ) : Program ρ Unit := fun state => ((), change state)

@[simp] theorem update_apply (change : ρ → ρ) (state : ρ) :
    update change state = ((), change state) := rfl

/-- Run `next` only after `first` has reported success. -/
def andThen (first next : Program ρ Bool) : Program ρ Bool := do
  let succeeded ← first
  if succeeded then next else pure false

theorem andThen_of_true (succeeded : (first state).1 = true) :
    andThen first next state = next (first state).2 := by
  simp [andThen, succeeded]

theorem andThen_of_false (failed : (first state).1 = false) :
    andThen first next state = (false, (first state).2) := by
  simp [andThen, failed]

theorem andThen_eq_true {final : ρ} (succeeded : andThen first next state = (true, final)) :
    (first state).1 = true ∧ next (first state).2 = (true, final) := by
  by_cases firstTrue : (first state).1 = true
  · rw [andThen_of_true firstTrue] at succeeded
    exact ⟨firstTrue, succeeded⟩
  · simp [andThen, firstTrue] at succeeded

/-- What one pass through a loop body decides. -/
inductive Step (τ α : Type) where
  | again (carried : τ)
  | done (result : α)
deriving DecidableEq, Repr

/-- Run `body` until it is done, at most `allowance` times. The value `spent` is
returned when the allowance runs out first. -/
def loop (body : τ → Program ρ (Step τ α)) (spent : α) : Nat → τ → Program ρ α
  | 0, _ => pure spent
  | allowance + 1, carried => do
      match ← body carried with
      | .again next => loop body spent allowance next
      | .done result => pure result

variable {body : τ → Program ρ (Step τ α)}

theorem loop_again {allowance : Nat} {carried next : τ}
    (continues : (body carried state).1 = .again next) :
    loop body spent (allowance + 1) carried state =
      loop body spent allowance next (body carried state).2 := by
  simp [loop, continues]

theorem loop_done {result : α} {allowance : Nat} {carried : τ}
    (stops : (body carried state).1 = .done result) :
    loop body spent (allowance + 1) carried state = (result, (body carried state).2) := by
  simp [loop, stops]

/-! ### One program and an invariant -/

/-- The invariant holds after the program whenever it held before. -/
def Preserves (invariant : ρ → Prop) (program : Program ρ α) : Prop :=
  ∀ state, invariant state → invariant (program state).2

variable {invariant : ρ → Prop}

theorem preserves_pure (value : α) : Preserves invariant (pure value : Program ρ α) :=
  fun _ holds => holds

theorem preserves_current : Preserves invariant (current : Program ρ ρ) :=
  fun _ holds => holds

theorem preserves_bind {first : Program ρ α} {next : α → Program ρ β}
    (firstPreserves : Preserves invariant first)
    (nextPreserves : ∀ value, Preserves invariant (next value)) :
    Preserves invariant (first >>= next) :=
  fun state holds => nextPreserves _ _ (firstPreserves state holds)

theorem preserves_ite [Decidable condition] (yesPreserves : Preserves invariant yes)
    (noPreserves : Preserves invariant no) :
    Preserves invariant (if condition then yes else no) := by
  split
  · exact yesPreserves
  · exact noPreserves

/-- An action that is only taken under a condition. -/
theorem holds_when {action : Program ρ α} {otherwise : α} [Decidable condition]
    (taken : condition → invariant (action state).2) (holds : invariant state) :
    invariant ((if condition then action else pure otherwise : Program ρ α) state).2 := by
  split
  · exact taken ‹_›
  · exact holds

/-- A program that goes on only if a first one succeeds. -/
theorem preserves_guard {next : Program ρ α} {otherwise : α}
    (firstPreserves : Preserves invariant first) (nextPreserves : Preserves invariant next) :
    Preserves invariant (first >>= fun succeeded => if succeeded then next else pure otherwise) :=
  preserves_bind firstPreserves fun _ => preserves_ite nextPreserves (preserves_pure _)

theorem preserves_andThen (firstPreserves : Preserves invariant first)
    (nextPreserves : Preserves invariant next) : Preserves invariant (andThen first next) :=
  preserves_guard firstPreserves nextPreserves

theorem preserves_loop (bodyPreserves : ∀ carried, Preserves invariant (body carried)) (spent : α)
    (allowance : Nat) (carried : τ) : Preserves invariant (loop body spent allowance carried) := by
  induction allowance generalizing carried with
  | zero => exact preserves_pure spent
  | succ allowance inductionHypothesis =>
      refine preserves_bind (bodyPreserves carried) fun outcome => ?_
      cases outcome with
      | again next => exact inductionHypothesis next
      | done result => exact preserves_pure result

/-! ### One program and its outcome -/

/-- From a state with the precondition, the outcome has the postcondition. -/
def Ensures (before : ρ → Prop) (program : Program ρ α) (after : α → ρ → Prop) : Prop :=
  ∀ state, before state → after (program state).1 (program state).2

variable {before : ρ → Prop} {after : α → ρ → Prop}

theorem ensures_pure {value : α} (holds : ∀ state, before state → after value state) :
    Ensures before (pure value : Program ρ α) after :=
  holds

theorem ensures_bind {first : Program ρ α} {next : α → Program ρ β} {middle : α → ρ → Prop}
    {after : β → ρ → Prop} (one : Ensures before first middle)
    (two : ∀ value, Ensures (middle value) (next value) after) :
    Ensures before (first >>= next) after :=
  fun state holds => two _ _ (one state holds)

/-- Reading the state leaves it alone, and what was read is what it is. -/
theorem ensures_current {next : ρ → Program ρ β} {after : β → ρ → Prop}
    (holds : ∀ seen, before seen → after (next seen seen).1 (next seen seen).2) :
    Ensures before (current >>= next) after :=
  fun state start => holds state start

theorem ensures_ite [Decidable condition] (yesEnsures : condition → Ensures before yes after)
    (noEnsures : ¬ condition → Ensures before no after) :
    Ensures before (if condition then yes else no) after := by
  split
  · exact yesEnsures ‹_›
  · exact noEnsures ‹_›

theorem Ensures.weaken {program : Program ρ α} {before' : ρ → Prop} {after' : α → ρ → Prop}
    (ensures : Ensures before' program after') (start : ∀ state, before state → before' state)
    (finish : ∀ value state, after' value state → after value state) :
    Ensures before program after :=
  fun state holds => finish _ _ (ensures state (start state holds))

theorem Preserves.ensures {program : Program ρ α} (preserves : Preserves invariant program) :
    Ensures invariant program fun _ => invariant :=
  preserves

/-- What a pass ensures: one thing if the loop goes on, another if it is done. -/
def Passing (kept : τ → ρ → Prop) (after : α → ρ → Prop) : Step τ α → ρ → Prop
  | .again next, state => kept next state
  | .done result, state => after result state

/-- A loop keeps what every pass keeps, and ends with what its last pass ends with. -/
theorem ensures_loop {kept : τ → ρ → Prop}
    (pass : ∀ carried, Ensures (kept carried) (body carried) (Passing kept after))
    (starved : ∀ carried state, kept carried state → after spent state) (allowance : Nat)
    (carried : τ) : Ensures (kept carried) (loop body spent allowance carried) after := by
  induction allowance generalizing carried with
  | zero => exact ensures_pure (starved carried)
  | succ allowance inductionHypothesis =>
      refine ensures_bind (pass carried) fun outcome => ?_
      cases outcome with
      | again next => exact inductionHypothesis next
      | done result => exact ensures_pure fun _ holds => holds

/-! ### Returning early -/

/-- Go on with `next` unless `first` has returned. -/
def unlessReturned (first next : Program ρ (Option α)) : Program ρ (Option α) := do
  match ← first with
  | some result => pure (some result)
  | none => next

/-- What a part ensures that may return early: one thing if it returns, another if not. -/
def Returning (returned : α → ρ → Prop) (going : ρ → Prop) : Option α → ρ → Prop
  | some result, state => returned result state
  | none, state => going state

theorem Returning.imp {returned returned' : α → ρ → Prop} {going going' : ρ → Prop}
    (ends : ∀ result state, returned result state → returned' result state)
    (goes : ∀ state, going state → going' state) (outcome : Option α) (state : ρ)
    (holds : Returning returned going outcome state) : Returning returned' going' outcome state := by
  cases outcome with
  | some result => exact ends result state holds
  | none => exact goes state holds

theorem ensures_unlessReturned {first next : Program ρ (Option α)} {returned : α → ρ → Prop}
    {going finish : ρ → Prop} (one : Ensures before first (Returning returned going))
    (two : Ensures going next (Returning returned finish)) :
    Ensures before (unlessReturned first next) (Returning returned finish) := by
  refine ensures_bind one fun outcome => ?_
  cases outcome with
  | some result => exact ensures_pure fun _ holds => holds
  | none => exact two

/-- Programs in a row, up to the first one that returns. -/
def inOrder : List (Program ρ (Option α)) → Program ρ (Option α)
  | [] => pure none
  | first :: rest => unlessReturned first (inOrder rest)

/-! ### Two programs side by side -/

/-- From related states both programs return the same value and end in related
states. -/
def Related (relation : ρ → ρ' → Prop) (left : Program ρ α) (right : Program ρ' α) : Prop :=
  ∀ state state', relation state state' →
    (left state).1 = (right state').1 ∧ relation (left state).2 (right state').2

/-- How two runs side by side correspond: their states are related, or both are stopped. -/
structure Coupling (ρ ρ' : Type) where
  relation : ρ → ρ' → Prop
  stopped : ρ → Prop
  stopped' : ρ' → Prop

/-- Runs that correspond for good. -/
def Coupling.forever (relation : ρ → ρ' → Prop) : Coupling ρ ρ' :=
  ⟨relation, fun _ => False, fun _ => False⟩

/-- From related states both programs return the same value and end in related states, or
both end stopped. A run that is stopped stays so, whatever it does. -/
structure Coupled (coupling : Coupling ρ ρ') (left : Program ρ α) (right : Program ρ' α) :
    Prop where
  keeps : Preserves coupling.stopped left
  keeps' : Preserves coupling.stopped' right
  step : ∀ state state', coupling.relation state state' →
    ((left state).1 = (right state').1 ∧ coupling.relation (left state).2 (right state').2) ∨
      (coupling.stopped (left state).2 ∧ coupling.stopped' (right state').2)

variable {relation : ρ → ρ' → Prop} {coupling : Coupling ρ ρ'}

/-- Runs that are never stopped are related for good. -/
theorem Coupled.related {left : Program ρ α} {right : Program ρ' α}
    (coupled : Coupled (.forever relation) left right) : Related relation left right := by
  intro state state' related
  rcases coupled.step state state' related with both | ⟨never, -⟩
  · exact both
  · exact never.elim

theorem Related.coupled {left : Program ρ α} {right : Program ρ' α}
    (related : Related relation left right) : Coupled (.forever relation) left right where
  keeps := fun _ never => never
  keeps' := fun _ never => never
  step := fun state state' holds => .inl (related state state' holds)

theorem coupled_pure (value : α) :
    Coupled coupling (pure value : Program ρ α) (pure value : Program ρ' α) where
  keeps := preserves_pure value
  keeps' := preserves_pure value
  step := fun _ _ related => .inl ⟨rfl, related⟩

theorem coupled_bind {first : Program ρ α} {first' : Program ρ' α}
    {next : α → Program ρ β} {next' : α → Program ρ' β}
    (firstCoupled : Coupled coupling first first')
    (nextCoupled : ∀ value, Coupled coupling (next value) (next' value)) :
    Coupled coupling (first >>= next) (first' >>= next') where
  keeps := preserves_bind firstCoupled.keeps fun value => (nextCoupled value).keeps
  keeps' := preserves_bind firstCoupled.keeps' fun value => (nextCoupled value).keeps'
  step := by
    intro state state' related
    simp only [bind_apply]
    rcases firstCoupled.step state state' related with ⟨sameValue, after⟩ | ⟨stops, stops'⟩
    · rw [sameValue]
      exact (nextCoupled _).step _ _ after
    · exact .inr ⟨(nextCoupled _).keeps _ stops, (nextCoupled _).keeps' _ stops'⟩

theorem coupled_ite [Decidable condition] {yes' no' : Program ρ' α}
    (yesCoupled : Coupled coupling yes yes') (noCoupled : Coupled coupling no no') :
    Coupled coupling (if condition then yes else no) (if condition then yes' else no') := by
  split
  · exact yesCoupled
  · exact noCoupled

theorem coupled_andThen {first' next' : Program ρ' Bool}
    (firstCoupled : Coupled coupling first first') (nextCoupled : Coupled coupling next next') :
    Coupled coupling (andThen first next) (andThen first' next') :=
  coupled_bind firstCoupled fun _ => coupled_ite nextCoupled (coupled_pure _)

theorem coupled_loop {body' : τ → Program ρ' (Step τ α)}
    (bodyCoupled : ∀ carried, Coupled coupling (body carried) (body' carried)) (spent : α)
    (allowance : Nat) (carried : τ) :
    Coupled coupling (loop body spent allowance carried)
      (loop body' spent allowance carried) := by
  induction allowance generalizing carried with
  | zero => exact coupled_pure spent
  | succ allowance inductionHypothesis =>
      refine coupled_bind (bodyCoupled carried) fun outcome => ?_
      cases outcome with
      | again next => exact inductionHypothesis next
      | done result => exact coupled_pure result

end Program

end IperfSwift.Lib
