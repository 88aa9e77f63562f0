import Mathlib.Tactic

/-!
Contract: runs of a machine whose next action an adversary chooses.

Owns: following a list of actions from a state, where an action may be disabled;
how runs compose; the rule that carries an invariant along a run.

Does not own: any particular machine, or what its actions mean.
-/

set_option autoImplicit false

namespace IperfSwift.Lib

variable {σ α : Type}

/-- Perform the actions in order. The run exists only when every action is enabled
in the state it is reached in. -/
def execute (step : σ → α → Option σ) : σ → List α → Option σ
  | state, [] => some state
  | state, action :: rest => (step state action).bind fun next => execute step next rest

variable {step : σ → α → Option σ}

@[simp] theorem execute_nil (state : σ) : execute step state [] = some state := rfl

theorem execute_cons {state final : σ} {action : α} {rest : List α} :
    execute step state (action :: rest) = some final ↔
      ∃ next, step state action = some next ∧ execute step next rest = some final := by
  simp only [execute, Option.bind_eq_some_iff]

theorem execute_append {state final : σ} {first second : List α} :
    execute step state (first ++ second) = some final ↔
      ∃ middle, execute step state first = some middle ∧
        execute step middle second = some final := by
  induction first generalizing state with
  | nil => simp
  | cons action rest inductionHypothesis =>
      rw [List.cons_append, execute_cons]
      constructor
      · rintro ⟨next, stepped, run⟩
        obtain ⟨middle, before, after⟩ := inductionHypothesis.mp run
        exact ⟨middle, execute_cons.mpr ⟨next, stepped, before⟩, after⟩
      · rintro ⟨middle, before, after⟩
        obtain ⟨next, stepped, run⟩ := execute_cons.mp before
        exact ⟨next, stepped, inductionHypothesis.mpr ⟨middle, run, after⟩⟩

/-- A property of states that every enabled action keeps holds after every run. -/
theorem execute_invariant {property : σ → Prop}
    (keeps : ∀ {state next : σ} {action : α},
      property state → step state action = some next → property next)
    {state final : σ} {actions : List α} (run : execute step state actions = some final)
    (holds : property state) : property final := by
  induction actions generalizing state with
  | nil =>
      rw [execute_nil, Option.some_inj] at run
      exact run ▸ holds
  | cons action rest inductionHypothesis =>
      obtain ⟨next, stepped, tail⟩ := execute_cons.mp run
      exact inductionHypothesis tail (keeps holds stepped)

/-- A run is shown by what a view of its end comes to. -/
theorem exists_run {β : Type} {outcome : Option σ} {property : σ → Prop} (view : σ → β) (seen : β)
    (shows : outcome.map view = some seen)
    (holds : ∀ final, outcome = some final → view final = seen → property final) :
    ∃ final, outcome = some final ∧ property final := by
  obtain ⟨final, run, viewed⟩ := Option.map_eq_some_iff.mp shows
  exact ⟨final, run, holds final run viewed⟩

/-- A property of the actions so far and the state reached by them holds after every run. -/
theorem execute_past {property : List α → σ → Prop} {state : σ} (start : property [] state)
    (keeps : ∀ {past : List α} {middle next : σ} {action : α},
      property past middle → step middle action = some next → property (past ++ [action]) next)
    {actions : List α} {final : σ} (run : execute step state actions = some final) :
    property actions final := by
  suffices general : ∀ (past : List α) (middle : σ), property past middle →
      execute step middle actions = some final → property (past ++ actions) final by
    exact general [] state start run
  clear run
  induction actions with
  | nil =>
      intro past middle holds run
      rw [execute_nil, Option.some_inj] at run
      rw [List.append_nil]
      exact run ▸ holds
  | cons action rest inductionHypothesis =>
      intro past middle holds run
      obtain ⟨next, stepped, tail⟩ := execute_cons.mp run
      have settled := inductionHypothesis (past ++ [action]) next (keeps holds stepped) tail
      rwa [List.append_assoc, List.singleton_append] at settled

end IperfSwift.Lib
