import IperfSwift.Lifecycle.Entry
import IperfSwift.Lifecycle.Consequences

/-!
Contract: any number of runners that share the engine queue.

Owns: the process with its runners and the shared queue; what the state queue of a runner
may do to the engine; that a run of the process is a run of each of its runners, with at
most one engine thread busy; that every accepted start completes once; that a queued run
enters the engine at most once and never after a stop, with one live test in the process.

Does not own: the steps of a runner, or what they keep.
-/

set_option autoImplicit false

namespace IperfSwift.Lifecycle

open IperfSwift.Lib

namespace IperfRunner

variable {runner : IperfRunner}

/-! ### The state queue and the engine -/

/-- The same engine thread and the same blocks on the engine queue. -/
structure SameEngine (runner other : IperfRunner) : Prop where
  engine : other.engine = runner.engine
  queue : other.engineQueue = runner.engineQueue

theorem sameEngine_startRun (onResourcesReleased : Option Callback) :
    runner.SameEngine (runner.startRun onResourcesReleased) := by
  rw [startRun]
  split_ifs
  · exact ⟨rfl, rfl⟩
  · exact ⟨rfl, rfl⟩

theorem sameEngine_dispatch (run : Option RunContext) :
    runner.SameEngine (runner.dispatch run) := by
  cases run with
  | none => exact ⟨rfl, rfl⟩
  | some run =>
      obtain ⟨blocks, dispatched, _⟩ := @dispatch_some runner run
      rw [dispatched]
      exact ⟨rfl, rfl⟩

theorem sameEngine_cleanState : runner.SameEngine runner.cleanState := by
  rw [cleanState]
  split_ifs
  · exact ⟨rfl, rfl⟩
  · exact ⟨(sameEngine_dispatch _).engine, (sameEngine_dispatch _).queue⟩

theorem sameEngine_begin (preparation : Preparation) (block : Block) :
    runner.SameEngine (runner.begin preparation block) := by
  cases block with
  | start configuration onResourcesReleased =>
      cases configuration with
      | none => exact sameEngine_startRun onResourcesReleased
      | some configuration =>
          simp only [begin, start]
          split_ifs
          · exact ⟨(sameEngine_startRun _).engine, (sameEngine_startRun _).queue⟩
          · exact ⟨rfl, rfl⟩
  | stop =>
      simp only [begin, stopCurrentTest]
      split
      · split <;> exact ⟨rfl, rfl⟩
      · split_ifs
        · split <;> exact ⟨rfl, rfl⟩
        · exact ⟨rfl, rfl⟩
  | release run callback => exact ⟨rfl, rfl⟩
  | prepare runID =>
      simp only [begin, prepare]
      split_ifs
      · exact ⟨rfl, rfl⟩
      · split
        · exact ⟨rfl, rfl⟩
        · cases preparation <;> exact ⟨rfl, rfl⟩
  | report process state delivers =>
      simp only [begin, handleReporterStatus, deliver]
      split_ifs
      · exact ⟨rfl, rfl⟩
      · exact ⟨rfl, rfl⟩
      · split
        · exact ⟨rfl, rfl⟩
        · split_ifs <;> exact ⟨rfl, rfl⟩
  | jsonStream process =>
      simp only [begin, handleJSONStreamOutput]
      split_ifs <;> exact ⟨rfl, rfl⟩
  | decide process outcome =>
      simp only [begin, decideRestart]
      split_ifs <;> exact ⟨rfl, rfl⟩
  | finish process outcome =>
      simp only [begin, finishProcess]
      split_ifs
      · exact ⟨rfl, rfl⟩
      · exact ⟨rfl, rfl⟩
      · exact ⟨sameEngine_cleanState.engine, sameEngine_cleanState.queue⟩

/-- Only the end of a block moves the engine thread, and only an accepted start adds a
block to the engine queue. -/
theorem engine_proceed (configurationError : Option IperfError) (frame : Frame) :
    ((∀ next, frame ≠ .sync next) →
      (runner.proceed configurationError frame).engine = runner.engine) ∧
    ∃ more, (runner.proceed configurationError frame).engineQueue = runner.engineQueue ++ more := by
  have same : ∀ {other : IperfRunner}, runner.SameEngine other →
      ((∀ next, frame ≠ .sync next) → other.engine = runner.engine) ∧
        ∃ more, other.engineQueue = runner.engineQueue ++ more := by
    intro other sameEngine
    exact ⟨fun _ => sameEngine.engine, [], by rw [sameEngine.queue, List.append_nil]⟩
  cases frame with
  | initialising runID =>
      simp only [proceed]
      split
      · exact same ⟨rfl, rfl⟩
      · exact ⟨fun _ => rfl, [runID], rfl⟩
  | errorFunction => exact same sameEngine_cleanState
  | stoppingQueued => exact same ⟨sameEngine_cleanState.engine, sameEngine_cleanState.queue⟩
  | finished run => exact same ⟨(sameEngine_dispatch run).engine, (sameEngine_dispatch run).queue⟩
  | reported delivers =>
      simp only [proceed, deliver]
      split_ifs <;> exact same ⟨rfl, rfl⟩
  | sync next => exact ⟨fun other => absurd rfl (other next), [], by rw [List.append_nil]; rfl⟩
  | _ => exact same ⟨rfl, rfl⟩

/-- An engine thread that is idle stays so until it takes a block. -/
theorem engine_step {next : IperfRunner} {action : Action} (sound : runner.Sound)
    (stepped : runner.step action = some next) (other : action ≠ .dequeue) :
    (runner.engine = .idle → next.engine = .idle) ∧
      ∃ more, next.engineQueue = runner.engineQueue ++ more := by
  have same : ∀ {next : IperfRunner}, runner.SameEngine next →
      (runner.engine = .idle → next.engine = .idle) ∧
        ∃ more, next.engineQueue = runner.engineQueue ++ more := by
    intro next sameEngine
    exact ⟨fun idle => sameEngine.engine.trans idle, [],
      by rw [sameEngine.queue, List.append_nil]⟩
  have busy : ∀ {next : IperfRunner}, runner.engine ≠ .idle →
      next.engineQueue = runner.engineQueue →
      (runner.engine = .idle → next.engine = .idle) ∧
        ∃ more, next.engineQueue = runner.engineQueue ++ more := by
    intro next working queue
    exact ⟨fun idle => absurd idle working, [], by rw [queue, List.append_nil]⟩
  cases action <;> simp only [step] at stepped
  case dequeue => exact absurd rfl other
  case start configuration onResourcesReleased | stop =>
    split_ifs at stepped
    cases stepped
    exact same ⟨rfl, rfl⟩
  case next preparation =>
    split at stepped
    · cases stepped
      exact same ⟨(sameEngine_begin _ _).engine, (sameEngine_begin _ _).queue⟩
    · cases stepped
  case inlineStart onResourcesReleased =>
    split at stepped
    · split_ifs at stepped
      cases stepped
      exact same (sameEngine_startRun onResourcesReleased)
    · cases stepped
  case resume configurationError =>
    split at stepped
    · rename_i frame rest stack
      cases stepped
      obtain ⟨engine, queue⟩ :=
        @engine_proceed { runner with stack := rest } configurationError frame
      refine ⟨?_, queue⟩
      intro idle
      -- A frame that moves the engine thread is waited for by a thread that is not idle.
      have unplaced : ∀ next, frame ≠ .sync next := by
        rintro next rfl
        have nothing := sound.waits_eq_nil (by rw [idle]; rfl)
        rw [waits, stack] at nothing
        simp [Frame.place] at nothing
      exact (engine unplaced).trans idle
    · cases stepped
  case deallocate =>
    split_ifs at stepped
    cases stepped
    exact same ⟨(sameEngine_dispatch _).engine, (sameEngine_dispatch _).queue⟩
  case createTimers duration =>
    split at stepped
    · rename_i process engine
      cases stepped
      split_ifs <;> exact busy (by rw [engine]; simp) rfl
    · cases stepped
  all_goals
    split at stepped
    · rename_i engine
      cases stepped
      exact busy (by rw [engine]; simp) rfl
    · cases stepped

/-- A live test keeps the engine thread busy. -/
theorem Sound.engine_of_test (sound : runner.Sound) (live : runner.currentTest ≠ none) :
    runner.engine ≠ .idle := by
  intro idle
  have nothing := sound.waits_eq_nil (by rw [idle]; rfl)
  have place := (sound.place_eq (by rw [idle]; rfl)).trans idle
  cases sound.control with
  | free _ _ test | starting _ _ test | queued _ _ test | cancelling _ _ test => exact live test
  | failing _ _ stack _ _ held =>
      rcases held with test | waiting
      · exact live test
      · have present : .idle ∈ runner.waits := by
          rw [waits, stack]
          apply List.mem_append_right
          exact List.mem_filterMap.mpr ⟨_, List.mem_cons_of_mem _ waiting, rfl⟩
        rw [nothing] at present
        cases present
  | testing _ position =>
      rw [place] at position
      cases position

end IperfRunner

/-! ### The process -/

/-- Runners with their blocks on the shared engine queue. -/
structure System (ι : Type) where
  runners : ι → IperfRunner
  engineQueue : List (ι × RunID)

namespace System

variable {ι : Type}

def new (configurations : ι → IperfConfiguration) : System ι where
  runners := fun i => IperfRunner.new (configurations i)
  engineQueue := []

section Scheduling

variable [DecidableEq ι]

/-- Every runner keeps its invariant, at most one engine thread is busy, and the shared
queue holds the blocks of all runners in order. -/
structure Sound (system : System ι) : Prop where
  runners : ∀ i, (system.runners i).Sound
  exclusive : ∀ i j, (system.runners i).engine ≠ .idle → (system.runners j).engine ≠ .idle →
    i = j
  queue : ∀ i, (system.engineQueue.filter fun block => block.1 = i).map Prod.snd =
    (system.runners i).engineQueue

theorem sound_new (configurations : ι → IperfConfiguration) : (new configurations).Sound where
  runners := fun i => IperfRunner.sound_new (configurations i)
  exclusive := by
    intro i j busy
    exact absurd rfl busy
  queue := fun _ => rfl

theorem Sound.runners_update {system : System ι} {i : ι} {action : Action} {runner : IperfRunner}
    (sound : system.Sound) (moved : (system.runners i).step action = some runner) (j : ι) :
    (Function.update system.runners i runner j).Sound := by
  by_cases same : j = i
  · subst same
    rw [Function.update_self]
    exact IperfRunner.sound_step (sound.runners j) moved
  · rw [Function.update_of_ne same]
    exact sound.runners j

variable [Fintype ι]

/-- One runner takes a step. The engine queue is serial: its next block is taken only when
the last one is over. -/
def step (system : System ι) : ι × Action → Option (System ι)
  | (i, .dequeue) =>
      match system.engineQueue with
      | (owner, _) :: rest =>
          if owner = i ∧ ∀ j, (system.runners j).engine = .idle then
            ((system.runners i).step .dequeue).map fun next =>
              { runners := Function.update system.runners i next, engineQueue := rest }
          else none
      | [] => none
  | (i, action) =>
      ((system.runners i).step action).map fun next =>
        { runners := Function.update system.runners i next
          engineQueue := system.engineQueue ++
            (next.engineQueue.drop (system.runners i).engineQueue.length).map (i, ·) }

theorem step_dequeue {system next : System ι} {i : ι}
    (stepped : system.step (i, .dequeue) = some next) : ∃ id rest runner,
      system.engineQueue = (i, id) :: rest ∧ (∀ j, (system.runners j).engine = .idle) ∧
      (system.runners i).step .dequeue = some runner ∧
      next = { runners := Function.update system.runners i runner, engineQueue := rest } := by
  simp only [step] at stepped
  split at stepped
  · rename_i owner id rest queue
    split_ifs at stepped with serial
    obtain ⟨runner, moved, rfl⟩ := Option.map_eq_some_iff.mp stepped
    exact ⟨id, rest, runner, by rw [queue, serial.1], serial.2, moved, rfl⟩
  · cases stepped

theorem step_other {system next : System ι} {i : ι} {action : Action} (other : action ≠ .dequeue)
    (stepped : system.step (i, action) = some next) : ∃ runner,
      (system.runners i).step action = some runner ∧
      next =
        { runners := Function.update system.runners i runner
          engineQueue := system.engineQueue ++
            (runner.engineQueue.drop (system.runners i).engineQueue.length).map (i, ·) } := by
  cases action with
  | dequeue => exact absurd rfl other
  | _ =>
      obtain ⟨runner, moved, rfl⟩ := Option.map_eq_some_iff.mp stepped
      exact ⟨runner, moved, rfl⟩

theorem sound_dequeue {system next : System ι} {i : ι} (sound : system.Sound)
    (stepped : system.step (i, .dequeue) = some next) : next.Sound := by
  obtain ⟨id, rest, runner, queue, idle, moved, rfl⟩ := step_dequeue stepped
  constructor
  · exact sound.runners_update moved
  · have only : ∀ j, ((Function.update system.runners i runner) j).engine ≠ .idle → j = i := by
      intro j busy
      by_contra other
      rw [Function.update_of_ne other] at busy
      exact busy (idle j)
    intro j k busy working
    rw [only j busy, only k working]
  · intro j
    dsimp only
    have before := sound.queue j
    rw [queue] at before
    by_cases same : j = i
    · subst same
      rw [List.filter_cons_of_pos (by simp), List.map_cons] at before
      simp only [IperfRunner.step, idle j, ← before] at moved
      rw [Function.update_self]
      split_ifs at moved <;> cases moved <;> rfl
    · rw [List.filter_cons_of_neg (by simpa using Ne.symm same)] at before
      rw [Function.update_of_ne same]
      exact before

theorem sound_other {system next : System ι} {i : ι} {action : Action} (sound : system.Sound)
    (other : action ≠ .dequeue) (stepped : system.step (i, action) = some next) : next.Sound := by
  obtain ⟨runner, moved, rfl⟩ := step_other other stepped
  obtain ⟨stays, more, grown⟩ := IperfRunner.engine_step (sound.runners i) moved other
  constructor
  · exact sound.runners_update moved
  · have before : ∀ j, ((Function.update system.runners i runner) j).engine ≠ .idle →
        (system.runners j).engine ≠ .idle := by
      intro j busy
      by_cases same : j = i
      · subst same
        rw [Function.update_self] at busy
        exact fun idle => busy (stays idle)
      · rwa [Function.update_of_ne same] at busy
    intro j k busy working
    exact sound.exclusive j k (before j busy) (before k working)
  · intro j
    dsimp only
    rw [grown, List.drop_left, List.filter_append, List.map_append, sound.queue j]
    by_cases same : j = i
    · subst same
      rw [Function.update_self, grown]
      simp [List.filter_map, Function.comp_def]
    · rw [Function.update_of_ne same]
      simp [Ne.symm same]

theorem sound_step {system next : System ι} {action : ι × Action} (sound : system.Sound)
    (stepped : system.step action = some next) : next.Sound := by
  obtain ⟨i, action⟩ := action
  by_cases dequeued : action = .dequeue
  · subst dequeued
    exact sound_dequeue sound stepped
  · exact sound_other sound dequeued stepped

theorem sound_run {configurations : ι → IperfConfiguration} {actions : List (ι × Action)}
    {final : System ι} (run : execute step (new configurations) actions = some final) :
    final.Sound :=
  execute_invariant sound_step run (sound_new configurations)

end Scheduling

end System

/-! ### Completions -/

/-- Where an accepted run stands. Between blocks it is active, or it was completed once.
Inside the block that clears it, while that block publishes `.finished`, it is owed its
completion. -/
inductive IperfRunner.Standing (runner : IperfRunner) (context : RunContext) : Prop where
  | active (current : runner.activeRun = some context)
      (none : completions (history context.id runner.log) = [])
  | completed (inactive : ∀ run, runner.activeRun = some run → run.id ≠ context.id)
      (once : completions (history context.id runner.log) = completion context)
  | owed (inactive : ∀ run, runner.activeRun = some run → run.id ≠ context.id)
      (none : completions (history context.id runner.log) = [])
      (block : .finished (some context) ∈ runner.stack)

namespace IperfRunner

variable {runner : IperfRunner}

/-- The life of the active run is open and its own. -/
theorem Control.active_life {run : RunContext} (control : runner.Control)
    (active : runner.activeRun = some run) :
    ∃ life, lifeOf run.id runner.log = some life ∧ life.isOpen ∧ life.context = some run := by
  have own : ∀ {current : RunContext}, runner.activeRun = some current → current = run :=
    fun same => Option.some_inj.mp (same.symm.trans active)
  cases control with
  | free none => rw [active] at none; cases none
  | starting current _ _ _ _ _ life | queued current _ _ _ _ life
  | cancelling current _ _ _ _ life =>
      cases own current
      exact ⟨_, life, rfl, rfl⟩
  | failing current _ _ _ _ _ fails =>
      cases own current
      cases fails with
      | state life | function life => exact ⟨_, life, rfl, rfl⟩
  | testing occupied =>
      cases own occupied.active
      exact ⟨_, occupied.life, rfl, rfl⟩

theorem Sound.standing {context : RunContext} {configuration : Option IperfConfiguration}
    (sound : runner.Sound) (accepted : .accepted context configuration ∈ runner.log) :
    runner.Standing context := by
  have own : .accepted context configuration ∈ history context.id runner.log :=
    mem_history.mpr ⟨accepted, rfl⟩
  have known := sound.accounts.fresh _ accepted context.id rfl
  by_cases active : ∃ run, runner.activeRun = some run ∧ run.id = context.id
  · obtain ⟨run, current, same⟩ := active
    obtain ⟨life, now, isOpen, its⟩ := sound.control.active_life current
    rw [same] at now
    have remembers := lifeOf_remembers now
    rw [Life.context_of_accepted remembers own, Option.some_inj] at its
    exact .active (its ▸ current) (Life.no_completion remembers isOpen)
  · have inactive : ∀ run, runner.activeRun = some run → run.id ≠ context.id :=
      fun run current same => active ⟨run, current, same⟩
    by_cases owed : ∃ run ∈ runner.owed, run.id = context.id
    · obtain ⟨run, member, same⟩ := owed
      obtain ⟨life, now, owes⟩ := sound.accounts.owes run member
      obtain ⟨isOpen, its⟩ := owes.open_context
      rw [same] at now
      have remembers := lifeOf_remembers now
      rw [Life.context_of_accepted remembers own, Option.some_inj] at its
      obtain ⟨frame, inside, holds⟩ := List.mem_filterMap.mp member
      refine .owed inactive (Life.no_completion remembers isOpen) ?_
      cases frame with
      | finished ended =>
          rw [Frame.owed, ← its] at holds
          exact holds ▸ inside
      | _ => cases holds
    · obtain ⟨life, now, isOver⟩ := sound.accounts.settled context.id known (by
        intro member
        obtain ⟨run, inside, same⟩ := List.mem_map.mp member
        rcases List.mem_append.mp inside with current | later
        · exact active ⟨run, Option.mem_toList.mp current, same⟩
        · exact owed ⟨run, later, same⟩)
      exact .completed inactive (Life.completion_of_isOver now isOver
        (Life.context_of_accepted (lifeOf_remembers now) own) rfl)

/-- The test of an ended run is gone. -/
theorem Sound.test_of_ended {context : RunContext} {test : Test} (sound : runner.Sound)
    (ended : .ended context ∈ runner.log) (live : test ∈ runner.tests) :
    test.run ≠ context.id := by
  intro same
  cases current : runner.currentTest with
  | none =>
      rw [sound.noTest current] at live
      cases live
  | some pointer =>
      obtain ⟨run, only, active, tests, _, owner⟩ := sound.liveTest pointer current
      rw [tests, List.mem_singleton] at live
      obtain ⟨life, now, isOpen, _⟩ := sound.control.active_life active
      have none := Life.no_completion (lifeOf_remembers now) isOpen
      have own : .ended context ∈ completions (history run.id runner.log) := by
        refine List.mem_filter.mpr ⟨mem_history.mpr ⟨ended, ?_⟩, rfl⟩
        rw [Event.run, ← same, live, owner]
      rw [none] at own
      cases own

theorem start_of_active {configuration : Option IperfConfiguration}
    {onResourcesReleased : Option Callback} (active : runner.activeRun ≠ none) :
    runner.start configuration onResourcesReleased = runner := by
  have busy : ¬ runner.isFree := fun free => active (isFree_iff.mp free).2.2
  cases configuration with
  | none => exact startRun_of_not_free busy
  | some configuration => rw [start, if_neg busy]

end IperfRunner

section Completions

variable {ι : Type} [DecidableEq ι] [Fintype ι]

/-- Every accepted start of every runner is completed exactly once, with its own id and
release callback, after the test that was created for it is gone, and a start that finds a
run active does nothing. -/
theorem starts_complete_once {configurations : ι → IperfConfiguration}
    {actions : List (ι × Action)} {final : System ι}
    (run : execute System.step (System.new configurations) actions = some final) (i : ι) :
    (∀ context configuration, .accepted context configuration ∈ (final.runners i).log →
      (final.runners i).Standing context) ∧
    (∀ context, .ended context ∈ (final.runners i).log →
      ∀ test ∈ (final.runners i).tests, test.run ≠ context.id) ∧
    ((final.runners i).activeRun ≠ none → ∀ configuration onResourcesReleased,
      (final.runners i).start configuration onResourcesReleased = final.runners i) := by
  have sound := (System.sound_run run).runners i
  refine ⟨?_, ?_, ?_⟩
  · intro context configuration accepted
    exact sound.standing accepted
  · intro context ended test live
    exact sound.test_of_ended ended live
  · intro active configuration onResourcesReleased
    exact IperfRunner.start_of_active active

end Completions

/-- A run that is stopped while it is queued. -/
theorem cancelled_start_completes_once : ∃ final : System Unit,
    execute System.step (System.new fun _ => ⟨.client, false, none, 0⟩)
      [((), .start none (some 7)), ((), .next .noTest), ((), .resume none), ((), .stop),
        ((), .next .noTest), ((), .resume none), ((), .resume none)] = some final ∧
      (final.runners ()).Standing ⟨0, some 7⟩ := by
  refine exists_run (fun final => (final.runners ()).log.head?)
    (some (.accepted ⟨0, some 7⟩ (some ⟨.client, false, none, 0⟩)))
    (by decide +kernel) fun final run first => ?_
  exact (starts_complete_once run ()).1 _ _ (List.mem_of_mem_head? first)

/-! ### Entries -/

/-- Every run has lived by the rules. -/
theorem IperfRunner.Sound.life_exists {runner : IperfRunner} (sound : runner.Sound) (id : RunID) :
    ∃ life, lifeOf id runner.log = some life := by
  by_cases known : id < runner.nextID
  · by_cases involved : id ∈ (runner.activeRun.toList ++ runner.owed).map RunContext.id
    · obtain ⟨run, member, rfl⟩ := List.mem_map.mp involved
      rcases List.mem_append.mp member with current | later
      · obtain ⟨life, now, _⟩ := sound.control.active_life (Option.mem_toList.mp current)
        exact ⟨life, now⟩
      · obtain ⟨life, now, _⟩ := sound.accounts.owes run later
        exact ⟨life, now⟩
    · obtain ⟨life, now, _⟩ := sound.accounts.settled id known involved
      exact ⟨life, now⟩
  · refine ⟨.unborn, lifeOf_unborn ?_⟩
    intro event member belongs
    exact known (sound.accounts.fresh event member id belongs)

section Entries

variable {ι : Type} [DecidableEq ι] [Fintype ι]

/-- A runner with a live test is the only one. -/
theorem System.Sound.one_live_test {system : System ι} (sound : system.Sound) :
    ∑ i, (system.runners i).tests.length ≤ 1 := by
  have short : ∀ i, (system.runners i).tests.length ≤ 1 := by
    intro i
    cases current : (system.runners i).currentTest with
    | none => simp [(sound.runners i).noTest current]
    | some pointer =>
        obtain ⟨_, test, _, only, _⟩ := (sound.runners i).liveTest pointer current
        simp [only]
  have busy : ∀ i, (system.runners i).tests.length ≠ 0 →
      (system.runners i).engine ≠ .idle := by
    intro i live
    apply (sound.runners i).engine_of_test
    intro none
    exact live (by simp [(sound.runners i).noTest none])
  by_cases some : ∃ i, (system.runners i).tests.length ≠ 0
  · obtain ⟨i, live⟩ := some
    rw [Finset.sum_eq_single i]
    · exact short i
    · intro j _ other
      by_contra also
      exact other (sound.exclusive j i (busy j also) (busy i live))
    · simp
  · push Not at some
    simp [some]

/-- A run enters the engine at most once, from its own block, before any stop of it was
processed and with the configuration it was accepted with. At most one test is live in the
process, and it belongs to the active run of its runner. -/
theorem queued_runs_enter_once {configurations : ι → IperfConfiguration}
    {actions : List (ι × Action)} {final : System ι}
    (run : execute System.step (System.new configurations) actions = some final) :
    (∀ i id configuration before after,
      (final.runners i).log = before ++ .entered id configuration :: after →
        (∀ taken, .entered id taken ∉ before ∧ .entered id taken ∉ after) ∧
          .stopped id ∉ before ∧
          ∃ context, .accepted context (some configuration) ∈ before ∧ context.id = id) ∧
    (∀ first i action rest middle next id configuration,
      actions = first ++ (i, action) :: rest →
        execute System.step (System.new configurations) first = some middle →
        middle.step (i, action) = some next →
        .entered id configuration ∈ (next.runners i).log →
        .entered id configuration ∉ (middle.runners i).log →
        ∃ preparation blocks, action = .next preparation ∧
          (middle.runners i).stateQueue = .prepare id :: blocks ∧
          (middle.runners i).pendingRunID = some id) ∧
    ∑ i, (final.runners i).tests.length ≤ 1 ∧
    (∀ i pointer, (final.runners i).currentTest = some pointer → ∃ context test,
      (final.runners i).activeRun = some context ∧ (final.runners i).tests = [test] ∧
        test.pointer = pointer ∧ test.run = context.id) := by
  have sound := System.sound_run run
  refine ⟨?_, ?_, sound.one_live_test, fun i => (sound.runners i).liveTest⟩
  · intro i id configuration before after split
    obtain ⟨life, now⟩ := (sound.runners i).life_exists id
    exact entry_of_log now split
  · intro first i action rest middle next id configuration _ _ stepped new old
    have moved : (middle.runners i).step action = some (next.runners i) := by
      by_cases dequeued : action = .dequeue
      · subst dequeued
        obtain ⟨_, _, runner, _, _, moved, rfl⟩ := System.step_dequeue stepped
        simp [moved]
      · obtain ⟨runner, moved, rfl⟩ := System.step_other dequeued stepped
        simp [moved]
    obtain ⟨preparation, blocks, taken, _, queue, pending⟩ :=
      IperfRunner.entered_step moved new old
    exact ⟨preparation, blocks, taken, queue, pending⟩

end Entries

/-- The first run of a runner is stopped while it is queued, and its block is taken all the same.
The second run enters, before the one of another runner. -/
def cancelledRun : List (Bool × Action) :=
  [(false, .start none none), (false, .next .noTest), (false, .resume none), (false, .stop),
    (false, .next .noTest), (false, .resume none), (false, .resume none),
    (false, .start (some ⟨.client, false, none, 0⟩) none), (false, .next .noTest),
    (false, .resume none), (true, .start none none), (true, .next .noTest), (true, .resume none),
    (false, .dequeue), (false, .next (.ready 8)), (false, .resume none), (false, .dequeue),
    (false, .next (.ready 9))]

theorem queued_run_enters : ∃ final : System Bool,
    execute System.step (System.new fun _ => ⟨.client, false, none, 0⟩) cancelledRun = some final ∧
      (∀ taken, .entered 0 taken ∉ (final.runners false).log) ∧
      (∃ before after,
        (final.runners false).log = before ++ .entered 1 ⟨.client, false, none, 0⟩ :: after ∧
          .stopped 0 ∈ before ∧ .stopped 1 ∉ before ∧
          ∀ taken, .entered 1 taken ∉ before ∧ .entered 1 taken ∉ after) ∧
      ∑ i, (final.runners i).tests.length ≤ 1 := by
  refine exists_run (fun final => (final.runners false).log)
    ([.accepted ⟨0, none⟩ (some ⟨.client, false, none, 0⟩), .published (some 0) .initialising,
      .stopped 0, .published (some 0) .stopping, .published (some 0) .finished, .ended ⟨0, none⟩,
      .accepted ⟨1, none⟩ (some ⟨.client, false, none, 0⟩), .published (some 1) .initialising] ++
        .entered 1 ⟨.client, false, none, 0⟩ :: [.published (some 1) .running])
    (by decide +kernel) fun final run log => ?_
  obtain ⟨enters, -, single, -⟩ := queued_runs_enter_once run
  obtain ⟨once, unstopped, -⟩ := enters false 1 _ _ _ log
  exact ⟨by simp [log], ⟨_, _, log, by simp, unstopped, once⟩, single⟩

end IperfSwift.Lifecycle
