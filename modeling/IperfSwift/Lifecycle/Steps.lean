import IperfSwift.Lifecycle.Control

/-!
Contract: every action of a runner keeps its invariant.

Owns: one lemma for each block, frame and engine step, and the step lemma assembled from
them.

Does not own: the invariant, or what it is for.
-/

set_option autoImplicit false

namespace IperfSwift.Lifecycle.IperfRunner

open IperfSwift.Lib

variable {runner : IperfRunner}
variable {block : Block} {rest : List Block} {frame : Frame} {onResourcesReleased : Option Callback}
  {run : RunContext} {error : IperfError} {engine next : Engine} {process : Process}
  {measurement : Measurement} {outcome : Outcome} {configurationError : Option IperfError}

/-! ### Steps that stay at a control point -/

theorem Sound.transport {other : IperfRunner} {change : Test → Test} (sound : runner.Sound)
    (alike : runner.Alike other) (process : other.place.process = runner.place.process)
    (moves : ∀ measurement, Located runner.place measurement → Located other.place measurement)
    (token : other.waits.length = other.engine.isSyncing.toNat)
    (tests : other.tests = runner.tests.map change)
    (identity : ∀ test, (change test).pointer = test.pointer ∧ (change test).run = test.run ∧
      (change test).outputStopRequested = test.outputStopRequested)
    (kept : ∀ run process measurement, runner.Occupied run process measurement →
      measurement.kept → ∀ test ∈ other.tests, test.done) : other.Sound where
  control := by
    apply sound.control.transport alike process moves _ kept
    intro test member
    rw [tests] at member
    obtain ⟨old, inside, rfl⟩ := List.mem_map.mp member
    exact ⟨old, inside, (identity old).2.2⟩
  token := token
  callbacks := by
    intro run active
    rw [alike.callbacks]
    exact sound.callbacks run (alike.active ▸ active)
  noTest := by
    intro none
    rw [tests, sound.noTest (alike.test ▸ none), List.map_nil]
  liveTest := by
    intro pointer current
    obtain ⟨run, test, active, live, address, owner⟩ := sound.liveTest pointer (alike.test ▸ current)
    refine ⟨run, change test, alike.active.trans active, by rw [tests, live]; rfl, ?_, ?_⟩
    · exact (identity test).1.trans address
    · exact (identity test).2.1.trans owner
  accounts := by
    have owed : other.owed = runner.owed := by rw [owed, alike.stack, IperfRunner.owed]
    rw [alike.log, alike.active, owed, alike.nextID, alike.alive]
    exact sound.accounts

/-- A step that leaves the tests alone. -/
theorem Sound.transport_tests {other : IperfRunner} (sound : runner.Sound)
    (alike : runner.Alike other) (process : other.place.process = runner.place.process)
    (moves : ∀ measurement, Located runner.place measurement → Located other.place measurement)
    (token : other.waits.length = other.engine.isSyncing.toNat)
    (tests : other.tests = runner.tests) : other.Sound := by
  have unchanged : other.tests = runner.tests.map id := by rw [tests, List.map_id]
  apply sound.transport alike process moves token unchanged fun _ => ⟨rfl, rfl, rfl⟩
  intro run process measurement occupied kept test member
  exact occupied.kept test (tests ▸ member) kept

theorem Sound.enqueue (sound : runner.Sound) (plain : block.place = none) :
    Sound { runner with stateQueue := runner.stateQueue ++ [block] } := by
  have waits : { runner with stateQueue := runner.stateQueue ++ [block] }.waits =
      runner.waits := by
    simp [IperfRunner.waits, plain]
  have place : { runner with stateQueue := runner.stateQueue ++ [block] }.place =
      runner.place := by
    rw [IperfRunner.place, waits, IperfRunner.place]
  exact sound.transport_tests ⟨rfl, rfl, rfl, rfl, rfl, rfl, rfl, rfl, rfl, rfl⟩ (by rw [place])
    (by rw [place]; exact fun _ => id) (by rw [waits]; exact sound.token) rfl

theorem Sound.take (sound : runner.Sound) (queue : runner.stateQueue = block :: rest)
    (plain : block.place = none) : Sound { runner with stateQueue := rest } := by
  have waits : { runner with stateQueue := rest }.waits = runner.waits := by
    simp [IperfRunner.waits, queue, plain]
  have place : { runner with stateQueue := rest }.place = runner.place := by
    rw [IperfRunner.place, waits, IperfRunner.place]
  exact sound.transport_tests ⟨rfl, rfl, rfl, rfl, rfl, rfl, rfl, rfl, rfl, rfl⟩ (by rw [place])
    (by rw [place]; exact fun _ => id) (by rw [waits]; exact sound.token) rfl

/-- A running engine thread waits for nothing. -/
theorem Sound.waits_eq_nil (sound : runner.Sound) (awake : runner.engine.isSyncing = false) :
    runner.waits = [] := by
  have token := sound.token
  rw [awake, Bool.toNat_false, List.length_eq_zero_iff] at token
  exact token

theorem Sound.place_eq (sound : runner.Sound) (awake : runner.engine.isSyncing = false) :
    runner.place = runner.engine := by
  rw [place, sound.waits_eq_nil awake]
  rfl

theorem Sound.syncOn {run : RunID} (sound : runner.Sound)
    (awake : runner.engine.isSyncing = false) (origin : block.place = some runner.engine) :
    (runner.syncOn run block).Sound := by
  have nothing := sound.waits_eq_nil awake
  have waits : (runner.syncOn run block).waits = [runner.engine] := by
    rw [IperfRunner.waits, List.append_eq_nil_iff] at nothing
    simp [IperfRunner.waits, IperfRunner.syncOn, List.filterMap_append, nothing.1, nothing.2,
      origin]
  have place : (runner.syncOn run block).place = runner.place := by
    rw [IperfRunner.place, waits, sound.place_eq awake]
    rfl
  exact sound.transport_tests ⟨rfl, rfl, rfl, rfl, rfl, rfl, rfl, rfl, rfl, rfl⟩ (by rw [place])
    (by rw [place]; exact fun _ => id) (by rw [waits]; rfl) rfl

/-! ### Starting -/

theorem waits_push (plain : frame.place = none) : (runner.push frame).waits = runner.waits := by
  simp [waits, push, plain]

theorem place_push (plain : frame.place = none) : (runner.push frame).place = runner.place := by
  rw [place, waits_push plain, place]
  rfl

theorem place_record (event : Event) : (runner.record event).place = runner.place := rfl

theorem place_publish {newValue : IperfRunnerState} (plain : frame.place = none) :
    (runner.publish newValue frame).place = runner.place := by
  rw [publish, place_push plain, place_record]

theorem isFree_iff : runner.isFree ↔
    runner.currentTest = none ∧ runner.pendingRunID = none ∧ runner.activeRun = none := by
  simp [isFree, and_assoc]

/-- A free runner is at no other control point. -/
theorem Control.of_free (control : runner.Control) (active : runner.activeRun = none) :
    (∀ frame ∈ runner.stack, frame.isQuiet) ∧ runner.place.process = none := by
  cases control with
  | free _ _ _ quiet away => exact ⟨quiet, away⟩
  | testing occupied => rw [occupied.active] at active; cases active
  | _ run => rw [active] at run; cases run

theorem startRun_of_not_free (busy : ¬ runner.isFree) :
    runner.startRun onResourcesReleased = runner := by
  rw [startRun, if_neg busy]

theorem Sound.startRun (sound : runner.Sound) : (runner.startRun onResourcesReleased).Sound := by
  by_cases free : runner.isFree
  · obtain ⟨test, pending, active⟩ := isFree_iff.mp free
    obtain ⟨quiet, away⟩ := sound.control.of_free active
    let run : RunContext := ⟨runner.nextID, onResourcesReleased⟩
    have accounts := sound.accounts
    rw [active] at accounts
    have unborn : lifeOf run.id runner.log = some .unborn := by
      apply lifeOf_unborn
      intro event member belongs
      exact Nat.lt_irrefl _ (accounts.fresh event member run.id belongs)
    have accepted := @lifeOf_record run.id runner.log (.accepted run runner.configuration) _ _
      unborn rfl rfl
    have waiting := @lifeOf_record run.id _ (.published (some run.id) .initialising) _ _
      accepted rfl rfl
    rw [IperfRunner.startRun, if_pos free]
    exact {
      control := .starting rfl pending test rfl quiet
        (by rw [place_publish rfl]; exact away) waiting
      token := by rw [publish, waits_push rfl]; exact sound.token
      callbacks := by
        intro context same
        cases same
        rfl
      noTest := fun _ => sound.noTest test
      liveTest := by
        intro pointer current
        rw [show _ = runner.currentTest from rfl, test] at current
        cases current
      accounts := (accounts.accept rfl rfl).record rfl }
  · rw [startRun_of_not_free free]
    exact sound

theorem Sound.start {configuration : Option IperfConfiguration} (sound : runner.Sound) :
    (runner.start configuration onResourcesReleased).Sound := by
  cases configuration with
  | none => exact sound.startRun
  | some configuration =>
      rw [IperfRunner.start]
      split_ifs with free
      · obtain ⟨test, pending, active⟩ := isFree_iff.mp free
        obtain ⟨quiet, away⟩ := sound.control.of_free active
        have configured : Sound { runner with configuration := some configuration } :=
          { control := .free active pending test quiet away
            token := sound.token
            callbacks := sound.callbacks
            noTest := sound.noTest
            liveTest := sound.liveTest
            accounts := sound.accounts }
        exact configured.startRun
      · exact sound

/-! ### Taking a frame off the stack -/

theorem waits_pop {rest : List Frame} (stack : runner.stack = frame :: rest)
    (plain : frame.place = none) : { runner with stack := rest }.waits = runner.waits := by
  simp [waits, stack, plain]

theorem place_pop {rest : List Frame} (stack : runner.stack = frame :: rest)
    (plain : frame.place = none) : { runner with stack := rest }.place = runner.place := by
  rw [place, waits_pop stack plain, place]

theorem owed_pop {rest : List Frame} (stack : runner.stack = frame :: rest)
    (plain : frame.owed = none) : { runner with stack := rest }.owed = runner.owed := by
  simp [owed, stack, plain]

theorem Base.pop {rest : List Frame} (base : runner.Base) (stack : runner.stack = frame :: rest)
    (unplaced : frame.place = none) (unowed : frame.owed = none) :
    Base { runner with stack := rest } :=
  { base with
    token := by rw [waits_pop stack unplaced]; exact base.token
    accounts := by rw [owed_pop stack unowed]; exact base.accounts }

theorem Base.push (base : runner.Base) (unplaced : frame.place = none)
    (unowed : frame.owed = none) : (runner.push frame).Base :=
  { base with
    token := by rw [waits_push unplaced]; exact base.token
    accounts := by
      have owed : (runner.push frame).owed = runner.owed := by
        simp [IperfRunner.owed, IperfRunner.push, unowed]
      rw [owed]
      exact base.accounts }

/-- An event of the active run. -/
theorem Base.record (base : runner.Base) (event : Event) (active : runner.activeRun = some run)
    (own : event.run = some run.id) : (runner.record event).Base :=
  { base with
    accounts := by
      have accounts := base.accounts
      rw [active] at accounts
      have recorded := accounts.record own
      rwa [← active] at recorded }

theorem Base.publish {newValue : IperfRunnerState} (base : runner.Base)
    (active : runner.activeRun = some run) (unplaced : frame.place = none)
    (unowed : frame.owed = none) : (runner.publish newValue frame).Base := by
  have own : (Event.published runner.callbacks newValue).run = some run.id :=
    base.callbacks run active
  exact (base.record _ active own).push unplaced unowed

/-! ### Errors and teardown -/

theorem Base.onError {capture : Option Capture} {life : Life} (base : runner.Base)
    (active : runner.activeRun = some run) (pending : runner.pendingRunID = none)
    (quiet : ∀ frame ∈ runner.stack, frame.isQuiet) (away : runner.place.process = none)
    (held : runner.currentTest = none ∨ .sync .idle ∈ runner.stack)
    (now : lifeOf run.id runner.log = some life)
    (admitted : life.next (.published runner.callbacks .error) = some (.errorShown run capture))
    (carried : ∀ taken, capture = some taken → error = taken.outcome.error) :
    (runner.onError error).Sound where
  toBase := base.publish active rfl rfl
  control := by
    have own : (Event.published runner.callbacks .error).run = some run.id :=
      base.callbacks run active
    have shown := lifeOf_record now own admitted
    exact .failing active pending rfl quiet
      (by rw [IperfRunner.onError, place_publish rfl]; exact away) held
      (.state shown carried)

/-- The tests that are left are those of a free runner. -/
theorem Base.filter_tests (base : runner.Base) :
    runner.tests.filter (fun test => some test.pointer ≠ runner.currentTest) = [] := by
  cases current : runner.currentTest with
  | none => rw [base.noTest current, List.filter_nil]
  | some pointer =>
      obtain ⟨run, test, _, live, address, _⟩ := base.liveTest pointer current
      simp [live, address]

theorem dispatch_some (run : RunContext) : ∃ blocks,
    runner.dispatch (some run) =
      { runner with
        stateQueue := runner.stateQueue ++ blocks
        log := runner.log ++ completion run } ∧
    blocks.filterMap Block.place = [] := by
  cases asked : run.onResourcesReleased with
  | none => exact ⟨[], by simp [dispatch, record, completion, asked], rfl⟩
  | some callback =>
      exact ⟨[.release run.id callback], by simp [dispatch, record, completion, asked], rfl⟩

theorem waits_dispatch (run : RunContext) : (runner.dispatch (some run)).waits = runner.waits := by
  obtain ⟨blocks, dispatched, unplaced⟩ := @dispatch_some runner run
  rw [dispatched]
  simp [waits, unplaced]

theorem place_dispatch (run : RunContext) : (runner.dispatch (some run)).place = runner.place := by
  rw [place, waits_dispatch]
  obtain ⟨blocks, dispatched, _⟩ := @dispatch_some runner run
  rw [dispatched]
  rfl

/-- The end of a run that only its block still knows. -/
theorem base_dispatch (token : runner.waits.length = runner.engine.isSyncing.toNat)
    (callbacks : ∀ run, runner.activeRun = some run → runner.callbacks = some run.id)
    (noTest : runner.currentTest = none → runner.tests = [])
    (liveTest : ∀ pointer, runner.currentTest = some pointer → ∃ run test,
      runner.activeRun = some run ∧ runner.tests = [test] ∧ test.pointer = pointer ∧
        test.run = run.id)
    (accounts : Accounted runner.log runner.activeRun (run :: runner.owed) runner.nextID
      runner.alive) : (runner.dispatch (some run)).Base := by
  have waits := @waits_dispatch runner run
  obtain ⟨blocks, dispatched, _⟩ := @dispatch_some runner run
  rw [dispatched] at waits ⊢
  exact {
    token := by rw [waits]; exact token
    callbacks := callbacks
    noTest := noTest
    liveTest := liveTest
    accounts := accounts.complete }

theorem Control.free_dispatch (active : runner.activeRun = none)
    (pending : runner.pendingRunID = none) (test : runner.currentTest = none)
    (quiet : ∀ frame ∈ runner.stack, frame.isQuiet) (away : runner.place.process = none) :
    (runner.dispatch (some run)).Control := by
  have place := @place_dispatch runner run
  obtain ⟨blocks, dispatched, _⟩ := @dispatch_some runner run
  rw [dispatched] at place ⊢
  exact .free active pending test quiet (by rw [place]; exact away)

theorem Base.cleanState {life : Life} (base : runner.Base) (active : runner.activeRun = some run)
    (quiet : ∀ frame ∈ runner.stack, frame.isQuiet) (away : runner.place.process = none)
    (now : lifeOf run.id runner.log = some life)
    (shows : runner.state = .running ∨ runner.state = .stopping →
      ∃ next, life.next (.published runner.callbacks .finished) = some next ∧ next.Owes true run)
    (silent : ¬ (runner.state = .running ∨ runner.state = .stopping) → life.Owes true run) :
    runner.cleanState.Sound := by
  have accounts := base.accounts
  rw [active] at accounts
  have own : (Event.published runner.callbacks .finished).run = some run.id :=
    base.callbacks run active
  rw [IperfRunner.cleanState, base.filter_tests, active]
  split_ifs with visible
  · obtain ⟨next, admitted, left⟩ := shows visible
    exact {
      token := base.token
      callbacks := by
        intro context same
        cases same
      noTest := fun _ => rfl
      liveTest := by
        intro pointer current
        cases current
      accounts := (accounts.record own).clear (lifeOf_record now own admitted) left.weaken
      control := by
        refine .free rfl rfl rfl ?_ away
        intro frame member
        rcases List.mem_cons.mp member with rfl | rest
        · rfl
        · exact quiet frame rest }
  · have left := silent visible
    exact {
      toBase := by
        apply base_dispatch
        · exact base.token
        · intro context same
          cases same
        · exact fun _ => rfl
        · intro pointer current
          cases current
        · exact accounts.clear now left.weaken
      control := Control.free_dispatch rfl rfl rfl quiet away }

/-! ### Blocks -/

/-- The engine thread waits for the block that is taken, and for no other. -/
theorem Sound.taken (sound : runner.Sound) (stack : runner.stack = [])
    (queue : runner.stateQueue = block :: rest) (origin : block.place = some engine) :
    runner.place = engine ∧ rest.filterMap Block.place = [] ∧ runner.engine.isSyncing = true := by
  have waits : runner.waits = engine :: rest.filterMap Block.place := by
    simp [IperfRunner.waits, stack, queue, origin]
  have token := sound.token
  rw [waits, List.length_cons] at token
  cases syncing : runner.engine.isSyncing with
  | false =>
      rw [syncing, Bool.toNat_false] at token
      omega
  | true =>
      rw [syncing, Bool.toNat_true] at token
      refine ⟨by rw [place, waits]; rfl, ?_, rfl⟩
      apply List.length_eq_zero_iff.mp
      omega

/-- The block gives the engine thread its next place. -/
theorem Sound.answer (next : Engine) (sound : runner.Sound) (stack : runner.stack = [])
    (queue : runner.stateQueue = block :: rest) (origin : block.place = some engine) :
    ({ runner with stateQueue := rest }.push (.sync next)).Base ∧
      ({ runner with stateQueue := rest }.push (.sync next)).place = next := by
  obtain ⟨_, others, syncing⟩ := sound.taken stack queue origin
  have waits : ({ runner with stateQueue := rest }.push (.sync next)).waits = [next] := by
    simp [IperfRunner.waits, push, stack, others, Frame.place]
  refine ⟨{ sound.toBase with token := ?_ }, by rw [place, waits]; rfl⟩
  rw [waits]
  exact (congrArg Bool.toNat syncing).symm

/-- A block that sends the engine thread out of its process. -/
theorem Sound.dismiss (sound : runner.Sound) (stack : runner.stack = [])
    (queue : runner.stateQueue = block :: rest) (origin : block.place = some engine) :
    ({ runner with stateQueue := rest }.push (.sync .idle)).Base ∧
      (∀ frame ∈ ({ runner with stateQueue := rest }.push (.sync .idle)).stack, frame.isQuiet) ∧
      ({ runner with stateQueue := rest }.push (.sync .idle)).place.process = none := by
  obtain ⟨base, place⟩ := sound.answer .idle stack queue origin
  exact ⟨base, by simp [push, stack, Frame.isQuiet], by rw [place]; rfl⟩

/-- The control points between two blocks. -/
inductive Settled (runner : IperfRunner) : Prop where
  | free (active : runner.activeRun = none) (pending : runner.pendingRunID = none)
      (test : runner.currentTest = none) (away : runner.place.process = none)
  | queued {run : RunContext} (active : runner.activeRun = some run)
      (pending : runner.pendingRunID = some run.id) (test : runner.currentTest = none)
      (away : runner.place.process = none)
      (life : lifeOf run.id runner.log = some (.waiting run runner.configuration))
  | testing {run : RunContext} {process : Process} {measurement : Measurement}
      (occupied : runner.Occupied run process measurement)
      (position : runner.place.process = some process)
      (located : Located runner.place measurement)
      (state : runner.state = measurement.shown)

theorem Point.settled {pointer : Pointer} {shown : IperfRunnerState}
    (point : runner.Point pointer shown) (stack : runner.stack = []) : runner.state = shown := by
  cases point with
  | idle _ state => exact state
  | _ other => rw [stack] at other; cases other

theorem Point.resumed {pointer : Pointer} {shown : IperfRunnerState}
    (point : runner.Point pointer shown) (stack : runner.stack = [.sync next]) :
    runner.state = shown := by
  cases point with
  | resuming _ state => exact state
  | _ other => rw [stack] at other; cases other

theorem Sound.settled (sound : runner.Sound) (stack : runner.stack = []) : runner.Settled := by
  cases sound.control with
  | free active pending test _ away => exact .free active pending test away
  | queued active pending test _ away life => exact .queued active pending test away life
  | testing occupied position located point =>
      exact .testing occupied position located (point.settled stack)
  | starting _ _ _ other | cancelling _ _ _ other | failing _ _ other => rw [stack] at other; cases other

/-- A place inside a process is a control point of that process. -/
theorem Control.inside (control : runner.Control) (position : runner.place.process = some process) :
    ∃ run measurement, runner.Occupied run process measurement ∧
      Located runner.place measurement ∧ runner.Point process.testPointer measurement.shown := by
  cases control with
  | free _ _ _ _ away | starting _ _ _ _ _ away | queued _ _ _ _ away | cancelling _ _ _ _ away
  | failing _ _ _ _ away => rw [position] at away; cases away
  | testing occupied place located point =>
      rw [position, Option.some_inj] at place
      subst place
      exact ⟨_, _, occupied, located, point⟩

/-- A block that the engine thread waits for inside its process. -/
theorem Sound.occupied (sound : runner.Sound) (stack : runner.stack = [])
    (queue : runner.stateQueue = block :: rest) (origin : block.place = some engine)
    (inside : engine.process = some process) :
    ∃ run measurement, runner.Occupied run process measurement ∧ Located engine measurement ∧
      runner.state = measurement.shown := by
  obtain ⟨place, _, _⟩ := sound.taken stack queue origin
  rw [← place] at inside ⊢
  obtain ⟨run, measurement, occupied, located, point⟩ := sound.control.inside inside
  exact ⟨run, measurement, occupied, located, point.settled stack⟩

theorem Sound.release (sound : runner.Sound) (stack : runner.stack = []) :
    (runner.push .releasing).Sound where
  toBase := sound.toBase.push rfl rfl
  control := by
    have place : (runner.push .releasing).place = runner.place := place_push rfl
    have only : (runner.push .releasing).stack = [.releasing] := by rw [push, stack]
    have quiet : ∀ frame ∈ (runner.push .releasing).stack, frame.isQuiet := by
      simp [only, Frame.isQuiet]
    cases sound.settled stack with
    | free active pending test away =>
        exact .free active pending test quiet (by rw [place]; exact away)
    | queued active pending test away life =>
        exact .queued active pending test quiet (by rw [place]; exact away) life
    | testing occupied position located state =>
        exact .testing { occupied with } (by rw [place]; exact position)
          (by rw [place]; exact located) (.releasing only state)

/-- An event that leaves the run inside the engine. -/
theorem Occupied.record {next : Measurement} (occupied : runner.Occupied run process measurement)
    (event : Event) (own : event.run = some run.id)
    (admitted : measurement.next run event = some (.measuring run next))
    (flag : next.stopBegun = measurement.stopBegun) (kept : next.kept → measurement.kept) :
    (runner.record event).Occupied run process next :=
  { occupied with
    life := lifeOf_record occupied.life own admitted
    agreed := by
      rw [(Measurement.continues_of_next admitted).observed]
      exact occupied.agreed
    flag := by
      intro test member
      rw [flag]
      exact occupied.flag test member
    kept := fun test member keeps => occupied.kept test member (kept keeps) }

theorem Sound.stopCurrentTest (sound : runner.Sound) (stack : runner.stack = []) :
    runner.stopCurrentTest.Sound := by
  cases sound.settled stack with
  | free active pending test away =>
      have nothing : runner.stopCurrentTest = runner := by
        simp [IperfRunner.stopCurrentTest, pending, test]
      rw [nothing]
      exact sound
  | @queued run active pending test away life =>
      have stopped : runner.stopCurrentTest =
          (runner.record (.stopped run.id)).publish .stopping .stoppingQueued := by
        simp [IperfRunner.stopCurrentTest, active, pending, test]
      have noted := sound.toBase.record (.stopped run.id) active rfl
      rw [stopped]
      have own : (Event.published runner.callbacks .stopping).run = some run.id :=
        sound.callbacks run active
      have cancelled := @lifeOf_record run.id _ (.stopped run.id) _ _ life rfl rfl
      exact {
        toBase := noted.publish active rfl rfl
        control := .cancelling active pending test (by simp [publish, push, IperfRunner.record, stack])
          (by rw [place_publish rfl]; exact away) (lifeOf_record cancelled own rfl) }
  | @testing run process measurement occupied position located state =>
      have stopped : runner.stopCurrentTest =
          (runner.record (.stopped run.id)).publish .stopping
            (.stoppingTest process.testPointer) := by
        simp [IperfRunner.stopCurrentTest, occupied.active, occupied.test]
      have noted := sound.toBase.record (.stopped run.id) occupied.active rfl
      have seen := occupied.record (.stopped run.id) rfl rfl rfl id
      have own : (Event.published runner.callbacks .stopping).run = some run.id :=
        sound.callbacks run occupied.active
      rw [stopped]
      exact {
        toBase := noted.publish occupied.active rfl rfl
        control := .testing { seen.record _ own rfl rfl id with }
          (by rw [place_publish rfl]; exact position)
          (by rw [place_publish rfl]; exact ⟨located.armed, located.concluded⟩)
          (.stopping (by simp [publish, push, IperfRunner.record, stack]) rfl) }

theorem Base.newTest (base : runner.Base) (pointer : Pointer)
    (active : runner.activeRun = some run) (none : runner.currentTest = none) :
    (runner.newTest pointer run.id).Base where
  token := base.token
  callbacks := base.callbacks
  noTest := by
    intro absent
    cases absent
  liveTest := by
    intro address current
    cases current
    refine ⟨run, ⟨pointer, run.id, false, false⟩, active, ?_, rfl, rfl⟩
    simp [IperfRunner.newTest, base.noTest none]
  accounts := base.accounts

/-- The run of the block enters the engine. -/
theorem Sound.enterEngine (sound : runner.Sound) (stack : runner.stack = [])
    (queue : runner.stateQueue = .prepare run.id :: rest) (active : runner.activeRun = some run)
    (test : runner.currentTest = none)
    (configured : runner.configuration = some process.configuration)
    (owner : process.run = run.id)
    (life : lifeOf run.id runner.log = some (.waiting run runner.configuration)) :
    ({ runner with stateQueue := rest, pendingRunID := none }.enterEngine process).Sound := by
  obtain ⟨base, calling⟩ := sound.answer (.calling process) stack queue rfl
  have answered : ({ runner with stateQueue := rest, pendingRunID := none }.push
      (.sync (.calling process))).Base := { base with }
  have tested := answered.newTest process.testPointer active test
  rw [← owner] at tested
  have own : (Event.entered process.run process.configuration).run = some run.id :=
    congrArg some owner
  have entered := tested.record _ active own
  have admitted : Life.next (.waiting run runner.configuration)
      (.entered process.run process.configuration) =
        some (.entered run process.configuration) := by
    simp [Life.next, configured]
  have shown : (Event.published runner.callbacks .running).run = some run.id :=
    sound.callbacks run active
  have running := lifeOf_record (lifeOf_record life own admitted) shown rfl
  have place : ({ runner with stateQueue := rest, pendingRunID := none }.enterEngine
      process).place = .calling process := by
    rw [IperfRunner.enterEngine, place_publish rfl]
    exact calling
  have occupied : ({ runner with stateQueue := rest, pendingRunID := none }.enterEngine
      process).Occupied run process
        { configuration := process.configuration
          shown := .running
          stopBegun := false
          stopCompleted := false
          armed := true
          kept := false
          last := none } :=
    { active := active
      pending := rfl
      test := rfl
      configuration := configured
      owner := owner
      life := running
      agreed := rfl
      flag := by
        intro live member
        have only : live ∈ runner.tests ++ [⟨process.testPointer, process.run, false, false⟩] :=
          member
        rw [sound.noTest test, List.nil_append, List.mem_singleton] at only
        rw [only]
      kept := by simp }
  exact {
    toBase := entered.publish active rfl rfl
    control := .testing occupied (by rw [place]; rfl)
      (by
        rw [place]
        exact ⟨rfl, fun outcome reached => by cases reached⟩)
      (.entering (show Frame.running :: .sync (.calling process) :: runner.stack = _ by rw [stack])
        rfl) }

theorem Sound.prepare {runID : RunID} {preparation : Preparation} (sound : runner.Sound)
    (stack : runner.stack = []) (queue : runner.stateQueue = .prepare runID :: rest) :
    ({ runner with stateQueue := rest }.prepare runID preparation).Sound := by
  obtain ⟨place, others, syncing⟩ := sound.taken stack queue rfl
  obtain ⟨base, quiet, away⟩ := sound.dismiss stack queue rfl
  rw [IperfRunner.prepare]
  split_ifs with other
  · cases sound.settled stack with
    | free active pending test _ => exact ⟨base, .free active pending test quiet away⟩
    | queued active pending test _ life => exact ⟨base, .queued active pending test quiet away life⟩
    | testing _ position => rw [place] at position; cases position
  · rw [not_not] at other
    cases sound.settled stack with
    | free _ pending => rw [show _ = runner.pendingRunID from rfl, pending] at other; cases other
    | testing _ position => rw [place] at position; cases position
    | @queued run active pending test _ life =>
        rw [show _ = runner.pendingRunID from rfl, pending, Option.some_inj] at other
        subst other
        have cleared : ({ runner with stateQueue := rest, pendingRunID := none }.push
            (.sync .idle)).Base := { base with }
        have early : ∀ error, (({ runner with stateQueue := rest, pendingRunID := none }.push
            (.sync .idle)).onError error).Sound := by
          intro error
          exact cleared.onError active rfl quiet away (Or.inl test) life rfl (by simp)
        have late : ∀ pointer error,
            ((({ runner with stateQueue := rest, pendingRunID := none }.newTest pointer
              run.id).push (.sync .idle)).onError error).Sound := by
          intro pointer error
          have tested := cleared.newTest pointer active test
          exact tested.onError active rfl quiet away (Or.inr (by simp [IperfRunner.newTest, push]))
            life rfl (by simp)
        dsimp only
        split
        · exact early .INIT_ERROR
        · rename_i configuration configured
          cases preparation with
          | noTest => exact early .INIT_ERROR
          | noDefaults pointer => exact late pointer .INIT_ERROR_DEFAULTS
          | rejected pointer error => exact late pointer error
          | ready pointer => exact sound.enterEngine stack queue active test configured rfl life

/-- A block that only sends the engine thread on. -/
theorem Sound.respond (next : Engine) (sound : runner.Sound) (stack : runner.stack = [])
    (queue : runner.stateQueue = block :: rest) (origin : block.place = some engine)
    (occupied : runner.Occupied run process measurement) (inside : next.process = some process)
    (located : Located next measurement) (state : runner.state = measurement.shown) :
    ({ runner with stateQueue := rest }.push (.sync next)).Sound := by
  obtain ⟨base, place⟩ := sound.answer next stack queue origin
  have only : ({ runner with stateQueue := rest }.push (.sync next)).stack = [.sync next] := by
    rw [push, stack]
  exact {
    toBase := base
    control := .testing { occupied with } (by rw [place]; exact inside)
      (by rw [place]; exact located) (.resuming only state) }

/-- User code is called on top of such a block. -/
theorem Sound.delivering {next : Engine} (sound : runner.Sound)
    (stack : runner.stack = [.sync next]) (busy : runner.place.process ≠ none) :
    (runner.push .delivering).Sound := by
  have place : (runner.push .delivering).place = runner.place := place_push rfl
  have top : (runner.push .delivering).stack = [.delivering, .sync next] := by
    rw [push, stack]
  obtain ⟨process, position⟩ := Option.ne_none_iff_exists'.mp busy
  obtain ⟨run, measurement, occupied, located, point⟩ := sound.control.inside position
  exact ⟨sound.toBase.push rfl rfl, .testing { occupied with } (by rw [place]; exact position)
    (by rw [place]; exact located) (.delivering top (point.resumed stack))⟩

theorem Sound.deliver {delivers : Bool} (sound : runner.Sound)
    (stack : runner.stack = [.sync next]) (busy : runner.place.process ≠ none) :
    (runner.deliver delivers).Sound := by
  rw [IperfRunner.deliver]
  split_ifs
  · exact sound.delivering stack busy
  · exact sound

theorem Sound.handleReporterStatus {state : IperfState} {delivers : Bool} (sound : runner.Sound)
    (stack : runner.stack = [])
    (queue : runner.stateQueue = .report process state delivers :: rest) :
    ({ runner with stateQueue := rest }.handleReporterStatus process state delivers).Sound := by
  obtain ⟨run, measurement, occupied, located, shown⟩ := sound.occupied stack queue rfl rfl
  have respond := sound.respond (.native process) stack queue rfl occupied rfl located shown
  obtain ⟨base, place⟩ := sound.answer (.native process) stack queue rfl
  have only : ({ runner with stateQueue := rest }.push (.sync (.native process))).stack =
      [.sync (.native process)] := by
    rw [push, stack]
  have busy : ({ runner with stateQueue := rest }.push (.sync (.native process))).place.process ≠
      none := by
    rw [place]
    simp [Engine.process]
  rw [IperfRunner.handleReporterStatus]
  dsimp only
  split_ifs
  · exact respond
  · exact respond
  · split
    · exact respond
    · rename_i configuration configured
      split_ifs with completes
      · have same : process.configuration = configuration :=
          Option.some_inj.mp (occupied.configuration.symm.trans configured)
        have unlimited : measurement.isLimited = false := by
          have given := of_decide_eq_true completes.2
          simp [Measurement.isLimited, occupied.agreed, same, given.1]
        have own : (Event.published runner.callbacks .finished).run = some run.id :=
          sound.callbacks run occupied.active
        have admitted : measurement.next run (.published runner.callbacks .finished) =
            some (.measuring run { measurement with shown := .finished }) := by
          simp [Measurement.next, unlimited]
        have reported := occupied.record _ own admitted rfl id
        exact {
          toBase := base.publish occupied.active rfl rfl
          control := .testing { reported with }
            (by rw [place_publish rfl, place]; rfl)
            (by rw [place_publish rfl, place]; exact ⟨located.armed, located.concluded⟩)
            (.reported (congrArg (List.cons (Frame.reported _)) only) rfl) }
      · exact respond.deliver only busy

theorem Sound.handleJSONStreamOutput (sound : runner.Sound) (stack : runner.stack = [])
    (queue : runner.stateQueue = .jsonStream process :: rest) :
    ({ runner with stateQueue := rest }.handleJSONStreamOutput process).Sound := by
  obtain ⟨run, measurement, occupied, located, shown⟩ := sound.occupied stack queue rfl rfl
  have respond := sound.respond (.native process) stack queue rfl occupied rfl located shown
  obtain ⟨_, place⟩ := sound.answer (.native process) stack queue rfl
  rw [IperfRunner.handleJSONStreamOutput]
  split_ifs
  · exact respond
  · have only : ({ runner with stateQueue := rest }.push (.sync (.native process))).stack =
        [.sync (.native process)] := by
      rw [push, stack]
    apply respond.delivering only
    rw [place]
    simp [Engine.process]

/-- A persistent server is sent back to listen. -/
theorem Sound.restart (sound : runner.Sound) (stack : runner.stack = [])
    (queue : runner.stateQueue = .decide process outcome :: rest)
    (occupied : runner.Occupied run process measurement) (running : measurement.shown = .running) :
    (({ runner with stateQueue := rest }.record (.restarted process.run)).push
      (.sync (.calling process))).Base ∧
    (({ runner with stateQueue := rest }.record (.restarted process.run)).push
      (.sync (.calling process))).place = .calling process ∧
    (({ runner with stateQueue := rest }.record (.restarted process.run)).push
      (.sync (.calling process))).Occupied run process
        { measurement with armed := true, kept := false } := by
  obtain ⟨base, place⟩ := sound.answer (.calling process) stack queue rfl
  have own : (Event.restarted process.run).run = some run.id := congrArg some occupied.owner
  have admitted : measurement.next run (.restarted process.run) =
      some (.measuring run { measurement with armed := true, kept := false }) := by
    simp [Measurement.next, running]
  have restarted := occupied.record _ own admitted rfl (by simp)
  exact ⟨base.record _ occupied.active own, place, { restarted with }⟩

/-- A store to `done` that clears no stop. -/
theorem Sound.updateDone {pointer : Pointer} {value : Bool} (sound : runner.Sound)
    (allowed : ∀ run process measurement, runner.Occupied run process measurement →
      measurement.kept → value = true) :
    (runner.updateTest pointer fun test => { test with done := value }).Sound := by
  apply @Sound.transport runner (runner.updateTest pointer fun test => { test with done := value })
    (fun test => if test.pointer = pointer then { test with done := value } else test) sound
    ⟨rfl, rfl, rfl, rfl, rfl, rfl, rfl, rfl, rfl, rfl⟩ rfl (fun _ => id) sound.token rfl
  · intro test
    split_ifs
    · exact ⟨rfl, rfl, rfl⟩
    · exact ⟨rfl, rfl, rfl⟩
  · intro run process measurement occupied kept test member
    obtain ⟨old, inside, rfl⟩ := List.mem_map.mp member
    split_ifs
    · exact allowed run process measurement occupied kept
    · exact occupied.kept old inside kept

/-- Two views of an occupied runner have the same measurement. -/
theorem Occupied.unique {other : RunContext} {next : Process} {found : Measurement}
    (occupied : runner.Occupied run process measurement)
    (again : runner.Occupied other next found) : found = measurement := by
  have same : run = other := Option.some_inj.mp (occupied.active.symm.trans again.active)
  subst same
  have life := occupied.life.symm.trans again.life
  cases life
  rfl

theorem Sound.decideRestart (sound : runner.Sound) (stack : runner.stack = [])
    (queue : runner.stateQueue = .decide process outcome :: rest) :
    ({ runner with stateQueue := rest }.decideRestart process outcome).Sound := by
  obtain ⟨run, measurement, occupied, located, shown⟩ := sound.occupied stack queue rfl rfl
  rw [IperfRunner.decideRestart]
  split_ifs with goesOn failed
  · have running : measurement.shown = .running := shown.symm.trans goesOn.2.2.2.2
    obtain ⟨sent, place, restarted⟩ := sound.restart stack queue occupied running
    have own : (Event.failed runner.callbacks outcome.error).run = some run.id :=
      sound.callbacks run occupied.active
    have reported := restarted.record _ own rfl rfl id
    exact {
      toBase := (sent.record _ occupied.active own).push rfl rfl
      control := .testing { reported with }
        (by rw [place_push rfl, place_record, place]; rfl)
        (by
          rw [place_push rfl, place_record, place]
          exact ⟨rfl, fun taken reached => by cases reached⟩)
        (.restarting (show Frame.restarting _ :: .sync (.calling process) :: runner.stack = _ by
          rw [stack]) shown running) }
  · have running : measurement.shown = .running := shown.symm.trans goesOn.2.2.2.2
    obtain ⟨sent, place, restarted⟩ := sound.restart stack queue occupied running
    have respond : (({ runner with stateQueue := rest }.record (.restarted process.run)).push
        (.sync (.calling process))).Sound :=
      { toBase := sent
        control := .testing restarted (by rw [place]; rfl)
          (by rw [place]; exact ⟨rfl, fun taken reached => by cases reached⟩)
          (.resuming (show Frame.sync (.calling process) :: runner.stack = _ by rw [stack])
            shown) }
    apply respond.updateDone
    intro other next found again kept
    rw [restarted.unique again] at kept
    cases kept
  · exact sound.respond (.leaving process outcome) stack queue rfl occupied rfl
      ⟨located.armed, located.concluded⟩ shown

theorem Sound.finishProcess (sound : runner.Sound) (stack : runner.stack = [])
    (queue : runner.stateQueue = .finish process outcome :: rest) :
    ({ runner with stateQueue := rest }.finishProcess process outcome).Sound := by
  obtain ⟨run, measurement, occupied, located, shown⟩ := sound.occupied stack queue rfl rfl
  obtain ⟨capture, last, taken⟩ := located.concluded outcome rfl
  obtain ⟨base, quiet, away⟩ := sound.dismiss stack queue rfl
  rw [IperfRunner.finishProcess]
  split_ifs with elsewhere failed
  · exact absurd occupied.test elsewhere
  · have failure : capture.outcome.isFailure := by
      rw [taken]
      exact decide_eq_true failed
    have admitted : Life.next (.measuring run measurement) (.published runner.callbacks .error) =
        some (.errorShown run (some capture)) := by
      simp [Life.next, Measurement.next, last, failure]
    apply base.onError occupied.active occupied.pending quiet away _ occupied.life admitted
    · intro other same
      rw [← Option.some_inj.mp same, taken]
    · exact Or.inr (by simp [push])
  · have succeeded : ¬ capture.outcome.isFailure := by
      rw [taken]
      simpa [Outcome.isFailure] using failed
    obtain ⟨owners, id, past, split, measured⟩ := lifeOf_remembers occupied.life
    obtain ⟨shows, silent⟩ := measured.owes run last succeeded
    rw [← shown] at shows silent
    exact base.cleanState occupied.active quiet away occupied.life
      (fun visible => shows visible runner.callbacks) silent

/-! ### Going on after a callback -/

/-- The engine thread is where the block sends it. -/
theorem Sound.place_of_sync {rest : List Frame} (sound : runner.Sound)
    (stack : runner.stack = .sync next :: rest) :
    runner.place = next ∧ { runner with stack := rest, engine := next }.waits = [] := by
  have waits : runner.waits = runner.stateQueue.filterMap Block.place ++
      (next :: rest.filterMap Frame.place) := by
    rw [IperfRunner.waits, stack]
    rfl
  have token := sound.token
  rw [waits, List.length_append, List.length_cons] at token
  have bound := Bool.toNat_le runner.engine.isSyncing
  have noBlock : runner.stateQueue.filterMap Block.place = [] :=
    List.length_eq_zero_iff.mp (by omega)
  have noFrame : rest.filterMap Frame.place = [] := List.length_eq_zero_iff.mp (by omega)
  constructor
  · rw [place, waits, noBlock]
    rfl
  · simp [IperfRunner.waits, noBlock, noFrame]

theorem Sound.sync {rest : List Frame} (sound : runner.Sound)
    (stack : runner.stack = .sync next :: rest) (awake : next.isSyncing = false) :
    Base { runner with stack := rest, engine := next } ∧
      { runner with stack := rest, engine := next }.place = runner.place := by
  obtain ⟨place, waits⟩ := sound.place_of_sync stack
  have owed : { runner with stack := rest, engine := next }.owed = runner.owed := owed_pop stack rfl
  refine ⟨{ sound.toBase with token := ?_, accounts := by rw [owed]; exact sound.accounts }, ?_⟩
  · rw [waits]
    exact (congrArg Bool.toNat awake).symm
  · rw [IperfRunner.place, waits, place]
    rfl

/-- A block pays the run it owes. -/
theorem Sound.pay {rest : List Frame} (sound : runner.Sound)
    (stack : runner.stack = .finished (some run) :: rest) :
    ({ runner with stack := rest, state := .finished }.dispatch (some run)).Base ∧
      ({ runner with stack := rest, state := .finished }.dispatch (some run)).place =
        runner.place := by
  have owed : runner.owed = run :: rest.filterMap Frame.owed := by
    rw [IperfRunner.owed, stack]
    rfl
  have waits : { runner with stack := rest, state := .finished }.waits = runner.waits :=
    waits_pop stack rfl
  have accounts := sound.accounts
  rw [owed] at accounts
  constructor
  · apply base_dispatch
    · rw [waits]
      exact sound.token
    · exact sound.callbacks
    · exact sound.noTest
    · exact sound.liveTest
    · exact accounts
  · rw [place_dispatch, place, waits, place]

/-- What a quiet frame may change. -/
structure Quietly (runner other : IperfRunner) (rest : List Frame) : Prop where
  base : other.Base
  active : other.activeRun = runner.activeRun
  pending : other.pendingRunID = runner.pendingRunID
  test : other.currentTest = runner.currentTest
  configuration : other.configuration = runner.configuration
  stack : other.stack = rest
  place : other.place = runner.place
  lives : ∀ run, runner.activeRun = some run →
    lifeOf run.id other.log = lifeOf run.id runner.log

theorem Sound.quietly {frame : Frame} {rest : List Frame}
    {configurationError : Option IperfError} (sound : runner.Sound)
    (stack : runner.stack = frame :: rest) (quiet : frame.isQuiet) :
    runner.Quietly ({ runner with stack := rest }.proceed configurationError frame) rest := by
  cases frame with
  | releasing =>
      exact ⟨sound.toBase.pop stack rfl rfl, rfl, rfl, rfl, rfl, rfl, place_pop stack rfl,
        fun _ _ => rfl⟩
  | sync next =>
      cases next with
      | idle =>
          obtain ⟨base, place⟩ := sound.sync stack rfl
          exact ⟨base, rfl, rfl, rfl, rfl, rfl, place, fun _ _ => rfl⟩
      | _ => cases quiet
  | finished run =>
      cases run with
      | none =>
          exact ⟨{ sound.toBase.pop stack rfl rfl with }, rfl, rfl, rfl, rfl, rfl,
            place_pop stack rfl, fun _ _ => rfl⟩
      | some ended =>
          obtain ⟨base, place⟩ := sound.pay stack
          obtain ⟨blocks, dispatched, _⟩ :=
            @dispatch_some { runner with stack := rest, state := .finished } ended
          have distinct : ∀ run, runner.activeRun = some run → ended.id ≠ run.id := by
            intro run active same
            have apart := sound.accounts.apart
            rw [active, IperfRunner.owed, stack] at apart
            simp [Frame.owed, same] at apart
          show runner.Quietly ({ runner with stack := rest, state := .finished }.dispatch
            (some ended)) rest
          refine ⟨base, ?_, ?_, ?_, ?_, ?_, place, ?_⟩ <;> rw [dispatched]
          intro run active
          exact lifeOf_completion_other (distinct run active)
  | _ => cases quiet

theorem Sound.resume_initialising {rest : List Frame} (sound : runner.Sound)
    (stack : runner.stack = .initialising run.id :: rest) (active : runner.activeRun = some run)
    (pending : runner.pendingRunID = none) (test : runner.currentTest = none)
    (quiet : ∀ frame ∈ rest, frame.isQuiet) (away : runner.place.process = none)
    (life : lifeOf run.id runner.log = some (.waiting run runner.configuration)) :
    ({ runner with stack := rest }.proceed configurationError (.initialising run.id)).Sound := by
  have base := sound.toBase.pop stack rfl rfl
  have published : Base { runner with stack := rest, state := .initialising } := { base with }
  have place : { runner with stack := rest, state := .initialising }.place = runner.place :=
    place_pop stack rfl
  rw [proceed]
  dsimp only
  split
  · exact published.onError active pending quiet (by rw [place]; exact away) (Or.inl test) life
      rfl (by simp)
  · exact {
      toBase := { published with }
      control := .queued active rfl test quiet ((congrArg Engine.process place).trans away) life }

theorem Sound.resume_failing {rest : List Frame} (sound : runner.Sound)
    (stack : runner.stack = frame :: rest) (active : runner.activeRun = some run)
    (pending : runner.pendingRunID = none) (quiet : ∀ frame ∈ rest, frame.isQuiet)
    (away : runner.place.process = none) (held : runner.currentTest = none ∨ .sync .idle ∈ rest)
    (fails : runner.Fails run frame) :
    ({ runner with stack := rest }.proceed configurationError frame).Sound := by
  cases fails with
  | @state error capture life carried =>
      have base := sound.toBase.pop stack rfl rfl
      have published : Base { runner with stack := rest, state := .error } := { base with }
      have own : (Event.failed runner.callbacks error).run = some run.id :=
        sound.callbacks run active
      have place : { runner with stack := rest, state := .error }.place = runner.place :=
        place_pop stack rfl
      have closing : ∃ ending, Life.next (.errorShown run capture)
          (.failed runner.callbacks error) = some (.closing run ending) ∧
            ending ≠ .deallocated := by
        cases capture with
        | none => exact ⟨.refused error, rfl, by simp⟩
        | some taken => exact ⟨.failed taken, by simp [Life.next, carried taken rfl], by simp⟩
      obtain ⟨ending, admitted, cause⟩ := closing
      exact {
        toBase := (published.record _ active own).push rfl rfl
        control := .failing active pending rfl quiet
          ((congrArg Engine.process ((place_push rfl).trans place)).trans away) held
          (.function (lifeOf_record life own admitted) cause rfl) }
  | @function ending life cause state =>
      have base := sound.toBase.pop stack rfl rfl
      have place : { runner with stack := rest }.place = runner.place := place_pop stack rfl
      apply base.cleanState active quiet (by rw [place]; exact away) life
      · intro visible
        rw [show _ = runner.state from rfl, state] at visible
        simp at visible
      · intro _
        exact ⟨ending, by simp [Life.next], fun _ => cause⟩

/-- The callback of a frame returns, and what it showed is stored. -/
theorem Sound.land {rest : List Frame} (sound : runner.Sound)
    (stack : runner.stack = frame :: rest) (unplaced : frame.place = none)
    (unowed : frame.owed = none) (occupied : runner.Occupied run process measurement)
    (position : runner.place.process = some process) (located : Located runner.place measurement)
    (shape : rest = [] ∨ ∃ next, rest = [.sync next]) :
    Sound { runner with stack := rest, state := measurement.shown } ∧
      { runner with stack := rest, state := measurement.shown }.place = runner.place := by
  have place : { runner with stack := rest, state := measurement.shown }.place = runner.place :=
    place_pop stack unplaced
  refine ⟨⟨{ sound.toBase.pop stack unplaced unowed with }, .testing { occupied with }
    (by rw [place]; exact position) (by rw [place]; exact located) ?_⟩, place⟩
  rcases shape with empty | ⟨next, only⟩
  · exact .idle empty rfl
  · exact .resuming only rfl

theorem Base.updateTest (base : runner.Base) (pointer : Pointer) (change : Test → Test)
    (address : ∀ test, (change test).pointer = test.pointer)
    (owner : ∀ test, (change test).run = test.run) : (runner.updateTest pointer change).Base where
  token := base.token
  callbacks := base.callbacks
  noTest := by
    intro none
    rw [IperfRunner.updateTest, base.noTest none, List.map_nil]
  liveTest := by
    intro current there
    obtain ⟨run, test, active, live, same, owned⟩ := base.liveTest current there
    refine ⟨run, if test.pointer = pointer then change test else test, active, ?_, ?_, ?_⟩
    · rw [IperfRunner.updateTest, live, List.map_singleton]
    · split_ifs
      · exact (address test).trans same
      · exact same
    · split_ifs
      · exact (owner test).trans owned
      · exact owned
  accounts := base.accounts

/-- The first store of `iperf_request_test_stop`. -/
theorem Sound.storeStop (sound : runner.Sound) (stack : runner.stack = [])
    (occupied : runner.Occupied run process measurement)
    (position : runner.place.process = some process) (located : Located runner.place measurement)
    (state : runner.state = measurement.shown) (stopping : measurement.shown = .stopping) :
    (((runner.updateTest process.testPointer fun test =>
      { test with outputStopRequested := true }).record (.stopBegun runner.callbacks)).push
        (.requestDone process.testPointer)).Sound := by
  have own : (Event.stopBegun runner.callbacks).run = some run.id :=
    sound.callbacks run occupied.active
  have stored := sound.toBase.updateTest process.testPointer
    (fun test => { test with outputStopRequested := true }) (fun _ => rfl) fun _ => rfl
  have begun : (((runner.updateTest process.testPointer fun test =>
      { test with outputStopRequested := true }).record (.stopBegun runner.callbacks)).push
        (.requestDone process.testPointer)).Occupied run process
          { measurement with stopBegun := true } :=
    { occupied with
      life := lifeOf_record occupied.life own rfl
      flag := by
        intro test member
        obtain ⟨_, live, _, only, address, _⟩ := sound.liveTest _ occupied.test
        have inside : test ∈ runner.tests.map fun test =>
            if test.pointer = process.testPointer then { test with outputStopRequested := true }
            else test := member
        rw [only, List.map_singleton, if_pos address, List.mem_singleton] at inside
        rw [inside]
      kept := by
        intro test member keeps
        obtain ⟨old, inside, rfl⟩ := List.mem_map.mp member
        have done := occupied.kept old inside keeps
        split_ifs
        · exact done
        · exact done }
  exact {
    toBase := (stored.record _ occupied.active own).push rfl rfl
    control := .testing begun (by rw [place_push rfl]; exact position)
      (by rw [place_push rfl]; exact ⟨located.armed, located.concluded⟩)
      (.requestDone (congrArg (List.cons (Frame.requestDone process.testPointer)) stack) state
        stopping) }

/-- The second store of `iperf_request_test_stop`. -/
theorem Sound.storeDone (sound : runner.Sound) (stack : runner.stack = [])
    (occupied : runner.Occupied run process measurement)
    (position : runner.place.process = some process) (located : Located runner.place measurement)
    (state : runner.state = measurement.shown) (stopping : measurement.shown = .stopping) :
    ((runner.updateTest process.testPointer fun test => { test with done := true }).record
      (.stopCompleted runner.callbacks)).Sound := by
  have own : (Event.stopCompleted runner.callbacks).run = some run.id :=
    sound.callbacks run occupied.active
  have stored : (runner.updateTest process.testPointer fun test =>
      { test with done := true }).Sound := sound.updateDone fun _ _ _ _ _ => rfl
  have admitted : measurement.next run (.stopCompleted runner.callbacks) =
      some (.measuring run { measurement with stopCompleted := true, kept := true }) := by
    simp [Measurement.next, stopping]
  have completed : ((runner.updateTest process.testPointer fun test =>
      { test with done := true }).record (.stopCompleted runner.callbacks)).Occupied run process
        { measurement with stopCompleted := true, kept := true } :=
    { occupied with
      life := lifeOf_record occupied.life own admitted
      flag := by
        intro test member
        obtain ⟨old, inside, rfl⟩ := List.mem_map.mp member
        rw [← occupied.flag old inside]
        split_ifs <;> rfl
      kept := by
        intro test member _
        obtain ⟨_, live, _, only, address, _⟩ := sound.liveTest _ occupied.test
        have inside : test ∈ runner.tests.map fun test =>
            if test.pointer = process.testPointer then { test with done := true }
            else test := member
        rw [only, List.map_singleton, if_pos address, List.mem_singleton] at inside
        rw [inside] }
  exact {
    toBase := stored.toBase.record _ occupied.active own
    control := .testing completed position ⟨located.armed, located.concluded⟩
      (.idle stack state) }

theorem Sound.resume_testing {rest : List Frame} (sound : runner.Sound)
    (stack : runner.stack = frame :: rest) (occupied : runner.Occupied run process measurement)
    (position : runner.place.process = some process) (located : Located runner.place measurement)
    (point : runner.Point process.testPointer measurement.shown) :
    ({ runner with stack := rest }.proceed configurationError frame).Sound := by
  have land := fun unplaced unowed =>
    sound.land stack unplaced unowed occupied position located
  have kept : runner.state = measurement.shown → { runner with stack := rest } =
      { runner with stack := rest, state := measurement.shown } := by
    intro state
    rw [← state]
  cases point with
  | idle shape => rw [stack] at shape; cases shape
  | releasing shape state =>
      rw [stack] at shape
      cases shape
      rw [kept state]
      exact (land rfl rfl (Or.inl rfl)).1
  | stopping shape state =>
      rw [stack] at shape
      cases shape
      obtain ⟨landed, place⟩ := land rfl rfl (Or.inl rfl)
      rw [← state] at landed place
      exact {
        toBase := landed.toBase.push rfl rfl
        control := .testing { occupied with }
          ((congrArg Engine.process ((place_push rfl).trans place)).trans position)
          (located.at ((place_push rfl).trans place))
          (.requestStop rfl state state.symm) }
  | requestStop shape state stopping =>
      rw [stack] at shape
      cases shape
      rw [kept state]
      obtain ⟨landed, place⟩ := land rfl rfl (Or.inl rfl)
      exact landed.storeStop rfl { occupied with } (by rw [place]; exact position)
        (by rw [place]; exact located) rfl stopping
  | requestDone shape state stopping =>
      rw [stack] at shape
      cases shape
      rw [kept state]
      obtain ⟨landed, place⟩ := land rfl rfl (Or.inl rfl)
      exact landed.storeDone rfl { occupied with } (by rw [place]; exact position)
        (by rw [place]; exact located) rfl stopping
  | @entering next shape state =>
      rw [stack] at shape
      cases shape
      obtain ⟨landed, _⟩ := land rfl rfl (Or.inr ⟨next, rfl⟩)
      rw [← state] at landed
      exact landed
  | @restarting next shape state running =>
      rw [stack] at shape
      cases shape
      rw [kept state]
      obtain ⟨landed, _⟩ := land rfl rfl (Or.inr ⟨next, rfl⟩)
      have same : { runner with stack := [.sync next], state := measurement.shown }.Occupied run
          process measurement := { occupied with }
      apply landed.updateDone
      intro other found again occupies keeps
      rw [same.unique occupies, occupied.unkept running] at keeps
      cases keeps
  | @reported next delivers shape state =>
      rw [stack] at shape
      cases shape
      obtain ⟨landed, place⟩ := land rfl rfl (Or.inr ⟨next, rfl⟩)
      rw [← state] at landed place
      apply landed.deliver rfl
      rw [place, position]
      simp
  | @delivering next shape state =>
      rw [stack] at shape
      cases shape
      rw [kept state]
      exact (land rfl rfl (Or.inr ⟨next, rfl⟩)).1
  | @resuming next shape state =>
      rw [stack] at shape
      cases shape
      have awake : next.isSyncing = false := by
        rw [(sound.place_of_sync stack).1] at position
        cases next with
        | syncing run => cases position
        | _ => rfl
      obtain ⟨base, place⟩ := sound.sync stack awake
      exact {
        toBase := base
        control := .testing { occupied with } ((congrArg Engine.process place).trans position)
          (located.at place)
          (.idle rfl state) }

theorem Sound.resume {rest : List Frame} (sound : runner.Sound)
    (stack : runner.stack = frame :: rest) :
    ({ runner with stack := rest }.proceed configurationError frame).Sound := by
  cases sound.control with
  | free active pending test quiet away =>
      have top := quiet frame (by simp [stack])
      have quietly := @Sound.quietly _ _ _ configurationError sound stack top
      refine ⟨quietly.base, .free (quietly.active.trans active) (quietly.pending.trans pending)
        (quietly.test.trans test) ?_ (by rw [quietly.place]; exact away)⟩
      rw [quietly.stack]
      intro other member
      exact quiet other (by rw [stack]; exact List.mem_cons_of_mem frame member)
  | queued active pending test quiet away life =>
      have top := quiet frame (by simp [stack])
      have quietly := @Sound.quietly _ _ _ configurationError sound stack top
      refine ⟨quietly.base, .queued (quietly.active.trans active) (quietly.pending.trans pending)
        (quietly.test.trans test) ?_ (by rw [quietly.place]; exact away)
        (by rw [quietly.lives _ active, quietly.configuration]; exact life)⟩
      rw [quietly.stack]
      intro other member
      exact quiet other (by rw [stack]; exact List.mem_cons_of_mem frame member)
  | starting active pending test shape quiet away life =>
      rw [stack] at shape
      cases shape
      exact sound.resume_initialising stack active pending test quiet away life
  | cancelling active pending test shape away life =>
      rw [stack] at shape
      cases shape
      have base := sound.toBase.pop stack rfl rfl
      have stopping : Base { runner with stack := [], state := .stopping } := { base with }
      apply stopping.cleanState active (by simp) _ life
      · intro _
        exact ⟨_, rfl, .cancelled, by simp [Life.next], by simp⟩
      · intro neither
        exact absurd (Or.inr rfl) neither
      · exact (congrArg Engine.process (place_pop stack rfl)).trans away
  | failing active pending shape quiet away held fails =>
      rw [stack] at shape
      cases shape
      exact sound.resume_failing stack active pending quiet away held fails
  | testing occupied position located point =>
      exact sound.resume_testing stack occupied position located point

/-! ### The engine thread -/

/-- An engine thread inside a process is at a control point of that process. -/
theorem Sound.inside (sound : runner.Sound) (awake : runner.engine.isSyncing = false)
    (inside : runner.engine.process = some process) :
    ∃ run measurement, runner.Occupied run process measurement ∧
      Located runner.engine measurement ∧ runner.Point process.testPointer measurement.shown := by
  rw [← sound.place_eq awake] at inside ⊢
  exact sound.control.inside inside

/-- The engine thread moves. -/
theorem Sound.move (sound : runner.Sound) (awake : runner.engine.isSyncing = false)
    (still : next.isSyncing = false) :
    Base { runner with engine := next } ∧ { runner with engine := next }.place = next := by
  have waits : { runner with engine := next }.waits = [] := sound.waits_eq_nil awake
  refine ⟨{ sound.toBase with token := ?_ }, by rw [place, waits]; rfl⟩
  rw [waits]
  exact (congrArg Bool.toNat still).symm

theorem Sound.call (sound : runner.Sound) (engine : runner.engine = .calling process) :
    ({ runner with engine := .native process }.record (.called process.run)).Sound := by
  have awake : runner.engine.isSyncing = false := by rw [engine]; rfl
  obtain ⟨run, measurement, occupied, located, point⟩ :=
    sound.inside awake (show runner.engine.process = some process by rw [engine]; rfl)
  rw [engine] at located
  obtain ⟨moved, place⟩ := @Sound.move runner (.native process) sound awake rfl
  have own : (Event.called process.run).run = some run.id := congrArg some occupied.owner
  have admitted : measurement.next run (.called process.run) =
      some (.measuring run { measurement with armed := false, last := none }) := by
    simp [Measurement.next, show measurement.armed = true from located.armed]
  have called := occupied.record _ own admitted rfl id
  have arrived : Located (.native process) { measurement with armed := false, last := none } :=
    ⟨rfl, fun outcome reached => by cases reached⟩
  exact {
    toBase := moved.record _ occupied.active own
    control := .testing { called with } (congrArg Engine.process place) (arrived.at place)
      (point.transport rfl rfl) }

theorem Sound.nativeReturn {code : Int} (sound : runner.Sound)
    (engine : runner.engine = .native process) :
    Sound { runner with engine := .returned process code error } := by
  have awake : runner.engine.isSyncing = false := by rw [engine]; rfl
  obtain ⟨moved, place⟩ := @Sound.move runner (.returned process code error) sound awake rfl
  refine @Sound.transport_tests runner { runner with engine := .returned process code error } sound
    ⟨rfl, rfl, rfl, rfl, rfl, rfl, rfl, rfl, rfl, rfl⟩ ?_ ?_ moved.token rfl
  · rw [place, sound.place_eq awake, engine]
    rfl
  · intro measurement located
    rw [sound.place_eq awake, engine] at located
    rw [place]
    exact ⟨located.armed, fun outcome reached => by cases reached⟩

theorem Sound.capture {code : Int} (sound : runner.Sound)
    (engine : runner.engine = .returned process code error) :
    (runner.capture process code error).Sound := by
  have awake : runner.engine.isSyncing = false := by rw [engine]; rfl
  obtain ⟨run, measurement, occupied, located, point⟩ :=
    sound.inside awake (show runner.engine.process = some process by rw [engine]; rfl)
  rw [engine] at located
  obtain ⟨_, test, _, live, address, _⟩ := sound.liveTest _ occupied.test
  have found : runner.findTest process.testPointer = some test := by
    simp [findTest, live, address]
  have flag : test.outputStopRequested = measurement.stopBegun :=
    occupied.flag test (by simp [live])
  have seen : runner.stopSeen process = measurement.stopSeen := by
    rw [IperfRunner.stopSeen, Measurement.stopSeen, Measurement.isLimited, occupied.agreed,
      occupied.owner]
    by_cases limited : process.configuration.serverOutputByteLimit ≠ none
    · rw [if_pos limited, decide_eq_true limited, if_pos rfl]
      exact contains_stopBegun occupied.life
    · rw [if_neg limited, decide_eq_false limited, if_neg Bool.false_ne_true]
      exact contains_stopCompleted occupied.life
  let taken : Capture :=
    { outcome := ⟨code, error, wasStopped process.configuration test⟩
      stopSeen := runner.stopSeen process
      done := test.done }
  have admitted : measurement.next run (.captured process.run taken) =
      some (.measuring run { measurement with last := some taken }) := by
    have allowed : measurement.admits taken = true := by
      apply decide_eq_true
      refine ⟨seen, ?_⟩
      simp only [taken, wasStopped, flag, Measurement.isLimited, occupied.agreed,
        decide_eq_true_eq]
    simp [Measurement.next, allowed]
  have own : (Event.captured process.run taken).run = some run.id := congrArg some occupied.owner
  have captured := occupied.record _ own admitted rfl id
  have reads : runner.capture process code error =
      { runner with engine := .captured process taken.outcome }.record
        (.captured process.run taken) := by
    simp [IperfRunner.capture, found, taken]
  obtain ⟨moved, place⟩ := @Sound.move runner (.captured process taken.outcome) sound awake rfl
  rw [reads]
  refine ⟨moved.record _ occupied.active own, .testing { captured with }
    (congrArg Engine.process place) ?_ (point.transport rfl rfl)⟩
  rw [place_record, place]
  exact ⟨located.armed, fun outcome reached => ⟨taken, rfl, Option.some_inj.mp reached⟩⟩

/-- The engine stores `done = 0` as it creates its timers. -/
theorem Sound.clear (sound : runner.Sound) (engine : runner.engine = .native process) :
    ((runner.updateTest process.testPointer fun test => { test with done := false }).record
      (.cleared process.run)).Sound := by
  have awake : runner.engine.isSyncing = false := by rw [engine]; rfl
  have inside : runner.engine.process = some process := by rw [engine]; rfl
  obtain ⟨run, measurement, occupied, located, point⟩ := sound.inside awake inside
  rw [← sound.place_eq awake] at located
  have own : (Event.cleared process.run).run = some run.id := congrArg some occupied.owner
  have cleared := occupied.record _ own rfl rfl (by simp)
  have recorded : (runner.record (.cleared process.run)).Sound :=
    { toBase := sound.toBase.record _ occupied.active own
      control := .testing cleared ((congrArg Engine.process (sound.place_eq awake)).trans inside)
        ⟨located.armed, located.concluded⟩ (point.transport rfl rfl) }
  apply recorded.updateDone
  intro other next found again kept
  rw [cleared.unique again] at kept
  cases kept

theorem Sound.deallocate (sound : runner.Sound) (stack : runner.stack = [])
    (engine : runner.engine = .idle) :
    ({ runner with alive := false, activeRun := none, pendingRunID := none }.dispatch
      runner.activeRun).Sound := by
  have place : runner.place = .idle := (sound.place_eq (by rw [engine]; rfl)).trans engine
  have quiet : ∀ frame ∈ runner.stack, frame.isQuiet := by simp [stack]
  cases sound.settled stack with
  | free active pending test away =>
      have accounts := sound.accounts
      rw [active] at accounts
      rw [active]
      exact ⟨{ sound.toBase with
          callbacks := by
            intro run same
            cases same
          liveTest := by
            intro pointer current
            rw [show _ = runner.currentTest from rfl, test] at current
            cases current
          accounts := accounts.abandon },
        .free rfl rfl test quiet away⟩
  | @queued run active pending test away life =>
      have accounts := sound.accounts
      rw [active] at accounts
      have owes : Life.Owes false run (.waiting run runner.configuration) :=
        ⟨.deallocated, by simp [Life.next], by simp⟩
      rw [active]
      refine ⟨?_, Control.free_dispatch rfl rfl test quiet away⟩
      apply base_dispatch
      · exact sound.token
      · intro context same
        cases same
      · exact sound.noTest
      · intro pointer current
        rw [show _ = runner.currentTest from rfl, test] at current
        cases current
      · exact accounts.abandon.clear life owes
  | testing _ position =>
      rw [place] at position
      cases position

/-! ### Any action -/

theorem Sound.begin {preparation : Preparation} (sound : runner.Sound) (stack : runner.stack = [])
    (queue : runner.stateQueue = block :: rest) :
    ({ runner with stateQueue := rest }.begin preparation block).Sound := by
  cases block with
  | start configuration onResourcesReleased => exact (sound.take queue rfl).start
  | stop => exact (sound.take queue rfl).stopCurrentTest stack
  | release run callback => exact (sound.take queue rfl).release stack
  | prepare runID => exact sound.prepare stack queue
  | report process state delivers => exact sound.handleReporterStatus stack queue
  | jsonStream process => exact sound.handleJSONStreamOutput stack queue
  | decide process outcome => exact sound.decideRestart stack queue
  | finish process outcome => exact sound.finishProcess stack queue

theorem sound_step {next : IperfRunner} {action : Action} (sound : runner.Sound)
    (stepped : runner.step action = some next) : next.Sound := by
  cases action <;> simp only [step] at stepped
  case start configuration onResourcesReleased | stop =>
    split_ifs at stepped
    cases stepped
    exact sound.enqueue rfl
  case next preparation =>
    split at stepped
    · rename_i block rest stack queue
      cases stepped
      exact sound.begin stack queue
    · cases stepped
  case inlineStart onResourcesReleased =>
    split at stepped
    · split_ifs at stepped
      cases stepped
      exact sound.startRun
    · cases stepped
  case resume configurationError =>
    split at stepped
    · rename_i frame rest stack
      cases stepped
      exact sound.resume stack
    · cases stepped
  case dequeue =>
    split at stepped
    · rename_i runID rest engine queue
      have dropped : Sound { runner with engineQueue := rest } :=
        sound.transport_tests ⟨rfl, rfl, rfl, rfl, rfl, rfl, rfl, rfl, rfl, rfl⟩ rfl
          (fun _ => id) sound.token rfl
      split_ifs at stepped
      · cases stepped
        exact dropped.syncOn (by rw [engine]; rfl) (by rw [engine]; rfl)
      · cases stepped
        exact dropped
    · cases stepped
  case call =>
    split at stepped
    · rename_i process engine
      cases stepped
      exact sound.call engine
    · cases stepped
  case createTimers duration =>
    split at stepped
    · rename_i process engine
      cases stepped
      split_ifs
      · exact sound.clear engine
      · exact sound
    · cases stepped
  case setDone =>
    split at stepped
    · cases stepped
      exact sound.updateDone fun _ _ _ _ _ => rfl
    · cases stepped
  case report state delivers | jsonStream =>
    split at stepped
    · rename_i process engine
      cases stepped
      exact sound.syncOn (by rw [engine]; rfl) (by rw [engine]; rfl)
    · cases stepped
  case nativeReturn code error =>
    split at stepped
    · rename_i process engine
      cases stepped
      exact sound.nativeReturn engine
    · cases stepped
  case capture =>
    split at stepped
    · rename_i process code error engine
      cases stepped
      exact sound.capture engine
    · cases stepped
  case decide | finish =>
    split at stepped
    · rename_i process outcome engine
      cases stepped
      exact sound.syncOn (by rw [engine]; rfl) (by rw [engine]; rfl)
    · cases stepped
  case deallocate =>
    split_ifs at stepped with allowed
    cases stepped
    exact sound.deallocate allowed.2.1 allowed.2.2.1

/-- The invariant holds after every schedule of a new runner. -/
theorem sound_run {configuration : IperfConfiguration} {actions : List Action}
    {final : IperfRunner}
    (run : execute step (IperfRunner.new configuration) actions = some final) : final.Sound :=
  execute_invariant sound_step run (sound_new configuration)

end IperfSwift.Lifecycle.IperfRunner
