import IperfSwift.Lifecycle.System

/-!
Contract: a stop request stays in effect.

Owns: what follows a completed `iperf_request_test_stop` inside the engine: no native call,
and `done` as long as no timer creation stores to it.

Does not own: which steps set `done`, or how the run is reported.
-/

set_option autoImplicit false

namespace IperfSwift.Lifecycle

open IperfSwift.Lib

variable {before after past : List Event}

/-! ### After the mark -/

/-- A mark that is in neither end of a list splits its middle. -/
theorem split_in_middle {mark : Event} {left middle right : List Event}
    (whole : left ++ middle ++ right = before ++ mark :: after) (notLeft : mark ∉ left)
    (notRight : mark ∉ right) :
    ∃ first rest, before = left ++ first ∧ middle = first ++ mark :: rest ∧
      after = rest ++ right := by
  have inside : mark ∈ middle := by
    have member : mark ∈ left ++ middle ++ right := by simp [whole]
    simpa [notLeft, notRight] using member
  rcases List.append_eq_append_iff.mp whole with ⟨more, same, later⟩ | ⟨more, same, later⟩
  · exact absurd (by simp [later]) notRight
  · rcases List.append_eq_append_iff.mp same with ⟨first, past, tail⟩ | ⟨first, past, tail⟩
    · cases more with
      | nil =>
          rw [List.nil_append] at later
          exact absurd (by rw [← later]; simp) notRight
      | cons head rest =>
          obtain ⟨rfl, rfl⟩ := List.cons.inj later
          exact ⟨first, rest, past, tail, rfl⟩
    · cases first with
      | nil =>
          rw [List.nil_append] at tail
          rw [List.append_nil] at past
          subst tail
          cases more with
          | nil => cases inside
          | cons head rest =>
              obtain ⟨rfl, rfl⟩ := List.cons.inj later
              exact ⟨[], rest, by simp [past], rfl, rfl⟩
      | cons head rest =>
          rw [tail, List.cons_append, List.cons_append] at later
          obtain ⟨rfl, _⟩ := List.cons.inj later
          exact absurd (by simp [past]) notLeft

theorem rearm_eq_false (inner : ∀ event ∈ past, event.isInner) (none : ∀ id, .restarted id ∉ past) :
    past.foldl Event.rearm false = false := by
  induction past with
  | nil => rfl
  | cons event rest inductionHypothesis =>
      have head : event.rearm false = false := by
        have isInner := inner event List.mem_cons_self
        cases event with
        | restarted id => exact absurd List.mem_cons_self (none id)
        | entered id configuration => cases isInner
        | _ => rfl
      rw [List.foldl_cons, head]
      exact inductionHypothesis (fun other member => inner other (List.mem_cons_of_mem _ member))
        (fun id member => none id (List.mem_cons_of_mem _ member))

theorem rekeep_eq_true (untouched : ∀ id, .cleared id ∉ past) (none : ∀ id, .restarted id ∉ past) :
    past.foldl Event.rekeep true = true := by
  induction past with
  | nil => rfl
  | cons event rest inductionHypothesis =>
      have head : event.rekeep true = true := by
        cases event with
        | restarted id => exact absurd List.mem_cons_self (none id)
        | cleared id => exact absurd List.mem_cons_self (untouched id)
        | _ => rfl
      rw [List.foldl_cons, head]
      exact inductionHypothesis (fun id member => untouched id (List.mem_cons_of_mem _ member))
        (fun id member => none id (List.mem_cons_of_mem _ member))

section Measured

variable {past first rest : List Event} {measurement : Measurement} {owner : Option RunID}

/-- A call after a completed stop was already due when the stop completed. -/
theorem Measured.no_call_after_stop (measured : Measured past measurement)
    (split : past = first ++ .stopCompleted owner :: rest)
    (unarmed : first.foldl Event.rearm true = false) (id : RunID) : .called id ∉ rest := by
  intro member
  obtain ⟨left, right, rfl⟩ := List.append_of_mem member
  have due := measured.due (first ++ .stopCompleted owner :: left) id right (by simp [split])
  have stays := measured.stays first owner _ split
  have quiet : left.foldl Event.rearm false = false := by
    apply rearm_eq_false
    · exact fun event earlier => measured.inner event (by simp [split, earlier])
    · exact fun other earlier => stays other (List.mem_append_left _ earlier)
  rw [List.foldl_append, unarmed, List.foldl_cons,
    show Event.rearm false (.stopCompleted owner) = false from rfl, quiet] at due
  cases due

/-- A completed stop is kept where nothing clears `done`. -/
theorem Measured.kept_after_stop (measured : Measured past measurement)
    (split : past = first ++ .stopCompleted owner :: rest)
    (untouched : ∀ id, .cleared id ∉ rest) : measurement.kept := by
  rw [← measured.kept, split, List.foldl_append, List.foldl_cons]
  exact rekeep_eq_true untouched (measured.stays first owner rest split)

end Measured

/-- Where a completed stop is in the past of a run that entered the engine. -/
theorem Inside.split_of_stop {outer : List Event} {run : RunContext} {measurement : Measurement}
    {owner : Option RunID} (inside : Inside past run measurement)
    (only : ∀ event ∈ outer, event.isOuter)
    (split : past ++ outer = before ++ .stopCompleted owner :: after) :
    ∃ first rest, Measured (first ++ .stopCompleted owner :: rest) measurement ∧
      armedAfter before = first.foldl Event.rearm true ∧ after = rest ++ outer := by
  obtain ⟨owners, id, inner, rfl, measured⟩ := inside
  obtain ⟨first, rest, rfl, rfl, rfl⟩ := split_in_middle split (by simp [birth])
    (fun member => Bool.false_ne_true (only _ member))
  exact ⟨first, rest, measured, by rw [armedAfter, List.foldl_append]; rfl, rfl⟩

/-- Only a run that entered the engine has a completed stop. -/
theorem Shape.inside_of_stop {run : RunContext} {owner : Option RunID} (shape : Shape past run)
    (member : .stopCompleted owner ∈ past) :
    ∃ measurement before outer, past = before ++ outer ∧ Inside before run measurement ∧
      ∀ event ∈ outer, event.isOuter := by
  cases shape with
  | early split only =>
      rw [split] at member
      rcases List.mem_cons.mp member with same | later
      · cases same
      · cases only _ later
  | entering split only =>
      rw [split] at member
      simp only [List.mem_cons, reduceCtorEq, false_or] at member
      cases only _ member
  | inside split inside only => exact ⟨_, _, _, split, inside, only⟩

theorem history_of_stop {id : RunID} {log : List Event}
    (split : log = before ++ .stopCompleted (some id) :: after) :
    history id log = history id before ++ .stopCompleted (some id) :: history id after := by
  rw [split, history_append, ← List.singleton_append, history_append, history_own rfl,
    List.singleton_append]

/-! ### The request -/

namespace IperfRunner.Sound

variable {runner : IperfRunner} {id : RunID} {before after : List Event}

theorem no_call_after_stop (sound : runner.Sound)
    (split : runner.log = before ++ .stopCompleted (some id) :: after)
    (inCall : armedAfter (history id before) = false) : .called id ∉ after := by
  intro called
  obtain ⟨life, now⟩ := sound.life_exists id
  have remembers := lifeOf_remembers now
  have past := history_of_stop split
  have member : .stopCompleted (some id) ∈ history id runner.log := by simp [past]
  cases context : life.context with
  | none =>
      rw [Life.past_of_no_context remembers context] at member
      cases member
  | some run =>
      obtain ⟨measurement, inner, outer, whole, inside, only⟩ :=
        (Life.shape remembers context).1.inside_of_stop member
      obtain ⟨first, rest, measured, armed, later⟩ :=
        inside.split_of_stop only (whole.symm.trans past)
      have own : .called id ∈ history id after := mem_history.mpr ⟨called, rfl⟩
      rw [later] at own
      rcases List.mem_append.mp own with within | outside
      · exact measured.no_call_after_stop rfl (armed.symm.trans inCall) id within
      · cases only _ outside

/-- While the native call is in progress, `done` stays set. -/
theorem done_after_stop {process : Process} (sound : runner.Sound)
    (split : runner.log = before ++ .stopCompleted (some id) :: after)
    (untouched : .cleared id ∉ after) (native : runner.place = .native process)
    (owner : process.run = id) : ∀ test ∈ runner.tests, test.done := by
  have position : runner.place.process = some process := by rw [native]; rfl
  cases sound.control with
  | @testing run _ measurement occupied here located point =>
      rw [position, Option.some_inj] at here
      subst here
      have identity := occupied.owner.symm.trans owner
      have inside : Inside (history id runner.log) run measurement := by
        rw [← identity]
        exact lifeOf_remembers occupied.life
      obtain ⟨first, rest, measured, armed, later⟩ := inside.split_of_stop (by simp)
        ((List.append_nil _).trans (history_of_stop split))
      have kept := measured.kept_after_stop rfl (by
        intro other member
        rw [List.append_nil] at later
        rw [← later] at member
        obtain ⟨inLog, belongs⟩ := mem_history.mp member
        cases belongs
        exact untouched inLog)
      exact fun test member => occupied.kept test member kept
  | free active pending test quiet away | queued active pending test quiet away life
  | cancelling active pending test stack away life
  | failing active pending stack quiet away held fails => rw [away] at position; cases position
  | starting active pending test stack quiet away life =>
      rw [away] at position
      cases position

end IperfRunner.Sound

/-- In every run, once a stop request has completed for a run that stands in no due native
call, no native call is made for it any more. `done` stays set during the call in progress
unless the engine creates the timers of a test with a duration afterwards. -/
theorem stop_request_stays {configuration : IperfConfiguration} {actions : List Action}
    {final : IperfRunner} {id : RunID} {before after : List Event}
    (run : execute IperfRunner.step (IperfRunner.new configuration) actions = some final)
    (log : final.log = before ++ .stopCompleted (some id) :: after)
    (inCall : armedAfter (history id before) = false) (untouched : .cleared id ∉ after) :
    .called id ∉ after ∧
      ∀ process, final.place = .native process → process.run = id →
        ∀ test ∈ final.tests, test.done = true := by
  have sound := IperfRunner.sound_run run
  exact ⟨sound.no_call_after_stop log inCall,
    fun process native owner => sound.done_after_stop log untouched native owner⟩

/-- A stop while the client is running its test. -/
theorem stop_while_running_stays : ∃ final : IperfRunner,
    execute IperfRunner.step (IperfRunner.new ⟨.client, false, none, 0⟩)
      [.start none none, .next .noTest, .resume none, .dequeue, .next (.ready 9), .resume none,
        .resume none, .call, .createTimers 10, .stop, .next .noTest, .resume none, .resume none,
        .resume none] = some final ∧
      final.tests ≠ [] ∧ ∀ test ∈ final.tests, test.done = true := by
  refine exists_run (fun final => (final.log.drop 9, armedAfter (history 0 (final.log.take 9)),
      final.place, final.tests.isEmpty))
    ([.stopCompleted (some 0)], false, .native ⟨0, 9, ⟨.client, false, none, 0⟩⟩, false)
    (by decide +kernel) fun final run facts => ?_
  simp only [Prod.mk.injEq] at facts
  obtain ⟨last, inCall, native, occupied⟩ := facts
  have split : final.log = final.log.take 9 ++ .stopCompleted (some 0) :: [] := by
    rw [← last, List.take_append_drop]
  exact ⟨by simpa using occupied,
    (stop_request_stays run split inCall (by simp)).2 _ native rfl⟩

/-- A stop while the client is connecting: the timers are created afterwards and clear
`done`. A stop before the native call: the call is made all the same. -/
theorem stop_before_timers_is_lost :
    (∃ final process before after,
      execute IperfRunner.step (IperfRunner.new ⟨.client, false, none, 0⟩)
        [.start none none, .next .noTest, .resume none, .dequeue, .next (.ready 9), .resume none,
          .resume none, .call, .stop, .next .noTest, .resume none, .resume none, .resume none,
          .createTimers 10] = some final ∧
        final.log = before ++ .stopCompleted (some 0) :: after ∧
        final.place = .native process ∧ process.run = 0 ∧
        ∃ test ∈ final.tests, test.done = false) ∧
    (∃ final before after,
      execute IperfRunner.step (IperfRunner.new ⟨.client, false, none, 0⟩)
        [.start none none, .next .noTest, .resume none, .dequeue, .next (.ready 9), .resume none,
          .resume none, .stop, .next .noTest, .resume none, .resume none, .resume none,
          .call] = some final ∧
        final.log = before ++ .stopCompleted (some 0) :: after ∧ .called 0 ∈ after) := by
  have clears : (execute IperfRunner.step (IperfRunner.new ⟨.client, false, none, 0⟩)
      [.start none none, .next .noTest, .resume none, .dequeue, .next (.ready 9), .resume none,
        .resume none, .call, .stop, .next .noTest, .resume none, .resume none, .resume none,
        .createTimers 10]).map (fun final => (final.log.drop 8, final.place, final.tests)) =
      some ([.stopCompleted (some 0), .cleared 0], .native ⟨0, 9, ⟨.client, false, none, 0⟩⟩,
        [⟨9, 0, false, true⟩]) := by
    decide +kernel
  have calls : (execute IperfRunner.step (IperfRunner.new ⟨.client, false, none, 0⟩)
      [.start none none, .next .noTest, .resume none, .dequeue, .next (.ready 9), .resume none,
        .resume none, .stop, .next .noTest, .resume none, .resume none, .resume none,
        .call]).map (fun final => final.log.drop 7) =
      some [.stopCompleted (some 0), .called 0] := by
    decide +kernel
  constructor
  · obtain ⟨final, run, facts⟩ := Option.map_eq_some_iff.mp clears
    simp only [Prod.mk.injEq] at facts
    obtain ⟨last, native, tests⟩ := facts
    exact ⟨final, _, final.log.take 8, [.cleared 0], run, by rw [← last, List.take_append_drop],
      native, rfl, ⟨9, 0, false, true⟩, by simp [tests], rfl⟩
  · obtain ⟨final, run, last⟩ := Option.map_eq_some_iff.mp calls
    exact ⟨final, final.log.take 7, [.called 0], run, by rw [← last, List.take_append_drop],
      by simp⟩

end IperfSwift.Lifecycle
