import IperfSwift.Lifecycle.System

/-!
Contract: what the callbacks of a run are told about its end.

Owns: that a run with a byte limit publishes one terminal state and publishes it last; when
a run that entered the engine ends in `.error` exactly if its last native call failed
without a stop.

Does not own: completions, or what the native engine measured.
-/

set_option autoImplicit false

namespace IperfSwift.Lifecycle

open IperfSwift.Lib

/-! ### Terminal states -/

theorem Terminated.only {shown before rest : List IperfRunnerState} {terminal : IperfRunnerState}
    (terminated : Terminated shown) (split : shown = before ++ terminal :: rest)
    (isTerminal : terminal.isTerminal) : rest = [] ∧ ∀ state ∈ before, ¬ state.isTerminal := by
  obtain ⟨first, last, rfl, _, unfinished⟩ := terminated
  rcases List.eq_nil_or_concat rest with rfl | ⟨middle, final, rfl⟩
  · obtain ⟨same, _⟩ := List.append_inj' split rfl
    exact ⟨rfl, same ▸ unfinished.nonterminal⟩
  · rw [List.concat_eq_append, ← List.cons_append, ← List.append_assoc] at split
    obtain ⟨same, _⟩ := List.append_inj' split rfl
    exact absurd isTerminal (unfinished.nonterminal terminal (by simp [same]))

theorem Terminated.running {shown : List IperfRunnerState} (terminated : Terminated shown) :
    shown.count .running ≤ 1 := by
  obtain ⟨first, last, rfl, isTerminal, unfinished⟩ := terminated
  have none : [last].count .running = 0 := by
    rw [List.count_eq_zero, List.mem_singleton]
    rintro rfl
    cases isTerminal
  rw [List.count_append, none]
  exact unfinished.running

/-- A run that was stopped before it entered the engine never shows `.running`. -/
theorem IperfRunner.Sound.cancelled_not_running {runner : IperfRunner} {id : RunID}
    {before after : List Event} (sound : runner.Sound)
    (split : runner.log = before ++ .stopped id :: after)
    (early : ∀ taken, .entered id taken ∉ before) :
    .running ∉ states (history id runner.log) := by
  intro running
  obtain ⟨life, now⟩ := sound.life_exists id
  obtain ⟨owner, taken, entered⟩ := Life.entered_of_running (lifeOf_remembers now) running
  obtain ⟨member, belongs⟩ := mem_history.mp entered
  have same : owner = id := Option.some_inj.mp belongs
  subst same
  rw [split, List.mem_append, List.mem_cons] at member
  rcases member with inside | impossible | later
  · exact early taken inside
  · cases impossible
  · obtain ⟨first, rest, rfl⟩ := List.append_of_mem later
    have entry : runner.log =
        (before ++ .stopped owner :: first) ++ .entered owner taken :: rest := by
      rw [split, List.append_assoc, List.cons_append]
    exact (entry_of_log now entry).2.1 (by simp)

/-- A run that is no longer active has shown its terminal state. -/
theorem IperfRunner.Sound.terminated_of_inactive {runner : IperfRunner} {context : RunContext}
    {taken : IperfConfiguration} (sound : runner.Sound) (alive : runner.alive)
    (accepted : .accepted context (some taken) ∈ history context.id runner.log)
    (limited : taken.serverOutputByteLimit ≠ none)
    (inactive : ∀ other, runner.activeRun = some other → other.id ≠ context.id) :
    Terminated (states (history context.id runner.log)) := by
  have accounts := sound.accounts
  rw [alive] at accounts
  have known := accounts.fresh _ (mem_history.mp accepted).1 context.id rfl
  by_cases involved : context.id ∈ (runner.activeRun.toList ++ runner.owed).map RunContext.id
  · obtain ⟨run, member, same⟩ := List.mem_map.mp involved
    rcases List.mem_append.mp member with current | later
    · exact absurd same (inactive run (Option.mem_toList.mp current))
    · obtain ⟨life, now, owes⟩ := accounts.owes run later
      rw [same] at now
      exact Life.terminated_of_owes (lifeOf_remembers now) owes accepted limited
  · obtain ⟨life, now, isOver⟩ := accounts.settled context.id known involved
    exact Life.terminated_of_isOver (lifeOf_remembers now) isOver accepted limited

/-- A run with a byte limit publishes at most one terminal state, publishes nothing after it,
and has published it once it is no longer active. It shows `.running` at most once, and
never if it was stopped while it was queued. -/
theorem limited_run_shows_one_terminal_state {configuration : IperfConfiguration}
    {actions : List Action} {final : IperfRunner} {context : RunContext}
    {taken : IperfConfiguration}
    (run : execute IperfRunner.step (IperfRunner.new configuration) actions = some final)
    (alive : final.alive) (accepted : .accepted context (some taken) ∈ final.log)
    (limited : taken.serverOutputByteLimit ≠ none) :
    (∀ before terminal rest,
      states (history context.id final.log) = before ++ terminal :: rest →
        terminal.isTerminal → rest = [] ∧ ∀ state ∈ before, ¬ state.isTerminal) ∧
    ((∀ other, final.activeRun = some other → other.id ≠ context.id) →
      ∃ terminal ∈ states (history context.id final.log), terminal.isTerminal) ∧
    (states (history context.id final.log)).count .running ≤ 1 ∧
    (∀ before after, final.log = before ++ .stopped context.id :: after →
      (∀ entry, .entered context.id entry ∉ before) →
        .running ∉ states (history context.id final.log)) := by
  have sound := IperfRunner.sound_run run
  have own : .accepted context (some taken) ∈ history context.id final.log :=
    mem_history.mpr ⟨accepted, rfl⟩
  obtain ⟨life, now⟩ := sound.life_exists context.id
  have told := Life.unfinished_or_terminated (lifeOf_remembers now) own limited
  refine ⟨?_, ?_, ?_, fun before after => sound.cancelled_not_running⟩
  · intro before terminal rest split isTerminal
    rcases told with unfinished | terminated
    · exact absurd isTerminal (unfinished.nonterminal terminal (by simp [split]))
    · exact terminated.only split isTerminal
  · intro inactive
    have terminated := sound.terminated_of_inactive alive own limited inactive
    obtain ⟨first, terminal, shown, isTerminal, _⟩ := terminated
    exact ⟨terminal, by simp [shown], isTerminal⟩
  · rcases told with unfinished | terminated
    · exact unfinished.running
    · exact terminated.running

/-- A persistent server with a byte limit, stopped while it listens. -/
theorem limited_server_shows_one_terminal_state : ∃ final : IperfRunner,
    execute IperfRunner.step (IperfRunner.new ⟨.server, false, some 4096, 0⟩)
      [.start none none, .next .noTest, .resume none, .dequeue, .next (.ready 9), .resume none,
        .resume none, .call, .stop, .next .noTest, .resume none, .resume none, .resume none,
        .nativeReturn 0 (.raw 0), .capture, .decide, .next .noTest, .resume none, .finish,
        .next .noTest, .resume none, .resume none] = some final ∧
      ∃ terminal ∈ states (history 0 final.log), terminal.isTerminal := by
  refine exists_run (fun final => (final.alive, final.activeRun, final.log.head?))
    (true, none, some (.accepted ⟨0, none⟩ (some ⟨.server, false, some 4096, 0⟩)))
    (by decide +kernel) fun final run facts => ?_
  simp only [Prod.mk.injEq] at facts
  obtain ⟨alive, inactive, first⟩ := facts
  exact (limited_run_shows_one_terminal_state run alive (List.mem_of_mem_head? first)
    (by simp)).2.1 (by simp [inactive])

/-! ### Failures -/

/-- The end of a run that entered the engine rests on its last capture. -/
theorem IperfRunner.Sound.concludes {runner : IperfRunner} {context : RunContext}
    {taken : IperfConfiguration} (sound : runner.Sound) (ended : .ended context ∈ runner.log)
    (entered : .entered context.id taken ∈ runner.log) :
    ∃ capture, Concludes (history context.id runner.log) taken capture := by
  obtain ⟨life, now⟩ := sound.life_exists context.id
  have remembers := lifeOf_remembers now
  apply Life.concludes remembers _ (mem_history.mpr ⟨entered, rfl⟩)
  intro isOpen
  have own : .ended context ∈ completions (history context.id runner.log) :=
    List.mem_filter.mpr ⟨mem_history.mpr ⟨ended, rfl⟩, rfl⟩
  rw [Life.no_completion remembers isOpen] at own
  cases own

/-- `.finished` and `.error` are never both the last state. -/
theorem Concludes.endsInError_iff {past : List Event} {configuration : IperfConfiguration}
    {capture : Capture} (concludes : Concludes past configuration capture) :
    (EndsInError past capture ↔ capture.outcome.isFailure) ∧
      (¬ EndsInError past capture → (states past).getLast? = some .finished) := by
  rcases concludes.told with ⟨error, failure⟩ | ⟨finished, success⟩
  · exact ⟨⟨fun _ => failure, fun _ => error⟩, fun not => absurd error not⟩
  · have noError : ¬ EndsInError past capture := by
      rintro ⟨shown, _⟩
      rw [finished] at shown
      cases shown
    exact ⟨⟨fun error => absurd error noError, fun failure => absurd failure success⟩,
      fun _ => finished⟩

/-- An ended run is in `.error` with the captured error exactly if its last native call
failed and no stop had taken effect, and in `.finished` otherwise, precisely when it has a
byte limit, or the call did not fail, or `done` was set just by stops. -/
theorem failure_reported_iff {configuration : IperfConfiguration} {actions : List Action}
    {final : IperfRunner} {context : RunContext} {taken : IperfConfiguration}
    (run : execute IperfRunner.step (IperfRunner.new configuration) actions = some final)
    (ended : .ended context ∈ final.log) (entered : .entered context.id taken ∈ final.log) :
    ∃ capture, lastCapture (history context.id final.log) = some capture ∧
      (((EndsInError (history context.id final.log) capture ↔
            capture.outcome.code < 0 ∧ capture.stopSeen = false) ∧
          (¬ EndsInError (history context.id final.log) capture →
            (states (history context.id final.log)).getLast? = some .finished)) ↔
        taken.serverOutputByteLimit ≠ none ∨ 0 ≤ capture.outcome.code ∨
          capture.done = capture.stopSeen) := by
  obtain ⟨capture, concludes⟩ := (IperfRunner.sound_run run).concludes ended entered
  obtain ⟨iff, otherwise⟩ := concludes.endsInError_iff
  refine ⟨capture, concludes.last, ?_⟩
  have flag := concludes.flag
  have failure : capture.outcome.isFailure ↔
      capture.outcome.code < 0 ∧ capture.outcome.wasStopped = false := by
    simp [Outcome.isFailure]
  rw [iff, failure, flag]
  constructor
  · rintro ⟨same, _⟩
    by_cases limited : taken.serverOutputByteLimit ≠ none
    · exact Or.inl limited
    · rw [if_neg limited] at same
      rcases Int.lt_or_le capture.outcome.code 0 with negative | nonnegative
      · refine Or.inr (Or.inr ?_)
        simp only [negative, true_and] at same
        cases done : capture.done <;> cases seen : capture.stopSeen <;> simp [done, seen] at same ⊢
      · exact Or.inr (Or.inl nonnegative)
  · intro condition
    refine ⟨?_, fun not => otherwise (by rwa [iff, failure, flag])⟩
    rcases condition with limited | nonnegative | same
    · rw [if_pos limited]
    · simp [not_lt.mpr nonnegative]
    · rw [same, ite_self]

/-- A client whose connection is refused. -/
theorem refused_connection_ends_in_error : ∃ final : IperfRunner,
    execute IperfRunner.step (IperfRunner.new ⟨.client, false, none, 0⟩)
      [.start none none, .next .noTest, .resume none, .dequeue, .next (.ready 9), .resume none,
        .resume none, .call, .nativeReturn (-1) (.raw 103), .capture, .decide, .next .noTest,
        .resume none, .finish, .next .noTest, .resume none, .resume none] = some final ∧
      EndsInError (history 0 final.log) ⟨⟨-1, .raw 103, false⟩, false, false⟩ := by
  refine exists_run (fun final => (final.log.contains (.ended ⟨0, none⟩),
      final.log.contains (.entered 0 ⟨.client, false, none, 0⟩),
      lastCapture (history 0 final.log)))
    (true, true, some ⟨⟨-1, .raw 103, false⟩, false, false⟩)
    (by decide +kernel) fun final run facts => ?_
  simp only [Prod.mk.injEq] at facts
  obtain ⟨ended, entered, last⟩ := facts
  obtain ⟨capture, same, reported⟩ := failure_reported_iff run
    (List.contains_iff_mem.mp ended) (List.contains_iff_mem.mp entered)
  rw [last, Option.some_inj] at same
  subst same
  exact ((reported.mpr (Or.inr (Or.inr rfl))).1).mpr ⟨by decide, rfl⟩

/-- A client that reaches its duration, so that the engine sets `done`, and then fails to
exchange the results: no stop was requested, and the failure is reported as `.finished`
without a call of `onError`. -/
theorem failure_after_duration_is_finished : ∃ final capture,
    execute IperfRunner.step (IperfRunner.new ⟨.client, false, none, 0⟩)
      [.start none none, .next .noTest, .resume none, .dequeue, .next (.ready 9), .resume none,
        .resume none, .call, .createTimers 10, .setDone, .nativeReturn (-1) (.raw 117), .capture,
        .decide, .next .noTest, .resume none, .finish, .next .noTest, .resume none,
        .resume none] = some final ∧
      .ended ⟨0, none⟩ ∈ final.log ∧ lastCapture (history 0 final.log) = some capture ∧
      capture.outcome.code < 0 ∧ capture.stopSeen = false ∧
      (states (history 0 final.log)).getLast? = some .finished ∧
      failures (history 0 final.log) = [] := by
  refine exists_comm.mp ⟨⟨⟨-1, .raw 117, true⟩, false, true⟩, exists_run
    (fun final => (final.log.contains (.ended ⟨0, none⟩), lastCapture (history 0 final.log),
      (states (history 0 final.log)).getLast?, failures (history 0 final.log)))
    (true, some ⟨⟨-1, .raw 117, true⟩, false, true⟩, some .finished, [])
    (by decide +kernel) fun final run facts => ?_⟩
  simp only [Prod.mk.injEq] at facts
  obtain ⟨ended, last, shown, none⟩ := facts
  exact ⟨List.contains_iff_mem.mp ended, last, by decide, rfl, shown, none⟩

end IperfSwift.Lifecycle
