import IperfSwift.Output.Scanner

/-!
Contract: what a run of the scanner without error reads and does.

Owns: the events of a run; the bytes a trace consumes and its effect on the
scanner's state; the notion that a specification describes the runs of a
program exactly; and one rule for every way programs are put together.

A specification relates a result, a trace and the bytes that are left. It is
exact when the runs that end without error are the ones it describes, so the
same rules carry soundness and completeness; and a run that is described but
cannot be performed ends with the error of the event that fails.

Does not own: the specification of any scanner function but the primitives.
-/

set_option autoImplicit false

namespace IperfSwift.Output

open IperfSwift.Lib
open IperfSwift.Lib.Program

variable {state final scan : ScanState} {ending : Errno} {bytes : List Byte}

/-! ### Traces -/

/-- One thing a run does. `take` and `skip` consume a byte; `key` observes the key
buffer. -/
inductive Event where
  | take (byte : Byte)
  | skip (byte : Byte)
  | emit (byte : Byte)
  | enter (depth : Nat)
  | scalar (destination : Option Decoded) (code : Nat)
  | capture (mode : Capture)
  | beginOutput (format : OutputFormat)
  | wrongType
  | clearKey
  | key (bytes : List Byte)

def Event.consumed : Event → List Byte
  | .take byte => [byte]
  | .skip byte => [byte]
  | _ => []

/-- The head of `value`, which checks the depth first. -/
def enter (depth : Nat) : Program ScanState Bool := fun state =>
  if resultMaxDepth < depth then fail EFBIG state else enterValue depth state

theorem enter_of_le {depth : Nat} (shallow : depth ≤ resultMaxDepth) :
    enter depth = enterValue depth := by
  funext state
  rw [enter, if_neg (Nat.not_lt.mpr shallow)]

def Event.perform : Event → Program ScanState Bool
  | .take byte => Output.emit byte
  | .skip _ => pure true
  | .emit byte => Output.emit byte
  | .enter depth => Output.enter depth
  | .scalar destination code => decodedScalar destination code
  | .capture mode => fun state => (true, { state with capture := mode })
  | .beginOutput format => Output.beginOutput format
  | .wrongType => fun state => (true, Output.wrongType state)
  | .clearKey => fun state => (true, { state with key := [] })
  | .key bytes => fun state => (decide (state.key = bytes), state)

def consumed (trace : List Event) : List Byte := trace.flatMap Event.consumed

@[simp] theorem consumed_nil : consumed [] = [] := rfl

@[simp] theorem consumed_cons (event : Event) (rest : List Event) :
    consumed (event :: rest) = event.consumed ++ consumed rest := rfl

@[simp] theorem consumed_append (first second : List Event) :
    consumed (first ++ second) = consumed first ++ consumed second := List.flatMap_append

def perform : List Event → Program ScanState Bool
  | [] => pure true
  | event :: rest => andThen event.perform (perform rest)

theorem perform_append (first second : List Event) :
    perform (first ++ second) = andThen (perform first) (perform second) := by
  induction first with
  | nil => rfl
  | cons event rest inductionHypothesis =>
      funext state
      simp only [List.cons_append, perform, inductionHypothesis]
      by_cases succeeded : (event.perform state).1 = true
      · simp [andThen, succeeded]
      · simp [andThen, succeeded]

/-- A trace that succeeds in two parts succeeds as a whole, and the other way round. -/
theorem perform_append_iff {first second : List Event} :
    perform (first ++ second) state = (true, final) ↔
      ∃ middle, perform first state = (true, middle) ∧ perform second middle = (true, final) := by
  rw [perform_append]
  constructor
  · intro succeeded
    obtain ⟨firstTrue, secondTrue⟩ := andThen_eq_true succeeded
    exact ⟨(perform first state).2, Prod.ext firstTrue rfl, secondTrue⟩
  · rintro ⟨middle, firstRun, secondRun⟩
    rw [andThen_of_true (by rw [firstRun]), firstRun]
    exact secondRun

variable {trace : List Event}

/-- The first event that fails. -/
theorem perform_false (run : perform trace state = (false, final)) :
    ∃ before event after middle, trace = before ++ event :: after ∧
      perform before state = (true, middle) ∧ event.perform middle = (false, final) := by
  induction trace generalizing state with
  | nil => exact absurd (congrArg Prod.fst run) (by simp [perform])
  | cons event rest inductionHypothesis =>
      by_cases succeeded : (event.perform state).1 = true
      · rw [perform, andThen_of_true succeeded] at run
        obtain ⟨before, failing, after, middle, rfl, performed, fails⟩ := inductionHypothesis run
        refine ⟨event :: before, failing, after, middle, rfl, ?_, fails⟩
        rw [perform, andThen_of_true succeeded]
        exact performed
      · have failed := Bool.eq_false_of_not_eq_true succeeded
        rw [perform, andThen_of_false failed] at run
        exact ⟨[], event, rest, state, rfl, rfl, Prod.ext failed (Prod.mk.inj run).2⟩

/-! ### Success and errors -/

/-- From a state without error, an action succeeds exactly if it leaves none. -/
def Honest (action : Program ScanState Bool) : Prop :=
  ∀ state, state.error = 0 → ((action state).1 = true ↔ (action state).2.error = 0)

theorem honest_fail {error : Errno} (nonzero : error ≠ 0) : Honest (fail error) := by
  intro state clean
  simp [fail, clean, nonzero]

theorem honest_emit (byte : Byte) : Honest (emit byte) := by
  intro state clean
  unfold emit
  cases state.capture with
  | discard => simp [clean]
  | core =>
      dsimp only
      split
      · exact honest_fail (by decide) state clean
      · simp [clean]
  | outputJson =>
      dsimp only
      split
      · split <;> simp [clean]
      · simp [clean]

theorem honest_enterValue (depth : Nat) : Honest (enterValue depth) := by
  intro state clean
  unfold enterValue
  dsimp only
  split
  · exact honest_fail (by decide) _ clean
  · cases state.capture with
    | discard => simp [clean]
    | core =>
        dsimp only
        split
        · exact honest_fail (by decide) _ clean
        · simp [clean]
    | outputJson =>
        dsimp only
        split <;> simp [clean]

theorem honest_enter (depth : Nat) : Honest (enter depth) := by
  intro state clean
  unfold enter
  split
  · exact honest_fail (by decide) state clean
  · exact honest_enterValue depth state clean

theorem honest_decodedScalar (destination : Option Decoded) (scalar : Nat) :
    Honest (decodedScalar destination scalar) := by
  intro state clean
  unfold decodedScalar
  cases destination with
  | none => simp [clean]
  | some decoded =>
      dsimp only
      split
      · exact honest_fail (by decide) _ clean
      · split
        · split
          · refine honest_fail ?_ _ clean
            split <;> decide
          · simp [clean]
        · split
          · simp [decodedText_error, clean]
          · simp [clean]

theorem honest_beginOutput (format : OutputFormat) : Honest (beginOutput format) := by
  intro state clean
  unfold beginOutput
  dsimp only
  split
  · simp [clean]
  · exact honest_fail (by decide) _ clean

theorem perform_event_clean {event : Event} (clean : state.error = 0)
    (succeeded : (event.perform state).1 = true) : (event.perform state).2.error = 0 := by
  cases event with
  | take byte | emit byte => exact (honest_emit byte state clean).mp succeeded
  | skip byte | capture mode | wrongType | clearKey | key bytes => exact clean
  | enter depth => exact (honest_enter depth state clean).mp succeeded
  | scalar destination code =>
      exact (honest_decodedScalar destination code state clean).mp succeeded
  | beginOutput format => exact (honest_beginOutput format state clean).mp succeeded

theorem perform_clean (clean : state.error = 0) (run : perform trace state = (true, final)) :
    final.error = 0 := by
  induction trace generalizing state with
  | nil =>
      obtain rfl : state = final := congrArg Prod.snd run
      exact clean
  | cons event rest inductionHypothesis =>
      obtain ⟨succeeded, restRun⟩ := andThen_eq_true run
      exact inductionHypothesis (perform_event_clean clean succeeded) restRun

/-! ### The key buffer -/

/-- What an event leaves of the key that is being read. -/
def Event.keyed : Event → List Byte → List Byte
  | .scalar (some decoded) code, bytes => if decoded.key then bytes ++ scalarBytes code else bytes
  | .clearKey, _ => []
  | _, bytes => bytes

def keyOf (events : List Event) : List Byte := events.foldl (fun key event => event.keyed key) []

theorem key_fail (error : Errno) (state : ScanState) : (fail error state).2.key = state.key := by
  unfold fail
  dsimp only
  split <;> rfl

theorem key_enterValue (depth : Nat) (state : ScanState) :
    (enterValue depth state).2.key = state.key := by
  unfold enterValue discardOutput
  dsimp only
  split
  · exact key_fail EFBIG _
  · cases state.capture with
    | discard => rfl
    | core => dsimp only; split; exacts [key_fail EFBIG _, rfl]
    | outputJson => dsimp only; split <;> rfl

theorem key_emit (byte : Byte) (state : ScanState) : (emit byte state).2.key = state.key := by
  unfold emit fail discardOutput
  cases state.capture with
  | discard => rfl
  | core | outputJson => dsimp only; split_ifs <;> rfl

/-- An event that is performed leaves the key it should. -/
theorem key_perform {event : Event} {state : ScanState}
    (performed : (event.perform state).1 = true) :
    (event.perform state).2.key = event.keyed state.key := by
  cases event with
  | take byte | emit byte => exact key_emit byte state
  | enter depth =>
      rw [Event.perform, enter]
      split
      · exact key_fail EFBIG state
      · exact key_enterValue depth state
  | scalar destination code =>
      cases destination with
      | none => rfl
      | some decoded =>
          simp only [Event.perform, Event.keyed, decodedScalar, decodedText, discardOutput]
            at performed ⊢
          split_ifs at performed ⊢ <;> first | rfl | cases performed
  | beginOutput format =>
      simp only [Event.perform, beginOutput, fail]
      split_ifs <;> rfl
  | _ => rfl

theorem key_of_performed {trace : List Event} {state after : ScanState}
    (performed : perform trace state = (true, after)) :
    after.key = trace.foldl (fun key event => event.keyed key) state.key := by
  induction trace generalizing state with
  | nil =>
      obtain rfl : state = after := congrArg Prod.snd performed
      rfl
  | cons event rest inductionHypothesis =>
      obtain ⟨succeeded, later⟩ := andThen_eq_true performed
      rw [inductionHypothesis later, key_perform succeeded]
      rfl

/-! ### Exact specifications -/

/-- A parser in front of bytes that all arrive. -/
def position (ending : Errno) (bytes : List Byte) (scan : ScanState) : Parser Stream :=
  ⟨⟨bytes, 0, ending⟩, scan⟩

/-- A relation between a result, the trace of a run and the bytes behind it. -/
abbrev Spec (α : Type) := α → List Event → List Byte → Prop

/-- The runs of a program that end without error are exactly the ones described. -/
structure Exact {α : Type} (program : Program (Parser Stream) α) (spec : Spec α) : Prop where
  keeps : ∀ parser, parser.scan.error ≠ 0 → (program parser).2.scan.error = parser.scan.error
  sound : ∀ {ending bytes scan result final}, scan.error = 0 →
    program (position ending bytes scan) = (result, final) → final.scan.error = 0 →
    ∃ trace rest scan', final = position ending rest scan' ∧ bytes = consumed trace ++ rest ∧
      spec result trace rest ∧ perform trace scan = (true, scan')
  complete : ∀ {ending trace rest scan scan' result}, scan.error = 0 →
    spec result trace rest → perform trace scan = (true, scan') →
    program (position ending (consumed trace ++ rest) scan) = (result, position ending rest scan')

variable {α β τ : Type}

theorem Exact.sticky {program : Program (Parser Stream) α} {spec : Spec α}
    (exact : Exact program spec) (parser : Parser Stream) (failed : parser.scan.error ≠ 0) :
    (program parser).2.scan.error ≠ 0 := by
  rw [exact.keeps parser failed]
  exact failed

theorem Exact.congr {program : Program (Parser Stream) α} {spec spec' : Spec α}
    (exact : Exact program spec)
    (same : ∀ result trace rest, spec result trace rest ↔ spec' result trace rest) :
    Exact program spec' := by
  have equal : spec = spec' := by
    funext result trace rest
    exact propext (same result trace rest)
  rw [← equal]
  exact exact

/-- For soundness only traces that some state can perform matter. -/
theorem Exact.congr_performed {program : Program (Parser Stream) α} {spec spec' : Spec α}
    (exact : Exact program spec)
    (forward : ∀ {result trace rest scan scan'}, perform trace scan = (true, scan') →
      spec result trace rest → spec' result trace rest)
    (backward : ∀ {result trace rest}, spec' result trace rest → spec result trace rest) :
    Exact program spec' where
  keeps := exact.keeps
  sound := by
    intro ending bytes scan result final clean run finalClean
    obtain ⟨trace, rest, scan', finalAt, split, holds, performed⟩ := exact.sound clean run finalClean
    exact ⟨trace, rest, scan', finalAt, split, forward performed holds, performed⟩
  complete := fun clean holds performed => exact.complete clean (backward holds) performed

/-- No run ends without error. -/
def Never : Spec α := fun _ _ _ => False

def Returns (value : α) : Spec α := fun result trace _ => result = value ∧ trace = []

/-- Runs of the first, then of the second with the first's result. -/
def Spec.bind (first : Spec α) (next : α → Spec β) : Spec β := fun result trace rest =>
  ∃ value before after, trace = before ++ after ∧ first value before (consumed after ++ rest) ∧
    next value result after rest

theorem exact_pure (value : α) : Exact (pure value) (Returns value) where
  keeps := fun _ _ => rfl
  sound := by
    intro ending bytes scan result final clean run _
    obtain ⟨rfl, rfl⟩ := Prod.mk.inj run
    exact ⟨[], bytes, scan, rfl, rfl, ⟨rfl, rfl⟩, rfl⟩
  complete := by
    rintro ending trace rest scan scan' result clean ⟨rfl, rfl⟩ run
    obtain rfl : scan = scan' := congrArg Prod.snd run
    rfl

theorem exact_bind {first : Program (Parser Stream) α} {next : α → Program (Parser Stream) β}
    {firstSpec : Spec α} {nextSpec : α → Spec β} (firstExact : Exact first firstSpec)
    (nextExact : ∀ value, Exact (next value) (nextSpec value)) :
    Exact (first >>= next) (firstSpec.bind nextSpec) where
  keeps := by
    intro parser failed
    have still := firstExact.sticky parser failed
    rw [bind_apply, (nextExact _).keeps _ still, firstExact.keeps parser failed]
  sound := by
    intro ending bytes scan result final clean run finalClean
    -- The state in between has no error, for an error would still be there at the end.
    have middleClean : (first (position ending bytes scan)).2.scan.error = 0 := by
      by_contra failed
      have still := (nextExact (first (position ending bytes scan)).1).sticky _ failed
      rw [bind_apply] at run
      rw [run] at still
      exact still finalClean
    obtain ⟨before, middleRest, middle, middleAt, split, firstHolds, firstRun⟩ :=
      firstExact.sound clean rfl middleClean
    rw [bind_apply, middleAt] at run
    have clean' : middle.error = 0 := perform_clean clean firstRun
    obtain ⟨after, rest, scan', finalAt, split', nextHolds, nextRun⟩ :=
      (nextExact _).sound clean' run finalClean
    refine ⟨before ++ after, rest, scan', finalAt, ?_, ?_, ?_⟩
    · rw [split, split', consumed_append, List.append_assoc]
    · exact ⟨_, before, after, rfl, split' ▸ firstHolds, nextHolds⟩
    · exact perform_append_iff.mpr ⟨middle, firstRun, nextRun⟩
  complete := by
    rintro ending _ rest scan scan' result clean
      ⟨value, before, after, rfl, firstHolds, nextHolds⟩ run
    obtain ⟨middle, firstRun, nextRun⟩ := perform_append_iff.mp run
    have clean' : middle.error = 0 := perform_clean clean firstRun
    rw [consumed_append, List.append_assoc, bind_apply,
      firstExact.complete clean firstHolds firstRun]
    exact (nextExact value).complete clean' nextHolds nextRun

/-- Runs of one branch or of the other. -/
def Either (condition : Prop) (yes no : Spec α) : Spec α := fun result trace rest =>
  (condition ∧ yes result trace rest) ∨ (¬ condition ∧ no result trace rest)

theorem exact_ite {condition : Prop} [Decidable condition]
    {yes no : Program (Parser Stream) α} {yesSpec noSpec : Spec α}
    (yesExact : condition → Exact yes yesSpec) (noExact : ¬ condition → Exact no noSpec) :
    Exact (if condition then yes else no) (Either condition yesSpec noSpec) := by
  split_ifs with holds
  · exact (yesExact holds).congr fun _ _ _ => by simp [Either, holds]
  · exact (noExact holds).congr fun _ _ _ => by simp [Either, holds]

/-- A program that reports success whenever it ends without error. -/
def Succeeds (runs : List Event → List Byte → Prop) : Spec Bool := fun result trace rest =>
  result = true ∧ runs trace rest

/-- A program that finds something whenever it ends without error. -/
def Yields (runs : α → List Event → List Byte → Prop) : Spec (Option α) :=
  fun result trace rest => ∃ value, result = some value ∧ runs value trace rest

/-- Runs of the first, then of the second. -/
def Then (first second : List Event → List Byte → Prop) : List Event → List Byte → Prop :=
  fun trace rest => ∃ before after, trace = before ++ after ∧
    first before (consumed after ++ rest) ∧ second after rest

theorem exact_andThen {first next : Program (Parser Stream) Bool}
    {firstRuns nextRuns : List Event → List Byte → Prop}
    (firstExact : Exact first (Succeeds firstRuns)) (nextExact : Exact next (Succeeds nextRuns)) :
    Exact (andThen first next) (Succeeds (Then firstRuns nextRuns)) := by
  have composed := exact_bind firstExact fun succeeded =>
    exact_ite (fun _ : succeeded = true => nextExact) (fun _ => exact_pure false)
  refine composed.congr fun result trace rest => ?_
  constructor
  · rintro ⟨value, before, after, rfl, ⟨rfl, firstHolds⟩, ⟨-, nextHolds⟩ | ⟨no, -⟩⟩
    · exact ⟨nextHolds.1, before, after, rfl, firstHolds, nextHolds.2⟩
    · exact absurd rfl no
  · rintro ⟨rfl, before, after, rfl, firstHolds, nextHolds⟩
    exact ⟨true, before, after, rfl, ⟨rfl, firstHolds⟩, .inl ⟨rfl, rfl, nextHolds⟩⟩

/-- What was found is handed on; finding nothing was never without error. -/
theorem exact_bind_option {first : Program (Parser Stream) (Option α)}
    {next : Option α → Program (Parser Stream) β}
    {firstRuns : α → List Event → List Byte → Prop} {nothingSpec : Spec β}
    {nextSpec : α → Spec β} (firstExact : Exact first (Yields firstRuns))
    (nothing : Exact (next none) nothingSpec)
    (nextExact : ∀ value, Exact (next (some value)) (nextSpec value)) :
    Exact (first >>= next) (fun result trace rest => ∃ value before after,
      trace = before ++ after ∧ firstRuns value before (consumed after ++ rest) ∧
        nextSpec value result after rest) := by
  have composed : Exact (first >>= next)
      ((Yields firstRuns).bind fun found => found.elim nothingSpec nextSpec) := by
    refine exact_bind firstExact fun found => ?_
    cases found with
    | none => exact nothing
    | some value => exact nextExact value
  refine composed.congr fun result trace rest => ?_
  constructor
  · rintro ⟨_, before, after, split, ⟨value, rfl, firstHolds⟩, nextHolds⟩
    exact ⟨value, before, after, split, firstHolds, nextHolds⟩
  · rintro ⟨value, before, after, split, firstHolds, nextHolds⟩
    exact ⟨some value, before, after, split, ⟨value, rfl, firstHolds⟩, nextHolds⟩

/-! ### Primitives -/

theorem exact_fail {error : Errno} (nonzero : error ≠ 0) :
    Exact (lift (fail error) : Program (Parser Stream) Bool) Never where
  keeps := fun parser failed => sticky_fail error parser.scan failed
  sound := by
    intro ending bytes scan result final clean run finalClean
    obtain rfl : (lift (fail error) (position ending bytes scan)).2 = final :=
      congrArg Prod.snd run
    exact absurd finalClean (by simp [lift, position, fail, clean, nonzero])
  complete := fun _ never => never.elim

/-- An action on the state that one event stands for. -/
theorem exact_lift {action : Program ScanState Bool} (event : Event) (honest : Honest action)
    (sticky : Sticky action) (performs : event.perform = action)
    (consumesNothing : event.consumed = []) :
    Exact (lift action : Program (Parser Stream) Bool)
      (Succeeds fun trace _ => trace = [event]) where
  keeps := fun parser failed => sticky parser.scan failed
  sound := by
    intro ending bytes scan result final clean run finalClean
    obtain ⟨rfl, rfl⟩ := Prod.mk.inj run
    have succeeded : (action scan).1 = true := (honest scan clean).mpr finalClean
    refine ⟨[event], bytes, (action scan).2, rfl, ?_, ⟨succeeded, rfl⟩, ?_⟩
    · simp [consumesNothing]
    · rw [perform, performs, andThen_of_true succeeded]
      rfl
  complete := by
    rintro ending _ rest scan scan' _ clean ⟨rfl, rfl⟩ run
    rw [perform, performs] at run
    obtain ⟨succeeded, after⟩ := andThen_eq_true run
    have final : (action scan).2 = scan' := congrArg Prod.snd after
    simp only [consumed_cons, consumesNothing, consumed_nil, List.append_nil, List.nil_append]
    exact Prod.ext succeeded (by simp [lift, position, final])

/-- The same for an action that cannot fail. -/
theorem exact_update {change : ScanState → ScanState} (event : Event)
    (sameError : ∀ state, (change state).error = state.error)
    (performs : event.perform = fun state => (true, change state))
    (consumesNothing : event.consumed = []) :
    Exact (lift (update change) : Program (Parser Stream) Unit)
      (fun _ trace _ => trace = [event]) where
  keeps := fun parser _ => sameError parser.scan
  sound := by
    intro ending bytes scan result final clean run _
    obtain ⟨-, rfl⟩ := Prod.mk.inj run
    refine ⟨[event], bytes, change scan, rfl, by simp [consumesNothing], rfl, ?_⟩
    rw [perform, performs]
    rfl
  complete := by
    rintro ending _ rest scan scan' _ clean rfl run
    rw [perform, performs] at run
    obtain rfl : change scan = scan' := congrArg Prod.snd run
    simp only [consumed_cons, consumesNothing, consumed_nil, List.append_nil, List.nil_append]
    rfl

theorem peek_position (clean : scan.error = 0) :
    peek Stream.source (position ending bytes scan) =
      (bytes.head?, position ending bytes scan) := by
  cases bytes with
  | nil | cons byte rest => simp [peek, position, clean, Stream.source, Stream.peek]

theorem peek_of_error {parser : Parser Stream} (failed : parser.scan.error ≠ 0) :
    peek Stream.source parser = (none, parser) := by
  rw [peek, if_pos failed]

theorem exact_peek : Exact (peek Stream.source)
    (fun result trace rest => result = rest.head? ∧ trace = []) where
  keeps := fun parser failed => by rw [peek_of_error failed]
  sound := by
    intro ending bytes scan result final clean run _
    rw [peek_position clean] at run
    obtain ⟨rfl, rfl⟩ := Prod.mk.inj run
    exact ⟨[], bytes, scan, rfl, rfl, ⟨rfl, rfl⟩, rfl⟩
  complete := by
    rintro ending _ rest scan scan' _ clean ⟨rfl, rfl⟩ run
    obtain rfl : scan = scan' := congrArg Prod.snd run
    exact peek_position clean

theorem exact_errorNow : Exact (errorNow : Program (Parser Stream) Errno) (Returns 0) where
  keeps := fun _ _ => rfl
  sound := by
    intro ending bytes scan result final clean run _
    obtain ⟨rfl, rfl⟩ := Prod.mk.inj run
    exact ⟨[], bytes, scan, rfl, rfl, ⟨clean, rfl⟩, rfl⟩
  complete := by
    rintro ending _ rest scan scan' _ clean ⟨rfl, rfl⟩ run
    obtain rfl : scan = scan' := congrArg Prod.snd run
    exact Prod.ext clean rfl

theorem exact_keyNow : Exact (keyNow : Program (Parser Stream) (List Byte))
    (fun result trace _ => trace = [.key result]) where
  keeps := fun _ _ => rfl
  sound := by
    intro ending bytes scan result final clean run _
    obtain ⟨rfl, rfl⟩ := Prod.mk.inj run
    exact ⟨[.key scan.key], bytes, scan, rfl, rfl, rfl, by simp [perform, andThen, Event.perform]⟩
  complete := by
    rintro ending _ rest scan scan' key clean rfl run
    obtain ⟨same, after⟩ := andThen_eq_true run
    obtain rfl : scan = scan' := congrArg Prod.snd after
    exact Prod.ext (of_decide_eq_true same) rfl

/-- Consume the byte in front and capture it. -/
theorem take_position {byte : Byte} (clean : scan.error = 0) :
    take Stream.source (position ending (byte :: bytes) scan) =
      (if (emit byte scan).1 then some byte else none,
        position ending bytes (emit byte scan).2) := by
  rw [take, bind_apply, peek_position clean]
  rfl

theorem exact_take : Exact (take Stream.source)
    (Yields fun byte trace _ => trace = [.take byte]) where
  keeps := by
    intro parser failed
    rw [take, bind_apply, peek_of_error failed]
    exact sticky_fail EPROTO parser.scan failed
  sound := by
    intro ending bytes scan result final clean run finalClean
    cases bytes with
    | nil =>
        rw [take, bind_apply, peek_position clean] at run
        obtain rfl := (Prod.mk.inj run).2
        exact absurd finalClean (by simp [lift, position, fail, clean, EPROTO])
    | cons byte bytes =>
        rw [take_position clean] at run
        obtain ⟨rfl, rfl⟩ := Prod.mk.inj run
        have succeeded : (emit byte scan).1 = true := (honest_emit byte scan clean).mpr finalClean
        refine ⟨[.take byte], bytes, _, rfl, rfl, ⟨byte, by rw [if_pos succeeded], rfl⟩, ?_⟩
        rw [perform, Event.perform, andThen_of_true succeeded]
        rfl
  complete := by
    rintro ending _ rest scan scan' _ clean ⟨byte, rfl, rfl⟩ run
    obtain ⟨succeeded, after⟩ := andThen_eq_true run
    change (emit byte scan).1 = true at succeeded
    obtain rfl : (emit byte scan).2 = scan' := congrArg Prod.snd after
    change take Stream.source (position ending (byte :: rest) scan) = _
    rw [take_position clean, if_pos succeeded]

theorem exact_expect (expected : Byte) : Exact (expect Stream.source expected)
    (Succeeds fun trace _ => trace = [.take expected]) := by
  have composed := exact_bind exact_take fun found =>
    exact_ite (fun _ : found = some expected => exact_pure true)
      (fun _ => exact_fail (by decide : EPROTO ≠ 0))
  refine composed.congr fun result trace rest => ?_
  constructor
  · rintro ⟨_, before, after, rfl, ⟨byte, rfl, rfl⟩, ⟨same, rfl, rfl⟩ | ⟨-, never⟩⟩
    · exact ⟨rfl, by rw [Option.some.inj same, List.append_nil]⟩
    · exact never.elim
  · rintro ⟨rfl, rfl⟩
    exact ⟨some expected, [.take expected], [], rfl, ⟨expected, rfl, rfl⟩, .inl ⟨rfl, rfl, rfl⟩⟩

/-- Where `value` finds no room for another level. -/
theorem exact_tooDeep {depth : Nat} (deep : resultMaxDepth < depth)
    {runs : List Event → List Byte → Prop}
    (enters : ∀ trace rest, runs trace rest → ∃ later, trace = .enter depth :: later) :
    Exact (lift (fail EFBIG) : Program (Parser Stream) Bool) (Succeeds runs) where
  keeps := fun parser failed => sticky_fail EFBIG parser.scan failed
  sound := by
    intro ending bytes scan result final clean run finalClean
    obtain rfl : (lift (fail EFBIG) (position ending bytes scan)).2 = final :=
      congrArg Prod.snd run
    exact absurd finalClean (by simp [lift, position, fail, clean, EFBIG])
  complete := by
    rintro ending trace rest scan scan' _ clean ⟨rfl, holds⟩ run
    obtain ⟨later, rfl⟩ := enters trace rest holds
    obtain ⟨entered, -⟩ := andThen_eq_true run
    exact absurd entered (by simp [Event.perform, enter, deep, fail])

/-! ### Loops -/

/-- Passes of a loop until one is done. -/
inductive Iterates (pass : τ → Spec (Step τ α)) : τ → Spec α where
  | done {carried : τ} {result : α} {trace : List Event} {rest : List Byte}
      (holds : pass carried (.done result) trace rest) : Iterates pass carried result trace rest
  | again {carried next : τ} {result : α} {before after : List Event} {rest : List Byte}
      (holds : pass carried (.again next) before (consumed after ++ rest))
      (later : Iterates pass next result after rest) :
      Iterates pass carried result (before ++ after) rest

section Loop

variable {body : τ → Program (Parser Stream) (Step τ α)} {pass : τ → Spec (Step τ α)}

theorem keeps_loop (bodyExact : ∀ carried, Exact (body carried) (pass carried)) (spent : α)
    (allowance : Nat) (carried : τ) (parser : Parser Stream) (failed : parser.scan.error ≠ 0) :
    (loop body spent allowance carried parser).2.scan.error = parser.scan.error := by
  have keeps : ∀ carried, Preserves (fun after : Parser Stream =>
      after.scan.error = parser.scan.error) (body carried) := by
    intro carried before same
    exact ((bodyExact carried).keeps before (same.trans_ne failed)).trans same
  exact preserves_loop keeps spent allowance carried parser rfl

/-- A loop with more passes than bytes never runs out of passes. -/
theorem loop_sound (bodyExact : ∀ carried, Exact (body carried) (pass carried))
    (progress : ∀ carried next trace rest, pass carried (.again next) trace rest →
      consumed trace ≠ []) (spent : α) {allowance : Nat} {carried : τ} {result : α}
    {final : Parser Stream} (enough : bytes.length < allowance) (clean : scan.error = 0)
    (run : loop body spent allowance carried (position ending bytes scan) = (result, final))
    (finalClean : final.scan.error = 0) :
    ∃ trace rest scan', final = position ending rest scan' ∧ bytes = consumed trace ++ rest ∧
      Iterates pass carried result trace rest ∧ perform trace scan = (true, scan') := by
  induction allowance generalizing carried bytes scan with
  | zero => exact absurd enough (Nat.not_lt_zero _)
  | succ allowance inductionHypothesis =>
      have middleClean : (body carried (position ending bytes scan)).2.scan.error = 0 := by
        by_contra failed
        have still : (loop body spent (allowance + 1) carried
            (position ending bytes scan)).2.scan.error ≠ 0 := by
          cases outcome : (body carried (position ending bytes scan)).1 with
          | again next =>
              rw [loop_again outcome]
              exact (keeps_loop bodyExact spent allowance next _ failed).trans_ne failed
          | done value =>
              rw [loop_done outcome]
              exact failed
        rw [run] at still
        exact still finalClean
      obtain ⟨before, middleRest, middle, middleAt, split, holds, firstRun⟩ :=
        (bodyExact carried).sound clean rfl middleClean
      cases outcome : (body carried (position ending bytes scan)).1 with
      | done value =>
          rw [loop_done outcome] at run
          obtain ⟨rfl, rfl⟩ := Prod.mk.inj run
          rw [outcome] at holds
          exact ⟨before, middleRest, middle, middleAt, split, .done holds, firstRun⟩
      | again next =>
          rw [loop_again outcome, middleAt] at run
          rw [outcome] at holds
          -- The pass consumed a byte, so the passes that are left still suffice.
          have shorter : middleRest.length < allowance := by
            have positive := List.length_pos_iff.mpr (progress _ _ _ _ holds)
            rw [split, List.length_append] at enough
            omega
          obtain ⟨after, rest, scan', finalAt, split', later, nextRun⟩ :=
            inductionHypothesis shorter (perform_clean clean firstRun) run
          refine ⟨before ++ after, rest, scan', finalAt, ?_, ?_, ?_⟩
          · rw [split, split', consumed_append, List.append_assoc]
          · exact .again (split' ▸ holds) later
          · exact perform_append_iff.mpr ⟨middle, firstRun, nextRun⟩

theorem loop_complete (bodyExact : ∀ carried, Exact (body carried) (pass carried))
    (progress : ∀ carried next trace rest, pass carried (.again next) trace rest →
      consumed trace ≠ []) (spent : α) {allowance : Nat} {carried : τ} {rest : List Byte}
    {scan' : ScanState} {result : α} (enough : (consumed trace ++ rest).length < allowance)
    (clean : scan.error = 0) (iterates : Iterates pass carried result trace rest)
    (run : perform trace scan = (true, scan')) :
    loop body spent allowance carried (position ending (consumed trace ++ rest) scan) =
      (result, position ending rest scan') := by
  induction iterates generalizing allowance scan with
  | done holds =>
      obtain ⟨allowance, rfl⟩ := Nat.exists_eq_succ_of_ne_zero (Nat.ne_zero_of_lt enough)
      have pass : body _ (position ending _ scan) = _ := (bodyExact _).complete clean holds run
      rw [loop_done (congrArg Prod.fst pass), pass]
  | again holds later inductionHypothesis =>
      obtain ⟨allowance, rfl⟩ := Nat.exists_eq_succ_of_ne_zero (Nat.ne_zero_of_lt enough)
      obtain ⟨middle, firstRun, nextRun⟩ := perform_append_iff.mp run
      have positive := List.length_pos_iff.mpr (progress _ _ _ _ holds)
      rw [consumed_append, List.append_assoc] at enough ⊢
      rw [List.length_append] at enough
      have pass : body _ (position ending _ scan) = _ :=
        (bodyExact _).complete clean holds firstRun
      rw [loop_again (congrArg Prod.fst pass), pass]
      exact inductionHypothesis (by omega) (perform_clean clean firstRun) nextRun

theorem exact_scanLoop (bodyExact : ∀ carried, Exact (body carried) (pass carried))
    (progress : ∀ carried next trace rest, pass carried (.again next) trace rest →
      consumed trace ≠ []) (spent : α) (carried : τ) :
    Exact (scanLoop Stream.source body spent carried) (Iterates pass carried) where
  keeps := fun parser failed => keeps_loop bodyExact spent _ carried parser failed
  sound := fun clean run finalClean =>
    loop_sound bodyExact progress spent (Nat.lt_succ_self _) clean run finalClean
  complete := fun clean holds run =>
    loop_complete bodyExact progress spent (Nat.lt_succ_self _) clean holds run

end Loop

end IperfSwift.Output
