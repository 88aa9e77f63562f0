import IperfSwift.Output.Arrival
import IperfSwift.Output.Reader

/-!
Contract: the scanner follows the reader of its frame.

Owns: the notion that a program does what a reader says, up to the first event that is
refused; one rule for every way programs are put together; the proof that each function
of the scanner follows its reader.

Does not own: why an event is refused.
-/

set_option autoImplicit false

namespace IperfSwift.Output

open IperfSwift.Lib
open IperfSwift.Lib.Program

variable {α β γ δ τ : Type}
variable {first no : Program (Parser Stream) α}

/-! ### Programs that follow a reader -/

/-- An error stays what it is. -/
def Stays (program : Program (Parser Stream) α) : Prop :=
  ∀ parser, parser.scan.error ≠ 0 → (program parser).2.scan.error = parser.scan.error

theorem stays_pure (value : α) : Stays (pure value) := fun _ _ => rfl

theorem stays_bind {next : α → Program (Parser Stream) β} (firstStays : Stays first)
    (nextStays : ∀ value, Stays (next value)) : Stays (first >>= next) := by
  intro parser failed
  have same := firstStays parser failed
  rw [bind_apply, nextStays _ _ (same.trans_ne failed), same]

theorem stays_ite {condition : Prop} [Decidable condition] {yes : Program (Parser Stream) α}
    (yesStays : Stays yes) (noStays : Stays no) : Stays (if condition then yes else no) := by
  split_ifs
  · exact yesStays
  · exact noStays

theorem stays_lift {action : Program ScanState α} (sticky : Sticky action) :
    Stays (lift action) := fun parser failed => sticky parser.scan failed

theorem stays_noScalar : Stays noScalar :=
  stays_bind (stays_lift (sticky_fail EPROTO)) fun _ => stays_pure none

/-- How the run of a program ends that has been given a text with these events. -/
inductive Ran (lost : Nat) (ending : Errno) (result : β → α) (scan : ScanState)
    (run : α × Parser Stream) : List Event × Outcome β → Prop where
  | blocked {events : List Event} {outcome : Outcome β} {failed : ScanState}
      (fails : perform events scan = (false, failed)) (nonzero : failed.error ≠ 0)
      (same : run.2.scan.error = failed.error) : Ran lost ending result scan run (events, outcome)
  | found {events : List Event} {value : β} {rest : List Byte} {after : ScanState}
      (performed : perform events scan = (true, after))
      (same : run = (result value, ⟨⟨rest, lost, ending⟩, after⟩)) :
      Ran lost ending result scan run (events, .found value rest)
  | refused {events : List Event} {after : ScanState}
      (performed : perform events scan = (true, after)) (same : run.2.scan.error = EPROTO) :
      Ran lost ending result scan run (events, .refused)
  | cut {events : List Event} {after : ScanState} (short : lost ≠ 0)
      (performed : perform events scan = (true, after)) (same : run.2.scan.error = ending) :
      Ran lost ending result scan run (events, .cut)

/-- The program performs the events of its text, and has the reader's result behind them. -/
structure Follows (lost : Nat) (result : β → α) (program : Program (Parser Stream) α)
    (reader : Reader β) : Prop where
  stays : Stays program
  runs : ∀ {ending : Errno} {bytes : List Byte} {scan : ScanState}, ending ≠ 0 → scan.error = 0 →
    Ran lost ending result scan (program ⟨⟨bytes, lost, ending⟩, scan⟩) (reader bytes)

section Rules

variable {lost : Nat} {ending : Errno} {bytes : List Byte} {scan : ScanState}
variable {reader : Reader β} {result : β → α} {next : α → Program (Parser Stream) γ}
  {result' : δ → γ} {later : Reader δ} {program : Program (Parser Stream) α} {rest : List Byte}
  {item : Program (Parser Stream) Bool} {itemReader : Reader Bool}

theorem perform_append_of_false {first second : List Event} {failed : ScanState}
    (fails : perform first scan = (false, failed)) :
    perform (first ++ second) scan = (false, failed) := by
  rw [perform_append, andThen_of_false (by rw [fails]), fails]

theorem follows_pure (result : β → α) (value : β) :
    Follows lost result (pure (result value)) (pure value) where
  stays := stays_pure _
  runs := fun _ _ => .found rfl rfl

/-- What the second program needs to know about the state is what the first one leaves. -/
theorem follows_bind_when {later : β → Reader δ} (known : β → ScanState → Prop)
    (firstFollows : Follows lost result first reader)
    (leaves : ∀ {bytes rest scan after events value}, reader bytes = (events, .found value rest) →
      perform events scan = (true, after) → known value after)
    (nextStays : ∀ value, Stays (next value))
    (nextRuns : ∀ {ending bytes scan} value, ending ≠ 0 → scan.error = 0 → known value scan →
      Ran lost ending result' scan (next (result value) ⟨⟨bytes, lost, ending⟩, scan⟩)
        (later value bytes)) : Follows lost result' (first >>= next) (reader >>= later) where
  stays := stays_bind firstFollows.stays nextStays
  runs := by
    intro ending bytes scan nonzeroEnding clean
    have firstRan := @firstFollows.runs ending bytes scan nonzeroEnding clean
    rw [Reader.bind_apply]
    -- An error of the first program is still there behind the second.
    have kept : ∀ {error : Errno}, error ≠ 0 →
        (first ⟨⟨bytes, lost, ending⟩, scan⟩).2.scan.error = error →
        ((first >>= next) ⟨⟨bytes, lost, ending⟩, scan⟩).2.scan.error = error := by
      intro error nonzero same
      rw [bind_apply, nextStays _ _ (same.trans_ne nonzero), same]
    cases reading : reader bytes with
    | mk events outcome =>
        rw [reading] at firstRan
        cases firstRan with
        | blocked fails nonzero same =>
            cases outcome with
            | found value rest =>
                exact .blocked (perform_append_of_false fails) nonzero (kept nonzero same)
            | refused | cut => exact .blocked fails nonzero (kept nonzero same)
        | refused performed same => exact .refused performed (kept (by decide) same)
        | cut short performed same => exact .cut short performed (kept nonzeroEnding same)
        | @found _ value rest after performed same =>
            have middleClean := perform_clean clean performed
            have nextRan := @nextRuns ending rest after value nonzeroEnding middleClean
              (leaves reading performed)
            rw [bind_apply, same]
            dsimp only
            have appended : ∀ more, perform (events ++ more) scan = perform more after := by
              intro more
              rw [perform_append, andThen_of_true (by rw [performed]), performed]
            cases laterReading : later value rest with
            | mk more outcome =>
                rw [laterReading] at nextRan
                cases nextRan with
                | blocked fails nonzero same =>
                    exact .blocked ((appended _).trans fails) nonzero same
                | found performed same => exact .found ((appended _).trans performed) same
                | refused performed same => exact .refused ((appended _).trans performed) same
                | cut short performed same => exact .cut short ((appended _).trans performed) same

theorem follows_bind {later : β → Reader δ} (firstFollows : Follows lost result first reader)
    (nextStays : ∀ value, Stays (next value))
    (nextFollows : ∀ value, Follows lost result' (next (result value)) (later value)) :
    Follows lost result' (first >>= next) (reader >>= later) :=
  follows_bind_when (fun _ _ => True) firstFollows (fun _ _ => trivial) nextStays
    fun value nonzero clean _ => (nextFollows value).runs nonzero clean

/-- The second program does not need the result of the first. -/
theorem follows_bind_next {next : Program (Parser Stream) γ}
    (firstFollows : Follows lost result first reader)
    (nextFollows : Follows lost result' next later) :
    Follows lost result' (first >>= fun _ => next) (reader >>= fun _ => later) :=
  follows_bind firstFollows (fun _ => nextFollows.stays) fun _ => nextFollows

/-- The reader has the result of the program. -/
theorem follows_bind_same {reader : Reader α} {later : α → Reader δ}
    (firstFollows : Follows lost id first reader)
    (nextFollows : ∀ value, Follows lost result' (next value) (later value)) :
    Follows lost result' (first >>= next) (reader >>= later) :=
  follows_bind firstFollows (fun value => (nextFollows value).stays) nextFollows

/-- The program finds what the reader finds. -/
theorem follows_bind_some {first : Program (Parser Stream) (Option α)} {reader : Reader α}
    {next : Option α → Program (Parser Stream) γ} {later : α → Reader δ}
    (firstFollows : Follows lost some first reader) (nothing : Stays (next none))
    (nextFollows : ∀ value, Follows lost result' (next (some value)) (later value)) :
    Follows lost result' (first >>= next) (reader >>= later) := by
  refine follows_bind firstFollows (fun found => ?_) nextFollows
  cases found with
  | none => exact nothing
  | some value => exact (nextFollows value).stays

/-- The program succeeds where the reader goes on. -/
theorem follows_bind_true {first : Program (Parser Stream) Bool}
    {next : Bool → Program (Parser Stream) γ}
    (firstFollows : Follows lost (fun _ => true) first reader) (nothing : Stays (next false))
    (nextFollows : Follows lost result' (next true) later) :
    Follows lost result' (first >>= next) (reader >>= fun _ => later) := by
  refine follows_bind firstFollows (fun succeeded => ?_) fun _ => nextFollows
  cases succeeded with
  | false => exact nothing
  | true => exact nextFollows.stays

theorem follows_then {first next : Program (Parser Stream) Bool} {result : δ → Bool}
    (firstFollows : Follows lost (fun _ => true) first reader)
    (nextFollows : Follows lost result next later) :
    Follows lost result (andThen first next) (reader >>= fun _ => later) :=
  follows_bind_true firstFollows (stays_pure false) nextFollows

theorem follows_andThen {first next : Program (Parser Stream) Bool} {reader later : Reader Bool}
    (firstFollows : Follows lost id first reader) (nextFollows : Follows lost id next later) :
    Follows lost id (andThen first next) (Reader.andThen reader later) := by
  refine follows_bind_same firstFollows fun succeeded => ?_
  cases succeeded with
  | false => exact follows_pure id false
  | true => exact nextFollows

/-- A reader may have more to say about its result. -/
theorem follows_map {result' : δ → α} (follows : Follows lost result program reader)
    {change : β → δ} (same : ∀ value, result' (change value) = result value) :
    Follows lost result' program (reader >>= fun value => pure (change value)) := by
  refine follows_bind follows stays_pure fun value => ?_
  rw [← same]
  exact follows_pure result' (change value)

/-- A program that only succeeds or fails, beside a reader that has a value for success. -/
theorem follows_yes {program : Program (Parser Stream) Bool} {result : δ → Bool}
    (follows : Follows lost (fun _ => true) program reader) {value : δ}
    (yes : result value = true) : Follows lost result program (reader >>= fun _ => pure value) :=
  follows_map follows fun _ => yes

theorem follows_ite {condition : Prop} [Decidable condition] {yes : Program (Parser Stream) α}
    {yesReader noReader : Reader β} (yesFollows : condition → Follows lost result yes yesReader)
    (noFollows : ¬ condition → Follows lost result no noReader) :
    Follows lost result (if condition then yes else no)
      (if condition then yesReader else noReader) := by
  split_ifs with holds
  · exact yesFollows holds
  · exact noFollows holds

theorem follows_loop {body : τ → Program (Parser Stream) (Step τ α)}
    {pass : τ → Reader (Step τ α)} (follows : ∀ carried, Follows lost id (body carried) (pass carried))
    (spent : α) (allowance : Nat) (carried : τ) :
    Follows lost id (loop body spent allowance carried)
      (Reader.loop pass spent allowance carried) := by
  induction allowance generalizing carried with
  | zero => exact follows_pure id spent
  | succ allowance inductionHypothesis =>
      refine follows_bind_same (follows carried) fun step => ?_
      cases step with
      | again next => exact inductionHypothesis next
      | done result => exact follows_pure id result

theorem follows_scanLoop {body : τ → Program (Parser Stream) (Step τ α)}
    {pass : τ → Reader (Step τ α)} (follows : ∀ carried, Follows lost id (body carried) (pass carried))
    (spent : α) (carried : τ) :
    Follows lost id (scanLoop Stream.source body spent carried)
      (Reader.scanLoop lost pass spent carried) where
  stays := fun parser failed => (follows_loop follows spent _ carried).stays parser failed
  runs := fun nonzero clean => (follows_loop follows spent _ carried).runs nonzero clean

/-! ### Primitives -/

theorem follows_refuse (result : β → Bool) :
    Follows lost result (lift (fail EPROTO)) Reader.refuse where
  stays := stays_lift (sticky_fail EPROTO)
  runs := fun _ clean => .refused rfl (by simp [lift, fail, clean])

/-- Text that is refused ends the reader, whatever the program still does. -/
theorem follows_refuse_bind (result : β → α) {next : Bool → Program (Parser Stream) α}
    (nextStays : ∀ value, Stays (next value)) :
    Follows lost result (lift (fail EPROTO) >>= next) Reader.refuse where
  stays := stays_bind (stays_lift (sticky_fail EPROTO)) nextStays
  runs := by
    intro ending bytes scan _ clean
    have refused : (lift (fail EPROTO) (⟨⟨bytes, lost, ending⟩, scan⟩ : Parser Stream)).2.scan.error
        = EPROTO := by simp [lift, fail, clean]
    refine .refused rfl ?_
    rw [bind_apply, nextStays _ _ (by rw [refused]; decide), refused]

theorem follows_noScalar (result : β → Option Nat) : Follows lost result noScalar Reader.refuse :=
  follows_refuse_bind result fun _ => stays_pure none

/-- An action that an event stands for. -/
theorem follows_does {action : Program ScanState Bool} (event : Event) (honest : Honest action)
    (sticky : Sticky action) (performs : event.perform = action) :
    Follows lost (fun _ => true) (lift action) (Reader.does event) where
  stays := stays_lift sticky
  runs := by
    intro ending bytes scan _ clean
    by_cases succeeded : (action scan).1 = true
    · have performed : perform [event] scan = (true, (action scan).2) := by
        rw [perform, performs, andThen_of_true succeeded]
        rfl
      exact .found performed (Prod.ext succeeded rfl)
    · have fails : perform [event] scan = (false, (action scan).2) := by
        rw [perform, performs, andThen_of_false (Bool.eq_false_of_not_eq_true succeeded)]
      exact .blocked fails (fun error => succeeded ((honest scan clean).mpr error)) rfl

theorem follows_change {change : ScanState → ScanState} (event : Event)
    (sameError : ∀ state, (change state).error = state.error)
    (performs : event.perform = fun state => (true, change state)) :
    Follows lost id (lift (update change)) (Reader.does event) where
  stays := fun parser _ => sameError parser.scan
  runs := by
    intro ending bytes scan _ _
    have performed : perform [event] scan = (true, change scan) := by
      rw [perform, performs]
      rfl
    exact .found performed rfl

/-- Without an error the look at it finds none. -/
theorem follows_errorNow {next : Errno → Program (Parser Stream) α}
    (nextStays : ∀ error ≠ 0, Stays (next error)) (follows : Follows lost result (next 0) reader) :
    Follows lost result (errorNow >>= next) reader where
  stays := fun parser failed => nextStays _ failed parser failed
  runs := by
    intro ending bytes scan nonzero clean
    rw [bind_apply, errorNow, clean]
    exact follows.runs nonzero clean

theorem peek_cons {byte : Byte} (clean : scan.error = 0) :
    peek Stream.source ⟨⟨byte :: rest, lost, ending⟩, scan⟩ =
      (some byte, ⟨⟨byte :: rest, lost, ending⟩, scan⟩) := by
  simp [peek, clean, Stream.source, Stream.peek]

theorem follows_peek : Follows lost id (peek Stream.source) (Reader.peek lost) where
  stays := fun parser failed => by rw [peek_of_error failed]
  runs := by
    intro ending bytes scan _ clean
    cases bytes with
    | cons byte rest => exact .found rfl (peek_cons clean)
    | nil =>
        by_cases whole : lost = 0
        · rw [Reader.peek, if_pos whole]
          exact .found rfl (by simp [peek, clean, Stream.source, Stream.peek, whole])
        · rw [Reader.peek, if_neg whole]
          exact .cut whole rfl (by simp [peek, clean, Stream.source, Stream.peek, whole, fail])

theorem stays_take : Stays (take Stream.source) := by
  intro parser failed
  rw [take, bind_apply, peek_of_error failed]
  exact sticky_fail EPROTO parser.scan failed

/-- A byte in front is consumed and emitted. -/
theorem take_cons {byte : Byte} (clean : scan.error = 0) :
    take Stream.source ⟨⟨byte :: rest, lost, ending⟩, scan⟩ =
      (if (emit byte scan).1 then some byte else none,
        ⟨⟨rest, lost, ending⟩, (emit byte scan).2⟩) := by
  rw [take, bind_apply, peek_cons clean]
  rfl

theorem follows_take : Follows lost some (take Stream.source) (Reader.take lost) where
  stays := stays_take
  runs := by
    intro ending bytes scan nonzero clean
    cases bytes with
    | cons byte rest =>
        rw [take_cons clean]
        by_cases succeeded : (emit byte scan).1 = true
        · have performed : perform [.take byte] scan = (true, (emit byte scan).2) := by
            rw [perform, Event.perform, andThen_of_true succeeded]
            rfl
          rw [if_pos succeeded]
          exact .found performed rfl
        · have fails : perform [.take byte] scan = (false, (emit byte scan).2) := by
            rw [perform, Event.perform, andThen_of_false (Bool.eq_false_of_not_eq_true succeeded)]
          exact .blocked fails (fun error => succeeded ((honest_emit byte scan clean).mpr error)) rfl
    | nil =>
        by_cases whole : lost = 0
        · have reading : Reader.take lost [] = ([], .refused) := by
            simp [Reader.take, bind, Reader.peek, whole, Reader.refuse]
          rw [reading]
          refine .refused rfl ?_
          simp [take, peek, clean, Stream.source, Stream.peek, whole, lift, fail]
        · have reading : Reader.take lost [] = ([], .cut) := by
            simp [Reader.take, bind, Reader.peek, whole]
          rw [reading]
          refine .cut whole rfl ?_
          simp [take, peek, clean, Stream.source, Stream.peek, whole, lift, fail, nonzero]

theorem follows_spacePass : Follows lost id (spacePass Stream.source) (Reader.spacePass lost) where
  stays := by
    intro parser failed
    rw [spacePass, bind_apply, peek_of_error failed]
    rfl
  runs := by
    intro ending bytes scan nonzero clean
    cases bytes with
    | cons byte rest =>
        rw [spacePass, bind_apply, peek_cons clean]
        by_cases space : Json.IsSpace byte
        · have reading : Reader.spacePass lost (byte :: rest) =
              ([.skip byte], .found (.again ()) rest) := by
            simp [Reader.spacePass, bind, Reader.peek, Reader.consume, pure, space]
          have performed : perform [.skip byte] scan = (true, scan) := rfl
          rw [reading]
          exact .found performed (by simp [space, advance, update, Stream.source, Stream.advance])
        · have reading : Reader.spacePass lost (byte :: rest) =
              ([], .found (.done ()) (byte :: rest)) := by
            simp [Reader.spacePass, bind, Reader.peek, pure, space]
          rw [reading]
          exact .found rfl (by simp [space])
    | nil =>
        by_cases whole : lost = 0
        · have reading : Reader.spacePass lost [] = ([], .found (.done ()) []) := by
            simp [Reader.spacePass, bind, Reader.peek, whole, pure]
          rw [reading]
          exact .found rfl (by simp [spacePass, peek, clean, Stream.source, Stream.peek, whole])
        · have reading : Reader.spacePass lost [] = ([], .cut) := by
            simp [Reader.spacePass, bind, Reader.peek, whole]
          rw [reading]
          refine .cut whole rfl ?_
          simp [spacePass, peek, clean, Stream.source, Stream.peek, whole, fail]

theorem follows_whitespace : Follows lost id (whitespace Stream.source) (Reader.whitespace lost) :=
  follows_scanLoop (fun _ => follows_spacePass) () ()

theorem follows_expect (expected : Byte) :
    Follows lost (fun _ => true) (expect Stream.source expected) (Reader.expect lost expected) := by
  refine follows_bind_some follows_take ?_ fun byte => ?_
  · exact stays_lift (sticky_fail EPROTO)
  · simp only [Option.some.injEq]
    exact follows_ite (fun _ => follows_pure _ ()) fun _ => follows_refuse _

/-! ### Strings -/

theorem follows_hexDigits (count result : Nat) :
    Follows lost some (hexDigits Stream.source count result)
      (Reader.hexDigits lost count result) := by
  induction count generalizing result with
  | zero => exact follows_pure some result
  | succ count inductionHypothesis =>
      refine follows_bind_some follows_take stays_noScalar fun byte => ?_
      simp only [Option.bind_some]
      cases Json.hexValue byte with
      | none => exact follows_noScalar some
      | some digit => exact inductionHypothesis _

theorem follows_literal (bytes : List Byte) :
    Follows lost (fun _ => true) (literal Stream.source bytes) (Reader.literal lost bytes) := by
  induction bytes with
  | nil => exact follows_pure _ ()
  | cons byte rest inductionHypothesis => exact follows_then (follows_expect byte) inductionHypothesis

theorem follows_unicodeEscape :
    Follows lost some (unicodeEscape Stream.source) (Reader.unicodeEscape lost) := by
  have marked : Follows lost (fun _ => true) (andThen (expect Stream.source (ascii '\\'))
      (expect Stream.source (ascii 'u'))) (Reader.literal lost (bytesOf "\\u")) :=
    follows_then (follows_expect _) (follows_yes (follows_expect _) rfl)
  refine follows_bind_some (follows_hexDigits 4 0) (stays_pure none) fun scalar => ?_
  refine follows_ite (fun _ => ?_) fun _ =>
    follows_ite (fun _ => follows_noScalar some) fun _ => follows_pure some scalar
  refine follows_bind_true marked (stays_pure none) ?_
  refine follows_bind_some (follows_hexDigits 4 0) (stays_pure none) fun low => ?_
  exact follows_ite (fun _ => follows_noScalar some) fun _ => follows_pure some _

theorem follows_escapeSequence :
    Follows lost some (escapeSequence Stream.source) (Reader.escapeSequence lost) := by
  refine follows_bind_some follows_take stays_noScalar fun letter => ?_
  iterate 6 refine follows_ite (fun _ => follows_pure some _) fun _ => ?_
  exact follows_ite (fun _ => follows_unicodeEscape) fun _ => follows_noScalar some

theorem follows_tailBytes (following scalar : Nat) :
    Follows lost some (tailBytes Stream.source following scalar)
      (Reader.tailBytes lost following scalar) := by
  induction following generalizing scalar with
  | zero => exact follows_pure some scalar
  | succ following inductionHypothesis =>
      refine follows_bind_some follows_take stays_noScalar fun byte => ?_
      exact follows_ite (fun _ => inductionHypothesis _) fun _ => follows_noScalar some

theorem follows_scalarFrom (first : Byte) :
    Follows lost some (scalarFrom Stream.source first) (Reader.scalarFrom lost first) := by
  have multibyte : Follows lost some (multibyte Stream.source first)
      (Reader.multibyte lost first) := by
    unfold multibyte Reader.multibyte
    cases Utf8.lead first with
    | none => exact follows_noScalar some
    | some lead =>
        refine follows_bind_some (follows_tailBytes _ _) (stays_pure none) fun scalar => ?_
        exact follows_ite (fun _ => follows_pure some scalar) fun _ => follows_noScalar some
  exact follows_ite (fun _ => follows_escapeSequence) fun _ =>
    follows_ite (fun _ => follows_pure some _) fun _ => multibyte

theorem follows_decodedScalar (destination : Option Decoded) (code : Nat) :
    Follows lost (fun _ => true) (lift (decodedScalar destination code))
      (Reader.does (.scalar destination code)) :=
  follows_does _ (honest_decodedScalar destination code) (sticky_decodedScalar destination code) rfl

theorem follows_stringPass (destination : Option Decoded) :
    Follows lost id (stringPass Stream.source destination)
      (Reader.stringPass lost destination) := by
  refine follows_errorNow (fun error failed => ?_) ?_
  · rw [if_pos failed]
    exact stays_pure _
  · rw [if_neg (not_not.mpr rfl)]
    refine follows_bind_some follows_take
      (stays_bind (stays_lift (sticky_fail EPROTO)) fun _ => stays_pure _) fun byte => ?_
    refine follows_ite (fun _ => follows_pure id _) fun _ => ?_
    refine follows_ite (fun _ => follows_refuse_bind id fun _ => stays_pure _) fun _ => ?_
    refine follows_bind_some (follows_scalarFrom byte) (stays_pure _) fun scalar => ?_
    exact follows_bind_true (follows_decodedScalar destination scalar) (stays_pure _)
      (follows_pure id (Step.again ()))

theorem follows_string (destination : Option Decoded) :
    Follows lost id (string Stream.source destination) (Reader.string lost destination) :=
  follows_then (follows_expect _)
    (follows_scanLoop (fun _ => follows_stringPass destination) false ())

/-! ### Numbers -/

theorem follows_atDigit : Follows lost id (atDigit Stream.source) (Reader.atDigit lost) := by
  refine follows_bind_same follows_peek fun found => ?_
  cases found <;> exact follows_pure id _

theorem follows_digits (count : Nat) :
    Follows lost id (digits Stream.source count) (Reader.digits lost count) := by
  refine follows_loop (fun count => ?_) none _ count
  refine follows_bind_next follows_take (follows_ite (fun _ => ?_) fun _ => ?_)
  · exact follows_refuse_bind id fun _ => stays_pure _
  · exact follows_bind_same follows_atDigit fun _ => follows_pure id _

theorem follows_optionalByte (wanted : List Byte) (count : Nat) :
    Follows lost id (optionalByte Stream.source wanted count)
      (Reader.optionalByte lost wanted count) := by
  refine follows_bind_same follows_peek fun found => ?_
  cases found with
  | none => exact follows_pure id _
  | some byte =>
      refine follows_ite (fun _ => ?_) fun _ => follows_pure id _
      exact follows_bind_next follows_take (follows_pure id _)

theorem follows_requiredDigits (count : Nat) :
    Follows lost id (requiredDigits Stream.source count) (Reader.requiredDigits lost count) :=
  follows_bind_same follows_atDigit fun _ =>
    follows_ite (fun _ => follows_digits count) fun _ => follows_noScalar id

theorem follows_wholeDigits (count : Nat) :
    Follows lost id (wholeDigits Stream.source count) (Reader.wholeDigits lost count) :=
  follows_bind_same (follows_optionalByte _ _) fun _ =>
    follows_ite (fun _ => follows_pure id _) fun _ => follows_requiredDigits count

theorem follows_optionalPart (wanted sign : List Byte) (count : Nat) :
    Follows lost id (optionalPart Stream.source wanted sign count)
      (Reader.optionalPart lost wanted sign count) :=
  follows_bind_same (follows_optionalByte _ _) fun _ =>
    follows_ite (fun _ => follows_bind_same (follows_optionalByte _ _) fun _ =>
      follows_requiredDigits _) fun _ => follows_pure id _

theorem follows_number : Follows lost id (number Stream.source) (Reader.number lost) := by
  refine follows_bind_same (follows_optionalByte _ _) fun _ => ?_
  refine follows_bind_same (follows_wholeDigits _) fun whole => ?_
  cases whole with
  | none => exact follows_pure id _
  | some count =>
      refine follows_bind_same (follows_optionalPart _ _ _) fun fraction => ?_
      cases fraction with
      | none => exact follows_pure id _
      | some count =>
          refine follows_bind_same (follows_optionalPart _ _ _) fun exponent => ?_
          cases exponent with
          | none => exact follows_pure id _
          | some _ => exact follows_errorNow (fun _ _ => stays_pure _) (follows_pure id true)

/-! ### Values -/

theorem follows_memberKey : Follows lost id (memberKey Stream.source) (Reader.memberKey lost) :=
  follows_andThen (follows_string _)
    (follows_bind_same follows_whitespace fun _ => follows_yes (follows_expect _) rfl)

theorem follows_itemPass (kind : Json.Kind) (itemFollows : Follows lost id item itemReader) :
    Follows lost id (itemPass Stream.source kind item) (Reader.itemPass lost kind itemReader) := by
  have keyed : Follows lost id (keyedItem Stream.source kind item)
      (Reader.keyedItem lost kind itemReader) := by
    cases kind with
    | array => exact itemFollows
    | object => exact follows_andThen follows_memberKey itemFollows
  refine follows_bind_same keyed fun _ => follows_ite (fun _ => ?_) fun _ => follows_pure id _
  refine follows_bind_same follows_whitespace fun _ => ?_
  refine follows_bind_same follows_peek fun _ => follows_ite (fun _ => ?_) fun _ => ?_
  · exact follows_bind_true (follows_expect _) (stays_pure _) (follows_pure id (Step.done true))
  · exact follows_bind_true (follows_expect _) (stays_pure _)
      (follows_bind_same follows_whitespace fun _ => follows_pure id _)

theorem follows_container (kind : Json.Kind) (itemFollows : Follows lost id item itemReader) :
    Follows lost id (container Stream.source kind item)
      (Reader.container lost kind itemReader) := by
  refine follows_bind_next follows_take ?_
  refine follows_bind_same follows_whitespace fun _ => ?_
  refine follows_bind_same follows_peek fun _ => follows_ite (fun _ => ?_) fun _ => ?_
  · exact follows_yes (follows_expect _) rfl
  · exact follows_scanLoop (fun _ => follows_itemPass kind itemFollows) false ()

theorem follows_valueBody (destination : Option Decoded)
    (itemFollows : Follows lost id item itemReader) :
    Follows lost id (valueBody Stream.source item destination)
      (Reader.valueBody lost itemReader destination) := by
  refine follows_bind_same follows_whitespace fun _ => ?_
  refine follows_bind_same follows_peek fun found => ?_
  cases found with
  | none => exact follows_refuse id
  | some first =>
      refine follows_ite (fun _ => follows_string _) fun _ => ?_
      refine follows_ite (fun _ => follows_number) fun _ => ?_
      iterate 3 refine follows_ite (fun _ => follows_yes (follows_literal _) rfl) fun _ => ?_
      iterate 2 refine follows_ite (fun _ => follows_container _ itemFollows) fun _ => ?_
      exact follows_refuse id

theorem follows_enter {depth : Nat} (shallow : depth ≤ resultMaxDepth) :
    Follows lost (fun _ => true) (lift (enterValue depth)) (Reader.does (.enter depth)) :=
  follows_does _ (honest_enterValue depth) (sticky_enterValue depth) (enter_of_le shallow)

/-- The level below the last one is refused by every scanner. -/
theorem follows_tooDeep : Follows lost id (lift (fail EFBIG)) (Reader.value lost 0 none) := by
  have refuses : (Event.enter (resultMaxDepth + 1)).perform = fail EFBIG := by
    funext state
    rw [Event.perform, enter, if_pos (Nat.lt_succ_self _)]
  exact follows_yes (follows_does _ (honest_fail (by decide)) (sticky_fail EFBIG) refuses) rfl

theorem follows_value (room : Nat) (destination : Option Decoded) :
    Follows lost id (value Stream.source room destination)
      (Reader.value lost room destination) := by
  induction room generalizing destination with
  | zero => exact follows_tooDeep
  | succ room inductionHypothesis =>
      exact follows_then (follows_enter (Nat.sub_le _ _))
        (follows_valueBody destination (inductionHypothesis none))

/-! ### The key of a member -/

theorem follows_listen (follows : Follows lost result program reader) :
    Follows lost (fun pair => result pair.1) program (Reader.listen reader) where
  stays := follows.stays
  runs := by
    intro ending bytes scan nonzero clean
    have ran := @follows.runs ending bytes scan nonzero clean
    unfold Reader.listen
    cases reading : reader bytes with
    | mk events outcome =>
        rw [reading] at ran
        cases ran with
        | blocked fails nonzero same => cases outcome <;> exact .blocked fails nonzero same
        | found performed same => exact .found performed same
        | refused performed same => exact .refused performed same
        | cut short performed same => exact .cut short performed same

theorem follows_setCapture (mode : Capture) :
    Follows lost id (setCapture mode) (Reader.does (.capture mode)) :=
  follows_change (.capture mode) (fun _ => rfl) rfl

theorem follows_rootKey :
    Follows lost Prod.fst (rootKey Stream.source) (Reader.rootKey lost) := by
  have named : Follows lost id (rootKey Stream.source) (do
      Reader.does .clearKey
      Reader.string lost (some { key := true, isKey := true })) :=
    follows_bind_same (follows_change .clearKey (fun _ => rfl) rfl) fun _ => follows_string _
  exact follows_map (follows_listen named) fun _ => rfl

/-- The reader knows the key that the scanner has in its buffer. -/
theorem rootKey_leaves {after : ScanState} {events : List Event} {value : Bool × List Byte}
    (reading : Reader.rootKey lost bytes = (events, .found value rest))
    (performed : perform events scan = (true, after)) : value.2 = after.key := by
  simp only [Reader.rootKey, bind, Reader.listen, Reader.does, pure] at reading
  cases text : Reader.string lost (some { key := true, isKey := true }) bytes with
  | mk more outcome =>
      rw [text] at reading
      cases outcome with
      | found named left =>
          simp only [List.singleton_append, List.append_nil, Prod.mk.injEq,
            Outcome.found.injEq] at reading
          obtain ⟨rfl, rfl, -⟩ := reading
          exact (key_of_performed performed).symm
      | refused | cut => simp at reading

/-- What a member is made of depends on its key. -/
theorem follows_bind_key {next : List Byte → Program (Parser Stream) α}
    {later : List Byte → Reader β} {noReader : Reader β}
    (nextFollows : ∀ key, Follows lost result (next key) (later key))
    (noFollows : Follows lost result no noReader) :
    Follows lost result
      (rootKey Stream.source >>= fun named => if named then keyNow >>= next else no)
      (Reader.rootKey lost >>= fun named => if named.1 then later named.2 else noReader) := by
  refine follows_bind_when (fun value state => value.2 = state.key) follows_rootKey rootKey_leaves
    (fun named => ?_) ?_
  · exact stays_ite (fun parser failed => (nextFollows _).stays parser failed) noFollows.stays
  · rintro ending bytes scan ⟨named, key⟩ nonzero clean rfl
    cases named with
    | false => exact noFollows.runs nonzero clean
    | true => exact (nextFollows scan.key).runs nonzero clean

/-! ### Frames -/

theorem follows_emit (byte : Byte) :
    Follows lost (fun _ => true) (lift (emit byte)) (Reader.does (.emit byte)) :=
  follows_does _ (honest_emit byte) (sticky_emit byte) rfl

theorem follows_emitAll (text : List Byte) :
    Follows lost (fun _ => true) (lift (emitAll text)) (Reader.emitAll text) := by
  induction text with
  | nil => exact follows_pure _ ()
  | cons byte rest inductionHypothesis =>
      rw [emitAll, lift_andThen]
      exact follows_then (follows_emit byte) inductionHypothesis

theorem follows_outputMember (json : Bool) :
    Follows lost id (outputMember Stream.source json) (Reader.outputMember lost json) := by
  refine follows_then (follows_does _ (honest_beginOutput _) (sticky_beginOutput _) rfl) ?_
  refine follows_bind_same follows_peek fun _ => follows_ite (fun _ => ?_) fun _ => ?_
  · exact follows_bind_same (follows_setCapture _) fun _ => follows_value _ _
  · refine follows_bind_same (follows_change .wrongType (fun _ => rfl) rfl) fun _ => ?_
    exact follows_bind_same (follows_setCapture _) fun _ => follows_value _ _

theorem follows_coreMember (first : Bool) (key : List Byte) :
    Follows lost id (coreMember Stream.source first key) (Reader.coreMember lost first key) := by
  have comma : Follows lost (fun _ => true)
      (if first then pure true else lift (emit (ascii ',')))
      (Reader.emitAll (if first then [] else [ascii ','])) := by
    cases first with
    | true => exact follows_pure _ ()
    | false => exact follows_yes (follows_emit _) rfl
  refine follows_bind_same (follows_setCapture _) fun _ => ?_
  exact follows_then comma (follows_then (follows_emitAll _) (follows_value _ _))

theorem follows_rootMember (locals : RootLocals) (key : List Byte) :
    Follows lost id (rootMember Stream.source locals key)
      (Reader.rootMember lost locals key) := by
  refine follows_ite (fun _ => ?_) fun _ => follows_ite (fun _ => ?_) fun _ => ?_
  · exact follows_bind_same (follows_outputMember _) fun _ => follows_pure id _
  · exact follows_bind_same (follows_value _ _) fun _ => follows_pure id _
  · exact follows_bind_same (follows_coreMember _ _) fun _ => follows_pure id _

theorem follows_rootColon :
    Follows lost (fun _ => true) (rootColon Stream.source) (Reader.rootColon lost) :=
  follows_bind_same follows_whitespace fun _ =>
    follows_bind_true (follows_expect _) (stays_pure _)
      (follows_bind_same follows_whitespace fun _ => follows_pure _ ())

theorem follows_rootPass (locals : RootLocals) :
    Follows lost id (rootPass Stream.source locals) (Reader.rootPass lost locals) := by
  refine follows_bind_key (fun key => ?_) (follows_pure id _)
  unfold rootNamed Reader.rootNamed
  cases markSeen key uniqueNames locals.seen with
  | none => exact follows_refuse_bind id fun _ => stays_pure _
  | some seen =>
      refine follows_bind_true follows_rootColon (stays_pure _) ?_
      refine follows_bind_same (follows_rootMember _ _) fun _ =>
        follows_ite (fun _ => ?_) fun _ => follows_pure id _
      refine follows_bind_same (follows_setCapture _) fun _ => ?_
      refine follows_bind_same follows_whitespace fun _ => ?_
      refine follows_bind_same follows_peek fun _ =>
        follows_ite (fun _ => follows_pure id _) fun _ => ?_
      exact follows_bind_true (follows_expect _) (stays_pure _)
        (follows_bind_same follows_whitespace fun _ => follows_pure id _)

theorem follows_emitCore (byte : Byte) :
    Follows lost (fun _ => true) (emitCore byte) (Reader.emitCore byte) := by
  refine follows_bind_same (follows_setCapture _) fun _ => ?_
  exact follows_bind_true (follows_emit byte) (stays_pure _)
    (follows_bind_same (follows_setCapture _) fun _ => follows_pure _ ())

theorem follows_rootMembers :
    Follows lost id (rootMembers Stream.source) (Reader.rootMembers lost) :=
  follows_bind_same follows_whitespace fun _ => follows_bind_same follows_peek fun _ =>
    follows_ite (fun _ => follows_pure id _) fun _ => follows_scanLoop follows_rootPass false {}

theorem follows_rootEnd :
    Follows lost (fun _ => true) (rootEnd Stream.source) (Reader.rootEnd lost) := by
  refine follows_bind_same follows_whitespace fun _ => follows_bind_same follows_peek fun found => ?_
  refine follows_errorNow (fun error _ => ?_) ?_
  · exact stays_ite (stays_pure _) (stays_lift (sticky_fail EPROTO))
  · simp only [and_true]
    exact follows_ite (fun _ => follows_pure _ ()) fun _ => follows_refuse _

/-- The scanner follows the reader of a frame. -/
theorem follows_root : Follows lost id (root Stream.source) (Reader.root lost) := by
  refine follows_bind_same (follows_setCapture _) fun _ => ?_
  refine follows_bind_same follows_whitespace fun _ => ?_
  refine follows_then (follows_expect _) (follows_then (follows_emitCore _) ?_)
  refine follows_andThen follows_rootMembers ?_
  exact follows_then (follows_expect _)
    (follows_then (follows_emitCore _) (follows_yes follows_rootEnd rfl))

end Rules

end IperfSwift.Output
