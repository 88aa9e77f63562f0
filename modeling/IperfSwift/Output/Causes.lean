import IperfSwift.Output.Follows

/-!
Contract: why the scan of a frame fails.

Owns: what the events of a text amount to, and the limits on that; why an event is
refused; the causes of a failing scan, in the order of the frame's events; the proof
that they are the causes and that a frame has no other error.

The first event that is refused decides, and if there is none, the end of the text. So
the error depends on the bytes, the limits, the memory and the read function alone.

Does not own: calls; what a read function does wrong.
-/

set_option autoImplicit false

namespace IperfSwift.Output

open IperfSwift.Lib
open IperfSwift.Lib.Program

variable {α β : Type}
variable {tally : Tally} {event : Event} {error : Errno}

/-! ### What events amount to -/

/-- The effect of an event on a tally that has no limits. -/
def Event.adds (event : Event) (tally : Tally) : Tally where
  capture := match event with
    | .capture mode => mode
    | _ => tally.capture
  key := event.keyed tally.key
  used := tally.used + .under tally.capture event.entries event.emitted

/-- Everything that is counted behind these events of a frame. -/
def tallyOf (events : List Event) : Tally :=
  events.foldl (fun tally event => event.adds tally) ⟨.discard, [], 0⟩

/-- The level of the value that an event enters. -/
def Event.level : Event → Nat
  | .enter depth => depth
  | _ => 0

/-- The event adds a NUL to the key of an object. -/
def Event.NulKey : Event → Prop
  | .scalar (some decoded) code => (decoded.isKey = true ∨ decoded.key = true) ∧ code = 0
  | _ => False

inductive Limit where
  | depth
  | values
  | coreValues
  | coreBytes
  | keyLength

/-- With this event a text is too deep, has too many values, too many values or bytes in its
core text, or a member with too long a name. -/
def Exceeds (tally : Tally) (event : Event) : Limit → Prop
  | .depth => resultMaxDepth < event.level
  | .values => resultMaxValues < (event.adds tally).used.values
  | .coreValues => resultCoreMaxValues < (event.adds tally).used.coreValues
  | .coreBytes => resultCoreMaxBytes < (event.adds tally).used.core.length
  | .keyLength => keyBuffer < (event.adds tally).key.length

/-- No limit is exceeded. -/
structure Tally.Within (tally : Tally) : Prop where
  used : tally.used.Fits
  key : tally.key.length ≤ keyBuffer

/-- Nothing is wrong with an event but what memory there is. -/
structure Passes (tally : Tally) (event : Event) : Prop where
  named : ¬ event.NulKey
  shallow : event.level ≤ resultMaxDepth
  within : (event.adds tally).Within

theorem not_passes_iff :
    ¬ Passes tally event ↔ event.NulKey ∨ ∃ limit, Exceeds tally event limit := by
  constructor
  · intro fails
    by_contra none
    obtain ⟨named, within⟩ := not_or.mp none
    have fits : ∀ limit, ¬ Exceeds tally event limit := not_exists.mp within
    exact fails ⟨named, Nat.le_of_not_lt (fits .depth), ⟨Nat.le_of_not_lt (fits .values),
      Nat.le_of_not_lt (fits .coreValues), Nat.le_of_not_lt (fits .coreBytes)⟩,
      Nat.le_of_not_lt (fits .keyLength)⟩
  · rintro (nul | ⟨limit, exceeds⟩) passes
    · exact passes.named nul
    · cases limit with
      | depth => exact Nat.not_lt.mpr passes.shallow exceeds
      | values => exact Nat.not_lt.mpr passes.within.used.values exceeds
      | coreValues => exact Nat.not_lt.mpr passes.within.used.coreValues exceeds
      | coreBytes => exact Nat.not_lt.mpr passes.within.used.core exceeds
      | keyLength => exact Nat.not_lt.mpr passes.within.key exceeds

/-- An event that enters no value and emits nothing leaves the amounts as they are. -/
theorem used_idle (entries : event.entries = 0) (emitted : event.emitted = []) :
    (event.adds tally).used = tally.used := by
  have nothing : (event.adds tally).used = tally.used + .under tally.capture 0 [] := by
    rw [← entries, ← emitted]
    rfl
  rw [nothing, Amount.under_zero, add_zero]

section Tallies

variable {tally after : Tally} (within : tally.Within)

include within

/-- An event that only spends fails where the amounts no longer fit. -/
theorem spend_eq_some_iff {event : Event} (named : ¬ event.NulKey)
    (shallow : event.level ≤ resultMaxDepth)
    (same : event.adds tally = { tally with used := (event.adds tally).used }) :
    tally.spend (.under tally.capture event.entries event.emitted) = some after ↔
      Passes tally event ∧ after = event.adds tally := by
  have key : (event.adds tally).key.length ≤ keyBuffer := by
    rw [same]
    exact within.key
  rw [Tally.spend_eq_some]
  constructor
  · rintro ⟨fits, rfl⟩
    exact ⟨⟨named, shallow, fits, key⟩, same.symm⟩
  · rintro ⟨passes, rfl⟩
    exact ⟨passes.within.used, same⟩

theorem scalar_eq_some_iff {decoded : Decoded} {code : Nat} :
    (Event.scalar (some decoded) code).tally tally = some after ↔
      Passes tally (.scalar (some decoded) code) ∧
        after = (Event.scalar (some decoded) code).adds tally := by
  have used : ((Event.scalar (some decoded) code).adds tally).used = tally.used :=
    used_idle rfl rfl
  have passes_iff : Passes tally (.scalar (some decoded) code) ↔
      ¬ (Event.scalar (some decoded) code).NulKey ∧
        ((Event.scalar (some decoded) code).adds tally).key.length ≤ keyBuffer :=
    ⟨fun passes => ⟨passes.named, passes.within.key⟩,
      fun ⟨named, key⟩ => ⟨named, Nat.zero_le _, used ▸ within.used, key⟩⟩
  have shape : (Event.scalar (some decoded) code).adds tally =
      { tally with key := (Event.scalar (some decoded) code).keyed tally.key } :=
    congrArg (Tally.mk tally.capture _) used
  have key := within.key
  rw [passes_iff, shape]
  simp only [Event.tally, Event.NulKey, Event.keyed]
  by_cases isKey : decoded.key = true
  · by_cases nul : code = 0
    · simp [isKey, nul]
    · by_cases long : keyBuffer < tally.key.length + (scalarBytes code).length
      · simp [isKey, nul, long]
      · simp only [isKey, nul, long, List.length_append, Nat.le_of_not_lt long, and_false, or_false,
          if_false, if_true, not_false_eq_true, true_and, Option.some.injEq]
        exact eq_comm
  · by_cases nul : decoded.isKey = true ∧ code = 0
    · simp [isKey, nul]
    · simp only [isKey, nul, key, or_false, if_false, not_false_eq_true, true_and, Bool.false_eq_true,
        Option.some.injEq]
      exact eq_comm

/-- The tally with its limits is the one without, up to the first limit that is exceeded. -/
theorem tally_eq_some_iff (noKey : ∀ bytes, event ≠ .key bytes) :
    event.tally tally = some after ↔ Passes tally event ∧ after = event.adds tally := by
  cases event with
  | scalar destination code =>
      cases destination with
      | none => exact spend_eq_some_iff within id (Nat.zero_le _) rfl
      | some decoded => exact scalar_eq_some_iff within
  | enter depth =>
      by_cases deep : resultMaxDepth < depth
      · simp only [Event.tally, if_pos deep, reduceCtorEq, false_iff, not_and]
        exact fun passes => absurd deep (Nat.not_lt.mpr passes.shallow)
      · rw [Event.tally, if_neg deep]
        exact @spend_eq_some_iff _ _ within (.enter depth) id (Nat.le_of_not_lt deep) rfl
  | capture mode =>
      have used : ((Event.capture mode).adds tally).used = tally.used := used_idle rfl rfl
      have shape : (Event.capture mode).adds tally = { tally with capture := mode } :=
        congrArg (Tally.mk mode tally.key) used
      have passes : Passes tally (.capture mode) :=
        ⟨id, Nat.zero_le _, used ▸ within.used, within.key⟩
      simp [Event.tally, passes, shape, eq_comm]
  | clearKey =>
      have used : (Event.clearKey.adds tally).used = tally.used := used_idle rfl rfl
      have shape : Event.clearKey.adds tally = { tally with key := [] } :=
        congrArg (Tally.mk tally.capture []) used
      have passes : Passes tally .clearKey :=
        ⟨id, Nat.zero_le _, used ▸ within.used, Nat.zero_le _⟩
      simp [Event.tally, passes, shape, eq_comm]
  | key bytes => exact absurd rfl (noKey bytes)
  | _ => exact spend_eq_some_iff within id (Nat.zero_le _) rfl

/-- An event that changes nothing that is counted. -/
theorem passes_idle (named : ¬ event.NulKey) (level : event.level = 0)
    (entries : event.entries = 0) (emitted : event.emitted = [])
    (key : event.keyed tally.key = tally.key) : Passes tally event := by
  refine ⟨named, level ▸ Nat.zero_le _, ?_, ?_⟩
  · rw [used_idle entries emitted]
    exact within.used
  · exact (congrArg List.length key).trans_le within.key

theorem passes_of_tally (counted : event.tally tally = some after) :
    Passes tally event ∧ after = event.adds tally := by
  by_cases isKey : ∃ bytes, event = .key bytes
  · obtain ⟨bytes, rfl⟩ := isKey
    rw [Event.tally] at counted
    split_ifs at counted
    obtain rfl := Option.some.inj counted
    refine ⟨passes_idle within id rfl rfl rfl rfl, ?_⟩
    exact congrArg (Tally.mk tally.capture tally.key) (used_idle rfl rfl).symm
  · exact (tally_eq_some_iff within (not_exists.mp isKey)).mp counted

end Tallies

/-- Events that are performed leave what they amount to. -/
theorem tally_of_performed {trace : List Event} {state after : ScanState}
    (within : state.tally.Within) (performed : perform trace state = (true, after)) :
    after.tally = trace.foldl (fun tally event => event.adds tally) state.tally ∧
      after.tally.Within := by
  induction trace generalizing state with
  | nil =>
      obtain rfl : state = after := congrArg Prod.snd performed
      exact ⟨rfl, within⟩
  | cons event rest inductionHypothesis =>
      obtain ⟨succeeded, later⟩ := andThen_eq_true performed
      have counted : event.tally state.tally = some (event.perform state).2.tally := by
        rw [tally_perform within.used, if_pos succeeded]
        rintro format rfl
        exact succeeded
      obtain ⟨passes, next⟩ := passes_of_tally within counted
      obtain ⟨same, still⟩ := inductionHypothesis (next ▸ passes.within) later
      rw [same, next]
      exact ⟨rfl, by rwa [same, next] at still⟩

/-! ### Why an event is refused -/

/-- Why an event is refused behind others, and with which error. -/
inductive Refusal (before : List Event) (state : ScanState) (event : Event) : Errno → Prop where
  | limit {limit : Limit} (named : ¬ event.NulKey)
      (exceeds : Exceeds (tallyOf before) event limit) : Refusal before state event EFBIG
  | nulKey (nul : event.NulKey) : Refusal before state event EPROTO
  | memory {format : OutputFormat} (output : event = .beginOutput format)
      (refused : (Heap.malloc (state.limit + 1) (freeValue state)).1 = false) :
      Refusal before state event ENOMEM

/-- The error of an event that is refused. -/
def Event.refusal : Event → Errno
  | .beginOutput _ => ENOMEM
  | .scalar _ code => if code = 0 then EPROTO else EFBIG
  | _ => EFBIG

section Refusal

variable {state failed : ScanState}

theorem error_of_fail (clean : state.error = 0) (fails : fail error state = (false, failed)) :
    failed.error = error := by
  rw [← (Prod.mk.inj fails).2]
  simp [clean]

theorem error_emit {byte : Byte} (clean : state.error = 0)
    (fails : emit byte state = (false, failed)) : failed.error = EFBIG := by
  unfold emit at fails
  cases mode : state.capture with
  | discard =>
      simp only [mode] at fails
      cases congrArg Prod.fst fails
  | core =>
      simp only [mode] at fails
      split_ifs at fails
      · exact error_of_fail clean fails
      · cases congrArg Prod.fst fails
  | outputJson =>
      simp only [mode] at fails
      split_ifs at fails <;> cases congrArg Prod.fst fails

theorem error_enter {depth : Nat} (clean : state.error = 0)
    (fails : enter depth state = (false, failed)) : failed.error = EFBIG := by
  unfold enter enterValue at fails
  split at fails
  · exact error_of_fail clean fails
  · dsimp only at fails
    split at fails
    · exact error_of_fail (by exact clean) fails
    · cases mode : state.capture with
      | discard =>
          simp only [mode] at fails
          cases congrArg Prod.fst fails
      | core =>
          simp only [mode] at fails
          split_ifs at fails
          · exact error_of_fail (by exact clean) fails
          · cases congrArg Prod.fst fails
      | outputJson =>
          simp only [mode] at fails
          split_ifs at fails <;> cases congrArg Prod.fst fails

theorem error_scalar {destination : Option Decoded} {code : Nat} (clean : state.error = 0)
    (fails : decodedScalar destination code state = (false, failed)) :
    failed.error = if code = 0 then EPROTO else EFBIG := by
  unfold decodedScalar at fails
  cases destination with
  | none => cases congrArg Prod.fst fails
  | some decoded =>
      dsimp only at fails
      by_cases nul : decoded.isKey = true ∧ code = 0
      · rw [if_pos nul] at fails
        rw [if_pos nul.2]
        exact error_of_fail clean fails
      · rw [if_neg nul] at fails
        by_cases key : decoded.key = true
        · rw [if_pos key] at fails
          split at fails
          · exact error_of_fail clean fails
          · cases congrArg Prod.fst fails
        · rw [if_neg key] at fails
          split_ifs at fails <;> cases congrArg Prod.fst fails

theorem error_beginOutput {format : OutputFormat} (clean : state.error = 0)
    (fails : beginOutput format state = (false, failed)) :
    failed.error = ENOMEM ∧ (Heap.malloc (state.limit + 1) (freeValue state)).1 = false := by
  by_cases granted : (Heap.malloc (state.limit + 1) (freeValue state)).1 = true
  · simp only [beginOutput, if_pos granted] at fails
    cases congrArg Prod.fst fails
  · simp only [beginOutput, if_neg granted] at fails
    exact ⟨error_of_fail (by exact clean) fails, Bool.eq_false_of_not_eq_true granted⟩

theorem error_of_refused (clean : state.error = 0) (fails : event.perform state = (false, failed))
    (noKey : ∀ bytes, event ≠ .key bytes) : failed.error = event.refusal := by
  cases event with
  | take byte | emit byte => exact error_emit clean fails
  | enter depth => exact error_enter clean fails
  | scalar destination code => exact error_scalar clean fails
  | beginOutput format => exact (error_beginOutput clean fails).1
  | key bytes => exact absurd rfl (noKey bytes)
  | _ => cases congrArg Prod.fst fails

theorem refusal_of_nulKey (nul : event.NulKey) :
    event.refusal = EPROTO ∧ (∀ bytes, event ≠ .key bytes) ∧
      ∀ format, event ≠ .beginOutput format := by
  cases event with
  | scalar destination code =>
      cases destination with
      | none => exact nul.elim
      | some decoded => exact ⟨if_pos nul.2, by simp, by simp⟩
  | _ => exact nul.elim

/-- A limit is exceeded by no event that is refused for anything else. -/
theorem refusal_of_limit (within : tally.Within) (named : ¬ event.NulKey)
    (stops : ¬ Passes tally event) :
    event.refusal = EFBIG ∧ (∀ bytes, event ≠ .key bytes) ∧
      ∀ format, event ≠ .beginOutput format := by
  refine ⟨?_, ?_, ?_⟩
  · cases event with
    | scalar destination code =>
        refine if_neg fun nul => stops (passes_idle within named rfl rfl rfl ?_)
        cases destination with
        | none => rfl
        | some decoded => exact if_neg fun key => named ⟨.inr key, nul⟩
    | beginOutput format => exact absurd (passes_idle within id rfl rfl rfl rfl) stops
    | _ => rfl
  · rintro bytes rfl
    exact stops (passes_idle within id rfl rfl rfl rfl)
  · rintro format rfl
    exact stops (passes_idle within id rfl rfl rfl rfl)

/-- An event other than a request for memory is performed where it passes. -/
theorem passes_iff_performed (within : state.tally.Within) (noKey : ∀ bytes, event ≠ .key bytes)
    (noOutput : ∀ format, event ≠ .beginOutput format) :
    Passes state.tally event ↔ (event.perform state).1 = true := by
  have counted := tally_perform within.used fun format same => absurd same (noOutput format)
  constructor
  · intro passes
    by_contra fails
    rw [if_neg fails, (tally_eq_some_iff within noKey).mpr ⟨passes, rfl⟩] at counted
    cases counted
  · intro performed
    rw [if_pos performed] at counted
    exact (passes_of_tally within counted).1

theorem refused_of_stops (clean : state.error = 0) (within : state.tally.Within)
    (noKey : ∀ bytes, event ≠ .key bytes) (noOutput : ∀ format, event ≠ .beginOutput format)
    (stops : ¬ Passes state.tally event) :
    ∃ failed, event.perform state = (false, failed) ∧ failed.error = event.refusal := by
  have fails := mt (passes_iff_performed within noKey noOutput).mpr stops
  have run : event.perform state = (false, (event.perform state).2) :=
    Prod.ext (Bool.eq_false_of_not_eq_true fails) rfl
  exact ⟨_, run, error_of_refused clean run noKey⟩

end Refusal

/-- A state from which frames are scanned: without an error, and nothing is counted yet. -/
structure Begins (start : ScanState) : Prop where
  clean : start.error = 0
  tally : start.tally = ⟨.discard, [], 0⟩

section Frame

variable {start : ScanState} (begins : Begins start)

include begins

theorem Begins.within : start.tally.Within := by
  rw [begins.tally]
  exact ⟨⟨Nat.zero_le _, Nat.zero_le _, Nat.zero_le _⟩, Nat.zero_le _⟩

/-- The causes of a refusal are all there are. -/
theorem refusal_iff {before : List Event} {middle : ScanState}
    (performed : perform before start = (true, middle)) :
    Refusal before middle event error ↔
      ∃ failed, event.perform middle = (false, failed) ∧ failed.error = error ∧ error ≠ 0 := by
  have clean := perform_clean begins.clean performed
  obtain ⟨same, within⟩ := tally_of_performed begins.within performed
  rw [begins.tally] at same
  have counted : tallyOf before = middle.tally := same.symm
  constructor
  · intro refusal
    cases refusal with
    | limit named exceeds =>
        rw [counted] at exceeds
        have stops := not_passes_iff.mpr (.inr ⟨_, exceeds⟩)
        obtain ⟨large, noKey, noOutput⟩ := refusal_of_limit within named stops
        obtain ⟨failed, run, error⟩ := refused_of_stops clean within noKey noOutput stops
        exact ⟨failed, run, error.trans large, by decide⟩
    | nulKey nul =>
        have stops : ¬ Passes middle.tally event := not_passes_iff.mpr (.inl nul)
        obtain ⟨protocol, noKey, noOutput⟩ := refusal_of_nulKey nul
        obtain ⟨failed, run, error⟩ := refused_of_stops clean within noKey noOutput stops
        exact ⟨failed, run, error.trans protocol, by decide⟩
    | memory output refused =>
        have run : event.perform middle = (false, (event.perform middle).2) := by
          rw [output, Event.perform, beginOutput, if_neg (by rw [refused]; decide)]
          rfl
        refine ⟨_, run, (error_of_refused clean run ?_).trans ?_, by decide⟩
        · rw [output]
          exact fun bytes => Event.noConfusion
        · rw [output, Event.refusal]
  · rintro ⟨failed, fails, rfl, nonzero⟩
    have noKey : ∀ bytes, event ≠ .key bytes := by
      rintro bytes rfl
      obtain rfl : middle = failed := congrArg Prod.snd fails
      exact nonzero clean
    have error := error_of_refused clean fails noKey
    by_cases isOutput : ∃ format, event = .beginOutput format
    · obtain ⟨format, rfl⟩ := isOutput
      obtain ⟨memory, refused⟩ := error_beginOutput clean fails
      rw [memory]
      exact .memory rfl refused
    · have stops := mt (passes_iff_performed within noKey (not_exists.mp isOutput)).mp
        (by simp [fails])
      by_cases nul : event.NulKey
      · rw [error, (refusal_of_nulKey nul).1]
        exact .nulKey nul
      · obtain ⟨limit, exceeds⟩ := (not_passes_iff.mp stops).resolve_left nul
        rw [error, (refusal_of_limit within nul stops).1]
        exact .limit nul (counted ▸ exceeds)

end Frame

/-! ### Why a scan fails -/

/-- The error a scan of a stream ends with. -/
def scanError (start : ScanState) (stream : Stream) : Errno :=
  (root Stream.source ⟨stream, start⟩).2.scan.error

/-- The first thing that goes wrong in a scan, and its error. An event of the frame is refused,
behind others that are performed; or all of them are performed, and the text is refused there
or cut off. -/
inductive Failing (start : ScanState) (stream : Stream) : Errno → Prop where
  | event {before after : List Event} {event : Event} {middle : ScanState} {error : Errno}
      (read : stream.reading.1 = before ++ event :: after)
      (performed : perform before start = (true, middle))
      (refusal : Refusal before middle event error) : Failing start stream error
  | text {after : ScanState} (performed : perform stream.reading.1 start = (true, after))
      (refused : stream.reading.2 = .refused) : Failing start stream EPROTO
  | cut {after : ScanState} (lost : stream.lost ≠ 0)
      (performed : perform stream.reading.1 start = (true, after))
      (short : stream.reading.2 = .cut) : Failing start stream stream.ending

section Ran

variable {lost : Nat} {ending : Errno} {scan after : ScanState} {result : β → α}
  {run : α × Parser Stream} {reading : List Event × Outcome β}
  (ran : Ran lost ending result scan run reading)

include ran

theorem Ran.error_of_blocked (fails : perform reading.1 scan = (false, after)) :
    run.2.scan.error = after.error := by
  cases ran with
  | blocked fails' _ same => rw [same, (Prod.mk.inj (fails'.symm.trans fails)).2]
  | found performed | refused performed | cut _ performed => cases congrArg Prod.fst (performed.symm.trans fails)

theorem Ran.error_of_refused (performed : perform reading.1 scan = (true, after))
    (refused : reading.2 = .refused) : run.2.scan.error = EPROTO := by
  cases ran with
  | blocked fails => cases congrArg Prod.fst (performed.symm.trans fails)
  | refused _ same => exact same
  | _ => cases refused

theorem Ran.error_of_cut (performed : perform reading.1 scan = (true, after))
    (short : reading.2 = .cut) : run.2.scan.error = ending := by
  cases ran with
  | blocked fails => cases congrArg Prod.fst (performed.symm.trans fails)
  | cut _ _ same => exact same
  | _ => cases short

end Ran

section Failing

variable {start : ScanState} (begins : Begins start) {stream : Stream} (ending : stream.ending ≠ 0)

include begins ending

theorem ran_root : Ran stream.lost stream.ending id start (root Stream.source ⟨stream, start⟩)
    stream.reading :=
  (@follows_root stream.lost).runs ending begins.clean

theorem scanError_of_failing (failing : Failing start stream error) :
    scanError start stream = error ∧ error ≠ 0 := by
  have ran := ran_root begins ending
  cases failing with
  | event read performed refusal =>
      obtain ⟨failed, fails, rfl, nonzero⟩ := (refusal_iff begins performed).mp refusal
      have run : perform stream.reading.1 start = (false, failed) := by
        rw [read, perform_append, andThen_of_true (by rw [performed]), performed, perform,
          andThen_of_false (by rw [fails]), fails]
      exact ⟨ran.error_of_blocked run, nonzero⟩
  | text performed refused => exact ⟨ran.error_of_refused performed refused, by decide⟩
  | cut _ performed short => exact ⟨ran.error_of_cut performed short, ending⟩

theorem failing_of_scanError (failed : scanError start stream ≠ 0) :
    Failing start stream (scanError start stream) := by
  have ran := ran_root begins ending
  unfold scanError at failed ⊢
  cases reading : stream.reading with
  | mk events outcome =>
      rw [reading] at ran
      have read : stream.reading.1 = events := congrArg Prod.fst reading
      have ends : stream.reading.2 = outcome := congrArg Prod.snd reading
      cases ran with
      | blocked fails nonzero same =>
          obtain ⟨before, event, after, middle, split, performed, refused⟩ := perform_false fails
          rw [same]
          exact .event (read.trans split) performed
            ((refusal_iff begins performed).mpr ⟨_, refused, rfl, nonzero⟩)
      | found performed same =>
          rw [same] at failed
          exact absurd (perform_clean begins.clean performed) failed
      | refused performed same =>
          rw [same]
          exact .text (read ▸ performed) ends
      | cut lost performed same =>
          rw [same]
          exact .cut lost (read ▸ performed) ends

end Failing

end IperfSwift.Output
