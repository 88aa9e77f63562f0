import IperfSwift.Output.Values

/-!
Contract: what the limits of the scanner see of a run.

Owns: the part of the scanner's state that its limits depend on; the effect of
every event on that part; and the cost of a value, which is the number of its
values and the bytes of its compact text.

The captured output is not part of a tally: no limit on it makes a run fail.

Does not own: the order in which `root` reads its members.
-/

set_option autoImplicit false

namespace IperfSwift.Output

open IperfSwift.Lib
open IperfSwift.Lib.Program

variable {action : Program ScanState Bool} {state : ScanState} {event : Event} {trace : List Event}
  {kind : Json.Kind} {property : Event → Prop}

/-! ### Amounts -/

/-- What has been counted: values, values of the core text, and the core text. -/
@[ext]
structure Amount where
  values : Nat
  coreValues : Nat
  core : List Byte

namespace Amount

instance : Add Amount where
  add first second :=
    ⟨first.values + second.values, first.coreValues + second.coreValues, first.core ++ second.core⟩

instance : Zero Amount where
  zero := ⟨0, 0, []⟩

@[simp] theorem values_add (first second : Amount) :
    (first + second).values = first.values + second.values := rfl

@[simp] theorem coreValues_add (first second : Amount) :
    (first + second).coreValues = first.coreValues + second.coreValues := rfl

@[simp] theorem core_add (first second : Amount) :
    (first + second).core = first.core ++ second.core := rfl

@[simp] theorem values_zero : (0 : Amount).values = 0 := rfl

@[simp] theorem coreValues_zero : (0 : Amount).coreValues = 0 := rfl

@[simp] theorem core_zero : (0 : Amount).core = [] := rfl

instance : AddMonoid Amount where
  add_assoc first second third := by ext1 <;> simp [Nat.add_assoc]
  zero_add amount := by ext1 <;> simp
  add_zero amount := by ext1 <;> simp
  nsmul := nsmulRec

/-- The limits on the number of values and on the core text. -/
structure Fits (amount : Amount) : Prop where
  values : amount.values ≤ resultMaxValues
  coreValues : amount.coreValues ≤ resultCoreMaxValues
  core : amount.core.length ≤ resultCoreMaxBytes

instance (amount : Amount) : Decidable amount.Fits :=
  decidable_of_iff (amount.values ≤ resultMaxValues ∧ amount.coreValues ≤ resultCoreMaxValues ∧
    amount.core.length ≤ resultCoreMaxBytes)
    ⟨fun ⟨values, coreValues, core⟩ => ⟨values, coreValues, core⟩,
      fun fits => ⟨fits.values, fits.coreValues, fits.core⟩⟩

theorem Fits.of_add {first second : Amount} (fits : (first + second).Fits) : first.Fits where
  values := (Nat.le_add_right _ _).trans fits.values
  coreValues := (Nat.le_add_right _ _).trans fits.coreValues
  core := by
    have both := fits.core
    rw [core_add, List.length_append] at both
    exact (Nat.le_add_right _ _).trans both

/-- Values entered and bytes emitted under a capture mode. -/
def under (mode : Capture) (entries : Nat) (bytes : List Byte) : Amount :=
  if mode = .core then ⟨entries, entries, bytes⟩ else ⟨entries, 0, []⟩

@[simp] theorem values_under (mode : Capture) (entries : Nat) (bytes : List Byte) :
    (under mode entries bytes).values = entries := by
  unfold under
  split <;> rfl

theorem under_add (mode : Capture) (entries entries' : Nat) (bytes bytes' : List Byte) :
    under mode entries bytes + under mode entries' bytes' =
      under mode (entries + entries') (bytes ++ bytes') := by
  by_cases isCore : mode = .core
  · simp only [under, if_pos isCore]
    rfl
  · simp only [under, if_neg isCore]
    rfl

@[simp] theorem under_discard (entries : Nat) (bytes : List Byte) :
    under .discard entries bytes = ⟨entries, 0, []⟩ := rfl

@[simp] theorem under_zero (mode : Capture) : under mode 0 [] = 0 := by
  by_cases isCore : mode = .core
  · rw [under, if_pos isCore]
    rfl
  · rw [under, if_neg isCore]
    rfl

end Amount

/-! ### Tallies -/

/-- What the limits depend on. -/
structure Tally where
  capture : Capture
  key : List Byte
  used : Amount

def ScanState.tally (state : ScanState) : Tally :=
  ⟨state.capture, state.key, ⟨state.values, state.metrics.coreValues, state.core⟩⟩

/-- Add to what has been counted, unless a limit is passed. -/
def Tally.spend (tally : Tally) (amount : Amount) : Option Tally :=
  if (tally.used + amount).Fits then some { tally with used := tally.used + amount } else none

variable {after : Tally} {amount : Amount}

theorem Tally.spend_eq_some {tally : Tally} :
    tally.spend amount = some after ↔
      (tally.used + amount).Fits ∧ after = { tally with used := tally.used + amount } := by
  by_cases fits : (tally.used + amount).Fits
  · simp [spend, fits, eq_comm]
  · simp [spend, fits]

theorem Tally.spend_zero {tally : Tally} (fits : tally.used.Fits) : tally.spend 0 = some tally := by
  rw [spend_eq_some, add_zero]
  exact ⟨fits, rfl⟩

theorem Tally.spend_spend (tally : Tally) (first second : Amount) :
    (tally.spend first).bind (·.spend second) = tally.spend (first + second) := by
  by_cases fits : (tally.used + first).Fits
  · rw [spend, if_pos fits, Option.bind_some]
    simp only [spend, add_assoc]
  · have spent : ¬ (tally.used + (first + second)).Fits := by
      rw [← add_assoc]
      exact fun both => fits both.of_add
    rw [spend, if_neg fits, spend, if_neg spent]
    rfl

/-- Values an event enters. -/
def Event.entries : Event → Nat
  | .enter _ => 1
  | _ => 0

/-- Bytes an event emits. -/
def Event.emitted : Event → List Byte
  | .take byte => [byte]
  | .emit byte => [byte]
  | _ => []

/-- The effect of an event on a tally, nothing if a limit is passed. -/
def Event.tally : Event → Tally → Option Tally
  | .scalar (some decoded) code, tally =>
      if decoded.isKey ∧ code = 0 then none
      else if decoded.key then
        if code = 0 ∨ keyBuffer < tally.key.length + (scalarBytes code).length then none
        else some { tally with key := tally.key ++ scalarBytes code }
      else some tally
  | .capture mode, tally => some { tally with capture := mode }
  | .clearKey, tally => some { tally with key := [] }
  | .key bytes, tally => if tally.key = bytes then some tally else none
  | .enter depth, tally =>
      if resultMaxDepth < depth then none else tally.spend (.under tally.capture 1 [])
  | event, tally => tally.spend (.under tally.capture event.entries event.emitted)

def tallies : List Event → Tally → Option Tally
  | [], tally => some tally
  | event :: rest, tally => (event.tally tally).bind (tallies rest)

theorem tallies_append (first second : List Event) (tally : Tally) :
    tallies (first ++ second) tally = (tallies first tally).bind (tallies second) := by
  induction first generalizing tally with
  | nil => rfl
  | cons event rest inductionHypothesis =>
      rw [List.cons_append, tallies, tallies, Option.bind_assoc]
      congr 1
      funext after
      exact inductionHypothesis after

theorem tallies_append_iff {first second : List Event} {tally : Tally} :
    tallies (first ++ second) tally = some after ↔
      ∃ middle, tallies first tally = some middle ∧ tallies second middle = some after := by
  rw [tallies_append, Option.bind_eq_some_iff]

/-! ### Runs and tallies -/

/-- A tally that stays as it is has spent nothing. -/
theorem Tally.spend_nothing {tally : Tally} (fits : tally.used.Fits) :
    tally.spend (.under tally.capture 0 []) = some tally := by
  rw [Amount.under_zero, spend_zero fits]

/-- What `emit` and the head of `value` do to the tally. -/
structure Spends (action : Program ScanState Bool) (state : ScanState) (amount : Amount) :
    Prop where
  fits : (action state).1 = true ↔ (state.tally.used + amount).Fits
  spent : (action state).1 = true →
    (action state).2.tally = { state.tally with used := state.tally.used + amount }

theorem Spends.tally (spends : Spends action state amount) :
    state.tally.spend amount =
      if (action state).1 then some (action state).2.tally else none := by
  by_cases succeeded : (action state).1 = true
  · rw [if_pos succeeded, Tally.spend_eq_some]
    exact ⟨spends.fits.mp succeeded, spends.spent succeeded⟩
  · rw [if_neg succeeded, Tally.spend, if_neg (mt spends.fits.mpr succeeded)]

theorem spends_nothing (fits : state.tally.used.Fits) (succeeds : (action state).1 = true)
    (same : (action state).2.tally = state.tally) : Spends action state 0 where
  fits := by simp [succeeds, fits]
  spent := fun _ => by rw [same, add_zero]

/-- An action that fails exactly beyond the limits and otherwise adds its amount. -/
theorem spends_of_ite (fitting : (state.tally.used + amount).Fits → (action state).1 = true ∧
      (action state).2.tally = { state.tally with used := state.tally.used + amount })
    (passing : ¬ (state.tally.used + amount).Fits → (action state).1 = false) :
    Spends action state amount := by
  by_cases fits : (state.tally.used + amount).Fits
  · exact ⟨by simp [fitting fits, fits], fun _ => (fitting fits).2⟩
  · exact ⟨by simp [passing fits, fits], by simp [passing fits]⟩

theorem spends_emit (fits : state.tally.used.Fits) (byte : Byte) :
    Spends (emit byte) state (.under state.capture 0 [byte]) := by
  obtain ⟨core, limit, mode, output, metrics, values, outputValues, error, key, heap⟩ := state
  cases mode with
  | discard => exact spends_nothing fits rfl rfl
  | core =>
      refine spends_of_ite (fun more => ?_) (fun passed => ?_)
      · have longer : (core ++ [byte]).length ≤ resultCoreMaxBytes := more.core
        have room : core.length ≠ resultCoreMaxBytes := by
          rw [List.length_append] at longer
          exact Nat.ne_of_lt longer
        simp only [emit, if_neg room]
        exact ⟨trivial, rfl⟩
      · have full : core.length = resultCoreMaxBytes := by
          by_contra room
          have longer : core.length + 1 ≤ resultCoreMaxBytes := Nat.lt_of_le_of_ne fits.core room
          refine passed ⟨fits.values, fits.coreValues, ?_⟩
          change (core ++ [byte]).length ≤ resultCoreMaxBytes
          rw [List.length_append]
          exact longer
        simp only [emit, if_pos full]
        rfl
  | outputJson =>
      refine spends_nothing fits ?_ ?_
      · simp only [emit]
        split_ifs <;> rfl
      · simp only [emit]
        split_ifs <;> rfl

theorem spends_enterValue (fits : state.tally.used.Fits) (depth : Nat) :
    Spends (enterValue depth) state (.under state.capture 1 []) := by
  obtain ⟨core, limit, mode, output, metrics, values, outputValues, error, key, heap⟩ := state
  refine spends_of_ite (fun more => ?_) (fun passed => ?_)
  · have room : ¬ resultMaxValues < values + 1 := by
      have bound := more.values
      rw [Amount.values_add, Amount.values_under] at bound
      exact Nat.not_lt.mpr bound
    simp only [enterValue, if_neg room]
    cases mode with
    | discard => exact ⟨rfl, by simp [ScanState.tally, Amount.under, Amount.ext_iff]⟩
    | core =>
        have coreRoom : ¬ resultCoreMaxValues < metrics.coreValues + 1 :=
          Nat.not_lt.mpr more.coreValues
        simp only [if_neg coreRoom]
        exact ⟨trivial, by simp [ScanState.tally, Amount.under, Amount.ext_iff]⟩
    | outputJson =>
        dsimp only
        split
        · exact ⟨rfl, by simp [ScanState.tally, discardOutput, Amount.under, Amount.ext_iff]⟩
        · exact ⟨rfl, by simp [ScanState.tally, Amount.under, Amount.ext_iff]⟩
  · by_cases full : resultMaxValues < values + 1
    · simp only [enterValue, if_pos full]
      rfl
    · simp only [enterValue, if_neg full]
      have room : values + 1 ≤ resultMaxValues := Nat.le_of_not_lt full
      have coreBytes : core.length ≤ resultCoreMaxBytes := fits.core
      cases mode with
      | core =>
          have coreFull : resultCoreMaxValues < metrics.coreValues + 1 := by
            by_contra coreRoom
            exact passed ⟨room, Nat.le_of_not_lt coreRoom, by simpa [Amount.under] using fits.core⟩
          simp only [if_pos coreFull]
          rfl
      | discard | outputJson =>
          exact absurd ⟨room, fits.coreValues, by simpa [Amount.under] using fits.core⟩ passed

theorem tally_decodedText (code : Nat) (bytes : List Byte) (state : ScanState) :
    (decodedText code bytes state).tally = state.tally := by
  unfold decodedText
  dsimp only
  split_ifs <;> rfl

/-- Every event does to the tally what its effect on tallies says, if the buffer for
the output is granted. -/
theorem tally_perform (fits : state.tally.used.Fits)
    (granted : ∀ format, event = .beginOutput format → (beginOutput format state).1 = true) :
    event.tally state.tally =
      if (event.perform state).1 then some (event.perform state).2.tally else none := by
  cases event with
  | take byte | emit byte => exact (spends_emit fits byte).tally
  | skip byte | wrongType => exact Tally.spend_nothing fits
  | enter depth =>
      by_cases deep : resultMaxDepth < depth
      · have refused : (Event.enter depth).perform state = fail EFBIG state := if_pos deep
        rw [Event.tally, if_pos deep, refused]
        rfl
      · have entered : (Event.enter depth).perform state = enterValue depth state := if_neg deep
        rw [Event.tally, if_neg deep, entered]
        exact (spends_enterValue fits depth).tally
  | scalar destination code =>
      cases destination with
      | none => exact Tally.spend_nothing fits
      | some decoded =>
          simp only [Event.tally, Event.perform, decodedScalar]
          by_cases nulKey : decoded.isKey = true ∧ code = 0
          · rw [if_pos nulKey, if_pos nulKey]
            rfl
          · rw [if_neg nulKey, if_neg nulKey]
            by_cases isRoot : decoded.key = true
            · rw [if_pos isRoot, if_pos isRoot]
              have sameKey : state.tally.key = state.key := rfl
              rw [sameKey]
              by_cases long : code = 0 ∨ keyBuffer < state.key.length + (scalarBytes code).length
              · rw [if_pos long, if_pos long]
                rfl
              · rw [if_neg long, if_neg long]
                rfl
            · rw [if_neg isRoot, if_neg isRoot]
              by_cases isText : decoded.outputText = true
              · rw [if_pos isText, if_pos rfl, tally_decodedText]
              · rw [if_neg isText, if_pos rfl]
  | capture mode | clearKey => rfl
  | beginOutput format =>
      have succeeded := granted format rfl
      have same : (beginOutput format state).2.tally = state.tally := by
        unfold beginOutput
        dsimp only
        split <;> simp [fail, ScanState.tally]
        split <;> simp
      rw [Event.perform, if_pos succeeded, same]
      exact Tally.spend_nothing fits
  | key bytes =>
      simp only [Event.tally, Event.perform, decide_eq_true_eq]
      rfl

theorem fits_of_tally {tally : Tally} (fits : tally.used.Fits)
    (run : event.tally tally = some after) : after.used.Fits := by
  unfold Event.tally at run
  split at run
  · split_ifs at run
    · obtain rfl := Option.some.inj run
      exact fits
    · obtain rfl := Option.some.inj run
      exact fits
  · obtain rfl := Option.some.inj run
    exact fits
  · obtain rfl := Option.some.inj run
    exact fits
  · split_ifs at run
    obtain rfl := Option.some.inj run
    exact fits
  · split_ifs at run
    obtain ⟨more, rfl⟩ := Tally.spend_eq_some.mp run
    exact more
  · obtain ⟨more, rfl⟩ := Tally.spend_eq_some.mp run
    exact more

theorem tallies_of_perform {final : ScanState} (fits : state.tally.used.Fits)
    (run : perform trace state = (true, final)) : tallies trace state.tally = some final.tally := by
  induction trace generalizing state with
  | nil =>
      obtain rfl : state = final := congrArg Prod.snd run
      rfl
  | cons event rest inductionHypothesis =>
      obtain ⟨succeeded, restRun⟩ := andThen_eq_true run
      have step : event.tally state.tally = some (event.perform state).2.tally := by
        rw [tally_perform fits, if_pos succeeded]
        rintro format rfl
        exact succeeded
      rw [tallies, step, Option.bind_some]
      exact inductionHypothesis (fits_of_tally fits step) restRun

/-! ### Memory for every request -/

@[simp] theorem grants_fail (error : Errno) (state : ScanState) :
    (fail error state).2.heap.grants = state.heap.grants := by
  unfold fail
  dsimp only
  split <;> rfl

@[simp] theorem grants_freeValue (state : ScanState) :
    (freeValue state).grants = state.heap.grants := by
  unfold freeValue
  split <;> rfl

@[simp] theorem grants_discardOutput (outputState : OutputState) (reason : OutputReason)
    (state : ScanState) :
    (discardOutput outputState reason state).heap.grants = state.heap.grants :=
  grants_freeValue state

theorem grants_emit (byte : Byte) (state : ScanState) :
    (emit byte state).2.heap.grants = state.heap.grants := by
  unfold emit
  cases state.capture with
  | discard => rfl
  | core => dsimp only; split <;> simp
  | outputJson => dsimp only; split_ifs <;> simp

theorem grants_enterValue (depth : Nat) (state : ScanState) :
    (enterValue depth state).2.heap.grants = state.heap.grants := by
  unfold enterValue
  dsimp only
  split
  · simp
  · cases state.capture with
    | discard => rfl
    | core | outputJson => dsimp only; split <;> simp

theorem grants_decodedScalar (destination : Option Decoded) (code : Nat) (state : ScanState) :
    (decodedScalar destination code state).2.heap.grants = state.heap.grants := by
  unfold decodedScalar decodedText
  cases destination with
  | none => rfl
  | some decoded => dsimp only; split_ifs <;> simp

theorem grants_beginOutput (format : OutputFormat) (state : ScanState) :
    (beginOutput format state).2.heap.grants = state.heap.grants := by
  unfold beginOutput
  dsimp only
  split <;> simp

theorem grants_perform (event : Event) (state : ScanState) :
    (event.perform state).2.heap.grants = state.heap.grants := by
  cases event with
  | take byte | emit byte => exact grants_emit byte state
  | enter depth =>
      rw [Event.perform, enter]
      split
      · exact grants_fail EFBIG state
      · exact grants_enterValue depth state
  | scalar destination code => exact grants_decodedScalar destination code state
  | beginOutput format => exact grants_beginOutput format state
  | wrongType => exact grants_freeValue state
  | _ => rfl

theorem grants_run (trace : List Event) (state : ScanState) :
    (perform trace state).2.heap.grants = state.heap.grants := by
  induction trace generalizing state with
  | nil => rfl
  | cons event rest inductionHypothesis =>
      rw [perform]
      by_cases succeeded : (event.perform state).1 = true
      · rw [andThen_of_true succeeded, inductionHypothesis, grants_perform]
      · rw [andThen_of_false (Bool.eq_false_of_not_eq_true succeeded)]
        exact grants_perform event state

theorem beginOutput_of_unlimited (unlimited : state.heap.Unlimited) (format : OutputFormat) :
    (beginOutput format state).1 = true := by
  have released : (freeValue state).Unlimited := by
    intro request
    rw [grants_freeValue]
    exact unlimited request
  unfold beginOutput
  rw [Heap.malloc_of_unlimited released]
  rfl

/-- With memory for every request, a trace that passes no limit succeeds. -/
theorem perform_of_tallies (fits : state.tally.used.Fits) (unlimited : state.heap.Unlimited)
    (run : tallies trace state.tally = some after) :
    ∃ final, perform trace state = (true, final) ∧ final.tally = after := by
  induction trace generalizing state with
  | nil => exact ⟨state, rfl, Option.some.inj run⟩
  | cons event rest inductionHypothesis =>
      obtain ⟨middle, step, later⟩ := Option.bind_eq_some_iff.mp run
      have equation := tally_perform fits fun format (_ : event = .beginOutput format) =>
        beginOutput_of_unlimited unlimited format
      by_cases succeeded : (event.perform state).1 = true
      · rw [step, if_pos succeeded] at equation
        obtain rfl := Option.some.inj equation
        have stillUnlimited : (event.perform state).2.heap.Unlimited := by
          intro request
          rw [grants_perform]
          exact unlimited request
        obtain ⟨final, restRun, finalTally⟩ :=
          inductionHypothesis (fits_of_tally fits step) stillUnlimited later
        refine ⟨final, ?_, finalTally⟩
        rw [perform, andThen_of_true succeeded]
        exact restRun
      · rw [step, if_neg succeeded] at equation
        cases equation

/-! ### The cost of a value -/

/-- The event touches neither the capture mode nor the key buffer. -/
def Event.Plain : Event → Prop
  | .scalar (some decoded) _ => decoded.key = false
  | .capture _ => False
  | .clearKey => False
  | .key _ => False
  | _ => True

/-- The event passes on no NUL of an object key and enters no value that is too deep. -/
def Event.Clean : Event → Prop
  | .enter depth => depth ≤ resultMaxDepth
  | .scalar (some decoded) code => ¬ (decoded.isKey = true ∧ code = 0)
  | _ => True

def entries (trace : List Event) : Nat := (trace.map Event.entries).sum

def emitted (trace : List Event) : List Byte := trace.flatMap Event.emitted

@[simp] theorem entries_nil : entries [] = 0 := rfl

@[simp] theorem entries_cons (event : Event) (rest : List Event) :
    entries (event :: rest) = event.entries + entries rest := List.sum_cons

@[simp] theorem entries_append (first second : List Event) :
    entries (first ++ second) = entries first + entries second := by
  rw [entries, List.map_append, List.sum_append]
  rfl

@[simp] theorem emitted_nil : emitted [] = [] := rfl

@[simp] theorem emitted_cons (event : Event) (rest : List Event) :
    emitted (event :: rest) = event.emitted ++ emitted rest := rfl

@[simp] theorem emitted_append (first second : List Event) :
    emitted (first ++ second) = emitted first ++ emitted second := List.flatMap_append

theorem tally_plain (plain : event.Plain) {tally : Tally} (fits : tally.used.Fits) :
    event.tally tally = some after ↔
      event.Clean ∧ tally.spend (.under tally.capture event.entries event.emitted) =
        some after := by
  cases event with
  | scalar destination code =>
      cases destination with
      | none => exact (and_iff_right trivial).symm
      | some decoded =>
          have noKey : ¬ decoded.key = true := by
            rw [plain]
            decide
          have nothing : tally.spend (.under tally.capture 0 []) = some tally :=
            Tally.spend_nothing fits
          by_cases nulKey : decoded.isKey = true ∧ code = 0
          · simp [Event.tally, Event.Clean, nulKey]
          · simp only [Event.tally, Event.Clean, Event.entries, Event.emitted, if_neg nulKey,
              if_neg noKey, nothing]
            exact (and_iff_right nulKey).symm
  | enter depth =>
      by_cases deep : resultMaxDepth < depth
      · simp [Event.tally, Event.Clean, deep, Nat.not_le.mpr deep]
      · simp only [Event.tally, Event.Clean, Event.entries, Event.emitted, if_neg deep]
        exact (and_iff_right (Nat.not_lt.mp deep)).symm
  | capture mode | clearKey | key bytes => exact plain.elim
  | _ => exact (and_iff_right trivial).symm

theorem tallies_plain (plain : ∀ event ∈ trace, event.Plain) {tally : Tally}
    (fits : tally.used.Fits) : tallies trace tally = some after ↔
      (∀ event ∈ trace, event.Clean) ∧
        tally.spend (.under tally.capture (entries trace) (emitted trace)) = some after := by
  induction trace generalizing tally with
  | nil =>
      simp [tallies, Tally.spend_zero fits]
  | cons event rest inductionHypothesis =>
      have eventPlain := plain event (List.mem_cons_self ..)
      have restPlain : ∀ event ∈ rest, event.Plain :=
        fun event member => plain event (List.mem_cons_of_mem _ member)
      rw [tallies, Option.bind_eq_some_iff, entries_cons, emitted_cons, ← Amount.under_add,
        ← Tally.spend_spend, Option.bind_eq_some_iff, List.forall_mem_cons]
      constructor
      · rintro ⟨middle, step, later⟩
        have middleFits := fits_of_tally fits step
        obtain ⟨clean, spent⟩ := (tally_plain eventPlain fits).mp step
        obtain ⟨restClean, restSpent⟩ := (inductionHypothesis restPlain middleFits).mp later
        have sameMode : middle.capture = tally.capture := by
          rw [(Tally.spend_eq_some.mp spent).2]
        rw [sameMode] at restSpent
        exact ⟨⟨clean, restClean⟩, middle, spent, restSpent⟩
      · rintro ⟨⟨clean, restClean⟩, middle, spent, restSpent⟩
        have step := (tally_plain eventPlain fits).mpr ⟨clean, spent⟩
        have sameMode : middle.capture = tally.capture := by
          rw [(Tally.spend_eq_some.mp spent).2]
        rw [← sameMode] at restSpent
        exact ⟨middle, step,
          (inductionHypothesis restPlain (fits_of_tally fits step)).mpr ⟨restClean, restSpent⟩⟩

@[simp] theorem entries_skips (space : Json.Space) : entries (skips space) = 0 := by
  simp [entries, skips, Event.entries, Function.comp_def]

@[simp] theorem entries_takes (bytes : List Byte) : entries (takes bytes) = 0 := by
  simp [entries, takes, Event.entries, Function.comp_def]

@[simp] theorem emitted_skips (space : Json.Space) : emitted (skips space) = [] := by
  simp [emitted, skips, Event.emitted, List.flatMap_map]

@[simp] theorem emitted_takes (bytes : List Byte) : emitted (takes bytes) = bytes := by
  simp [emitted, takes, Event.emitted, List.flatMap_map]

@[simp] theorem entries_textEvents (destination : Option Decoded) (text : Json.Text) :
    entries (textEvents destination text) = 0 := by
  have body : entries (text.flatMap (spellingEvents destination)) = 0 := by
    induction text with
    | nil => rfl
    | cons spelling rest inductionHypothesis =>
        simp [spellingEvents, Event.entries, inductionHypothesis]
  simp [textEvents, Event.entries, body]

@[simp] theorem emitted_textEvents (destination : Option Decoded) (text : Json.Text) :
    emitted (textEvents destination text) = text.token := by
  have body : emitted (text.flatMap (spellingEvents destination)) = text.body := by
    induction text with
    | nil => rfl
    | cons spelling rest inductionHypothesis =>
        simp [spellingEvents, Event.emitted, inductionHypothesis, Json.Text.body]
  simp [textEvents, Event.emitted, body, Json.Text.token]

theorem entries_lead (lead : Json.Lead kind) : entries (leadEvents lead) = 0 := by
  cases kind with
  | array => rfl
  | object => simp [leadEvents, Event.entries]

theorem emitted_lead (lead : Json.Lead kind) : emitted (leadEvents lead) = lead.compact.bytes := by
  cases kind with
  | array => rfl
  | object =>
      simp [leadEvents, Event.emitted, Json.Lead.compact, Json.Lead.bytes, Json.Key.bytes,
        Json.Space.none]

mutual

/-- The value itself has been entered before its events. -/
theorem entries_valueEvents (depth : Nat) (destination : Option Decoded) :
    (value : Json.Value) → 1 + entries (valueEvents depth destination value) = value.count
  | .literal literal => by simp [valueEvents, Json.Value.count]
  | .number number => by simp [valueEvents, Json.Value.count]
  | .text text => by simp [valueEvents, Json.Value.count]
  | .empty kind space => by simp [valueEvents, Json.Value.count, Event.entries]
  | .container kind space items => by
      simp [valueEvents, Json.Value.count, Event.entries, entries_itemsEvents (depth + 1) items]

theorem entries_itemsEvents (depth : Nat) : {kind : Json.Kind} → (items : Json.Items kind) →
    entries (itemsEvents depth items) = items.count
  | _, .last lead value after => by
      simp [itemsEvents, Json.Items.count, entries_lead, Event.entries,
        ← entries_valueEvents depth none value]
  | _, .cons lead value after next rest => by
      simp [itemsEvents, Json.Items.count, entries_lead, Event.entries,
        ← entries_valueEvents depth none value, entries_itemsEvents depth rest, Nat.add_assoc]

end

mutual

/-- What a value emits is its compact text. -/
theorem emitted_valueEvents (depth : Nat) (destination : Option Decoded) :
    (value : Json.Value) → emitted (valueEvents depth destination value) = value.compact.bytes
  | .literal literal => by simp [valueEvents, Json.Value.compact, Json.Value.bytes]
  | .number number => by simp [valueEvents, Json.Value.compact, Json.Value.bytes]
  | .text text => by simp [valueEvents, Json.Value.compact, Json.Value.bytes]
  | .empty kind space => by
      simp [valueEvents, Json.Value.compact, Json.Value.bytes, Event.emitted, Json.Space.none]
  | .container kind space items => by
      simp [valueEvents, Json.Value.compact, Json.Value.bytes, Event.emitted, Json.Space.none,
        emitted_itemsEvents (depth + 1) items]

theorem emitted_itemsEvents (depth : Nat) : {kind : Json.Kind} → (items : Json.Items kind) →
    emitted (itemsEvents depth items) = items.compact.bytes
  | _, .last lead value after => by
      simp [itemsEvents, Json.Items.compact, Json.Items.bytes, emitted_lead, Event.emitted,
        Json.Space.none, emitted_valueEvents depth none value]
  | _, .cons lead value after next rest => by
      simp [itemsEvents, Json.Items.compact, Json.Items.bytes, emitted_lead, Event.emitted,
        Json.Space.none, emitted_valueEvents depth none value, emitted_itemsEvents depth rest]

end

/-! ### Keys -/

/-- The destination of a string that is no key. -/
def Quiet (destination : Option Decoded) : Prop :=
  ∀ decoded ∈ destination, decoded.key = false ∧ decoded.isKey = false

theorem quiet_none : Quiet none := fun _ impossible => absurd impossible (Option.not_mem_none _)

theorem forall_mem_skips (holds : ∀ byte, property (.skip byte)) (space : Json.Space) :
    ∀ event ∈ skips space, property event := by
  simp [skips, holds]

theorem forall_mem_takes (holds : ∀ byte, property (.take byte)) (bytes : List Byte) :
    ∀ event ∈ takes bytes, property event := by
  simp [takes, holds]

/-- A string passes on the scalars of its spellings and takes bytes. -/
theorem forall_mem_textEvents (holds : ∀ byte, property (.take byte))
    (destination : Option Decoded) (text : Json.Text) :
    (∀ event ∈ textEvents destination text, property event) ↔
      ∀ spelling ∈ text, property (.scalar destination spelling.code) := by
  have body : (∀ event ∈ text.flatMap (spellingEvents destination), property event) ↔
      ∀ spelling ∈ text, property (.scalar destination spelling.code) := by
    induction text with
    | nil => simp
    | cons spelling rest inductionHypothesis =>
        have taken := forall_mem_takes holds spelling.bytes
        rw [List.flatMap_cons, List.forall_mem_append, inductionHypothesis, List.forall_mem_cons,
          spellingEvents, List.forall_mem_append, List.forall_mem_singleton]
        exact and_congr_left' (and_iff_right taken)
  rw [textEvents, List.forall_mem_cons, List.forall_mem_append, body, List.forall_mem_singleton]
  exact ⟨fun all => all.2.1, fun all => ⟨holds _, all, holds _⟩⟩

@[simp] theorem clean_skips (space : Json.Space) :
    (∀ event ∈ skips space, event.Clean) ↔ True :=
  iff_true_intro (forall_mem_skips (fun _ => trivial) space)

@[simp] theorem clean_takes (bytes : List Byte) :
    (∀ event ∈ takes bytes, event.Clean) ↔ True :=
  iff_true_intro (forall_mem_takes (fun _ => trivial) bytes)

@[simp] theorem clean_take (byte : Byte) : (Event.take byte).Clean := trivial

theorem clean_enter (depth : Nat) : (Event.enter depth).Clean ↔ depth ≤ resultMaxDepth := Iff.rfl

@[simp] theorem clean_nestedKey (text : Json.Text) :
    (∀ event ∈ textEvents nestedKey text, event.Clean) ↔ text.NoNul := by
  rw [forall_mem_textEvents (fun _ => trivial), Json.Text.noNul_iff]
  simp [Event.Clean, nestedKey]

theorem clean_quiet {destination : Option Decoded} (quiet : Quiet destination) (text : Json.Text) :
    ∀ event ∈ textEvents destination text, event.Clean := by
  rw [forall_mem_textEvents (fun _ => trivial)]
  intro spelling _
  cases destination with
  | none => trivial
  | some decoded => simp [Event.Clean, (quiet decoded rfl).2]

theorem clean_lead (lead : Json.Lead kind) :
    (∀ event ∈ leadEvents lead, event.Clean) ↔ ∀ text ∈ lead.keys, text.NoNul := by
  cases kind with
  | array => simp [leadEvents, Json.Lead.keys]
  | object =>
      simp only [leadEvents, Json.Lead.keys, List.forall_mem_append, List.forall_mem_singleton,
        clean_nestedKey, clean_skips, clean_take, and_true]

mutual

/-- A value is entered without harm if its keys hold no NUL and its levels fit. -/
theorem clean_entered (depth : Nat) {destination : Option Decoded} (quiet : Quiet destination) :
    (value : Json.Value) →
      ((∀ event ∈ .enter depth :: valueEvents depth destination value, event.Clean) ↔
        (∀ text ∈ value.keys, text.NoNul) ∧ depth + value.depth ≤ resultMaxDepth + 1)
  | .literal literal => by
      simp only [valueEvents, Json.Value.keys, Json.Value.depth, List.forall_mem_cons, clean_enter,
        clean_takes, List.not_mem_nil, false_implies, implies_true, and_true, true_and,
        Nat.add_le_add_iff_right]
  | .number number => by
      simp only [valueEvents, Json.Value.keys, Json.Value.depth, List.forall_mem_cons, clean_enter,
        clean_takes, List.not_mem_nil, false_implies, implies_true, and_true, true_and,
        Nat.add_le_add_iff_right]
  | .text text => by
      have clean := clean_quiet quiet text
      simp only [valueEvents, Json.Value.keys, Json.Value.depth, List.forall_mem_cons, clean_enter,
        List.not_mem_nil, false_implies, implies_true, true_and, Nat.add_le_add_iff_right]
      exact and_iff_left clean
  | .empty kind space => by
      simp only [valueEvents, Json.Value.keys, Json.Value.depth, List.forall_mem_cons,
        List.forall_mem_append, clean_enter, List.not_mem_nil, false_implies, implies_true,
        clean_skips, clean_take, and_true, true_and, Nat.add_le_add_iff_right]
  | .container kind space items => by
      simp only [valueEvents, Json.Value.keys, Json.Value.depth, List.forall_mem_cons,
        List.forall_mem_append, clean_enter, List.not_mem_nil, false_implies, implies_true,
        clean_skips, clean_take, and_true, true_and, clean_itemsEvents (depth + 1) items]
      have positive := items.depth_pos
      constructor
      · rintro ⟨-, keys, shallow⟩
        exact ⟨keys, by omega⟩
      · rintro ⟨keys, shallow⟩
        exact ⟨by omega, keys, by omega⟩

theorem clean_itemsEvents (depth : Nat) : {kind : Json.Kind} → (items : Json.Items kind) →
    ((∀ event ∈ itemsEvents depth items, event.Clean) ↔
      (∀ text ∈ items.keys, text.NoNul) ∧ depth + items.depth ≤ resultMaxDepth + 1)
  | _, .last lead value after => by
      have entered := clean_entered depth quiet_none value
      rw [List.forall_mem_cons] at entered
      simp only [itemsEvents, Json.Items.keys, Json.Items.depth, List.forall_mem_cons,
        List.forall_mem_append, clean_lead, clean_skips, and_true, true_and, entered, and_assoc]
  | _, .cons lead value after next rest => by
      have entered := clean_entered depth quiet_none value
      rw [List.forall_mem_cons] at entered
      simp only [itemsEvents, Json.Items.keys, Json.Items.depth, List.forall_mem_cons,
        List.forall_mem_append, clean_lead, clean_skips, clean_take, true_and,
        clean_itemsEvents depth rest]
      constructor
      · rintro ⟨leadKeys, enters, valueClean, restKeys, restShallow⟩
        obtain ⟨keys, shallow⟩ := entered.mp ⟨enters, valueClean⟩
        exact ⟨⟨leadKeys, keys, restKeys⟩, by omega⟩
      · rintro ⟨⟨leadKeys, keys, restKeys⟩, shallow⟩
        obtain ⟨enters, valueClean⟩ := entered.mpr ⟨keys, by omega⟩
        exact ⟨leadKeys, enters, valueClean, restKeys, by omega⟩

end

@[simp] theorem plain_skips (space : Json.Space) :
    (∀ event ∈ skips space, event.Plain) ↔ True :=
  iff_true_intro (forall_mem_skips (fun _ => trivial) space)

@[simp] theorem plain_takes (bytes : List Byte) :
    (∀ event ∈ takes bytes, event.Plain) ↔ True :=
  iff_true_intro (forall_mem_takes (fun _ => trivial) bytes)

@[simp] theorem plain_take (byte : Byte) : (Event.take byte).Plain := trivial

/-- A property of the events that values are read with. -/
structure OfValues (property : Event → Prop) : Prop where
  take : ∀ byte, property (.take byte)
  skip : ∀ byte, property (.skip byte)
  enter : ∀ depth, property (.enter depth)
  name : ∀ code, property (.scalar nestedKey code)
  scalar : ∀ code, property (.scalar none code)

namespace OfValues

theorem lead (ofValues : OfValues property) {kind : Json.Kind} (lead : Json.Lead kind) :
    ∀ event ∈ leadEvents lead, property event := by
  cases kind with
  | array => simp [leadEvents]
  | object =>
      have name := (forall_mem_textEvents ofValues.take nestedKey (Json.Key.text lead)).mpr
        fun _ _ => ofValues.name _
      have gap := forall_mem_skips ofValues.skip (Json.Key.after lead)
      simp only [leadEvents, List.forall_mem_append, List.forall_mem_singleton]
      exact ⟨name, gap, ofValues.take _⟩

mutual

theorem value (ofValues : OfValues property) {destination : Option Decoded}
    (scalars : ∀ code, property (.scalar destination code)) (depth : Nat) :
    (value : Json.Value) → ∀ event ∈ valueEvents depth destination value, property event
  | .literal literal => forall_mem_takes ofValues.take _
  | .number number => forall_mem_takes ofValues.take _
  | .text text => (forall_mem_textEvents ofValues.take destination text).mpr fun _ _ => scalars _
  | .empty kind space => by
      have gap := forall_mem_skips ofValues.skip space
      simp only [valueEvents, List.forall_mem_cons, List.forall_mem_append]
      exact ⟨ofValues.take _, gap, ofValues.take _, by simp⟩
  | .container kind space rest => by
      have gap := forall_mem_skips ofValues.skip space
      have inner := ofValues.items (depth + 1) rest
      simp only [valueEvents, List.forall_mem_cons, List.forall_mem_append]
      exact ⟨ofValues.take _, gap, inner, ofValues.take _, by simp⟩

theorem items (ofValues : OfValues property) (depth : Nat) :
    {kind : Json.Kind} → (items : Json.Items kind) →
      ∀ event ∈ itemsEvents depth items, property event
  | _, .last lead inner after => by
      have gap := forall_mem_skips ofValues.skip (leadGap lead)
      have read := ofValues.value ofValues.scalar depth inner
      have last := forall_mem_skips ofValues.skip after
      simp only [itemsEvents, List.forall_mem_cons, List.forall_mem_append]
      exact ⟨ofValues.lead lead, ofValues.enter _, gap, read, last⟩
  | _, .cons lead inner after next rest => by
      have gap := forall_mem_skips ofValues.skip (leadGap lead)
      have read := ofValues.value ofValues.scalar depth inner
      have last := forall_mem_skips ofValues.skip after
      have start := forall_mem_skips ofValues.skip next
      have later := ofValues.items depth rest
      simp only [itemsEvents, List.forall_mem_cons, List.forall_mem_append]
      exact ⟨ofValues.lead lead, ofValues.enter _, gap, read, last, ofValues.take _, start, later⟩

end

end OfValues

theorem plain_ofValues : OfValues Event.Plain where
  take := fun _ => trivial
  skip := fun _ => trivial
  enter := fun _ => trivial
  name := fun _ => rfl
  scalar := fun _ => trivial

theorem plain_valueEvents (depth : Nat) {destination : Option Decoded} (quiet : Quiet destination)
    (value : Json.Value) : ∀ event ∈ valueEvents depth destination value, event.Plain := by
  refine plain_ofValues.value (fun code => ?_) depth value
  cases destination with
  | none => trivial
  | some decoded => exact (quiet decoded rfl).1

/-! ### The key of a root member -/

/-- The destination of a key of the root object. -/
def rootName : Option Decoded := some { key := true, isKey := true }

theorem scalarBytes_toNat (scalar : Char) :
    scalarBytes scalar.toNat = String.utf8EncodeChar scalar := by
  have range := Utf8.char_range scalar
  rw [Utf8.encodeChar_eq, scalarBytes]
  simp only [Utf8.tail_bits, Nat.shiftRight_eq_div_pow, Nat.reducePow]
  split_ifs with one two three
  · rfl
  · rw [← Nat.two_pow_add_eq_or_of_lt (by omega : scalar.toNat / 64 < 2 ^ 5) 6]
  · rw [← Nat.two_pow_add_eq_or_of_lt (by omega : scalar.toNat / 4096 < 2 ^ 4) 14]
  · rw [← Nat.two_pow_add_eq_or_of_lt (by omega : scalar.toNat / 262144 < 2 ^ 3) 30]

theorem scalarBytes_code (spelling : Json.Spelling) :
    scalarBytes spelling.code = String.utf8EncodeChar spelling.scalar := by
  rw [← spelling.scalar_toNat, scalarBytes_toNat]

variable {used : Amount}

/-- Reading bytes that are not captured costs nothing. -/
theorem tallies_takes (fits : used.Fits) (key : List Byte) (bytes : List Byte) :
    tallies (takes bytes) ⟨.discard, key, used⟩ = some ⟨.discard, key, used⟩ := by
  have plain := (plain_takes bytes).mpr trivial
  have clean := (clean_takes bytes).mpr trivial
  refine (tallies_plain plain fits).mpr ⟨clean, ?_⟩
  rw [entries_takes, Amount.under_discard]
  exact Tally.spend_zero fits

/-- A key fits if it holds no NUL and the buffer takes its decoded bytes. -/
theorem tallies_spellings (fits : used.Fits) {key : List Byte} (room : key.length ≤ keyBuffer)
    (text : Json.Text) :
    tallies (text.flatMap (spellingEvents rootName)) ⟨.discard, key, used⟩ = some after ↔
      text.NoNul ∧ (key ++ text.decoded).length ≤ keyBuffer ∧
        after = ⟨.discard, key ++ text.decoded, used⟩ := by
  induction text generalizing key with
  | nil =>
      simp [tallies, Json.Text.NoNul, Json.Text.scalars, Json.Text.decoded, room, eq_comm]
  | cons spelling rest inductionHypothesis =>
      have decoded : Json.Text.decoded (spelling :: rest) =
          scalarBytes spelling.code ++ Json.Text.decoded rest := by
        rw [scalarBytes_code]
        rfl
      rw [List.flatMap_cons, spellingEvents, List.append_assoc, tallies_append,
        tallies_takes fits, Option.bind_some, List.singleton_append, tallies, decoded,
        Json.Text.noNul_iff, List.forall_mem_cons, ← Json.Text.noNul_iff, ← List.append_assoc]
      by_cases nul : spelling.code = 0
      · simp [Event.tally, rootName, nul]
      · by_cases long : keyBuffer < key.length + (scalarBytes spelling.code).length
        · have refused : Event.tally (.scalar rootName spelling.code) ⟨.discard, key, used⟩ =
              none := by
            simp [Event.tally, rootName, nul, long]
          have tooLong : ¬ (key ++ scalarBytes spelling.code ++
              Json.Text.decoded rest).length ≤ keyBuffer := by
            rw [List.length_append, List.length_append]
            omega
          rw [refused, Option.bind_none]
          exact iff_of_false (Option.some_ne_none after).symm (fun all => tooLong all.2.1)
        · have kept : Event.tally (.scalar rootName spelling.code) ⟨.discard, key, used⟩ =
              some ⟨.discard, key ++ scalarBytes spelling.code, used⟩ := by
            simp [Event.tally, rootName, nul, long]
          have stillRoom : (key ++ scalarBytes spelling.code).length ≤ keyBuffer := by
            rw [List.length_append]
            exact Nat.le_of_not_lt long
          rw [kept, Option.bind_some, inductionHypothesis stillRoom]
          exact and_congr_left' (and_iff_right nul).symm

theorem tallies_rootKey (fits : used.Fits) (key : List Byte) (text : Json.Text) :
    tallies (.clearKey :: textEvents rootName text) ⟨.discard, key, used⟩ = some after ↔
      text.NoNul ∧ text.decoded.length ≤ keyBuffer ∧ after = ⟨.discard, text.decoded, used⟩ := by
  have quote := fun key => tallies_takes fits key [ascii '"']
  have spelled : ∀ middle, tallies (text.flatMap (spellingEvents rootName))
      ⟨.discard, [], used⟩ = some middle ↔ text.NoNul ∧ text.decoded.length ≤ keyBuffer ∧
        middle = ⟨.discard, text.decoded, used⟩ :=
    fun _ => tallies_spellings fits (Nat.zero_le _) text
  change tallies (takes [ascii '"'] ++ (_ ++ takes [ascii '"'])) ⟨.discard, [], used⟩ = _ ↔ _
  rw [tallies_append, quote, Option.bind_some, tallies_append_iff]
  constructor
  · rintro ⟨middle, body, closing⟩
    obtain ⟨noNul, short, rfl⟩ := (spelled middle).mp body
    rw [quote] at closing
    exact ⟨noNul, short, (Option.some.inj closing).symm⟩
  · rintro ⟨noNul, short, rfl⟩
    exact ⟨_, (spelled _).mpr ⟨noNul, short, rfl⟩, quote _⟩

end IperfSwift.Output
