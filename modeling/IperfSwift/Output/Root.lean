import IperfSwift.Output.Tally

/-!
Contract: `root` reads exactly the documents whose root names are unique and
whose values keep the number limit.

Owns: the events of a document; the exact specification of `root`.

Does not own: the limits that the events of a document run into.
-/

set_option autoImplicit false

namespace IperfSwift.Output

open IperfSwift.Lib
open IperfSwift.Lib.Program

variable {trace : List Event} {rest : List Byte} {locals : RootLocals} {state final : ScanState}
  {text : Json.Text}

/-! ### Events of a document -/

def emits (bytes : List Byte) : List Event := bytes.map .emit

/-- What `core_key` emits. -/
def coreKeyText (key : List Byte) : List Byte :=
  ascii '"' :: (key.flatMap coreKeyByte ++ [ascii '"', ascii ':'])

/-- The byte the value of an output member has to start with. -/
def outputStart (json : Bool) : Byte := if json then ascii '{' else ascii '"'

def outputFormat (json : Bool) : OutputFormat := if json then .json else .text

def outputCapture (json : Bool) : Capture := if json then .outputJson else .discard

def outputDestination (json : Bool) : Option Decoded :=
  if json then none else some { outputText := true }

/-- Reading the value of an output member, whose first byte decides about its type. -/
def outputEvents (json : Bool) (value : Json.Value) : List Event :=
  .beginOutput (outputFormat json) ::
    if value.bytes.head? = some (outputStart json) then
      .capture (outputCapture json) :: .enter 1 :: valueEvents 1 (outputDestination json) value
    else .wrongType :: .capture .discard :: .enter 1 :: valueEvents 1 none value

/-- A comma, unless the member is the first of the core text. -/
def commaEvents (first : Bool) : List Event := if first then [] else [.emit (ascii ',')]

def coreEvents (first : Bool) (key : List Byte) (value : Json.Value) : List Event :=
  .capture .core :: (commaEvents first ++
    (emits (coreKeyText key) ++ .enter 1 :: valueEvents 1 none value))

def memberValueEvents (locals : RootLocals) (key : List Byte) (value : Json.Value) : List Event :=
  if isOutputJson key ∨ (isOutputText key ∧ !locals.seenJson) then
    outputEvents (isOutputJson key) value
  else if isOutputText key then .enter 1 :: valueEvents 1 none value
  else coreEvents (decide (locals.coreFields = 0)) key value

/-- Reading the key of a member, up to its value. -/
def keyEvents (key : Json.Key) : List Event :=
  .clearKey :: (textEvents rootName key.text ++ .key key.text.decoded ::
    (skips key.after ++ .take (ascii ':') :: skips key.beforeValue))

def memberEvents (locals : RootLocals) (member : Json.Member) : List Event :=
  keyEvents member.key ++ (memberValueEvents locals member.key.text.decoded member.value ++
    .capture .discard :: skips member.after)

/-- The locals of `root` behind a member, apart from the names seen. -/
def advanceLocals (locals : RootLocals) (key : List Byte) : RootLocals :=
  if isOutputJson key ∨ (isOutputText key ∧ !locals.seenJson) then
    { locals with seenJson := locals.seenJson || isOutputJson key }
  else if isOutputText key then locals
  else { locals with coreFields := locals.coreFields + 1 }

def membersEvents (locals : RootLocals) : Json.Members → List Event
  | .last member => memberEvents locals member
  | .cons member next rest =>
      memberEvents locals member ++ .take (ascii ',') :: (skips next ++
        membersEvents (advanceLocals locals member.key.text.decoded) rest)

/-- One byte of the core text that the input does not have to provide. -/
def coreByteEvents (byte : Byte) : List Event := [.capture .core, .emit byte, .capture .discard]

def documentEvents (document : Json.Document) : List Event :=
  .capture .discard :: (skips document.before ++ .take (ascii '{') :: (coreByteEvents (ascii '{') ++
    (skips document.inside ++ ((document.members.elim [] (membersEvents {})) ++
      .take (ascii '}') :: (coreByteEvents (ascii '}') ++ skips document.after)))))

/-! ### Limits on single values and names -/

/-- The limit on the numbers of one root value. -/
def ValueFits (value : Json.Value) : Prop := NumbersFit value.numbers

/-- `root` passes its test for unique names on these keys. -/
def NamesPass : List (List Byte) → List (List Byte) → Prop
  | _, [] => True
  | seen, key :: rest => ∃ seen', markSeen key uniqueNames seen = some seen' ∧ NamesPass seen' rest

/-! ### Keys -/

theorem exact_setCapture (mode : Capture) :
    Exact (setCapture mode : Program (Parser Stream) Unit)
      (fun _ trace _ => trace = [.capture mode]) :=
  exact_update (.capture mode) (fun _ => rfl) rfl rfl

theorem exact_clearKey : Exact (clearKey : Program (Parser Stream) Unit)
    (fun _ trace _ => trace = [.clearKey]) :=
  exact_update .clearKey (fun _ => rfl) rfl rfl

theorem exact_rootKey : Exact (rootKey Stream.source) (Succeeds fun trace _ =>
    ∃ text, trace = .clearKey :: textEvents rootName text) := by
  refine Exact.congr (exact_bind exact_clearKey fun _ => exact_string rootName)
    fun result trace rest => ?_
  constructor
  · rintro ⟨_, _, _, rfl, rfl, rfl, text, rfl⟩
    exact ⟨rfl, text, rfl⟩
  · rintro ⟨rfl, text, rfl⟩
    exact ⟨(), [.clearKey], _, rfl, rfl, rfl, text, rfl⟩

theorem exact_rootColon : Exact (rootColon Stream.source) (Succeeds fun trace rest =>
    ∃ after beforeValue, trace = skips after ++ .take (ascii ':') :: skips beforeValue ∧
      Dense rest) := by
  refine Exact.congr (exact_bind exact_whitespace fun _ => exact_bind (exact_expect _) fun _ =>
    exact_ite (fun _ => exact_bind exact_whitespace fun _ => exact_pure _)
      (fun _ => exact_pure _)) fun result trace rest => ?_
  constructor
  · rintro ⟨_, _, _, rfl, ⟨after, rfl, -⟩, _, _, _, rfl, ⟨rfl, rfl⟩, ⟨-, held⟩ | ⟨impossible, -⟩⟩
    · obtain ⟨_, _, _, rfl, ⟨beforeValue, rfl, dense⟩, rfl, rfl⟩ := held
      exact ⟨rfl, after, beforeValue, by simp, dense⟩
    · exact absurd rfl impossible
  · rintro ⟨rfl, after, beforeValue, rfl, dense⟩
    refine ⟨(), skips after, .take (ascii ':') :: skips beforeValue, rfl, ⟨after, rfl, ?_⟩, true,
      [.take (ascii ':')], skips beforeValue, rfl, ⟨rfl, rfl⟩, .inl ⟨rfl, (), skips beforeValue, [],
        (List.append_nil _).symm, ⟨beforeValue, rfl, dense⟩, rfl, rfl⟩⟩
    exact dense_cons (by decide) _

/-! ### Values of members -/

/-- A root value. -/
abbrev RootValueRuns (destination : Option Decoded) : List Event → List Byte → Prop :=
  ValueRuns 1 destination

theorem exact_rootValue (destination : Option Decoded) :
    Exact (value Stream.source resultMaxDepth destination)
      (Succeeds (RootValueRuns destination)) :=
  exact_value resultMaxDepth 1 rfl destination

theorem exact_captured (mode : Capture) (destination : Option Decoded) :
    Exact (do
      setCapture mode
      value Stream.source resultMaxDepth destination)
    (Succeeds fun trace rest => ∃ later, trace = .capture mode :: later ∧
      RootValueRuns destination later rest) := by
  refine Exact.congr (exact_bind (exact_setCapture mode) fun _ => exact_rootValue destination)
    fun result trace rest => ?_
  constructor
  · rintro ⟨_, _, later, rfl, rfl, rfl, runs⟩
    exact ⟨rfl, later, rfl, runs⟩
  · rintro ⟨rfl, later, rfl, runs⟩
    exact ⟨(), [.capture mode], later, rfl, rfl, rfl, runs⟩

theorem exact_invalidOutput : Exact (invalidOutput Stream.source)
    (Succeeds fun trace rest => ∃ later, trace = .wrongType :: .capture .discard :: later ∧
      RootValueRuns none later rest) := by
  have changed : Exact (lift (update wrongType) : Program (Parser Stream) Unit)
      (fun _ trace _ => trace = [.wrongType]) :=
    exact_update .wrongType (fun _ => rfl) rfl rfl
  refine Exact.congr (exact_bind changed fun _ => exact_captured .discard none)
    fun result trace rest => ?_
  constructor
  · rintro ⟨_, _, _, rfl, rfl, rfl, later, rfl, runs⟩
    exact ⟨rfl, later, rfl, runs⟩
  · rintro ⟨rfl, later, rfl, runs⟩
    exact ⟨(), [.wrongType], _, rfl, rfl, rfl, later, rfl, runs⟩

/-- The value of an output member by the byte in front of it. -/
def PeekedRuns (json : Bool) (trace : List Event) (rest : List Byte) : Prop :=
  ∃ later, ((consumed later ++ rest).head? = some (outputStart json) ∧
      trace = .capture (outputCapture json) :: later ∧
      RootValueRuns (outputDestination json) later rest) ∨
    ((consumed later ++ rest).head? ≠ some (outputStart json) ∧
      trace = .wrongType :: .capture .discard :: later ∧ RootValueRuns none later rest)

theorem exact_peeked (json : Bool) :
    Exact (do
      let next ← peek Stream.source
      if next = some (outputStart json) then validOutput Stream.source json
      else invalidOutput Stream.source)
    (Succeeds (PeekedRuns json)) := by
  refine Exact.congr (exact_bind exact_peek fun next => exact_ite
    (fun _ => exact_captured (outputCapture json) (outputDestination json))
    (fun _ => exact_invalidOutput)) fun result trace rest => ?_
  constructor
  · rintro ⟨_, _, _, rfl, ⟨rfl, rfl⟩, ⟨starts, rfl, later, rfl, runs⟩ |
      ⟨differs, rfl, later, rfl, runs⟩⟩
    · exact ⟨rfl, later, .inl ⟨starts, rfl, runs⟩⟩
    · exact ⟨rfl, later, .inr ⟨differs, rfl, runs⟩⟩
  · rintro ⟨rfl, later, ⟨starts, rfl, runs⟩ | ⟨differs, rfl, runs⟩⟩
    · exact ⟨_, [], _, rfl, ⟨rfl, rfl⟩, .inl ⟨starts, rfl, later, rfl, runs⟩⟩
    · exact ⟨_, [], _, rfl, ⟨rfl, rfl⟩, .inr ⟨differs, rfl, later, rfl, runs⟩⟩

def OutputRuns (json : Bool) (trace : List Event) (rest : List Byte) : Prop :=
  ∃ later, trace = .beginOutput (outputFormat json) :: later ∧ PeekedRuns json later rest

theorem exact_outputMember (json : Bool) :
    Exact (outputMember Stream.source json) (Succeeds (OutputRuns json)) := by
  have begun := exact_lift (.beginOutput (outputFormat json))
    (honest_beginOutput (outputFormat json)) (sticky_beginOutput (outputFormat json)) rfl rfl
  refine Exact.congr (exact_andThen begun (exact_peeked json)) fun result trace rest => ?_
  constructor
  · rintro ⟨rfl, _, later, rfl, rfl, runs⟩
    exact ⟨rfl, later, rfl, runs⟩
  · rintro ⟨rfl, later, rfl, runs⟩
    exact ⟨rfl, [.beginOutput (outputFormat json)], later, rfl, rfl, runs⟩

theorem exact_emit (byte : Byte) : Exact (lift (emit byte) : Program (Parser Stream) Bool)
    (Succeeds fun trace _ => trace = [.emit byte]) :=
  exact_lift (.emit byte) (honest_emit byte) (sticky_emit byte) rfl rfl

theorem exact_emitAll (bytes : List Byte) :
    Exact (lift (emitAll bytes) : Program (Parser Stream) Bool)
      (Succeeds fun trace _ => trace = emits bytes) := by
  induction bytes with
  | nil => exact exact_pure true
  | cons byte bytes inductionHypothesis =>
      have split : (lift (emitAll (byte :: bytes)) : Program (Parser Stream) Bool) =
          andThen (lift (emit byte)) (lift (emitAll bytes)) := by
        funext parser
        by_cases emitted : (emit byte parser.scan).1 = true
        · simp [lift, emitAll, andThen, emitted]
        · simp [lift, emitAll, andThen, emitted]
      rw [split]
      refine Exact.congr (exact_andThen (exact_emit byte) inductionHypothesis)
        fun result trace rest => ?_
      constructor
      · rintro ⟨rfl, _, _, rfl, rfl, rfl⟩
        exact ⟨rfl, rfl⟩
      · rintro ⟨rfl, rfl⟩
        exact ⟨rfl, [.emit byte], emits bytes, rfl, rfl, rfl⟩

theorem exact_comma (first : Bool) :
    Exact (if first then pure true else lift (emit (ascii ',')) : Program (Parser Stream) Bool)
      (Succeeds fun trace _ => trace = commaEvents first) := by
  cases first with
  | true => exact exact_pure true
  | false => exact exact_emit (ascii ',')

def CoreRuns (first : Bool) (key : List Byte) (trace : List Event) (rest : List Byte) : Prop :=
  ∃ later, trace = .capture .core :: (commaEvents first ++ (emits (coreKeyText key) ++ later)) ∧
    RootValueRuns none later rest

theorem exact_coreMember (first : Bool) (key : List Byte) :
    Exact (coreMember Stream.source first key) (Succeeds (CoreRuns first key)) := by
  refine Exact.congr (exact_bind (exact_setCapture .core) fun _ =>
    exact_andThen (exact_comma first) (exact_andThen (exact_emitAll (coreKeyText key))
      (exact_rootValue none))) fun result trace rest => ?_
  constructor
  · rintro ⟨_, _, _, rfl, rfl, rfl, _, _, rfl, rfl, _, later, rfl, rfl, runs⟩
    exact ⟨rfl, later, rfl, runs⟩
  · rintro ⟨rfl, later, rfl, runs⟩
    exact ⟨(), [.capture .core], _, rfl, rfl, rfl, commaEvents first, _, rfl, rfl,
      emits (coreKeyText key), later, rfl, rfl, runs⟩

/-- The value of a member by its key. -/
def MemberRuns (locals : RootLocals) (key : List Byte) (trace : List Event) (rest : List Byte) :
    Prop :=
  if isOutputJson key ∨ (isOutputText key ∧ !locals.seenJson) then
    OutputRuns (isOutputJson key) trace rest
  else if isOutputText key then RootValueRuns none trace rest
  else CoreRuns (decide (locals.coreFields = 0)) key trace rest

theorem exact_rootMember (locals : RootLocals) (key : List Byte) :
    Exact (rootMember Stream.source locals key) (fun result trace rest =>
      result = (true, advanceLocals locals key) ∧ MemberRuns locals key trace rest) := by
  have handed : ∀ {program : Program (Parser Stream) Bool} {runs : List Event → List Byte → Prop}
      (next : RootLocals), Exact program (Succeeds runs) →
      Exact (do
        let scanned ← program
        pure (scanned, next))
      (fun result trace rest => result = (true, next) ∧ runs trace rest) := by
    intro program runs next programExact
    refine Exact.congr (exact_bind programExact fun _ => exact_pure _) fun result trace rest => ?_
    constructor
    · rintro ⟨_, before, _, rfl, ⟨rfl, held⟩, rfl, rfl⟩
      exact ⟨rfl, by simpa using held⟩
    · rintro ⟨rfl, held⟩
      exact ⟨true, trace, [], (List.append_nil _).symm, ⟨rfl, held⟩, rfl, rfl⟩
  unfold rootMember advanceLocals MemberRuns
  by_cases isOutput : isOutputJson key = true ∨ (isOutputText key = true ∧ (!locals.seenJson) = true)
  · simp only [if_pos isOutput]
    exact handed _ (exact_outputMember _)
  · simp only [if_neg isOutput]
    by_cases isText : isOutputText key = true
    · simp only [if_pos isText]
      exact handed _ (exact_rootValue none)
    · simp only [if_neg isText]
      exact handed _ (exact_coreMember _ _)

/-- Behind white space a value has none of its own in front. -/
theorem rootValueRuns_iff {destination : Option Decoded} (dense : Dense (consumed trace ++ rest)) :
    RootValueRuns destination trace rest ↔ ∃ value : Json.Value,
      trace = .enter 1 :: valueEvents 1 destination value ∧ ValueFits value ∧ Stops value rest := by
  constructor
  · rintro ⟨space, value, rfl, fit, stops⟩
    have noSpace : space = Json.Space.none := by
      apply space_nil_of_dense
      simpa [Event.consumed] using dense
    subst noSpace
    exact ⟨value, rfl, fit, stops⟩
  · rintro ⟨value, rfl, fit, stops⟩
    exact ⟨Json.Space.none, value, rfl, fit, stops⟩

theorem value_head (depth : Nat) (destination : Option Decoded) (value : Json.Value)
    (rest : List Byte) :
    (consumed (.enter depth :: valueEvents depth destination value) ++ rest).head? =
      value.bytes.head? := by
  obtain ⟨first, tail, bytes, -⟩ := value_first value
  rw [consumed_cons, consumed_valueEvents, bytes]
  rfl

theorem outputRuns_iff {json : Bool} (dense : Dense (consumed trace ++ rest)) :
    OutputRuns json trace rest ↔ ∃ value : Json.Value, trace = outputEvents json value ∧
      ValueFits value ∧ Stops value rest := by
  constructor
  · rintro ⟨_, rfl, later, ⟨starts, rfl, runs⟩ | ⟨differs, rfl, runs⟩⟩
    · have laterDense : Dense (consumed later ++ rest) := dense
      obtain ⟨value, rfl, fits, stops⟩ := (rootValueRuns_iff laterDense).mp runs
      rw [value_head] at starts
      exact ⟨value, by rw [outputEvents, if_pos starts], fits, stops⟩
    · have laterDense : Dense (consumed later ++ rest) := dense
      obtain ⟨value, rfl, fits, stops⟩ := (rootValueRuns_iff laterDense).mp runs
      rw [value_head] at differs
      exact ⟨value, by rw [outputEvents, if_neg differs], fits, stops⟩
  · rintro ⟨value, rfl, fits, stops⟩
    have runs : ∀ destination, RootValueRuns destination
        (.enter 1 :: valueEvents 1 destination value) rest :=
      fun _ => ⟨Json.Space.none, value, rfl, fits, stops⟩
    by_cases starts : value.bytes.head? = some (outputStart json)
    · rw [outputEvents, if_pos starts]
      refine ⟨_, rfl, _, .inl ⟨?_, rfl, runs _⟩⟩
      rw [value_head]
      exact starts
    · rw [outputEvents, if_neg starts]
      refine ⟨_, rfl, _, .inr ⟨?_, rfl, runs _⟩⟩
      rw [value_head]
      exact starts

theorem consumed_emits (bytes : List Byte) : consumed (emits bytes) = [] := by
  simp [consumed, emits, Event.consumed, List.flatMap_map]

theorem consumed_commaEvents (first : Bool) : consumed (commaEvents first) = [] := by
  cases first <;> rfl

theorem memberRuns_iff {key : List Byte} (dense : Dense (consumed trace ++ rest)) :
    MemberRuns locals key trace rest ↔ ∃ value : Json.Value,
      trace = memberValueEvents locals key value ∧ ValueFits value ∧ Stops value rest := by
  unfold MemberRuns memberValueEvents
  split_ifs with isOutput isText
  · exact outputRuns_iff dense
  · exact rootValueRuns_iff dense
  · constructor
    · rintro ⟨later, rfl, runs⟩
      have laterDense : Dense (consumed later ++ rest) := by
        simpa [Event.consumed, consumed_emits, consumed_commaEvents] using dense
      obtain ⟨value, rfl, fits, stops⟩ := (rootValueRuns_iff laterDense).mp runs
      exact ⟨value, rfl, fits, stops⟩
    · rintro ⟨value, rfl, fits, stops⟩
      exact ⟨_, rfl, Json.Space.none, value, rfl, fits, stops⟩

theorem consumed_memberValueEvents (locals : RootLocals) (key : List Byte) (value : Json.Value) :
    consumed (memberValueEvents locals key value) = value.bytes := by
  unfold memberValueEvents outputEvents coreEvents
  split_ifs <;>
    simp [Event.consumed, consumed_valueEvents, consumed_emits, consumed_commaEvents]

theorem consumed_keyEvents (key : Json.Key) : consumed (keyEvents key) = key.bytes := by
  simp [keyEvents, Json.Key.bytes, Event.consumed]

theorem consumed_memberEvents (locals : RootLocals) (member : Json.Member) :
    consumed (memberEvents locals member) = member.bytes := by
  simp [memberEvents, Json.Member.bytes, Event.consumed, consumed_keyEvents,
    consumed_memberValueEvents]

theorem consumed_membersEvents (locals : RootLocals) (members : Json.Members) :
    consumed (membersEvents locals members) = members.bytes := by
  induction members generalizing locals with
  | last member => exact consumed_memberEvents locals member
  | cons member next rest inductionHypothesis =>
      rw [membersEvents, consumed_append, consumed_memberEvents, consumed_cons, consumed_append,
        consumed_skips, inductionHypothesis]
      rfl

/-- The events of a document read its bytes. -/
theorem consumed_documentEvents (document : Json.Document) :
    consumed (documentEvents document) = document.bytes := by
  obtain ⟨before, inside, members, after⟩ := document
  cases members with
  | none => simp [documentEvents, coreByteEvents, Json.Document.bytes, Json.Document.membersBytes,
      Event.consumed]
  | some members =>
      simp [documentEvents, coreByteEvents, Json.Document.bytes, Json.Document.membersBytes,
        Event.consumed, consumed_membersEvents]

/-! ### The key buffer -/

theorem keyed_takes (bytes key : List Byte) :
    (takes bytes).foldl (fun key event => event.keyed key) key = key := by
  induction bytes with
  | nil => rfl
  | cons byte bytes inductionHypothesis => exact inductionHypothesis

theorem keyed_spellings (text : Json.Text) (key : List Byte) :
    (text.flatMap (spellingEvents rootName)).foldl (fun key event => event.keyed key) key =
      key ++ text.decoded := by
  induction text generalizing key with
  | nil => simp [Json.Text.decoded, Json.Text.scalars]
  | cons spelling rest inductionHypothesis =>
      rw [List.flatMap_cons, List.foldl_append, inductionHypothesis, spellingEvents,
        List.foldl_append, keyed_takes]
      simp [Event.keyed, rootName, scalarBytes_code, Json.Text.decoded, Json.Text.scalars]

/-- Behind the token of a key the buffer holds its decoded text. -/
theorem key_named (run : perform (.clearKey :: textEvents rootName text) state = (true, final)) :
    final.key = text.decoded := by
  rw [key_of_performed run, textEvents, List.foldl_cons, List.foldl_cons, List.foldl_append,
    keyed_spellings]
  rfl

/-- The key that `root` compares is the decoded text of the token. -/
theorem key_observed {bytes : List Byte} {later : List Event}
    (run : perform (.clearKey :: textEvents rootName text ++ .key bytes :: later) state =
      (true, final)) : bytes = text.decoded := by
  obtain ⟨middle, textRun, laterRun⟩ := perform_append_iff.mp run
  obtain ⟨observed, -⟩ := andThen_eq_true laterRun
  have middleKey : middle.key = bytes := of_decide_eq_true observed
  rw [← middleKey, key_named textRun]

/-! ### Members -/

/-- One pass of the loop of `root`: a member, then the end of the object or a comma. -/
def PassRuns (locals : RootLocals) : Spec (Step RootLocals Bool) := fun result trace rest =>
  ∃ (member : Json.Member) (seen : List (List Byte)),
    markSeen member.key.text.decoded uniqueNames locals.seen = some seen ∧
    ValueFits member.value ∧
    ((trace = memberEvents locals member ∧ rest.head? = some (ascii '}') ∧
        result = .done true) ∨
      ∃ next : Json.Space, trace = memberEvents locals member ++ .take (ascii ',') :: skips next ∧
        Dense rest ∧
        result = .again (advanceLocals { locals with seen := seen } member.key.text.decoded))

/-- What `root` reads behind the value of a member. -/
def AfterMember (next : RootLocals) : Spec (Step RootLocals Bool) := fun result trace rest =>
  ∃ after : Json.Space,
    (trace = .capture .discard :: skips after ∧ rest.head? = some (ascii '}') ∧
        result = .done true) ∨
      ∃ space : Json.Space,
        trace = .capture .discard :: (skips after ++ .take (ascii ',') :: skips space) ∧
        Dense rest ∧ result = .again next

theorem dense_of_head {byte : Byte} (head : rest.head? = some byte)
    (notSpace : ¬ Json.IsSpace byte) : Dense rest := by
  intro other found
  rw [head] at found
  rw [← Option.some.inj found]
  exact notSpace

theorem exact_rootSeparator (next : RootLocals) :
    Exact (rootSeparator Stream.source next) (AfterMember next) := by
  refine Exact.congr (exact_bind (exact_setCapture .discard) fun _ =>
    exact_bind exact_whitespace fun _ => exact_bind exact_peek fun found =>
      exact_ite (fun _ => exact_pure _) (fun _ => exact_bind (exact_expect _) fun _ =>
        exact_ite (fun _ => exact_bind exact_whitespace fun _ => exact_pure _)
          (fun _ => exact_pure _))) fun result trace rest => ?_
  constructor
  · rintro ⟨_, _, _, rfl, rfl, _, _, _, rfl, ⟨after, rfl, -⟩, _, _, _, rfl, ⟨rfl, rfl⟩,
      ⟨ends, rfl, rfl⟩ | ⟨-, held⟩⟩
    · exact ⟨after, .inl ⟨by simp, ends, rfl⟩⟩
    · obtain ⟨_, _, _, rfl, ⟨rfl, rfl⟩, ⟨-, later⟩ | ⟨impossible, -⟩⟩ := held
      · obtain ⟨_, _, _, rfl, ⟨space, rfl, dense⟩, rfl, rfl⟩ := later
        exact ⟨after, .inr ⟨space, by simp, dense, rfl⟩⟩
      · exact absurd rfl impossible
  · rintro ⟨after, ⟨rfl, ends, rfl⟩ | ⟨space, rfl, dense, rfl⟩⟩
    · exact ⟨(), [.capture .discard], skips after, rfl, rfl, (), skips after, [],
        (List.append_nil _).symm, ⟨after, rfl, dense_of_head ends (by decide)⟩, _, [], [], rfl,
        ⟨rfl, rfl⟩, .inl ⟨ends, rfl, rfl⟩⟩
    · refine ⟨(), [.capture .discard], _, rfl, rfl, (), skips after, _, rfl, ⟨after, rfl, ?_⟩,
        some (ascii ','), [], .take (ascii ',') :: skips space, rfl, ⟨rfl, rfl⟩,
        .inr ⟨by decide, true, [.take (ascii ',')], skips space, rfl, ⟨rfl, rfl⟩,
          .inl ⟨rfl, (), skips space, [], (List.append_nil _).symm, ⟨space, rfl, dense⟩, rfl,
            rfl⟩⟩⟩
      exact dense_cons (by decide) _

theorem delimited_afterMember {next : RootLocals} {result : Step RootLocals Bool}
    (follows : AfterMember next result trace rest) : Delimited (consumed trace ++ rest) := by
  obtain ⟨after, ⟨rfl, ends, -⟩ | ⟨space, rfl, -⟩⟩ := follows
  · obtain ⟨tail, rfl⟩ := List.head?_eq_some_iff.mp ends
    simpa [Event.consumed] using delimited_space after tail (.inr (.inr rfl))
  · simpa [Event.consumed] using delimited_space after (space.val ++ rest) (.inl rfl)

/-- The pass behind the key, which is compared with the names seen. -/
theorem exact_rootNamed (locals : RootLocals) (key : List Byte) :
    Exact (rootNamed Stream.source locals key)
    (fun result trace rest => ∃ (seen : List (List Byte)) (after beforeValue : Json.Space)
      (value : Json.Value) (later : List Event),
      markSeen key uniqueNames locals.seen = some seen ∧
      trace = skips after ++ .take (ascii ':') :: (skips beforeValue ++
        (memberValueEvents locals key value ++ later)) ∧ ValueFits value ∧
      AfterMember (advanceLocals { locals with seen := seen } key) result later rest) := by
  unfold rootNamed
  cases marked : markSeen key uniqueNames locals.seen with
  | none =>
      refine Exact.congr (exact_bind (exact_fail (by decide)) fun _ => exact_pure _)
        fun result trace rest => ?_
      constructor
      · rintro ⟨_, _, _, -, never, -⟩
        exact never.elim
      · rintro ⟨_, _, _, _, _, impossible, -⟩
        cases impossible
  | some seen =>
      refine Exact.congr (exact_bind exact_rootColon fun _ => exact_ite
        (fun _ => exact_bind (exact_rootMember { locals with seen := seen } key) fun scanned =>
          exact_ite (fun _ => exact_rootSeparator scanned.2) (fun _ => exact_pure _))
        (fun _ => exact_pure _)) fun result trace rest => ?_
      constructor
      · rintro ⟨_, _, _, rfl, ⟨rfl, after, beforeValue, rfl, dense⟩, ⟨-, held⟩ | ⟨impossible, -⟩⟩
        · obtain ⟨_, read, later, rfl, ⟨rfl, runs⟩, ⟨-, follows⟩ | ⟨impossible, -⟩⟩ := held
          · have valueDense : Dense (consumed read ++ (consumed later ++ rest)) := by
              simpa using dense
            obtain ⟨value, rfl, fits, -⟩ := (memberRuns_iff valueDense).mp runs
            exact ⟨seen, after, beforeValue, value, later, rfl, by simp; rfl, fits, follows⟩
          · exact absurd rfl impossible
        · exact absurd rfl impossible
      · rintro ⟨_, after, beforeValue, value, later, same, rfl, fits, follows⟩
        obtain rfl := Option.some.inj same
        obtain ⟨first, tail, bytes, notSpace, -⟩ := value_first value
        have valueDense : Dense (consumed (memberValueEvents locals key value) ++
            (consumed later ++ rest)) := by
          rw [consumed_memberValueEvents, bytes]
          exact dense_cons notSpace _
        have stops := stops_of_delimited (delimited_afterMember follows) value
        have runs := (memberRuns_iff valueDense).mpr ⟨value, rfl, fits, stops⟩
        refine ⟨true, skips after ++ .take (ascii ':') :: skips beforeValue,
          memberValueEvents locals key value ++ later, by simp,
          ⟨rfl, after, beforeValue, rfl, ?_⟩,
          .inl ⟨rfl, (true, advanceLocals { locals with seen := seen } key),
            memberValueEvents locals key value, later, rfl, ⟨rfl, runs⟩, .inl ⟨rfl, follows⟩⟩⟩
        simpa using valueDense

theorem exact_rootPass (locals : RootLocals) :
    Exact (rootPass Stream.source locals) (PassRuns locals) := by
  have composed := exact_bind exact_rootKey fun named => exact_ite
    (fun _ : named = true => exact_bind exact_keyNow fun key => exact_rootNamed locals key)
    (fun _ => exact_pure (Step.done false))
  refine Exact.congr_performed composed ?_ ?_
  · rintro result _ rest scan scan' performed
      ⟨_, _, _, rfl, ⟨rfl, text, rfl⟩, ⟨-, held⟩ | ⟨impossible, -⟩⟩
    · obtain ⟨key, _, _, rfl, rfl, seen, after, beforeValue, value, later, marked, rfl, fits,
        follows⟩ := held
      obtain rfl := key_observed performed
      obtain ⟨space, ⟨rfl, ends, rfl⟩ | ⟨next, rfl, dense, rfl⟩⟩ := follows
      · refine ⟨⟨⟨text, after, beforeValue⟩, value, space⟩, seen, marked, fits,
          .inl ⟨?_, ends, rfl⟩⟩
        simp [memberEvents, keyEvents]
      · refine ⟨⟨⟨text, after, beforeValue⟩, value, space⟩, seen, marked, fits,
          .inr ⟨next, ?_, dense, rfl⟩⟩
        simp [memberEvents, keyEvents]
    · exact absurd rfl impossible
  · rintro result trace rest ⟨⟨⟨text, after, beforeValue⟩, value, space⟩, seen, marked, fits, held⟩
    obtain ⟨later, split, follows⟩ : ∃ later, trace = .clearKey :: textEvents rootName text ++
        .key text.decoded :: (skips after ++ .take (ascii ':') :: (skips beforeValue ++
          (memberValueEvents locals text.decoded value ++ later))) ∧
        AfterMember (advanceLocals { locals with seen := seen } text.decoded) result later rest := by
      rcases held with ⟨rfl, ends, rfl⟩ | ⟨next, rfl, dense, rfl⟩
      · exact ⟨_, by simp [memberEvents, keyEvents], space, .inl ⟨rfl, ends, rfl⟩⟩
      · exact ⟨_, by simp [memberEvents, keyEvents], space, .inr ⟨next, rfl, dense, rfl⟩⟩
    exact ⟨true, .clearKey :: textEvents rootName text, _, split, ⟨rfl, text, rfl⟩,
      .inl ⟨rfl, text.decoded, [.key text.decoded], _, rfl, rfl, seen, after, beforeValue, value,
        later, marked, rfl, fits, follows⟩⟩

/-! ### The whole object -/

/-- Reading the members of a nonempty object. -/
def MembersRuns (locals : RootLocals) (trace : List Event) : Prop :=
  ∃ members : Json.Members, trace = membersEvents locals members ∧
    (∀ member ∈ members.toList, ValueFits member.value) ∧
    NamesPass locals.seen (members.toList.map (·.key.text.decoded))

theorem advanceLocals_seen (locals : RootLocals) (seen : List (List Byte)) (key : List Byte) :
    advanceLocals { locals with seen := seen } key =
      { advanceLocals locals key with seen := seen } := by
  unfold advanceLocals
  split_ifs <;> rfl

/-- The events do not depend on the names seen. -/
theorem membersEvents_seen (locals : RootLocals) (seen : List (List Byte))
    (members : Json.Members) :
    membersEvents { locals with seen := seen } members = membersEvents locals members := by
  induction members generalizing locals with
  | last member => rfl
  | cons member next rest inductionHypothesis =>
      rw [membersEvents, membersEvents, advanceLocals_seen, inductionHypothesis]
      rfl

theorem membersRuns_of_iterates {result : Bool}
    (iterates : Iterates PassRuns locals result trace rest) :
    result = true ∧ rest.head? = some (ascii '}') ∧ MembersRuns locals trace := by
  induction iterates with
  | done holds =>
      obtain ⟨member, seen, marked, fits, ⟨rfl, ends, same⟩ | ⟨_, -, -, impossible⟩⟩ := holds
      · refine ⟨Step.done.inj same, ends, .last member, rfl, ?_, seen, marked, trivial⟩
        simpa [Json.Members.toList] using fits
      · cases impossible
  | again holds later inductionHypothesis =>
      obtain ⟨member, seen, marked, fits, ⟨-, -, impossible⟩ | ⟨next, rfl, -, same⟩⟩ := holds
      · cases impossible
      · obtain rfl := Step.again.inj same
        obtain ⟨rfl, ends, members, rfl, restFits, names⟩ := inductionHypothesis
        rw [advanceLocals_seen] at names
        refine ⟨rfl, ends, .cons member next members, ?_, ?_, seen, marked, names⟩
        · rw [advanceLocals_seen, membersEvents_seen, membersEvents]
          simp
        · rw [Json.Members.toList, List.forall_mem_cons]
          exact ⟨fits, restFits⟩

theorem members_first (locals : RootLocals) (members : Json.Members) :
    ∃ tail, consumed (membersEvents locals members) = ascii '"' :: tail := by
  cases members with
  | last member | cons member next rest => exact ⟨_, rfl⟩

theorem iterates_of_members {members : Json.Members} (ends : rest.head? = some (ascii '}'))
    (fits : ∀ member ∈ members.toList, ValueFits member.value)
    (names : NamesPass locals.seen (members.toList.map (·.key.text.decoded))) :
    Iterates PassRuns locals true (membersEvents locals members) rest := by
  induction members generalizing locals with
  | last member =>
      obtain ⟨seen, marked, -⟩ := names
      exact .done ⟨member, seen, marked, fits member (List.mem_singleton_self _),
        .inl ⟨rfl, ends, rfl⟩⟩
  | cons member next members inductionHypothesis =>
      obtain ⟨seen, marked, laterNames⟩ := names
      obtain ⟨valueFits, restFits⟩ := List.forall_mem_cons.mp fits
      have advanced := advanceLocals_seen locals seen member.key.text.decoded
      have later := @inductionHypothesis
        (advanceLocals { locals with seen := seen } member.key.text.decoded) restFits
        (by rw [advanced]; exact laterNames)
      have split : membersEvents locals (.cons member next members) =
          (memberEvents locals member ++ .take (ascii ',') :: skips next) ++
            membersEvents (advanceLocals locals member.key.text.decoded) members := by
        rw [membersEvents]
        simp
      rw [advanced, membersEvents_seen, ← advanced] at later
      obtain ⟨tail, starts⟩ :=
        members_first (advanceLocals locals member.key.text.decoded) members
      have dense : Dense (consumed (membersEvents
          (advanceLocals locals member.key.text.decoded) members) ++ rest) := by
        rw [starts]
        exact dense_cons (by decide) _
      rw [split]
      exact .again ⟨member, seen, marked, valueFits, .inr ⟨next, rfl, dense, rfl⟩⟩ later

theorem passRuns_progress (locals next : RootLocals) (trace : List Event) (rest : List Byte)
    (holds : PassRuns locals (.again next) trace rest) : consumed trace ≠ [] := by
  obtain ⟨member, seen, -, -, ⟨-, -, impossible⟩ | ⟨space, rfl, -⟩⟩ := holds
  · cases impossible
  · simp [Event.consumed]

/-- The members and the white space in front of them. -/
def InsideRuns (trace : List Event) (rest : List Byte) : Prop :=
  ∃ (inside : Json.Space) (members : Option Json.Members),
    trace = skips inside ++ members.elim [] (membersEvents {}) ∧
    rest.head? = some (ascii '}') ∧
    ∀ list ∈ members, (∀ member ∈ list.toList, ValueFits member.value) ∧
      NamesPass [] (list.toList.map (·.key.text.decoded))

theorem exact_rootMembers : Exact (rootMembers Stream.source) (Succeeds InsideRuns) := by
  refine Exact.congr (exact_bind exact_whitespace fun _ => exact_bind exact_peek fun next =>
    exact_ite (fun _ => exact_pure _)
      (fun _ => exact_scanLoop exact_rootPass passRuns_progress false {}))
    fun result trace rest => ?_
  constructor
  · rintro ⟨_, _, _, rfl, ⟨inside, rfl, -⟩, _, _, _, rfl, ⟨rfl, rfl⟩,
      ⟨ends, rfl, rfl⟩ | ⟨-, iterates⟩⟩
    · exact ⟨rfl, inside, none, rfl, ends, fun _ impossible => nomatch impossible⟩
    · obtain ⟨rfl, ends, members, rfl, fits, names⟩ := membersRuns_of_iterates iterates
      refine ⟨rfl, inside, some members, rfl, ends, fun list found => ?_⟩
      rw [← Option.mem_some_iff.mp found]
      exact ⟨fits, names⟩
  · rintro ⟨rfl, inside, members, rfl, ends, fits⟩
    cases members with
    | none =>
        exact ⟨(), skips inside, [], rfl, ⟨inside, rfl, dense_of_head ends (by decide)⟩, _, [], [],
          rfl, ⟨rfl, rfl⟩, .inl ⟨ends, rfl, rfl⟩⟩
    | some members =>
        obtain ⟨valuesFit, names⟩ := fits members rfl
        have iterates : Iterates PassRuns {} true (membersEvents {} members) rest :=
          iterates_of_members ends valuesFit names
        obtain ⟨tail, starts⟩ := members_first {} members
        have head : (consumed (membersEvents {} members) ++ rest).head? = some (ascii '"') := by
          rw [starts]
          rfl
        exact ⟨(), skips inside, membersEvents {} members, rfl,
          ⟨inside, rfl, dense_of_head head (by decide)⟩, some (ascii '"'), [], _, rfl,
          ⟨head.symm, rfl⟩, .inr ⟨by decide, iterates⟩⟩

theorem exact_emitCore (byte : Byte) : Exact (emitCore byte : Program (Parser Stream) Bool)
    (Succeeds fun trace _ => trace = coreByteEvents byte) := by
  refine Exact.congr (exact_bind (exact_setCapture .core) fun _ =>
    exact_bind (exact_emit byte) fun _ => exact_ite
      (fun _ => exact_bind (exact_setCapture .discard) fun _ => exact_pure _)
      (fun _ => exact_pure _)) fun result trace rest => ?_
  constructor
  · rintro ⟨_, _, _, rfl, rfl, _, _, _, rfl, ⟨rfl, rfl⟩, ⟨-, held⟩ | ⟨impossible, -⟩⟩
    · obtain ⟨_, _, _, rfl, rfl, rfl, rfl⟩ := held
      exact ⟨rfl, rfl⟩
    · exact absurd rfl impossible
  · rintro ⟨rfl, rfl⟩
    exact ⟨(), [.capture .core], _, rfl, rfl, true, [.emit byte], [.capture .discard], rfl,
      ⟨rfl, rfl⟩, .inl ⟨rfl, (), [.capture .discard], [], rfl, rfl, rfl, rfl⟩⟩

theorem exact_rootEnd : Exact (rootEnd Stream.source) (Succeeds fun trace rest =>
    rest = [] ∧ ∃ after, trace = skips after) := by
  refine Exact.congr (exact_bind exact_whitespace fun _ => exact_bind exact_peek fun next =>
    exact_bind exact_errorNow fun error => exact_ite (fun _ => exact_pure true)
      (fun _ => exact_fail (by decide))) fun result trace rest => ?_
  constructor
  · rintro ⟨_, _, _, rfl, ⟨after, rfl, -⟩, _, _, _, rfl, ⟨rfl, rfl⟩, _, _, _, rfl, ⟨rfl, rfl⟩,
      ⟨⟨ended, -⟩, rfl, rfl⟩ | ⟨-, never⟩⟩
    · exact ⟨rfl, List.head?_eq_none_iff.mp ended, after, by simp⟩
    · exact never.elim
  · rintro ⟨rfl, rfl, after, rfl⟩
    exact ⟨(), skips after, [], (List.append_nil _).symm,
      ⟨after, rfl, fun _ impossible => nomatch impossible⟩, none, [], [], rfl, ⟨rfl, rfl⟩, 0, [],
      [], rfl, ⟨rfl, rfl⟩, .inl ⟨⟨rfl, rfl⟩, rfl, rfl⟩⟩

/-- The document keeps the limits on numbers and names, which do not depend on its events. -/
structure Shaped (document : Json.Document) : Prop where
  values : ∀ member ∈ document.memberList, ValueFits member.value
  names : NamesPass [] (document.memberList.map (·.key.text.decoded))

theorem shaped_iff (document : Json.Document) : Shaped document ↔
    ∀ list ∈ document.members, (∀ member ∈ list.toList, ValueFits member.value) ∧
      NamesPass [] (list.toList.map (·.key.text.decoded)) := by
  obtain ⟨before, inside, members, after⟩ := document
  cases members with
  | none =>
      refine iff_of_true ⟨?_, trivial⟩ fun _ impossible => nomatch impossible
      exact fun _ impossible => absurd impossible List.not_mem_nil
  | some members =>
      constructor
      · rintro ⟨values, names⟩ list found
        rw [← Option.mem_some_iff.mp found]
        exact ⟨values, names⟩
      · intro fits
        exact ⟨(fits members rfl).1, (fits members rfl).2⟩

/-- `root` reads one document and nothing behind it. -/
theorem exact_root : Exact (root Stream.source) (Succeeds fun trace rest =>
    rest = [] ∧ ∃ document, trace = documentEvents document ∧ Shaped document) := by
  refine Exact.congr (exact_bind (exact_setCapture .discard) fun _ =>
    exact_bind exact_whitespace fun _ => exact_andThen (exact_expect (ascii '{'))
      (exact_andThen (exact_emitCore (ascii '{')) (exact_andThen exact_rootMembers
        (exact_andThen (exact_expect (ascii '}')) (exact_andThen (exact_emitCore (ascii '}'))
          exact_rootEnd))))) fun result trace rest => ?_
  constructor
  · rintro ⟨_, _, _, rfl, rfl, _, _, _, rfl, ⟨before, rfl, -⟩, rfl, _, _, rfl, rfl, _, _, rfl, rfl,
      _, _, rfl, ⟨inside, members, rfl, -, fits⟩, _, _, rfl, rfl, _, _, rfl, rfl, rfl, after, rfl⟩
    refine ⟨rfl, rfl, ⟨before, inside, members, after⟩, ?_, (shaped_iff _).mpr fits⟩
    simp [documentEvents]
  · rintro ⟨rfl, rfl, ⟨before, inside, members, after⟩, rfl, shaped⟩
    have fits := (shaped_iff _).mp shaped
    refine ⟨(), [.capture .discard], _, rfl, rfl, (), skips before, _, rfl, ⟨before, rfl, ?_⟩, rfl,
      [.take (ascii '{')], _, rfl, rfl, coreByteEvents (ascii '{'), _, rfl, rfl,
      skips inside ++ members.elim [] (membersEvents {}), _, ?_, ⟨inside, members, rfl, ?_, fits⟩,
      [.take (ascii '}')], _, rfl, rfl, coreByteEvents (ascii '}'), _, rfl, rfl, rfl, after, rfl⟩
    · exact dense_cons (by decide) _
    · simp
    · rfl

end IperfSwift.Output
