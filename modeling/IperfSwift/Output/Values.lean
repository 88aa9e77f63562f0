import IperfSwift.Output.Numbers

/-!
Contract: `value` reads exactly the values of JSON within the number limit, and
entering one that is too deep fails.

Owns: the events of a concrete value; the exact specifications of `container`
and `value`.

The proof follows the recursion of `value` on the room that is left. Inside a
container the passes of the loop are matched with the items of the grammar.
-/

set_option autoImplicit false

namespace IperfSwift.Output

open IperfSwift.Lib
open IperfSwift.Lib.Program

variable {kind : Json.Kind} {byte : Byte} {rest : List Byte} {item : Program (Parser Stream) Bool}
  {depth : Nat} {trace : List Event} {destination : Option Decoded}

/-! ### Events of values -/

/-- The destination of a key below the root. -/
def nestedKey : Option Decoded := some { isKey := true }

/-- What is read before a value of a container, up to the colon. -/
def leadEvents : {kind : Json.Kind} → Json.Lead kind → List Event
  | .array, _ => []
  | .object, key =>
      textEvents nestedKey (Json.Key.text key) ++
        (skips (Json.Key.after key) ++ [.take (ascii ':')])

/-- The white space that `value` itself skips. -/
def leadGap : {kind : Json.Kind} → Json.Lead kind → Json.Space
  | .array, _ => Json.Space.none
  | .object, key => Json.Key.beforeValue key

mutual

/-- Reading a value, once it has been entered and its white space skipped. -/
def valueEvents (depth : Nat) (destination : Option Decoded) : Json.Value → List Event
  | .literal literal => takes literal.bytes
  | .number number => takes number.bytes
  | .text text => textEvents destination text
  | .empty kind space => .take kind.opening :: (skips space ++ [.take kind.closing])
  | .container kind space items =>
      .take kind.opening :: (skips space ++ (itemsEvents (depth + 1) items ++ [.take kind.closing]))

def itemsEvents (depth : Nat) : {kind : Json.Kind} → Json.Items kind → List Event
  | _, .last lead value after =>
      leadEvents lead ++ .enter depth :: (skips (leadGap lead) ++
        (valueEvents depth none value ++ skips after))
  | _, .cons lead value after next rest =>
      leadEvents lead ++ .enter depth :: (skips (leadGap lead) ++
        (valueEvents depth none value ++ (skips after ++ .take (ascii ',') ::
          (skips next ++ itemsEvents depth rest))))

end

theorem consumed_lead (lead : Json.Lead kind) :
    consumed (leadEvents lead) ++ (leadGap lead).val = lead.bytes := by
  cases kind with
  | array => rfl
  | object =>
      simp [leadEvents, leadGap, Json.Lead.bytes, Json.Key.bytes, Event.consumed]

mutual

theorem consumed_valueEvents (depth : Nat) (destination : Option Decoded) :
    (value : Json.Value) → consumed (valueEvents depth destination value) = value.bytes
  | .literal literal => by simp [valueEvents, Json.Value.bytes]
  | .number number => by simp [valueEvents, Json.Value.bytes]
  | .text text => by simp [valueEvents, Json.Value.bytes]
  | .empty kind space => by simp [valueEvents, Json.Value.bytes, Event.consumed]
  | .container kind space items => by
      simp [valueEvents, Json.Value.bytes, Event.consumed, consumed_itemsEvents (depth + 1) items]

theorem consumed_itemsEvents (depth : Nat) : {kind : Json.Kind} → (items : Json.Items kind) →
    consumed (itemsEvents depth items) = items.bytes
  | _, .last lead value after => by
      simp [itemsEvents, Json.Items.bytes, ← consumed_lead lead, Event.consumed,
        consumed_valueEvents depth none value]
  | _, .cons lead value after next rest => by
      simp [itemsEvents, Json.Items.bytes, ← consumed_lead lead, Event.consumed,
        consumed_valueEvents depth none value, consumed_itemsEvents depth rest]

end

/-! ### What may follow -/

/-- The bytes behind a value do not continue it. -/
def Stops (value : Json.Value) (rest : List Byte) : Prop :=
  match value with
  | .number number => NumberStops number rest
  | _ => True

/-- White space, a comma or a closing bracket comes next. -/
def Delimited (rest : List Byte) : Prop := ∃ byte tail, rest = byte :: tail ∧
  (Json.IsSpace byte ∨ byte = ascii ',' ∨ byte = ascii ']' ∨ byte = ascii '}')

theorem delimiter_cases
    (delimiter : Json.IsSpace byte ∨ byte = ascii ',' ∨ byte = ascii ']' ∨ byte = ascii '}') :
    ¬ Json.IsDigit byte ∧ byte ∉ [ascii 'e', ascii 'E'] ∧ byte ∉ [ascii '.'] := by
  rcases delimiter with (rfl | rfl | rfl | rfl) | rfl | rfl | rfl <;> decide

theorem stops_of_delimited (delimited : Delimited rest) (value : Json.Value) :
    Stops value rest := by
  obtain ⟨byte, tail, rfl, delimiter⟩ := delimited
  obtain ⟨notDigit, notMarker, notPoint⟩ := delimiter_cases delimiter
  have noDigit : ¬ AtDigit (byte :: tail) := by
    rw [atDigit_cons]
    exact notDigit
  have noMarker : Avoids [ascii 'e', ascii 'E'] (byte :: tail) := by
    intro other found
    rw [← Option.some.inj found]
    exact notMarker
  have noPoint : Avoids [ascii '.'] (byte :: tail) := by
    intro other found
    rw [← Option.some.inj found]
    exact notPoint
  cases value with
  | number number =>
      obtain ⟨negative, whole, noLeadingZero, fraction, exponent⟩ := number
      cases exponent with
      | some exponent => exact noDigit
      | none =>
          cases fraction with
          | some digits => exact ⟨noMarker, noDigit⟩
          | none => exact ⟨noMarker, noPoint, fun _ => noDigit⟩
  | literal literal | text text | empty kind space | container kind space items => trivial

theorem delimited_space (space : Json.Space) (rest : List Byte)
    (delimiter : byte = ascii ',' ∨ byte = ascii ']' ∨ byte = ascii '}') :
    Delimited (space.val ++ byte :: rest) := by
  obtain ⟨bytes, isSpace⟩ := space
  cases bytes with
  | nil => exact ⟨byte, rest, rfl, .inr delimiter⟩
  | cons first bytes => exact ⟨first, _, rfl, .inl (isSpace first (List.mem_cons_self ..))⟩

theorem closing_delimiter (kind : Json.Kind) :
    kind.closing = ascii ',' ∨ kind.closing = ascii ']' ∨ kind.closing = ascii '}' := by
  cases kind <;> decide

/-! ### White space in front -/

theorem dense_cons (notSpace : ¬ Json.IsSpace byte) (rest : List Byte) : Dense (byte :: rest) := by
  intro other found
  rw [← Option.some.inj found]
  exact notSpace

theorem space_nil_of_dense {space : Json.Space} (dense : Dense (space.val ++ rest)) :
    space = Json.Space.none := by
  obtain ⟨bytes, isSpace⟩ := space
  cases bytes with
  | nil => rfl
  | cons byte bytes => exact absurd (isSpace byte (List.mem_cons_self ..)) (dense byte rfl)

/-- A value starts with a byte that is no white space and closes nothing. -/
theorem value_first (value : Json.Value) : ∃ first tail, value.bytes = first :: tail ∧
    ¬ Json.IsSpace first ∧ ∀ kind : Json.Kind, first ≠ kind.closing := by
  obtain ⟨first, tail, bytes, visible, notClosing⟩ := value.exists_first
  exact ⟨first, tail, bytes, fun isSpace => absurd visible.1 (Nat.not_lt.mpr isSpace.le), notClosing⟩

/-! ### Items -/

/-- White space and then a byte that is none. -/
theorem exact_spaced (notSpace : ¬ Json.IsSpace byte) :
    Exact (do
      whitespace Stream.source
      expect Stream.source byte)
    (Succeeds fun trace _ => ∃ space, trace = skips space ++ [.take byte]) := by
  refine Exact.congr (exact_bind exact_whitespace fun _ => exact_expect byte)
    fun result trace rest => ?_
  constructor
  · rintro ⟨_, _, _, rfl, ⟨space, rfl, -⟩, rfl, rfl⟩
    exact ⟨rfl, space, rfl⟩
  · rintro ⟨rfl, space, rfl⟩
    exact ⟨(), skips space, [.take byte], rfl, ⟨space, rfl, dense_cons notSpace rest⟩, rfl, rfl⟩

theorem exact_memberKey : Exact (memberKey Stream.source) (Succeeds fun trace _ =>
    ∃ text space, trace = textEvents nestedKey text ++ (skips space ++ [.take (ascii ':')])) := by
  refine Exact.congr (exact_andThen (exact_string nestedKey) (exact_spaced (by decide)))
    fun result trace rest => ?_
  constructor
  · rintro ⟨rfl, _, _, rfl, ⟨text, rfl⟩, space, rfl⟩
    exact ⟨rfl, text, space, rfl⟩
  · rintro ⟨rfl, text, space, rfl⟩
    exact ⟨rfl, _, _, rfl, ⟨text, rfl⟩, space, rfl⟩

/-- An item of a container with what stands before it. -/
def KeyedRuns (kind : Json.Kind) (item : List Event → List Byte → Prop) (trace : List Event)
    (rest : List Byte) : Prop :=
  match kind with
  | .array => item trace rest
  | .object => ∃ text space later, trace = textEvents nestedKey text ++
      (skips space ++ .take (ascii ':') :: later) ∧ item later rest

theorem exact_keyedItem (kind : Json.Kind) {itemRuns : List Event → List Byte → Prop}
    (itemExact : Exact item (Succeeds itemRuns)) :
    Exact (keyedItem Stream.source kind item) (Succeeds (KeyedRuns kind itemRuns)) := by
  cases kind with
  | array => exact itemExact
  | object =>
      refine Exact.congr (exact_andThen exact_memberKey itemExact) fun result trace rest => ?_
      constructor
      · rintro ⟨rfl, _, later, rfl, ⟨text, space, rfl⟩, runs⟩
        exact ⟨rfl, text, space, later, by simp, runs⟩
      · rintro ⟨rfl, text, space, later, rfl, runs⟩
        exact ⟨rfl, _, later, by simp, ⟨text, space, rfl⟩, runs⟩

/-- One pass of the loop of `value`: an item, then the end or a comma. -/
def ItemPass (kind : Json.Kind) (item : List Event → List Byte → Prop) : Spec (Step Unit Bool) :=
  fun result trace rest => ∃ (first : List Event) (after : Json.Space),
    (trace = first ++ (skips after ++ [.take kind.closing]) ∧
        KeyedRuns kind item first (after.val ++ kind.closing :: rest) ∧ result = .done true) ∨
      ∃ next : Json.Space, trace = first ++ (skips after ++ .take (ascii ',') :: skips next) ∧
        KeyedRuns kind item first (after.val ++ ascii ',' :: (next.val ++ rest)) ∧ Dense rest ∧
        result = .again ()

/-- What follows an item. -/
def AfterItem (kind : Json.Kind) : Spec (Step Unit Bool) := fun result trace rest =>
  ∃ after : Json.Space, (trace = skips after ++ [.take kind.closing] ∧ result = .done true) ∨
    ∃ next : Json.Space, trace = skips after ++ .take (ascii ',') :: skips next ∧ Dense rest ∧
      result = .again ()

theorem closing_notSpace (kind : Json.Kind) : ¬ Json.IsSpace kind.closing := by
  cases kind <;> decide

theorem closing_ne_comma (kind : Json.Kind) : kind.closing ≠ ascii ',' := by
  cases kind <;> decide

theorem exact_afterItem (kind : Json.Kind) :
    Exact (do
      whitespace Stream.source
      let next ← peek Stream.source
      if next = some kind.closing then do
        let closed ← expect Stream.source kind.closing
        pure (.done closed)
      else do
        let separated ← expect Stream.source (ascii ',')
        if separated then do
          whitespace Stream.source
          pure (.again ())
        else pure (.done false))
    (AfterItem kind) := by
  refine Exact.congr (exact_bind exact_whitespace fun _ => exact_bind exact_peek fun next =>
    exact_ite (fun _ => exact_bind (exact_expect _) fun _ => exact_pure _)
      (fun _ => exact_bind (exact_expect _) fun _ => exact_ite
        (fun _ => exact_bind exact_whitespace fun _ => exact_pure _)
        (fun _ => exact_pure _))) fun result trace rest => ?_
  constructor
  · rintro ⟨_, _, _, rfl, ⟨after, rfl, -⟩, _, _, _, rfl, ⟨rfl, rfl⟩, ⟨-, held⟩ | ⟨-, held⟩⟩
    · obtain ⟨_, _, _, rfl, ⟨rfl, rfl⟩, rfl, rfl⟩ := held
      exact ⟨after, .inl ⟨rfl, rfl⟩⟩
    · obtain ⟨_, _, _, rfl, ⟨rfl, rfl⟩, ⟨-, later⟩ | ⟨impossible, -⟩⟩ := held
      · obtain ⟨_, _, _, rfl, ⟨next, rfl, dense⟩, rfl, rfl⟩ := later
        exact ⟨after, .inr ⟨next, by simp, dense, rfl⟩⟩
      · exact absurd rfl impossible
  · rintro ⟨after, ⟨rfl, rfl⟩ | ⟨next, rfl, dense, rfl⟩⟩
    · exact ⟨(), skips after, [.take kind.closing], rfl,
        ⟨after, rfl, dense_cons (closing_notSpace kind) rest⟩, some kind.closing, [],
        [.take kind.closing], rfl, ⟨rfl, rfl⟩, .inl ⟨rfl, true, [.take kind.closing], [], rfl,
          ⟨rfl, rfl⟩, rfl, rfl⟩⟩
    · refine ⟨(), skips after, .take (ascii ',') :: skips next, rfl, ⟨after, rfl, ?_⟩,
        some (ascii ','), [], .take (ascii ',') :: skips next, rfl, ⟨rfl, rfl⟩, .inr ⟨?_, true,
          [.take (ascii ',')], skips next, rfl, ⟨rfl, rfl⟩, .inl ⟨rfl, (), skips next, [],
          (List.append_nil _).symm, ⟨next, rfl, dense⟩, rfl, rfl⟩⟩⟩
      · exact dense_cons (by decide) _
      · exact fun same => closing_ne_comma kind (Option.some.inj same).symm

theorem exact_itemPass (kind : Json.Kind) {itemRuns : List Event → List Byte → Prop}
    (itemExact : Exact item (Succeeds itemRuns)) :
    Exact (itemPass Stream.source kind item) (ItemPass kind itemRuns) := by
  refine Exact.congr (exact_bind (exact_keyedItem kind itemExact) fun _ =>
    exact_ite (fun _ => exact_afterItem kind) (fun _ => exact_pure _)) fun result trace rest => ?_
  constructor
  · rintro ⟨_, first, _, rfl, ⟨rfl, runs⟩, ⟨-, after, held⟩ | ⟨impossible, -⟩⟩
    · rcases held with ⟨rfl, rfl⟩ | ⟨next, rfl, dense, rfl⟩
      · refine ⟨first, after, .inl ⟨rfl, ?_, rfl⟩⟩
        simpa [Event.consumed] using runs
      · refine ⟨first, after, .inr ⟨next, rfl, ?_, dense, rfl⟩⟩
        simpa [Event.consumed] using runs
    · exact absurd rfl impossible
  · rintro ⟨first, after, ⟨rfl, runs, rfl⟩ | ⟨next, rfl, runs, dense, rfl⟩⟩
    · refine ⟨true, first, _, rfl, ⟨rfl, ?_⟩, .inl ⟨rfl, after, .inl ⟨rfl, rfl⟩⟩⟩
      simpa [Event.consumed] using runs
    · refine ⟨true, first, _, rfl, ⟨rfl, ?_⟩, .inl ⟨rfl, after, .inr ⟨next, rfl, dense, rfl⟩⟩⟩
      simpa [Event.consumed] using runs

/-! ### Values of a container -/

/-- Every number is short enough. -/
def NumbersFit (numbers : List Json.Number) : Prop :=
  ∀ number ∈ numbers, number.bytes.length ≤ resultMaxNumberLength

theorem numbersFit_nil : NumbersFit [] := fun _ member => absurd member List.not_mem_nil

/-- A value at this depth. -/
def ValueRuns (depth : Nat) (destination : Option Decoded) (trace : List Event)
    (rest : List Byte) : Prop :=
  ∃ (space : Json.Space) (value : Json.Value),
    trace = .enter depth :: (skips space ++ valueEvents depth destination value) ∧
    NumbersFit value.numbers ∧ Stops value rest

/-- One item as the grammar has it. -/
def itemEvents (depth : Nat) {kind : Json.Kind} (lead : Json.Lead kind) (value : Json.Value) :
    List Event :=
  leadEvents lead ++ .enter depth :: (skips (leadGap lead) ++ valueEvents depth none value)

/-- An item starts with a byte that is no white space and does not close its container. -/
theorem item_first (depth : Nat) (lead : Json.Lead kind) (value : Json.Value) :
    ∃ first tail, consumed (itemEvents depth lead value) = first :: tail ∧
      ¬ Json.IsSpace first ∧ first ≠ kind.closing := by
  cases kind with
  | array =>
      obtain ⟨first, tail, bytes, notSpace, notClosing⟩ := value_first value
      refine ⟨first, tail, ?_, notSpace, notClosing _⟩
      rw [← bytes, ← consumed_valueEvents depth none value]
      rfl
  | object => exact ⟨ascii '"', _, rfl, by decide, by decide⟩

theorem keyedRuns_iff (dense : Dense (consumed trace ++ rest)) :
    KeyedRuns kind (ValueRuns depth none) trace rest ↔
      ∃ (lead : Json.Lead kind) (value : Json.Value), trace = itemEvents depth lead value ∧
        NumbersFit value.numbers ∧ Stops value rest := by
  cases kind with
  | array =>
      constructor
      · rintro ⟨space, value, rfl, fit, stops⟩
        have noSpace : space = Json.Space.none := by
          apply space_nil_of_dense
          simpa [Event.consumed] using dense
        subst noSpace
        exact ⟨(), value, rfl, fit, stops⟩
      · rintro ⟨lead, value, rfl, fit, stops⟩
        exact ⟨Json.Space.none, value, rfl, fit, stops⟩
  | object =>
      constructor
      · rintro ⟨text, after, _, rfl, space, value, rfl, fit, stops⟩
        refine ⟨(⟨text, after, space⟩ : Json.Key), value, ?_, fit, stops⟩
        simp [itemEvents, leadEvents, leadGap]
      · rintro ⟨⟨text, after, space⟩, value, rfl, fit, stops⟩
        refine ⟨text, after, _, ?_, space, value, rfl, fit, stops⟩
        simp [itemEvents, leadEvents, leadGap]

/-- The items of a container and its closing bracket. -/
def ItemsRuns (depth : Nat) (kind : Json.Kind) (trace : List Event) : Prop :=
  ∃ items : Json.Items kind, trace = itemsEvents depth items ++ [.take kind.closing] ∧
    NumbersFit items.numbers

theorem itemsRuns_of_iterates {carried : Unit} {result : Bool}
    (iterates : Iterates (fun _ : Unit => ItemPass kind (ValueRuns depth none)) carried result
      trace rest) (dense : Dense (consumed trace ++ rest)) :
    result = true ∧ ItemsRuns depth kind trace := by
  induction iterates with
  | @done _ _ _ rest holds =>
      obtain ⟨first, after, ⟨rfl, runs, same⟩ | ⟨next, -, -, -, impossible⟩⟩ := holds
      · have itemDense : Dense (consumed first ++ (after.val ++ kind.closing :: rest)) := by
          simpa [Event.consumed] using dense
        obtain ⟨lead, value, rfl, fit, -⟩ := (keyedRuns_iff itemDense).mp runs
        refine ⟨Step.done.inj same, .last lead value after, ?_, fit⟩
        simp [itemsEvents, itemEvents]
      · cases impossible
  | @again _ _ _ _ later rest holds _ inductionHypothesis =>
      obtain ⟨first, after, ⟨-, -, impossible⟩ | ⟨next, rfl, runs, laterDense, -⟩⟩ := holds
      · cases impossible
      · have itemDense : Dense (consumed first ++ (after.val ++ ascii ',' ::
            (next.val ++ (consumed later ++ rest)))) := by
          simpa [Event.consumed] using dense
        obtain ⟨lead, value, rfl, fit, -⟩ := (keyedRuns_iff itemDense).mp runs
        obtain ⟨rfl, items, rfl, itemsFit⟩ := inductionHypothesis laterDense
        refine ⟨rfl, .cons lead value after next items, ?_, ?_⟩
        · simp [itemsEvents, itemEvents]
        · intro number member
          rcases List.mem_append.mp member with own | other
          · exact fit number own
          · exact itemsFit number other

/-- Both ways an item may be followed leave it complete. -/
theorem keyedRuns_of_item (depth : Nat) (lead : Json.Lead kind) {value : Json.Value}
    (after : Json.Space) (rest : List Byte)
    (delimiter : byte = ascii ',' ∨ byte = ascii ']' ∨ byte = ascii '}')
    (fit : NumbersFit value.numbers) :
    KeyedRuns kind (ValueRuns depth none) (itemEvents depth lead value)
      (after.val ++ byte :: rest) := by
  have stops := stops_of_delimited (delimited_space after rest delimiter) value
  obtain ⟨first, tail, bytes, notSpace, -⟩ := item_first depth lead value
  have dense : Dense (consumed (itemEvents depth lead value) ++ (after.val ++ byte :: rest)) := by
    rw [bytes]
    exact dense_cons notSpace _
  exact (keyedRuns_iff dense).mpr ⟨lead, value, rfl, fit, stops⟩

theorem items_first (depth : Nat) (items : Json.Items kind) :
    ∃ first tail, consumed (itemsEvents depth items) = first :: tail ∧
      ¬ Json.IsSpace first ∧ first ≠ kind.closing := by
  cases items with
  | last lead value after =>
      obtain ⟨first, tail, bytes, start⟩ := item_first depth lead value
      refine ⟨first, tail ++ after.val, ?_, start⟩
      rw [← List.cons_append, ← bytes]
      simp [itemsEvents, itemEvents, Event.consumed]
  | cons lead value after next items =>
      obtain ⟨first, tail, bytes, start⟩ := item_first depth lead value
      refine ⟨first, tail ++ (after.val ++ ascii ',' :: (next.val ++
        consumed (itemsEvents depth items))), ?_, start⟩
      rw [← List.cons_append, ← bytes]
      simp [itemsEvents, itemEvents, Event.consumed]

theorem iterates_of_items (depth : Nat) (rest : List Byte) : {kind : Json.Kind} →
    (items : Json.Items kind) → NumbersFit items.numbers →
    Iterates (fun _ : Unit => ItemPass kind (ValueRuns depth none)) () true
      (itemsEvents depth items ++ [.take kind.closing]) rest
  | kind, .last lead value after, fit => by
      have runs := keyedRuns_of_item depth lead after rest (closing_delimiter kind) fit
      refine .done ⟨itemEvents depth lead value, after, .inl ⟨?_, runs, rfl⟩⟩
      simp [itemsEvents, itemEvents]
  | kind, .cons lead value after next items, fit => by
      have later := iterates_of_items depth rest items
        (fun number member => fit number (List.mem_append_right _ member))
      have runs := keyedRuns_of_item depth lead after (next.val ++
        (consumed (itemsEvents depth items ++ [.take kind.closing]) ++ rest)) (.inl rfl)
        (fun number member => fit number (List.mem_append_left _ member))
      obtain ⟨first, tail, bytes, notSpace, -⟩ := items_first depth items
      have dense : Dense (consumed (itemsEvents depth items ++ [.take kind.closing]) ++ rest) := by
        rw [consumed_append, bytes]
        exact dense_cons notSpace _
      have split : itemsEvents depth (.cons lead value after next items) ++ [.take kind.closing] =
          (itemEvents depth lead value ++ (skips after ++ .take (ascii ',') :: skips next)) ++
            (itemsEvents depth items ++ [.take kind.closing]) := by
        simp [itemsEvents, itemEvents]
      rw [split]
      exact .again ⟨itemEvents depth lead value, after, .inr ⟨next, rfl, runs, dense, rfl⟩⟩ later

/-! ### Containers and values -/

/-- A container, whatever its first byte. -/
def ContainerRuns (depth : Nat) (kind : Json.Kind) (trace : List Event) : Prop :=
  ∃ (first : Byte) (space : Json.Space) (later : List Event),
    trace = .take first :: (skips space ++ later) ∧
      (later = [.take kind.closing] ∨ ItemsRuns depth kind later)

theorem itemPass_progress {item : List Event → List Byte → Prop} (_ next : Unit)
    (trace : List Event) (rest : List Byte) (holds : ItemPass kind item (.again next) trace rest) :
    consumed trace ≠ [] := by
  obtain ⟨first, after, ⟨-, -, impossible⟩ | ⟨space, rfl, -⟩⟩ := holds
  · cases impossible
  · simp [Event.consumed]

theorem exact_container (kind : Json.Kind)
    (itemExact : Exact item (Succeeds (ValueRuns depth none))) :
    Exact (container Stream.source kind item)
      (Succeeds fun trace _ => ContainerRuns depth kind trace) := by
  refine Exact.congr (exact_bind exact_take fun _ => exact_bind exact_whitespace fun _ =>
    exact_bind exact_peek fun next => exact_ite (fun _ => exact_expect kind.closing)
      (fun _ => exact_scanLoop (fun _ => exact_itemPass kind itemExact) itemPass_progress
        false ())) fun result trace rest => ?_
  constructor
  · rintro ⟨_, _, _, rfl, ⟨first, rfl, rfl⟩, _, _, _, rfl, ⟨space, rfl, dense⟩, _, _, later, rfl,
      ⟨rfl, rfl⟩, ⟨-, rfl, rfl⟩ | ⟨-, iterates⟩⟩
    · exact ⟨rfl, first, space, _, rfl, .inl rfl⟩
    · obtain ⟨rfl, runs⟩ := itemsRuns_of_iterates iterates dense
      exact ⟨rfl, first, space, later, rfl, .inr runs⟩
  · rintro ⟨rfl, first, space, later, rfl, rfl | ⟨items, rfl, fit⟩⟩
    · exact ⟨some first, [.take first], _, rfl, ⟨first, rfl, rfl⟩, (), skips space, _, rfl,
        ⟨space, rfl, dense_cons (closing_notSpace kind) rest⟩, some kind.closing, [], _, rfl,
        ⟨rfl, rfl⟩, .inl ⟨rfl, rfl, rfl⟩⟩
    · have iterates := iterates_of_items depth rest items fit
      obtain ⟨start, tail, bytes, notSpace, notClosing⟩ := items_first depth items
      have split : consumed (itemsEvents depth items ++ [.take kind.closing]) ++ rest =
          start :: (tail ++ kind.closing :: rest) := by
        rw [consumed_append, bytes]
        simp [Event.consumed]
      refine ⟨some first, [.take first], _, rfl, ⟨first, rfl, rfl⟩, (), skips space, _, rfl,
        ⟨space, rfl, ?_⟩, some start, [], _, rfl, ⟨?_, rfl⟩, .inr ⟨?_, iterates⟩⟩
      · rw [split]
        exact dense_cons notSpace _
      · change some start = (consumed (itemsEvents depth items ++ [.take kind.closing]) ++ rest).head?
        rw [split]
        rfl
      · exact fun same => notClosing (Option.some.inj same)

/-- What `value` reads behind the white space, by the byte it sees there. -/
def BranchRuns (depth : Nat) (destination : Option Decoded) : Option Byte → Spec Bool
  | none => Never
  | some first =>
      Either (first = ascii '"')
        (Succeeds fun trace _ => ∃ text, trace = textEvents destination text)
      (Either (first = ascii '-' ∨ Json.IsDigit first)
        (Succeeds fun trace rest => ∃ number : Json.Number, trace = takes number.bytes ∧
          number.bytes.length ≤ resultMaxNumberLength ∧ NumberStops number rest)
      (Either (first = ascii 't') (Succeeds fun trace _ => trace = takes (bytesOf "true"))
      (Either (first = ascii 'f') (Succeeds fun trace _ => trace = takes (bytesOf "false"))
      (Either (first = ascii 'n') (Succeeds fun trace _ => trace = takes (bytesOf "null"))
      (Either (first = ascii '[')
        (Succeeds fun trace _ => ContainerRuns (depth + 1) .array trace)
      (Either (first = ascii '{')
        (Succeeds fun trace _ => ContainerRuns (depth + 1) .object trace)
        Never))))))

/-- A value behind its white space. -/
def BodyRuns (depth : Nat) (destination : Option Decoded) (trace : List Event)
    (rest : List Byte) : Prop :=
  ∃ value : Json.Value, trace = valueEvents depth destination value ∧
    NumbersFit value.numbers ∧ Stops value rest

theorem body_of_container (kind : Json.Kind)
    (opens : some kind.opening = (consumed trace ++ rest).head?)
    (runs : ContainerRuns (depth + 1) kind trace) : BodyRuns depth destination trace rest := by
  obtain ⟨first, space, later, rfl, rfl | ⟨items, rfl, fit⟩⟩ := runs
  · obtain rfl : kind.opening = first := Option.some.inj opens
    exact ⟨.empty kind space, rfl, numbersFit_nil, trivial⟩
  · obtain rfl : kind.opening = first := Option.some.inj opens
    exact ⟨.container kind space items, rfl, fit, trivial⟩

theorem body_of_branch {result : Bool}
    (runs : BranchRuns depth destination (consumed trace ++ rest).head? result trace rest) :
    result = true ∧ BodyRuns depth destination trace rest := by
  cases seen : (consumed trace ++ rest).head? with
  | none =>
      rw [seen] at runs
      exact runs.elim
  | some first =>
      rw [seen] at runs
      rcases runs with ⟨-, rfl, text, rfl⟩ | ⟨-, ⟨-, rfl, number, rfl, fits, stops⟩ | ⟨-, runs⟩⟩
      · exact ⟨rfl, .text text, rfl, numbersFit_nil, trivial⟩
      · refine ⟨rfl, .number number, rfl, fun other member => ?_, stops⟩
        rw [List.mem_singleton.mp member]
        exact fits
      · rcases runs with ⟨-, rfl, rfl⟩ | ⟨-, ⟨-, rfl, rfl⟩ | ⟨-, ⟨-, rfl, rfl⟩ | ⟨-, runs⟩⟩⟩
        · exact ⟨rfl, .literal .true, rfl, numbersFit_nil, trivial⟩
        · exact ⟨rfl, .literal .false, rfl, numbersFit_nil, trivial⟩
        · exact ⟨rfl, .literal .null, rfl, numbersFit_nil, trivial⟩
        · rcases runs with ⟨rfl, rfl, runs⟩ | ⟨-, ⟨rfl, rfl, runs⟩ | ⟨-, never⟩⟩
          · exact ⟨rfl, body_of_container .array seen.symm runs⟩
          · exact ⟨rfl, body_of_container .object seen.symm runs⟩
          · exact never.elim

theorem branch_of_container (kind : Json.Kind) {later : List Event}
    (runs : ContainerRuns (depth + 1) kind (.take kind.opening :: later)) :
    BranchRuns depth destination (some kind.opening) true (.take kind.opening :: later)
      rest := by
  cases kind with
  | array =>
      exact .inr ⟨by decide, .inr ⟨by decide, .inr ⟨by decide, .inr ⟨by decide, .inr ⟨by decide,
        .inl ⟨rfl, rfl, runs⟩⟩⟩⟩⟩⟩
  | object =>
      exact .inr ⟨by decide, .inr ⟨by decide, .inr ⟨by decide, .inr ⟨by decide, .inr ⟨by decide,
        .inr ⟨by decide, .inl ⟨rfl, rfl, runs⟩⟩⟩⟩⟩⟩⟩

theorem branch_of_body (runs : BodyRuns depth destination trace rest) :
    BranchRuns depth destination (consumed trace ++ rest).head? true trace rest := by
  obtain ⟨value, rfl, fit, stops⟩ := runs
  cases value with
  | literal literal =>
      cases literal with
      | null =>
          exact .inr ⟨by decide, .inr ⟨by decide, .inr ⟨by decide, .inr ⟨by decide,
            .inl ⟨by decide, rfl, rfl⟩⟩⟩⟩⟩
      | true => exact .inr ⟨by decide, .inr ⟨by decide, .inl ⟨by decide, rfl, rfl⟩⟩⟩
      | false =>
          exact .inr ⟨by decide, .inr ⟨by decide, .inr ⟨by decide, .inl ⟨by decide, rfl, rfl⟩⟩⟩⟩
  | number number =>
      obtain ⟨first, tail, bytes, start⟩ := number.exists_first
      have seen : (consumed (takes number.bytes) ++ rest).head? = some first := by
        rw [consumed_takes, bytes]
        rfl
      have notQuote : first ≠ ascii '"' := by
        rintro rfl
        revert start
        decide
      rw [valueEvents, seen]
      exact .inr ⟨notQuote, .inl ⟨start, rfl, number, rfl, fit number (List.mem_singleton_self _),
        stops⟩⟩
  | text text => exact .inl ⟨rfl, rfl, text, rfl⟩
  | empty kind space =>
      have runs : ContainerRuns (depth + 1) kind
          (.take kind.opening :: (skips space ++ [.take kind.closing])) :=
        ⟨kind.opening, space, _, rfl, .inl rfl⟩
      exact branch_of_container kind runs
  | container kind space items =>
      have runs : ContainerRuns (depth + 1) kind
          (.take kind.opening :: (skips space ++ (itemsEvents (depth + 1) items ++
            [.take kind.closing]))) :=
        ⟨kind.opening, space, _, rfl, .inr ⟨items, rfl, fit⟩⟩
      exact branch_of_container kind runs

/-- `value` behind the count and the white space. -/
theorem exact_body (destination : Option Decoded)
    (itemExact : Exact item (Succeeds (ValueRuns (depth + 1) none))) (found : Option Byte) :
    Exact (match found with
      | none => lift (fail EPROTO)
      | some first =>
          if first = ascii '"' then string Stream.source destination
          else if first = ascii '-' ∨ Json.IsDigit first then number Stream.source
          else if first = ascii 't' then literal Stream.source (bytesOf "true")
          else if first = ascii 'f' then literal Stream.source (bytesOf "false")
          else if first = ascii 'n' then literal Stream.source (bytesOf "null")
          else if first = ascii '[' then container Stream.source .array item
          else if first = ascii '{' then container Stream.source .object item
          else lift (fail EPROTO))
      (BranchRuns depth destination found) := by
  cases found with
  | none => exact exact_fail (by decide)
  | some first =>
      exact exact_ite (fun _ => exact_string destination) fun _ =>
        exact_ite (fun _ => exact_number) fun _ =>
        exact_ite (fun _ => exact_literal _) fun _ =>
        exact_ite (fun _ => exact_literal _) fun _ =>
        exact_ite (fun _ => exact_literal _) fun _ =>
        exact_ite (fun _ => exact_container .array itemExact) fun _ =>
        exact_ite (fun _ => exact_container .object itemExact) fun _ => exact_fail (by decide)

theorem body_dense (runs : BodyRuns depth destination trace rest) :
    Dense (consumed trace ++ rest) := by
  obtain ⟨value, rfl, -⟩ := runs
  obtain ⟨first, tail, bytes, notSpace, -⟩ := value_first value
  rw [consumed_valueEvents, bytes]
  exact dense_cons notSpace _

theorem exact_valueBody (destination : Option Decoded)
    (itemExact : Exact item (Succeeds (ValueRuns (depth + 1) none))) :
    Exact (valueBody Stream.source item destination)
      (Succeeds fun trace rest => ∃ (space : Json.Space) (later : List Event),
        trace = skips space ++ later ∧ BodyRuns depth destination later rest) := by
  refine Exact.congr (exact_bind exact_whitespace fun _ => exact_bind exact_peek fun found =>
    exact_body destination itemExact found) fun result trace rest => ?_
  constructor
  · rintro ⟨_, _, _, rfl, ⟨space, rfl, -⟩, _, _, later, rfl, ⟨rfl, rfl⟩, runs⟩
    obtain ⟨rfl, body⟩ := body_of_branch runs
    exact ⟨rfl, space, later, rfl, body⟩
  · rintro ⟨rfl, space, later, rfl, body⟩
    exact ⟨(), skips space, later, rfl, ⟨space, rfl, body_dense body⟩, _, [], later, rfl,
      ⟨rfl, rfl⟩, branch_of_body body⟩

/-- `value` reads exactly the values. Without room for another level it reads none, and
entering one fails. -/
theorem exact_value (room : Nat) : ∀ (depth : Nat), depth + room = resultMaxDepth + 1 →
    ∀ destination, Exact (value Stream.source room destination)
      (Succeeds (ValueRuns depth destination)) := by
  induction room with
  | zero =>
      intro depth sum destination
      refine exact_tooDeep (by omega : resultMaxDepth < depth) ?_
      rintro trace rest ⟨space, value, rfl, -⟩
      exact ⟨_, rfl⟩
  | succ room inductionHypothesis =>
      intro depth sum destination
      have level : resultMaxDepth - room = depth := by omega
      have performs : (Event.enter depth).perform = enterValue depth := enter_of_le (by omega)
      have itemExact := inductionHypothesis (depth + 1) (by omega) none
      have entered := exact_lift (.enter depth) (honest_enterValue depth) (sticky_enterValue depth)
        performs rfl
      rw [value, level]
      refine Exact.congr (exact_andThen entered (exact_valueBody destination itemExact))
        fun result trace rest => ?_
      constructor
      · rintro ⟨rfl, _, _, rfl, rfl, space, _, rfl, value, rfl, fit, stops⟩
        exact ⟨rfl, space, value, rfl, fit, stops⟩
      · rintro ⟨rfl, space, value, rfl, fit, stops⟩
        exact ⟨rfl, [.enter depth], _, rfl, rfl, space, _, rfl, value, rfl, fit, stops⟩

end IperfSwift.Output
