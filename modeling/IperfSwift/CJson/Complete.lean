import Mathlib.Data.List.TakeWhile
import IperfSwift.CJson.Tokens

/-!
Contract: cJSON parses every value of the JSON grammar, unless memory is refused.

Owns: the tree of a value; the blocks cJSON asks for while it builds that tree,
in order; and the theorem that parsing ends in that tree with those blocks, or
in a refusal after which nothing of it is live.

Whether a request is granted is arbitrary, so the theorem covers every heap.
-/

set_option autoImplicit false

namespace IperfSwift.CJson

open IperfSwift.Lib

variable {ν : Type}
variable {kind : Json.Kind} {α : Type} {byte : Byte} {input rest : List Byte} {blocks : List Nat}
  {room : Nat} {value : Json.Value}

/-! ### Trees and blocks -/

/-- The name under which a child stands, empty in an array. -/
def leadName : {kind : Json.Kind} → Json.Lead kind → List Byte
  | .array, _ => []
  | .object, key => (Json.Key.text key).decoded

/-- A container around named children. -/
def build : Json.Kind → List (List Byte × Node ν) → Node ν
  | .array, children => .array (children.map Prod.snd)
  | .object, children => .object children

mutual

def tree (convert : List Byte → ν) : Json.Value → Node ν
  | .literal .null => .null
  | .literal .true => .bool true
  | .literal .false => .bool false
  | .number number => .number (convert number.bytes)
  | .text text => .string text.decoded
  | .empty kind _ => build kind []
  | .container kind _ items => build kind (trees convert items)

def trees (convert : List Byte → ν) : {kind : Json.Kind} → Json.Items kind →
    List (List Byte × Node ν)
  | _, .last lead value _ => [(leadName lead, tree convert value)]
  | _, .cons lead value _ _ rest => (leadName lead, tree convert value) :: trees convert rest

end

theorem leadName_compact (lead : Json.Lead kind) : leadName lead.compact = leadName lead := by
  cases kind <;> rfl

mutual

/-- White space between tokens does not show in the tree. -/
theorem tree_compact (convert : List Byte → ν) : (value : Json.Value) →
    tree convert value.compact = tree convert value
  | .literal _ => rfl
  | .number _ => rfl
  | .text _ => rfl
  | .empty _ _ => rfl
  | .container kind _ items => congrArg (build kind) (trees_compact convert items)

theorem trees_compact (convert : List Byte → ν) : {kind : Json.Kind} → (items : Json.Items kind) →
    trees convert items.compact = trees convert items
  | _, .last lead value _ => by
      rw [Json.Items.compact, trees, trees, leadName_compact, tree_compact convert value]
  | _, .cons lead value _ _ rest => by
      rw [Json.Items.compact, trees, trees, leadName_compact, tree_compact convert value,
        trees_compact convert rest]

end

theorem trees_items (convert : List Byte → ν) (members : Json.Members) :
    trees convert members.items =
      members.toList.map fun member => (member.key.text.decoded, tree convert member.value) := by
  induction members with
  | last member => rfl
  | cons member next rest inductionHypothesis =>
      show (member.key.text.decoded, tree convert member.value) :: trees convert rest.items = _
      rw [inductionHypothesis]
      rfl

theorem tree_document (convert : List Byte → ν) (document : Json.Document) :
    tree convert document.value = .object (document.memberList.map fun member =>
      (member.key.text.decoded, tree convert member.value)) := by
  obtain ⟨before, inside, members, after⟩ := document
  cases members with
  | none => rfl
  | some members => exact congrArg Node.object (trees_items convert members)

/-- The size of the block for a string. -/
def stringSize (text : Json.Text) : Nat := text.body.length + 1 - escapeCount text + 1

def leadBlocks : {kind : Json.Kind} → Json.Lead kind → List Nat
  | .array, _ => []
  | .object, key => [stringSize (Json.Key.text key)]

mutual

/-- The requests for what hangs below a node that exists already. -/
def valueBlocks : Json.Value → List Nat
  | .literal _ => []
  | .number _ => []
  | .text text => [stringSize text]
  | .empty _ _ => []
  | .container _ _ items => itemsBlocks items

def itemsBlocks : {kind : Json.Kind} → Json.Items kind → List Nat
  | _, .last lead value _ => nodeSize :: (leadBlocks lead ++ valueBlocks value)
  | _, .cons lead value _ _ rest =>
      nodeSize :: (leadBlocks lead ++ (valueBlocks value ++ itemsBlocks rest))

end

/-! ### Sizes of the blocks -/

/-- A string takes no more than its token. -/
theorem stringSize_le (text : Json.Text) : stringSize text ≤ text.token.length := by
  simp only [stringSize, Json.Text.token, List.length_cons, List.length_append, List.length_nil]
  omega

theorem leadBlocks_sum (lead : Json.Lead kind) : (leadBlocks lead).sum ≤ lead.bytes.length := by
  cases kind with
  | array => exact Nat.zero_le _
  | object =>
      have split : (Json.Key.bytes lead).length = (Json.Key.text lead).token.length + _ :=
        List.length_append
      show stringSize (Json.Key.text lead) ≤ (Json.Key.bytes lead).length
      rw [split]
      exact (stringSize_le _).trans (Nat.le_add_right _ _)

mutual

/-- One node for each value, and no more for the strings than the text is long. -/
theorem valueBlocks_sum : (value : Json.Value) →
    nodeSize + (valueBlocks value).sum ≤ nodeSize * value.count + value.bytes.length
  | .literal _ => Nat.le_add_right _ _
  | .number _ => Nat.le_add_right _ _
  | .text text => by
      have size := stringSize_le text
      simp only [valueBlocks, Json.Value.count, Json.Value.bytes, List.sum_singleton]
      omega
  | .empty _ _ => Nat.le_add_right _ _
  | .container _ _ items => by
      have sum := itemsBlocks_sum items
      simp only [valueBlocks, Json.Value.count, Json.Value.bytes, List.length_cons,
        List.length_append, List.length_nil, Nat.mul_add]
      omega

theorem itemsBlocks_sum : {kind : Json.Kind} → (items : Json.Items kind) →
    (itemsBlocks items).sum ≤ nodeSize * items.count + items.bytes.length
  | _, .last lead value _ => by
      have leadSum := leadBlocks_sum lead
      have valueSum := valueBlocks_sum value
      simp only [itemsBlocks, Json.Items.count, Json.Items.bytes, List.sum_cons, List.sum_append,
        List.length_append]
      omega
  | _, .cons lead value _ _ rest => by
      have leadSum := leadBlocks_sum lead
      have valueSum := valueBlocks_sum value
      have restSum := itemsBlocks_sum rest
      simp only [itemsBlocks, Json.Items.count, Json.Items.bytes, List.sum_cons, List.sum_append,
        List.length_append, List.length_cons, Nat.mul_add]
      omega

end

theorem leadBlocks_le (lead : Json.Lead kind) :
    ∀ size ∈ leadBlocks lead, size ≤ lead.bytes.length := by
  cases kind with
  | array => exact fun _ impossible => absurd impossible List.not_mem_nil
  | object =>
      intro size found
      have sum := leadBlocks_sum lead
      rw [show size = _ from List.mem_singleton.mp found]
      exact sum

mutual

/-- Every block is a node or a string of the text. -/
theorem valueBlocks_le : (value : Json.Value) →
    ∀ size ∈ valueBlocks value, size = nodeSize ∨ size ≤ value.bytes.length
  | .literal _ => fun _ impossible => absurd impossible List.not_mem_nil
  | .number _ => fun _ impossible => absurd impossible List.not_mem_nil
  | .text text => fun size found => .inr (List.mem_singleton.mp found ▸ stringSize_le text)
  | .empty _ _ => fun _ impossible => absurd impossible List.not_mem_nil
  | .container _ _ items => fun size found => by
      refine (itemsBlocks_le items size found).imp_right fun small => small.trans ?_
      simp only [Json.Value.bytes, List.length_cons, List.length_append]
      omega

theorem itemsBlocks_le : {kind : Json.Kind} → (items : Json.Items kind) →
    ∀ size ∈ itemsBlocks items, size = nodeSize ∨ size ≤ items.bytes.length
  | _, .last lead value _ => fun size found => by
      simp only [itemsBlocks, List.mem_cons, List.mem_append] at found
      simp only [Json.Items.bytes, List.length_append]
      rcases found with isNode | inLead | inValue
      · exact .inl isNode
      · have small := leadBlocks_le lead size inLead
        omega
      · have small := valueBlocks_le value size inValue
        omega
  | _, .cons lead value _ _ rest => fun size found => by
      simp only [itemsBlocks, List.mem_cons, List.mem_append] at found
      simp only [Json.Items.bytes, List.length_append, List.length_cons]
      rcases found with isNode | inLead | inValue | inRest
      · exact .inl isNode
      · have small := leadBlocks_le lead size inLead
        omega
      · have small := valueBlocks_le value size inValue
        omega
      · have small := itemsBlocks_le rest size inRest
        omega

end

/-! ### Outcomes of a parse -/

/-- The parse ends with this result and these blocks, or in a refusal. -/
def Obtains {α : Type} (program : Program Heap (Option (Parsed α))) (value : α)
    (rest : List Byte) (blocks : List Nat) : Prop :=
  ∀ heap, program heap = (some ⟨value, rest, blocks⟩, heap.grant blocks) ∨
    ∃ after, program heap = (none, after) ∧ Heap.Refuses blocks [] heap after

/-- The same for a loop that has collected blocks before. -/
def Collects {α : Type} (program : Program Heap (Except (List Nat) (Parsed (List α))))
    (owned : List Nat) (values : List α) (rest : List Byte) (blocks : List Nat) : Prop :=
  ∀ heap, program heap = (.ok ⟨values, rest, owned ++ blocks⟩, heap.grant blocks) ∨
    ∃ kept after, program heap = (.error (owned ++ kept), after) ∧
      Heap.Refuses blocks kept heap after

theorem obtains_pure (value : α) (rest : List Byte) :
    Obtains (pure (some ⟨value, rest, []⟩)) value rest [] := by
  intro heap
  left
  rw [Heap.grant_nil]
  rfl

theorem release_apply (blocks : List Nat) (heap : Heap) :
    release blocks heap = ((), heap.releaseAll blocks) := by
  rw [← Heap.foldl_free]
  rfl

theorem obtains_string (text : Json.Text) (rest : List Byte) :
    Obtains (parseString (text.token ++ rest)) text.decoded rest [stringSize text] := by
  intro heap
  have scanned := scanString_text text rest
  have decoded := decodeString_text text (Nat.le_refl _)
  have shape : text.token ++ rest = ascii '"' :: (text.body ++ ascii '"' :: rest) := by
    simp [Json.Text.token]
  rw [shape]
  simp only [parseString, ne_eq, not_true_eq_false, if_false, scanned, decoded]
  rcases Heap.malloc_cases (stringSize text) heap with granted | ⟨after, refused, refuses⟩
  · left
    exact Program.bind_of_eq granted _
  · right
    exact ⟨after, Program.bind_of_eq refused _, refuses⟩

/-! ### White space -/

theorem skipWhitespace_space (space : Json.Space) (visible : Json.IsVisible byte)
    (rest : List Byte) : skipWhitespace (space.val ++ byte :: rest) = byte :: rest := by
  have blank : ∀ other ∈ space.val, decide (other.toNat ≤ 32) = true :=
    fun other member => decide_eq_true (space.property other member).le
  have seen : (space.val ++ byte :: rest).dropWhile (fun byte => byte.toNat ≤ 32) =
      byte :: rest := by
    rw [List.dropWhile_append_of_pos blank, List.dropWhile_cons,
      if_neg (by simpa using visible.1)]
  rw [skipWhitespace, seen]

theorem skipWhitespace_value (space : Json.Space) (value : Json.Value) (rest : List Byte) :
    skipWhitespace (space.val ++ (value.bytes ++ rest)) = value.bytes ++ rest := by
  obtain ⟨first, tail, bytes, visible, -⟩ := value.exists_first
  rw [bytes, List.cons_append]
  exact skipWhitespace_space space visible _

theorem closing_visible (kind : Json.Kind) : Json.IsVisible kind.closing := by
  cases kind <;> decide

/-! ### Values -/

/-- Nothing that `parse_number` would copy comes next. -/
def Ends (rest : List Byte) : Prop := ∀ byte ∈ rest.head?, isNumberByte byte = false

theorem ends_cons (stops : isNumberByte byte = false) (rest : List Byte) : Ends (byte :: rest) := by
  intro other found
  rw [← Option.mem_some_iff.mp found]
  exact stops

theorem ends_space (space : Json.Space) (stops : isNumberByte byte = false) (rest : List Byte) :
    Ends (space.val ++ byte :: rest) := by
  obtain ⟨bytes, isSpace⟩ := space
  cases bytes with
  | nil => exact ends_cons stops rest
  | cons first bytes =>
      refine ends_cons ?_ _
      rcases isSpace first (List.mem_cons_self ..) with rfl | rfl | rfl | rfl <;> decide

/-- One more item of an array: its node, its value, then the rest of the loop. -/
theorem collects_element {parseValue : List Byte → Program Heap (Option (Parsed (Node ν)))}
    {item : Node ν} (itemParsed : Obtains (parseValue (skipWhitespace input)) item rest blocks)
    (passes : Nat) (children : List (Node ν)) (owned : List Nat) {values : List (Node ν)}
    {later : List Nat} {left : List Byte} (goesOn : Collects (
      if (skipWhitespace rest).head? = some (ascii ',') then
        parseElements parseValue passes ((skipWhitespace rest).drop 1) (children ++ [item])
          (owned ++ nodeSize :: blocks)
      else if (skipWhitespace rest).head? = some (ascii ']') then
        pure (.ok ⟨children ++ [item], (skipWhitespace rest).drop 1, owned ++ nodeSize :: blocks⟩)
      else pure (.error (owned ++ nodeSize :: blocks))) (owned ++ nodeSize :: blocks) values left
      later) :
    Collects (parseElements parseValue (passes + 1) input children owned) owned values left
      (nodeSize :: (blocks ++ later)) := by
  intro heap
  rw [parseElements]
  rcases Heap.malloc_cases nodeSize heap with granted | ⟨after, refused, refuses⟩
  · rw [Program.bind_of_eq granted, if_pos rfl]
    rcases itemParsed (heap.grant [nodeSize]) with parsed | ⟨after, failed, refuses⟩
    · rw [Program.bind_of_eq parsed]
      have reached : (heap.grant [nodeSize]).grant blocks = heap.grant (nodeSize :: blocks) :=
        Heap.grant_grant _ _ _
      rw [reached]
      rcases goesOn (heap.grant (nodeSize :: blocks)) with done | ⟨kept, after, failed, refuses⟩
      · left
        rw [Heap.grant_grant, List.append_assoc] at done
        exact done
      · right
        rw [List.append_assoc] at failed
        exact ⟨nodeSize :: blocks ++ kept, after, failed, refuses.after_grant⟩
    · right
      rw [Program.bind_of_eq failed]
      refine ⟨[nodeSize], after, rfl, ?_⟩
      rw [← List.cons_append]
      exact refuses.after_grant.extend later
  · right
    rw [Program.bind_of_eq refused]
    refine ⟨[], after, ?_, refuses.extend (blocks ++ later)⟩
    rw [List.append_nil]
    rfl

/-- One more member of an object. -/
theorem collects_member {parseValue : List Byte → Program Heap (Option (Parsed (Node ν)))}
    {afterName : List Byte} {name : List Byte} {nameBlocks : List Nat} {item : Node ν}
    (nameParsed : Obtains (parseString (skipWhitespace input)) name afterName nameBlocks)
    (colon : (skipWhitespace afterName).head? = some (ascii ':'))
    (itemParsed : Obtains (parseValue (skipWhitespace ((skipWhitespace afterName).drop 1))) item
      rest blocks) (passes : Nat) (members : List (List Byte × Node ν)) (owned : List Nat)
    {values : List (List Byte × Node ν)} {later : List Nat} {left : List Byte}
    (goesOn : Collects (
      if (skipWhitespace rest).head? = some (ascii ',') then
        parseMembers parseValue passes ((skipWhitespace rest).drop 1) (members ++ [(name, item)])
          (owned ++ nodeSize :: nameBlocks ++ blocks)
      else if (skipWhitespace rest).head? = some (ascii '}') then
        pure (.ok ⟨members ++ [(name, item)], (skipWhitespace rest).drop 1,
          owned ++ nodeSize :: nameBlocks ++ blocks⟩)
      else pure (.error (owned ++ nodeSize :: nameBlocks ++ blocks)))
    (owned ++ nodeSize :: nameBlocks ++ blocks) values left later) :
    Collects (parseMembers parseValue (passes + 1) input members owned) owned values left
      (nodeSize :: (nameBlocks ++ (blocks ++ later))) := by
  intro heap
  rw [parseMembers]
  rcases Heap.malloc_cases nodeSize heap with granted | ⟨after, refused, refuses⟩
  · rw [Program.bind_of_eq granted, if_pos rfl]
    rcases nameParsed (heap.grant [nodeSize]) with parsed | ⟨after, failed, refuses⟩
    · rw [Program.bind_of_eq parsed]
      have named : (heap.grant [nodeSize]).grant nameBlocks =
          heap.grant (nodeSize :: nameBlocks) := Heap.grant_grant _ _ _
      rw [named]
      simp only [if_pos colon]
      rcases itemParsed (heap.grant (nodeSize :: nameBlocks)) with
        parsedItem | ⟨after, failed, refuses⟩
      · rw [Program.bind_of_eq parsedItem, Heap.grant_grant]
        rcases goesOn (heap.grant (nodeSize :: nameBlocks ++ blocks)) with
          done | ⟨kept, after, failed, refuses⟩
        · left
          rw [Heap.grant_grant] at done
          simpa using done
        · right
          refine ⟨nodeSize :: (nameBlocks ++ blocks) ++ kept, after, ?_, ?_⟩
          · simpa using failed
          · simpa using refuses.after_grant
      · right
        rw [Program.bind_of_eq failed]
        refine ⟨nodeSize :: nameBlocks, after, rfl, ?_⟩
        simpa using refuses.after_grant.extend later
    · right
      rw [Program.bind_of_eq failed]
      refine ⟨[nodeSize], after, rfl, ?_⟩
      simpa using refuses.after_grant.extend (blocks ++ later)
  · right
    rw [Program.bind_of_eq refused]
    refine ⟨[], after, ?_, refuses.extend (nameBlocks ++ (blocks ++ later))⟩
    rw [List.append_nil]
    rfl

/-- The loop over the items of a container builds their trees. -/
def ItemsCollected (convert : List Byte → ν) (room : Nat) : {kind : Json.Kind} →
    Json.Items kind → Prop
  | .array, items => ∀ (gap : Json.Space) (rest : List Byte) (passes : Nat)
      (children : List (Node ν)) (owned : List Nat), items.bytes.length ≤ passes →
      Collects (parseElements (parseValue convert room) passes
        (gap.val ++ (items.bytes ++ ascii ']' :: rest)) children owned) owned
        (children ++ (trees convert items).map Prod.snd) rest (itemsBlocks items)
  | .object, items => ∀ (gap : Json.Space) (rest : List Byte) (passes : Nat)
      (members : List (List Byte × Node ν)) (owned : List Nat), items.bytes.length ≤ passes →
      Collects (parseMembers (parseValue convert room) passes
        (gap.val ++ (items.bytes ++ ascii '}' :: rest)) members owned) owned
        (members ++ trees convert items) rest (itemsBlocks items)

theorem collects_pure (values : List α) (rest : List Byte) (owned : List Nat) :
    Collects (pure (.ok ⟨values, rest, owned⟩)) owned values rest [] := by
  intro heap
  left
  rw [Heap.grant_nil, List.append_nil]
  rfl

theorem passes_pos (items : Json.Items kind) {passes : Nat} (enough : items.bytes.length ≤ passes) :
    ∃ left, passes = left + 1 := by
  obtain ⟨first, tail, bytes, -⟩ := items.exists_first
  rw [bytes] at enough
  exact Nat.exists_eq_succ_of_ne_zero (Nat.ne_zero_of_lt enough)

/-- What the parser of a value is known to do with one value. -/
def ValueParsed (convert : List Byte → ν) (room : Nat) (value : Json.Value) : Prop :=
  ∀ rest, Ends rest → Obtains (parseValue convert room (value.bytes ++ rest)) (tree convert value)
    rest (valueBlocks value)

theorem ValueParsed.spaced {convert : List Byte → ν} (parsed : ValueParsed convert room value)
    (gap : Json.Space) (ends : Ends rest) :
    Obtains (parseValue convert room (skipWhitespace (gap.val ++ (value.bytes ++ rest))))
      (tree convert value) rest (valueBlocks value) := by
  rw [skipWhitespace_value]
  exact parsed rest ends

/-- A name with the colon behind it. -/
theorem name_spaced (gap : Json.Space) (key : Json.Key) (rest : List Byte) :
    Obtains (parseString (skipWhitespace (gap.val ++ (key.bytes ++ rest)))) key.text.decoded
      (key.after.val ++ ascii ':' :: (key.beforeValue.val ++ rest)) [stringSize key.text] := by
  have shape : gap.val ++ (key.bytes ++ rest) = gap.val ++ ascii '"' :: (key.text.body ++
      ascii '"' :: (key.after.val ++ ascii ':' :: (key.beforeValue.val ++ rest))) := by
    simp [Json.Key.bytes, Json.Text.token]
  have token : ascii '"' :: (key.text.body ++ ascii '"' :: (key.after.val ++ ascii ':' ::
      (key.beforeValue.val ++ rest))) = key.text.token ++ (key.after.val ++ ascii ':' ::
        (key.beforeValue.val ++ rest)) := by
    simp [Json.Text.token]
  rw [shape, skipWhitespace_space gap (by decide), token]
  exact obtains_string key.text _

theorem itemsCollected_last (convert : List Byte → ν) (lead : Json.Lead kind) (after : Json.Space)
    (parsed : ValueParsed convert room value) :
    ItemsCollected convert room (.last lead value after) := by
  cases kind with
  | array =>
      intro gap rest passes children owned enough
      obtain ⟨passes, rfl⟩ := passes_pos _ enough
      have closed := skipWhitespace_space after (by decide : Json.IsVisible (ascii ']')) rest
      have item := parsed.spaced gap (ends_space after (by decide : isNumberByte (ascii ']') = false)
        rest)
      have step := collects_element item passes children owned (by
        rw [closed]
        exact collects_pure _ _ _)
      simpa [Json.Items.bytes, Json.Lead.bytes, trees, itemsBlocks, leadBlocks] using step
  | object =>
      intro gap rest passes members owned enough
      obtain ⟨passes, rfl⟩ := passes_pos _ enough
      have closed := skipWhitespace_space after (by decide : Json.IsVisible (ascii '}')) rest
      have ends := ends_space after (by decide : isNumberByte (ascii '}') = false) rest
      have name := name_spaced gap lead (value.bytes ++ (after.val ++ ascii '}' :: rest))
      have colon := skipWhitespace_space (Json.Key.after lead) (by decide : Json.IsVisible (ascii ':'))
        ((Json.Key.beforeValue lead).val ++ (value.bytes ++ (after.val ++ ascii '}' :: rest)))
      have step := collects_member name (by rw [colon]; rfl)
        (by rw [colon]; exact parsed.spaced (Json.Key.beforeValue lead) ends) passes members owned
        (by
          rw [closed]
          exact collects_pure _ _ _)
      simpa [Json.Items.bytes, Json.Lead.bytes, trees, itemsBlocks, leadBlocks, leadName] using step

theorem itemsCollected_cons (convert : List Byte → ν) (lead : Json.Lead kind)
    (after next : Json.Space) {items : Json.Items kind} (parsed : ValueParsed convert room value)
    (collected : ItemsCollected convert room items) :
    ItemsCollected convert room (.cons lead value after next items) := by
  have shorter : ∀ {passes}, (Json.Items.cons lead value after next items).bytes.length ≤ passes + 1 →
      items.bytes.length ≤ passes := by
    intro passes enough
    simp only [Json.Items.bytes, List.length_append, List.length_cons] at enough
    omega
  cases kind with
  | array =>
      intro gap rest passes children owned enough
      obtain ⟨passes, rfl⟩ := passes_pos _ enough
      have comma := skipWhitespace_space after (by decide : Json.IsVisible (ascii ','))
        (next.val ++ (items.bytes ++ ascii ']' :: rest))
      have item := parsed.spaced gap (ends_space after (by decide : isNumberByte (ascii ',') = false)
        (next.val ++ (items.bytes ++ ascii ']' :: rest)))
      have step := collects_element item passes children owned (by
        rw [comma]
        exact collected next rest passes _ _ (shorter enough))
      simpa [Json.Items.bytes, Json.Lead.bytes, trees, itemsBlocks, leadBlocks] using step
  | object =>
      intro gap rest passes members owned enough
      obtain ⟨passes, rfl⟩ := passes_pos _ enough
      have comma := skipWhitespace_space after (by decide : Json.IsVisible (ascii ','))
        (next.val ++ (items.bytes ++ ascii '}' :: rest))
      have ends := ends_space after (by decide : isNumberByte (ascii ',') = false)
        (next.val ++ (items.bytes ++ ascii '}' :: rest))
      have name := name_spaced gap lead (value.bytes ++ (after.val ++ ascii ',' ::
        (next.val ++ (items.bytes ++ ascii '}' :: rest))))
      have colon := skipWhitespace_space (Json.Key.after lead) (by decide : Json.IsVisible (ascii ':'))
        ((Json.Key.beforeValue lead).val ++ (value.bytes ++ (after.val ++ ascii ',' ::
          (next.val ++ (items.bytes ++ ascii '}' :: rest)))))
      have step := collects_member name (by rw [colon]; rfl)
        (by rw [colon]; exact parsed.spaced (Json.Key.beforeValue lead) ends) passes members owned
        (by
          rw [comma]
          exact collected next rest passes _ _ (shorter enough))
      simpa [Json.Items.bytes, Json.Lead.bytes, trees, itemsBlocks, leadBlocks, leadName] using step

theorem take_ne {word : List Byte} {first other : Byte} (head : input.head? = some first)
    (starts : word.head? = some other) (differs : first ≠ other) (count : Nat) :
    input.take count ≠ word := by
  intro same
  cases count with
  | zero =>
      rw [← same] at starts
      cases starts
  | succ count =>
      have taken : (input.take (count + 1)).head? = some first := by
        rw [List.head?_take, if_neg (Nat.succ_ne_zero count), head]
      rw [same, starts] at taken
      exact differs (Option.some.inj taken).symm

/-- The branches of `parse_value` behind the three literals. -/
theorem parseValue_other (convert : List Byte → ν) (room : Nat) {first : Byte}
    (head : input.head? = some first)
    (other : first ≠ ascii 'n' ∧ first ≠ ascii 'f' ∧ first ≠ ascii 't') :
    parseValue convert room input =
      if first = ascii '"' then do
        match ← parseString input with
        | none => pure none
        | some parsed => pure (some ⟨.string parsed.value, parsed.rest, parsed.owned⟩)
      else if first = ascii '-' ∨ Json.IsDigit first then
        match parseNumber convert input with
        | none => pure none
        | some (number, rest) => pure (some ⟨.number number, rest, []⟩)
      else
        match room with
        | 0 => pure none
        | room + 1 =>
            if first = ascii '[' then
              parseContainer (ascii ']') Node.array
                (fun inside => parseElements (parseValue convert room) inside.length inside [] [])
                input
            else if first = ascii '{' then
              parseContainer (ascii '}') Node.object
                (fun inside => parseMembers (parseValue convert room) inside.length inside [] [])
                input
            else pure none := by
  obtain ⟨notN, notF, notT⟩ := other
  have noNull : input.take 4 ≠ bytesOf "null" := take_ne head rfl notN 4
  have noFalse : input.take 5 ≠ bytesOf "false" := take_ne head rfl notF 5
  have noTrue : input.take 4 ≠ bytesOf "true" := take_ne head rfl notT 4
  have unfolded := parseValue.eq_def convert room input
  simp only [if_neg noNull, if_neg noFalse, if_neg noTrue, head] at unfolded
  exact unfolded

theorem valueParsed_literal (convert : List Byte → ν) (room : Nat) (literal : Json.Literal) :
    ValueParsed convert room (.literal literal) := by
  intro rest _
  rw [parseValue.eq_def]
  cases literal with
  | null => exact obtains_pure Node.null rest
  | true => exact obtains_pure (Node.bool true) rest
  | false => exact obtains_pure (Node.bool false) rest

theorem valueParsed_text (convert : List Byte → ν) (room : Nat) (text : Json.Text) :
    ValueParsed convert room (.text text) := by
  intro rest _ heap
  have head : ((Json.Value.text text).bytes ++ rest).head? = some (ascii '"') := rfl
  rw [parseValue_other convert room head (by decide), if_pos rfl]
  rcases obtains_string text rest heap with parsed | ⟨after, failed, refuses⟩
  · left
    exact Program.bind_of_eq parsed _
  · right
    exact ⟨after, Program.bind_of_eq failed _, refuses⟩

theorem valueParsed_number (convert : List Byte → ν) (room : Nat) {number : Json.Number}
    (fits : number.bytes.length ≤ numberBuffer) : ValueParsed convert room (.number number) := by
  intro rest ends
  obtain ⟨first, tail, bytes, start⟩ := number.exists_first
  have head : ((Json.Value.number number).bytes ++ rest).head? = some first := by
    rw [Json.Value.bytes, bytes]
    rfl
  have other : first ≠ ascii 'n' ∧ first ≠ ascii 'f' ∧ first ≠ ascii 't' ∧ first ≠ ascii '"' := by
    refine ⟨?_, ?_, ?_, ?_⟩ <;> rintro rfl <;> revert start <;> decide
  rw [parseValue_other convert room head ⟨other.1, other.2.1, other.2.2.1⟩, if_neg other.2.2.2,
    if_pos start, Json.Value.bytes, parseNumber_number convert fits ends]
  exact obtains_pure _ rest

theorem obtains_container {close : Byte} {wrap : List α → Node ν}
    {items : List Byte → Program Heap (Except (List Nat) (Parsed (List α)))} {values : List α}
    (notClosed : (skipWhitespace (input.drop 1)).head? ≠ some close)
    (nonempty : skipWhitespace (input.drop 1) ≠ [])
    (collected : Collects (items (skipWhitespace (input.drop 1))) [] values rest blocks) :
    Obtains (parseContainer close wrap items input) (wrap values) rest blocks := by
  intro heap
  unfold parseContainer
  simp only [if_neg notClosed, if_neg nonempty]
  rcases collected heap with done | ⟨kept, after, failed, refuses⟩
  · left
    exact Program.bind_of_eq done _
  · right
    refine ⟨after.releaseAll kept, ?_, refuses.release⟩
    rw [Program.bind_of_eq failed]
    exact Program.bind_of_eq (release_apply kept after) _

/-- `parse_value` at an opening bracket. -/
theorem parseValue_opening (convert : List Byte → ν) (room : Nat) (kind : Json.Kind)
    (inside : List Byte) : parseValue convert (room + 1) (kind.opening :: inside) =
      match kind with
      | .array => parseContainer (ascii ']') Node.array
          (fun inside => parseElements (parseValue convert room) inside.length inside [] [])
          (ascii '[' :: inside)
      | .object => parseContainer (ascii '}') Node.object
          (fun inside => parseMembers (parseValue convert room) inside.length inside [] [])
          (ascii '{' :: inside) := by
  cases kind with
  | array =>
      have head : (ascii '[' :: inside).head? = some (ascii '[') := rfl
      exact parseValue_other convert (room + 1) head (by decide)
  | object =>
      have head : (ascii '{' :: inside).head? = some (ascii '{') := rfl
      exact parseValue_other convert (room + 1) head (by decide)

theorem valueParsed_empty (convert : List Byte → ν) (room : Nat) (kind : Json.Kind)
    (space : Json.Space) : ValueParsed convert (room + 1) (.empty kind space) := by
  intro rest _
  have bytes : (Json.Value.empty kind space).bytes ++ rest =
      kind.opening :: (space.val ++ kind.closing :: rest) := by
    simp [Json.Value.bytes]
  have closed := skipWhitespace_space space (closing_visible kind) rest
  rw [bytes, parseValue_opening]
  cases kind with
  | array =>
      have head : (Json.Kind.array.closing :: rest).head? = some (ascii ']') := rfl
      simp only [parseContainer, List.drop_succ_cons, List.drop_zero]
      rw [closed, if_pos head]
      exact obtains_pure _ rest
  | object =>
      have head : (Json.Kind.object.closing :: rest).head? = some (ascii '}') := rfl
      simp only [parseContainer, List.drop_succ_cons, List.drop_zero]
      rw [closed, if_pos head]
      exact obtains_pure _ rest

theorem valueParsed_container (convert : List Byte → ν) (space : Json.Space)
    {items : Json.Items kind} (collected : ItemsCollected convert room items) :
    ValueParsed convert (room + 1) (.container kind space items) := by
  intro rest _
  have bytes : (Json.Value.container kind space items).bytes ++ rest =
      kind.opening :: (space.val ++ (items.bytes ++ kind.closing :: rest)) := by
    simp [Json.Value.bytes]
  obtain ⟨first, tail, start, visible, notClosing⟩ := items.exists_first
  have inside : skipWhitespace (space.val ++ (items.bytes ++ kind.closing :: rest)) =
      items.bytes ++ kind.closing :: rest := by
    rw [start, List.cons_append]
    exact skipWhitespace_space space visible _
  have notClosed : (items.bytes ++ kind.closing :: rest).head? ≠ some kind.closing := by
    rw [start]
    exact fun same => notClosing (Option.some.inj same)
  have nonempty : items.bytes ++ kind.closing :: rest ≠ [] := by
    rw [start]
    exact List.cons_ne_nil _ _
  have enough : items.bytes.length ≤ (items.bytes ++ kind.closing :: rest).length := by
    rw [List.length_append]
    exact Nat.le_add_right _ _
  rw [bytes, parseValue_opening]
  cases kind with
  | array | object =>
      refine obtains_container ?_ ?_ ?_ <;> rw [List.drop_one, List.tail_cons, inside]
      · exact notClosed
      · exact nonempty
      · exact collected Json.Space.none rest _ [] [] enough

mutual

/-- cJSON builds the tree of every value that is not nested too deeply and whose
numbers fit its buffer. -/
theorem valueParsed (convert : List Byte → ν) : (value : Json.Value) → (room : Nat) →
    value.depth ≤ room → (∀ number ∈ value.numbers, number.bytes.length ≤ numberBuffer) →
    ValueParsed convert room value
  | .literal literal, room, _, _ => valueParsed_literal convert room literal
  | .number number, room, _, fits =>
      valueParsed_number convert room (fits number (List.mem_singleton_self _))
  | .text text, room, _, _ => valueParsed_text convert room text
  | .empty kind space, room + 1, _, _ => valueParsed_empty convert room kind space
  | .container kind space items, 0, shallow, _ =>
      absurd (Json.Value.depth_pos _) (Nat.not_lt.mpr shallow)
  | .container kind space items, room + 1, shallow, fits =>
      valueParsed_container convert space
        (itemsCollected convert items room (by rw [Json.Value.depth] at shallow; omega) fits)

theorem itemsCollected (convert : List Byte → ν) : {kind : Json.Kind} →
    (items : Json.Items kind) → (room : Nat) → items.depth ≤ room →
    (∀ number ∈ items.numbers, number.bytes.length ≤ numberBuffer) →
    ItemsCollected convert room items
  | _, .last lead value after, room, shallow, fits =>
      itemsCollected_last convert lead after (valueParsed convert value room shallow fits)
  | _, .cons lead value after next rest, room, shallow, fits =>
      itemsCollected_cons convert lead after next
        (valueParsed convert value room ((le_max_left _ _).trans shallow)
          fun number member => fits number (List.mem_append_left _ member))
        (itemsCollected convert rest room ((le_max_right _ _).trans shallow)
          fun number member => fits number (List.mem_append_right _ member))

end

/-! ### Whole texts -/

theorem ends_blank (blank : Json.IsSpace byte ∨ byte = 0) (rest : List Byte) :
    Ends (byte :: rest) := by
  refine ends_cons ?_ rest
  rcases blank with (rfl | rfl | rfl | rfl) | rfl <;> decide

theorem ends_blanks (space : Json.Space) : Ends space.val := by
  obtain ⟨bytes, isSpace⟩ := space
  cases bytes with
  | nil => exact fun _ impossible => nomatch impossible
  | cons first bytes => exact ends_blank (.inl (isSpace first (List.mem_cons_self ..))) _

theorem ends_terminated (space : Json.Space) : Ends (space.val ++ [0]) := by
  obtain ⟨bytes, isSpace⟩ := space
  cases bytes with
  | nil => exact ends_blank (.inr rfl) []
  | cons first bytes => exact ends_blank (.inl (isSpace first (List.mem_cons_self ..))) _

/-- White space up to the terminator leaves the parser at the terminator. -/
theorem skipWhitespace_terminated (space : Json.Space) : skipWhitespace (space.val ++ [0]) = [0] := by
  have blank : ∀ other ∈ space.val ++ [0], decide (other.toNat ≤ 32) = true := by
    intro other member
    rcases List.mem_append.mp member with inSpace | isLast
    · exact decide_eq_true (space.property other inSpace).le
    · rw [List.mem_singleton.mp isLast]
      decide
  have nothing : (space.val ++ [0]).dropWhile (fun byte : Byte => byte.toNat ≤ 32) = [] :=
    List.dropWhile_eq_nil_iff.mpr blank
  have length : (space.val ++ [(0 : Byte)]).length - 1 = space.val.length := by
    rw [List.length_append]
    exact Nat.add_sub_cancel _ _
  rw [skipWhitespace, nothing]
  dsimp only
  rw [length]
  exact List.drop_left

/-- Neither white space nor a value starts with the bytes of a byte order mark. -/
theorem skipUtf8Bom_text (space : Json.Space) (value : Json.Value) (rest : List Byte) :
    skipUtf8Bom (space.val ++ (value.bytes ++ rest)) = space.val ++ (value.bytes ++ rest) := by
  have start : ∃ first tail, space.val ++ (value.bytes ++ rest) = first :: tail ∧
      first.toNat < 0x80 := by
    obtain ⟨bytes, isSpace⟩ := space
    cases bytes with
    | nil =>
        obtain ⟨first, tail, spelled, visible, -⟩ := value.exists_first
        exact ⟨first, tail ++ rest, by rw [spelled]; rfl, visible.2⟩
    | cons first bytes =>
        exact ⟨first, _, rfl,
          Nat.lt_of_le_of_lt (isSpace first (List.mem_cons_self ..)).le (by decide)⟩
  obtain ⟨first, tail, shape, small⟩ := start
  have noMark : (first :: tail).take 3 ≠ [0xef, 0xbb, 0xbf] := by
    intro same
    obtain ⟨rfl, -⟩ := List.cons.inj same
    exact absurd small (by decide)
  rw [shape, skipUtf8Bom, if_neg fun both => noMark both.2]

/-- A value is read whatever follows it, unless a terminator is asked for. -/
theorem cJSONParseWithLengthOpts_value (convert : List Byte → ν) (before : Json.Space)
    (ends : Ends rest) (shallow : value.depth ≤ nestingLimit)
    (fits : ∀ number ∈ value.numbers, number.bytes.length ≤ numberBuffer)
    {requireNullTerminated : Bool}
    (terminated : requireNullTerminated = true → (skipWhitespace rest).head? = some 0) :
    Obtains (cJSONParseWithLengthOpts convert (before.val ++ (value.bytes ++ rest))
      requireNullTerminated) (tree convert value) rest (nodeSize :: valueBlocks value) := by
  intro heap
  have nonempty : before.val ++ (value.bytes ++ rest) ≠ [] := by
    obtain ⟨first, tail, bytes, -⟩ := value.exists_first
    simp [bytes]
  have accepted : ¬ (requireNullTerminated = true ∧ (skipWhitespace rest).head? ≠ some 0) :=
    fun both => both.2 (terminated both.1)
  have parsed := valueParsed convert value nestingLimit shallow fits rest ends
  rw [cJSONParseWithLengthOpts, if_neg nonempty, skipUtf8Bom_text, skipWhitespace_value]
  rcases Heap.malloc_cases nodeSize heap with granted | ⟨refusing, refused, refuses⟩
  · rw [Program.bind_of_eq granted, if_pos rfl]
    rcases parsed (heap.grant [nodeSize]) with done | ⟨refusing, failed, refuses⟩
    · left
      rw [Program.bind_of_eq done, Heap.grant_grant]
      simp only [if_neg accepted]
      rfl
    · right
      refine ⟨refusing.releaseAll [nodeSize], ?_, refuses.after_grant.release⟩
      rw [Program.bind_of_eq failed]
      exact Program.bind_of_eq (release_apply [nodeSize] refusing) _
  · right
    exact ⟨refusing, Program.bind_of_eq refused _, refuses.extend (valueBlocks value)⟩

/-- A value alone in a terminated text. -/
theorem cJSONParseWithLengthOpts_text (convert : List Byte → ν) (before after : Json.Space)
    (shallow : value.depth ≤ nestingLimit)
    (fits : ∀ number ∈ value.numbers, number.bytes.length ≤ numberBuffer)
    (requireNullTerminated : Bool) :
    Obtains (cJSONParseWithLengthOpts convert
      (before.val ++ (value.bytes ++ (after.val ++ [0]))) requireNullTerminated)
      (tree convert value) (after.val ++ [0]) (nodeSize :: valueBlocks value) := by
  refine cJSONParseWithLengthOpts_value convert before (ends_terminated after) shallow fits
    fun _ => ?_
  rw [skipWhitespace_terminated]
  rfl

end IperfSwift.CJson
