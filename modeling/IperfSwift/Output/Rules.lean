import IperfSwift.Output.Scanner

/-!
Contract: one proof rule for the whole scanner.

Owns: the primitives the scanner is built from, and the theorem that two
scanners whose primitives correspond step for step correspond as a whole, for
good or until both are stopped. Two runs over different sources and one run
with an invariant are both instances.

Does not own: any particular relation.
-/

set_option autoImplicit false

namespace IperfSwift.Output

open IperfSwift.Lib
open IperfSwift.Lib.Program

variable {σ σ' α τ : Type}
variable {parser : Parser σ}

theorem lift_andThen (first next : Program ScanState Bool) :
    (lift (andThen first next) : Program (Parser σ) Bool) = andThen (lift first) (lift next) := by
  funext parser
  by_cases succeeded : (first parser.scan).1 = true
  · rw [andThen_of_true (by exact succeeded)]
    simp [lift, andThen_of_true succeeded]
  · simp [lift, andThen, succeeded]

/-- A coupling of parsers that every primitive of the scanner keeps. -/
structure Primitives (coupling : Coupling (Parser σ) (Parser σ')) (source : Source σ)
    (source' : Source σ') : Prop where
  peek : Coupled coupling (peek source) (peek source')
  take : Coupled coupling (take source) (take source')
  spacePass : Coupled coupling (spacePass source) (spacePass source')
  left : ∀ parser parser', coupling.relation parser parser' →
    source.left parser.input = source'.left parser'.input
  error : ∀ parser parser', coupling.relation parser parser' → parser.scan.error = parser'.scan.error
  key : ∀ parser parser', coupling.relation parser parser' → parser.scan.key = parser'.scan.key
  refuse : Coupled coupling (lift (fail EPROTO)) (lift (fail EPROTO))
  emit : ∀ byte, Coupled coupling (lift (emit byte)) (lift (emit byte))
  decodedScalar : ∀ destination scalar,
    Coupled coupling (lift (decodedScalar destination scalar))
      (lift (decodedScalar destination scalar))
  enterValue : ∀ depth ≤ resultMaxDepth,
    Coupled coupling (lift (enterValue depth)) (lift (enterValue depth))
  beginOutput : ∀ format, Coupled coupling (lift (beginOutput format)) (lift (beginOutput format))
  wrongType : Coupled coupling (lift (update wrongType)) (lift (update wrongType))
  setCapture : ∀ capture, Coupled coupling (setCapture capture) (setCapture capture)
  clearKey : Coupled coupling clearKey clearKey

namespace Primitives

variable {coupling : Coupling (Parser σ) (Parser σ')} {source : Source σ} {source' : Source σ'}
  (primitives : Primitives coupling source source')
variable {item : Program (Parser σ) Bool} {item' : Program (Parser σ') Bool}

include primitives

theorem coupled_errorNow : Coupled coupling errorNow errorNow where
  keeps := fun _ stopped => stopped
  keeps' := fun _ stopped => stopped
  step := fun parser parser' related =>
    .inl ⟨primitives.error parser parser' related, related⟩

theorem coupled_keyNow : Coupled coupling keyNow keyNow where
  keeps := fun _ stopped => stopped
  keeps' := fun _ stopped => stopped
  step := fun parser parser' related => .inl ⟨primitives.key parser parser' related, related⟩

theorem coupled_scanLoop {body : τ → Program (Parser σ) (Step τ α)}
    {body' : τ → Program (Parser σ') (Step τ α)}
    (bodyCoupled : ∀ carried, Coupled coupling (body carried) (body' carried)) (spent : α)
    (carried : τ) :
    Coupled coupling (scanLoop source body spent carried)
      (scanLoop source' body' spent carried) where
  keeps := fun _ stopped => (coupled_loop bodyCoupled spent _ carried).keeps _ stopped
  keeps' := fun _ stopped => (coupled_loop bodyCoupled spent _ carried).keeps' _ stopped
  step := by
    intro parser parser' related
    simp only [scanLoop, primitives.left parser parser' related]
    exact (coupled_loop bodyCoupled spent _ carried).step parser parser' related

theorem coupled_whitespace : Coupled coupling (whitespace source) (whitespace source') :=
  primitives.coupled_scanLoop (fun _ => primitives.spacePass) _ _

theorem coupled_expect (expected : Byte) :
    Coupled coupling (expect source expected) (expect source' expected) :=
  coupled_bind primitives.take fun _ => coupled_ite (coupled_pure _) primitives.refuse

theorem coupled_emitAll (bytes : List Byte) :
    Coupled coupling (lift (emitAll bytes)) (lift (emitAll bytes)) := by
  induction bytes with
  | nil => exact coupled_pure true
  | cons byte rest inductionHypothesis =>
      simp only [emitAll, lift_andThen]
      exact coupled_andThen (primitives.emit byte) inductionHypothesis

/-! ### Strings -/

theorem coupled_noScalar : Coupled coupling noScalar noScalar :=
  coupled_bind primitives.refuse fun _ => coupled_pure _

theorem coupled_hexDigits (count result : Nat) :
    Coupled coupling (hexDigits source count result) (hexDigits source' count result) := by
  induction count generalizing result with
  | zero => exact coupled_pure _
  | succ count inductionHypothesis =>
      refine coupled_bind primitives.take fun found => ?_
      cases found.bind Json.hexValue with
      | none => exact primitives.coupled_noScalar
      | some digit => exact inductionHypothesis _

theorem coupled_unicodeEscape :
    Coupled coupling (unicodeEscape source) (unicodeEscape source') := by
  refine coupled_bind (primitives.coupled_hexDigits 4 0) fun first => ?_
  cases first with
  | none => exact coupled_pure _
  | some scalar =>
      refine coupled_ite ?_ (coupled_ite primitives.coupled_noScalar (coupled_pure _))
      refine coupled_bind
        (coupled_andThen (primitives.coupled_expect _) (primitives.coupled_expect _)) fun _ => ?_
      refine coupled_ite (coupled_bind (primitives.coupled_hexDigits 4 0) fun second => ?_)
        (coupled_pure _)
      cases second with
      | none => exact coupled_pure _
      | some low => exact coupled_ite primitives.coupled_noScalar (coupled_pure _)

theorem coupled_escapeSequence :
    Coupled coupling (escapeSequence source) (escapeSequence source') := by
  refine coupled_bind primitives.take fun found => ?_
  cases found with
  | none => exact primitives.coupled_noScalar
  | some letter =>
      iterate 6 refine coupled_ite (coupled_pure _) ?_
      exact coupled_ite primitives.coupled_unicodeEscape primitives.coupled_noScalar

theorem coupled_tailBytes (following scalar : Nat) :
    Coupled coupling (tailBytes source following scalar)
      (tailBytes source' following scalar) := by
  induction following generalizing scalar with
  | zero => exact coupled_pure _
  | succ following inductionHypothesis =>
      refine coupled_bind primitives.take fun found => ?_
      cases found with
      | none => exact primitives.coupled_noScalar
      | some byte => exact coupled_ite (inductionHypothesis _) primitives.coupled_noScalar

theorem coupled_multibyte (first : Byte) :
    Coupled coupling (multibyte source first) (multibyte source' first) := by
  unfold multibyte
  cases Utf8.lead first with
  | none => exact primitives.coupled_noScalar
  | some lead =>
      refine coupled_bind (primitives.coupled_tailBytes _ _) fun found => ?_
      cases found with
      | none => exact coupled_pure _
      | some scalar => exact coupled_ite (coupled_pure _) primitives.coupled_noScalar

theorem coupled_scalarFrom (first : Byte) :
    Coupled coupling (scalarFrom source first) (scalarFrom source' first) :=
  coupled_ite primitives.coupled_escapeSequence
    (coupled_ite (coupled_pure _) (primitives.coupled_multibyte first))

theorem coupled_stringPass (destination : Option Decoded) :
    Coupled coupling (stringPass source destination) (stringPass source' destination) := by
  refine coupled_bind primitives.coupled_errorNow fun _ => coupled_ite (coupled_pure _) ?_
  refine coupled_bind primitives.take fun found => ?_
  cases found with
  | none => exact coupled_bind primitives.refuse fun _ => coupled_pure _
  | some byte =>
      refine coupled_ite (coupled_pure _)
        (coupled_ite (coupled_bind primitives.refuse fun _ => coupled_pure _) ?_)
      refine coupled_bind (primitives.coupled_scalarFrom byte) fun scalar => ?_
      cases scalar with
      | none => exact coupled_pure _
      | some scalar =>
          exact coupled_bind (primitives.decodedScalar _ _) fun _ => coupled_pure _

theorem coupled_string (destination : Option Decoded) :
    Coupled coupling (string source destination) (string source' destination) :=
  coupled_andThen (primitives.coupled_expect _)
    (primitives.coupled_scanLoop (fun _ => primitives.coupled_stringPass destination) _ _)

/-! ### Numbers -/

theorem coupled_atDigit : Coupled coupling (atDigit source) (atDigit source') := by
  refine coupled_bind primitives.peek fun found => ?_
  cases found <;> exact coupled_pure _

theorem coupled_digits (count : Nat) :
    Coupled coupling (digits source count) (digits source' count) := by
  refine coupled_loop (fun count => ?_) _ _ _
  refine coupled_bind primitives.take fun _ => coupled_ite ?_ ?_
  · exact coupled_bind primitives.refuse fun _ => coupled_pure _
  · exact coupled_bind primitives.coupled_atDigit fun _ => coupled_pure _

theorem coupled_optionalByte (wanted : List Byte) (count : Nat) :
    Coupled coupling (optionalByte source wanted count) (optionalByte source' wanted count) := by
  refine coupled_bind primitives.peek fun found => ?_
  cases found with
  | none => exact coupled_pure _
  | some byte =>
      exact coupled_ite (coupled_bind primitives.take fun _ => coupled_pure _) (coupled_pure _)

theorem coupled_requiredDigits (count : Nat) :
    Coupled coupling (requiredDigits source count) (requiredDigits source' count) :=
  coupled_bind primitives.coupled_atDigit fun _ =>
    coupled_ite (primitives.coupled_digits count) primitives.coupled_noScalar

theorem coupled_wholeDigits (count : Nat) :
    Coupled coupling (wholeDigits source count) (wholeDigits source' count) :=
  coupled_bind (primitives.coupled_optionalByte _ _) fun _ =>
    coupled_ite (coupled_pure _) (primitives.coupled_requiredDigits count)

theorem coupled_optionalPart (wanted sign : List Byte) (count : Nat) :
    Coupled coupling (optionalPart source wanted sign count)
      (optionalPart source' wanted sign count) :=
  coupled_bind (primitives.coupled_optionalByte _ _) fun _ =>
    coupled_ite (coupled_bind (primitives.coupled_optionalByte _ _) fun _ =>
      primitives.coupled_requiredDigits _) (coupled_pure _)

theorem coupled_number : Coupled coupling (number source) (number source') := by
  refine coupled_bind (primitives.coupled_optionalByte _ _) fun _ => ?_
  refine coupled_bind (primitives.coupled_wholeDigits _) fun whole => ?_
  cases whole with
  | none => exact coupled_pure _
  | some count =>
      refine coupled_bind (primitives.coupled_optionalPart _ _ _) fun fraction => ?_
      cases fraction with
      | none => exact coupled_pure _
      | some count =>
          refine coupled_bind (primitives.coupled_optionalPart _ _ _) fun exponent => ?_
          cases exponent with
          | none => exact coupled_pure _
          | some _ => exact coupled_bind primitives.coupled_errorNow fun _ => coupled_pure _

/-! ### Values -/

theorem coupled_literal (bytes : List Byte) :
    Coupled coupling (literal source bytes) (literal source' bytes) := by
  induction bytes with
  | nil => exact coupled_pure _
  | cons byte rest inductionHypothesis =>
      exact coupled_andThen (primitives.coupled_expect byte) inductionHypothesis

theorem coupled_memberKey : Coupled coupling (memberKey source) (memberKey source') :=
  coupled_andThen (primitives.coupled_string _)
    (coupled_bind primitives.coupled_whitespace fun _ => primitives.coupled_expect _)

theorem coupled_itemPass (kind : Json.Kind) (itemCoupled : Coupled coupling item item') :
    Coupled coupling (itemPass source kind item) (itemPass source' kind item') := by
  have keyedCoupled : Coupled coupling (keyedItem source kind item)
      (keyedItem source' kind item') := by
    cases kind with
    | array => exact itemCoupled
    | object => exact coupled_andThen primitives.coupled_memberKey itemCoupled
  refine coupled_bind keyedCoupled fun _ => coupled_ite ?_ (coupled_pure _)
  refine coupled_bind primitives.coupled_whitespace fun _ => ?_
  refine coupled_bind primitives.peek fun _ => coupled_ite ?_ ?_
  · exact coupled_bind (primitives.coupled_expect _) fun _ => coupled_pure _
  · exact coupled_bind (primitives.coupled_expect _) fun _ =>
      coupled_ite (coupled_bind primitives.coupled_whitespace fun _ => coupled_pure _)
        (coupled_pure _)

theorem coupled_container (kind : Json.Kind) (itemCoupled : Coupled coupling item item') :
    Coupled coupling (container source kind item) (container source' kind item') := by
  refine coupled_bind primitives.take fun _ => ?_
  refine coupled_bind primitives.coupled_whitespace fun _ => ?_
  refine coupled_bind primitives.peek fun _ => coupled_ite (primitives.coupled_expect _) ?_
  exact primitives.coupled_scanLoop (fun _ => primitives.coupled_itemPass kind itemCoupled) _ _

/-- `value` behind its head, with any program for the values inside. -/
theorem coupled_valueBody (destination : Option Decoded)
    (itemCoupled : Coupled coupling item item') :
    Coupled coupling (valueBody source item destination) (valueBody source' item' destination) := by
  refine coupled_bind primitives.coupled_whitespace fun _ => ?_
  refine coupled_bind primitives.peek fun found => ?_
  cases found with
  | none => exact primitives.refuse
  | some first =>
      refine coupled_ite (primitives.coupled_string _) ?_
      refine coupled_ite primitives.coupled_number ?_
      iterate 3 refine coupled_ite (primitives.coupled_literal _) ?_
      iterate 2 refine coupled_ite (primitives.coupled_container _ itemCoupled) ?_
      exact primitives.refuse

theorem coupled_value (tooDeep : Coupled coupling (lift (fail EFBIG)) (lift (fail EFBIG)))
    (room : Nat) (destination : Option Decoded) :
    Coupled coupling (value source room destination) (value source' room destination) := by
  induction room generalizing destination with
  | zero => exact tooDeep
  | succ room inductionHypothesis =>
      exact coupled_andThen (primitives.enterValue _ (Nat.sub_le _ _))
        (primitives.coupled_valueBody destination (inductionHypothesis none))

/-! ### The root object -/

variable (valueCoupled : ∀ destination, Coupled coupling
  (value source resultMaxDepth destination) (value source' resultMaxDepth destination))

include valueCoupled

theorem coupled_outputMember (json : Bool) :
    Coupled coupling (outputMember source json) (outputMember source' json) := by
  refine coupled_andThen (primitives.beginOutput _) ?_
  refine coupled_bind primitives.peek fun _ => coupled_ite ?_ ?_
  · exact coupled_bind (primitives.setCapture _) fun _ => valueCoupled _
  · exact coupled_bind primitives.wrongType fun _ =>
      coupled_bind (primitives.setCapture _) fun _ => valueCoupled _

theorem coupled_coreMember (first : Bool) (key : List Byte) :
    Coupled coupling (coreMember source first key) (coreMember source' first key) := by
  refine coupled_bind (primitives.setCapture _) fun _ => ?_
  refine coupled_andThen (coupled_ite (coupled_pure _) (primitives.emit _)) ?_
  exact coupled_andThen (primitives.coupled_emitAll _) (valueCoupled _)

theorem coupled_rootMember (locals : RootLocals) (key : List Byte) :
    Coupled coupling (rootMember source locals key) (rootMember source' locals key) :=
  coupled_ite (coupled_bind (primitives.coupled_outputMember valueCoupled _) fun _ => coupled_pure _)
    (coupled_ite (coupled_bind (valueCoupled _) fun _ => coupled_pure _)
      (coupled_bind (primitives.coupled_coreMember valueCoupled _ _) fun _ => coupled_pure _))

omit valueCoupled in
theorem coupled_rootColon : Coupled coupling (rootColon source) (rootColon source') :=
  coupled_bind primitives.coupled_whitespace fun _ =>
    coupled_bind (primitives.coupled_expect _) fun _ =>
      coupled_ite (coupled_bind primitives.coupled_whitespace fun _ => coupled_pure _)
        (coupled_pure _)

theorem coupled_rootPass (locals : RootLocals) :
    Coupled coupling (rootPass source locals) (rootPass source' locals) := by
  have keyCoupled : Coupled coupling (rootKey source) (rootKey source') :=
    coupled_bind primitives.clearKey fun _ => primitives.coupled_string _
  refine coupled_bind keyCoupled fun _ => coupled_ite ?_ (coupled_pure _)
  refine coupled_bind primitives.coupled_keyNow fun key => ?_
  unfold rootNamed
  cases markSeen key uniqueNames locals.seen with
  | none => exact coupled_bind primitives.refuse fun _ => coupled_pure _
  | some seen =>
      refine coupled_bind primitives.coupled_rootColon fun _ => coupled_ite ?_ (coupled_pure _)
      refine coupled_bind (primitives.coupled_rootMember valueCoupled _ _) fun _ =>
        coupled_ite ?_ (coupled_pure _)
      refine coupled_bind (primitives.setCapture _) fun _ => ?_
      refine coupled_bind primitives.coupled_whitespace fun _ => ?_
      refine coupled_bind primitives.peek fun _ => coupled_ite (coupled_pure _) ?_
      exact coupled_bind (primitives.coupled_expect _) fun _ =>
        coupled_ite (coupled_bind primitives.coupled_whitespace fun _ => coupled_pure _)
          (coupled_pure _)

omit valueCoupled in
theorem coupled_emitCore (byte : Byte) : Coupled coupling (emitCore byte) (emitCore byte) :=
  coupled_bind (primitives.setCapture _) fun _ =>
    coupled_bind (primitives.emit byte) fun _ =>
      coupled_ite (coupled_bind (primitives.setCapture _) fun _ => coupled_pure _)
        (coupled_pure _)

omit valueCoupled in
theorem coupled_rootEnd : Coupled coupling (rootEnd source) (rootEnd source') :=
  coupled_bind primitives.coupled_whitespace fun _ =>
    coupled_bind primitives.peek fun _ =>
      coupled_bind primitives.coupled_errorNow fun _ =>
        coupled_ite (coupled_pure _) primitives.refuse

/-- Scanners with coupled primitives are coupled. -/
theorem coupled_root : Coupled coupling (root source) (root source') := by
  have membersCoupled : Coupled coupling (rootMembers source) (rootMembers source') :=
    coupled_bind primitives.coupled_whitespace fun _ =>
      coupled_bind primitives.peek fun _ =>
        coupled_ite (coupled_pure _)
          (primitives.coupled_scanLoop (fun locals => primitives.coupled_rootPass valueCoupled locals) _ _)
  refine coupled_bind (primitives.setCapture _) fun _ => ?_
  refine coupled_bind primitives.coupled_whitespace fun _ => ?_
  refine coupled_andThen (primitives.coupled_expect _) ?_
  refine coupled_andThen (primitives.coupled_emitCore _) ?_
  refine coupled_andThen membersCoupled ?_
  refine coupled_andThen (primitives.coupled_expect _) ?_
  exact coupled_andThen (primitives.coupled_emitCore _) primitives.coupled_rootEnd

end Primitives

/-! ### Scanners in lockstep -/

/-- What it takes for two scanners to run alike until both stop at a look at their input. -/
structure Lockstep (coupling : Coupling (Parser σ) (Parser σ')) (source : Source σ)
    (source' : Source σ') : Prop where
  scan : ∀ parser parser', coupling.relation parser parser' → parser.scan = parser'.scan
  left : ∀ parser parser', coupling.relation parser parser' →
    source.left parser.input = source'.left parser'.input
  lift : ∀ {α : Type} {action : Program ScanState α}, Sticky action →
    Coupled coupling (lift action) (lift action)
  looks : Preserves coupling.stopped (peek source)
  looks' : Preserves coupling.stopped' (peek source')
  steps : Preserves coupling.stopped (advance source)
  steps' : Preserves coupling.stopped' (advance source')
  peek : ∀ parser parser', coupling.relation parser parser' →
    ((peek source parser).1 = (peek source' parser').1 ∧
        coupling.relation (peek source parser).2 (peek source' parser').2 ∧
        ∀ byte, (peek source parser).1 = some byte →
          coupling.relation (advance source (peek source parser).2).2
            (advance source' (peek source' parser').2).2) ∨
      (coupling.stopped (peek source parser).2 ∧ coupling.stopped' (peek source' parser').2)

namespace Lockstep

variable {coupling : Coupling (Parser σ) (Parser σ')} {source : Source σ} {source' : Source σ'}
  (lockstep : Lockstep coupling source source')

include lockstep

/-- What looks first and then goes on. -/
theorem coupled_peek_bind {next : Option Byte → Program (Parser σ) α}
    {next' : Option Byte → Program (Parser σ') α}
    (keeps : ∀ found, Preserves coupling.stopped (next found))
    (keeps' : ∀ found, Preserves coupling.stopped' (next' found))
    (nothing : Coupled coupling (next none) (next' none))
    (something : ∀ byte parser parser', coupling.relation parser parser' →
      coupling.relation (advance source parser).2 (advance source' parser').2 →
      ((next (some byte) parser).1 = (next' (some byte) parser').1 ∧
          coupling.relation (next (some byte) parser).2 (next' (some byte) parser').2) ∨
        (coupling.stopped (next (some byte) parser).2 ∧
          coupling.stopped' (next' (some byte) parser').2)) :
    Coupled coupling (Output.peek source >>= next) (Output.peek source' >>= next') where
  keeps := preserves_bind lockstep.looks keeps
  keeps' := preserves_bind lockstep.looks' keeps'
  step := by
    intro parser parser' related
    simp only [bind_apply]
    rcases lockstep.peek parser parser' related with ⟨same, after, stepped⟩ | ⟨stops, stops'⟩
    · rw [← same]
      cases found : (Output.peek source parser).1 with
      | none => exact nothing.step _ _ after
      | some byte => exact something byte _ _ after (stepped byte found)
    · exact .inr ⟨keeps _ _ stops, keeps' _ _ stops'⟩

theorem coupled_take : Coupled coupling (take source) (take source') := by
  have refuses := lockstep.lift (sticky_fail EPROTO)
  refine lockstep.coupled_peek_bind ?_ ?_ ?_ ?_
  · intro found
    cases found with
    | none => exact preserves_bind refuses.keeps fun _ => preserves_pure _
    | some byte =>
        exact preserves_bind lockstep.steps fun _ =>
          preserves_bind (lockstep.lift (sticky_emit byte)).keeps fun _ => preserves_pure _
  · intro found
    cases found with
    | none => exact preserves_bind refuses.keeps' fun _ => preserves_pure _
    | some byte =>
        exact preserves_bind lockstep.steps' fun _ =>
          preserves_bind (lockstep.lift (sticky_emit byte)).keeps' fun _ => preserves_pure _
  · exact coupled_bind refuses fun _ => coupled_pure none
  · intro byte parser parser' _ stepped
    exact (coupled_bind (lockstep.lift (sticky_emit byte)) fun emitted =>
      coupled_pure (if emitted = true then some byte else none)).step _ _ stepped

theorem coupled_spacePass : Coupled coupling (spacePass source) (spacePass source') := by
  refine lockstep.coupled_peek_bind ?_ ?_ (coupled_pure _) ?_
  · intro found
    cases found with
    | none => exact preserves_pure _
    | some byte =>
        exact preserves_ite (preserves_bind lockstep.steps fun _ => preserves_pure _)
          (preserves_pure _)
  · intro found
    cases found with
    | none => exact preserves_pure _
    | some byte =>
        exact preserves_ite (preserves_bind lockstep.steps' fun _ => preserves_pure _)
          (preserves_pure _)
  · intro byte parser parser' after stepped
    dsimp only
    split
    · exact .inl ⟨rfl, stepped⟩
    · exact .inl ⟨rfl, after⟩

theorem primitives : Primitives coupling source source' where
  peek := by
    have looked : Coupled coupling (Output.peek source >>= pure) (Output.peek source' >>= pure) :=
      lockstep.coupled_peek_bind preserves_pure preserves_pure (coupled_pure none)
        fun byte _ _ after _ => .inl ⟨rfl, after⟩
    exact looked
  take := lockstep.coupled_take
  spacePass := lockstep.coupled_spacePass
  left := lockstep.left
  error := fun parser parser' related => by rw [lockstep.scan parser parser' related]
  key := fun parser parser' related => by rw [lockstep.scan parser parser' related]
  refuse := lockstep.lift (sticky_fail EPROTO)
  emit := fun byte => lockstep.lift (sticky_emit byte)
  decodedScalar := fun destination scalar => lockstep.lift (sticky_decodedScalar destination scalar)
  enterValue := fun depth _ => lockstep.lift (sticky_enterValue depth)
  beginOutput := fun format => lockstep.lift (sticky_beginOutput format)
  wrongType := lockstep.lift (sticky_of_error_eq fun _ => rfl)
  setCapture := fun _ => lockstep.lift (sticky_of_error_eq fun _ => rfl)
  clearKey := lockstep.lift (sticky_of_error_eq fun _ => rfl)

theorem coupled_root : Coupled coupling (root source) (root source') :=
  lockstep.primitives.coupled_root fun destination =>
    lockstep.primitives.coupled_value (lockstep.lift (sticky_fail EFBIG)) resultMaxDepth destination

end Lockstep

/-! ### Two sources -/

/-- A relation between inputs that two sources keep as long as nothing fails. After a
failure only the number of unconsumed bytes still has to agree. -/
structure Simulation (inputs : σ → σ' → Prop) (source : Source σ) (source' : Source σ') :
    Prop where
  samePeek : ∀ input input', inputs input input' →
    (source.peek input).1 = (source'.peek input').1
  left : ∀ input input', inputs input input' → source.left input = source'.left input'
  leftAfter : ∀ input input', inputs input input' →
    source.left (source.peek input).2 = source'.left (source'.peek input').2
  byte : ∀ input input' byte, inputs input input' → (source.peek input).1 = .byte byte →
    inputs (source.peek input).2 (source'.peek input').2 ∧
      inputs (source.advance (source.peek input).2) (source'.advance (source'.peek input').2)
  finished : ∀ input input', inputs input input' → (source.peek input).1 = .finished →
    inputs (source.peek input).2 (source'.peek input').2
  failed : ∀ input input' error, inputs input input' → (source.peek input).1 = .failed error →
    error ≠ 0

/-- Parsers in the same state, over related inputs unless an error has stopped them. -/
structure SameScan (inputs : σ → σ' → Prop) (source : Source σ) (source' : Source σ')
    (parser : Parser σ) (parser' : Parser σ') : Prop where
  scan : parser.scan = parser'.scan
  left : source.left parser.input = source'.left parser'.input
  inputs : parser.scan.error = 0 → inputs parser.input parser'.input

namespace Simulation

variable {inputs : σ → σ' → Prop} {source : Source σ} {source' : Source σ'}

theorem coupled_lift {action : Program ScanState α} (sticky : Sticky action) :
    Coupled (.forever (SameScan inputs source source')) (lift action) (lift action) := by
  refine Related.coupled fun parser parser' related => ?_
  have same := related.scan
  refine ⟨by simp only [lift, same], by simp only [lift, same], related.left, fun clean => ?_⟩
  by_cases before : parser.scan.error = 0
  · exact related.inputs before
  · exact absurd clean (sticky.ne_zero before)

variable (simulation : Simulation inputs source source')

include simulation

theorem sameScan {input : σ} {input' : σ'} (related : inputs input input') (scan : ScanState) :
    SameScan inputs source source' ⟨input, scan⟩ ⟨input', scan⟩ :=
  ⟨rfl, simulation.left _ _ related, fun _ => related⟩

/-- Both parsers see the same byte and stay related, also when they step over it. -/
theorem peek_cases {parser' : Parser σ'} (related : SameScan inputs source source' parser parser') :
    (peek source parser).1 = (peek source' parser').1 ∧
      SameScan inputs source source' (peek source parser).2 (peek source' parser').2 ∧
      ∀ byte, (peek source parser).1 = some byte →
        SameScan inputs source source' (advance source (peek source parser).2).2
          (advance source' (peek source' parser').2).2 := by
  by_cases clean : parser.scan.error = 0
  · have inputsRelated := related.inputs clean
    have clean' : parser'.scan.error = 0 := related.scan ▸ clean
    have same := simulation.samePeek _ _ inputsRelated
    have leftAfter := simulation.leftAfter _ _ inputsRelated
    cases found : (source.peek parser.input).1 with
    | byte byte =>
        obtain ⟨after, stepped⟩ := simulation.byte _ _ byte inputsRelated found
        simp only [peek, clean, clean', ne_eq, not_true, if_false, ← same, found]
        refine ⟨trivial, ⟨related.scan, leftAfter, fun _ => after⟩, fun _ _ => ?_⟩
        exact ⟨related.scan, simulation.left _ _ stepped, fun _ => stepped⟩
    | finished =>
        have after := simulation.finished _ _ inputsRelated found
        simp only [peek, clean, clean', ne_eq, not_true, if_false, ← same, found]
        exact ⟨trivial, ⟨related.scan, leftAfter, fun _ => after⟩, by simp⟩
    | failed error =>
        have nonzero := simulation.failed _ _ error inputsRelated found
        simp only [peek, clean, clean', ne_eq, not_true, if_false, ← same, found]
        refine ⟨trivial, ⟨by rw [related.scan], leftAfter, fun cleared => ?_⟩, by simp⟩
        exact absurd (by simpa [fail, clean] using cleared) nonzero
  · have failed' : parser'.scan.error ≠ 0 := related.scan ▸ clean
    simp only [peek, clean, failed', ne_eq, not_false_eq_true, if_true]
    exact ⟨trivial, related, by simp⟩

theorem lockstep : Lockstep (.forever (SameScan inputs source source')) source source' where
  scan := fun _ _ related => related.scan
  left := fun _ _ related => related.left
  lift := coupled_lift
  looks := fun _ never => never
  looks' := fun _ never => never
  steps := fun _ never => never
  steps' := fun _ never => never
  peek := fun _ _ related => .inl (simulation.peek_cases related)

theorem related_root : Related (SameScan inputs source source') (root source) (root source') :=
  simulation.lockstep.coupled_root.related

end Simulation

/-! ### One run -/

/-- An invariant that every primitive of the scanner keeps. -/
structure Keeps (invariant : Parser σ → Prop) (source : Source σ) : Prop where
  peek : Preserves invariant (peek source)
  advance : Preserves invariant (advance source)
  refuse : Preserves invariant (lift (fail EPROTO))
  emit : ∀ byte, Preserves invariant (lift (emit byte))
  decodedScalar : ∀ destination scalar,
    Preserves invariant (lift (decodedScalar destination scalar))
  enterValue : ∀ depth ≤ resultMaxDepth, Preserves invariant (lift (enterValue depth))
  beginOutput : ∀ format, Preserves invariant (lift (beginOutput format))
  wrongType : Preserves invariant (lift (update wrongType))
  setCapture : ∀ capture, Preserves invariant (setCapture capture)
  clearKey : Preserves invariant clearKey

namespace Keeps

variable {invariant : Parser σ → Prop} {source : Source σ}

/-- One run beside itself, with an invariant. -/
def diagonal (invariant : Parser σ → Prop) : Coupling (Parser σ) (Parser σ) :=
  .forever fun parser parser' => parser = parser' ∧ invariant parser

theorem coupled_diagonal {program : Program (Parser σ) α}
    (preserves : Preserves invariant program) : Coupled (diagonal invariant) program program := by
  refine Related.coupled ?_
  rintro parser _ ⟨rfl, holds⟩
  exact ⟨rfl, rfl, preserves parser holds⟩

theorem preserves_of_coupled {program : Program (Parser σ) α}
    (coupled : Coupled (diagonal invariant) program program) : Preserves invariant program :=
  fun parser holds => (coupled.related parser parser ⟨rfl, holds⟩).2.2

variable (keeps : Keeps invariant source)

include keeps

theorem primitives : Primitives (diagonal invariant) source source where
  peek := coupled_diagonal keeps.peek
  take := by
    refine coupled_diagonal (preserves_bind keeps.peek fun found => ?_)
    cases found with
    | none => exact preserves_bind keeps.refuse fun _ => preserves_pure _
    | some byte =>
        exact preserves_bind keeps.advance fun _ =>
          preserves_bind (keeps.emit byte) fun _ => preserves_pure _
  spacePass := by
    refine coupled_diagonal (preserves_bind keeps.peek fun found => ?_)
    cases found with
    | none => exact preserves_pure _
    | some byte =>
        exact preserves_ite (preserves_bind keeps.advance fun _ => preserves_pure _)
          (preserves_pure _)
  left := by
    rintro parser _ ⟨rfl, -⟩
    rfl
  error := by
    rintro parser _ ⟨rfl, -⟩
    rfl
  key := by
    rintro parser _ ⟨rfl, -⟩
    rfl
  refuse := coupled_diagonal keeps.refuse
  emit := fun byte => coupled_diagonal (keeps.emit byte)
  decodedScalar := fun destination scalar =>
    coupled_diagonal (keeps.decodedScalar destination scalar)
  enterValue := fun depth shallow => coupled_diagonal (keeps.enterValue depth shallow)
  beginOutput := fun format => coupled_diagonal (keeps.beginOutput format)
  wrongType := coupled_diagonal keeps.wrongType
  setCapture := fun capture => coupled_diagonal (keeps.setCapture capture)
  clearKey := coupled_diagonal keeps.clearKey

/-- An invariant that survives a value which is too deep. -/
theorem preserves_root (tooDeep : Preserves invariant (lift (fail EFBIG))) :
    Preserves invariant (root source) :=
  preserves_of_coupled (keeps.primitives.coupled_root fun destination =>
    keeps.primitives.coupled_value (coupled_diagonal tooDeep) resultMaxDepth destination)

end Keeps

/-- A fact about the input that looking and stepping keep. -/
theorem keeps_input {holds : σ → Prop} {source : Source σ}
    (peekKeeps : ∀ input, holds input → holds (source.peek input).2)
    (advanceKeeps : ∀ input, holds input → holds (source.advance input)) :
    Keeps (fun parser => holds parser.input) source where
  peek := by
    intro parser before
    have after := peekKeeps _ before
    unfold peek
    split
    · exact before
    · dsimp only
      split <;> exact after
  advance := fun parser before => advanceKeeps _ before
  refuse := fun _ before => before
  emit := fun _ _ before => before
  decodedScalar := fun _ _ _ before => before
  enterValue := fun _ _ _ before => before
  beginOutput := fun _ _ before => before
  wrongType := fun _ before => before
  setCapture := fun _ _ before => before
  clearKey := fun _ before => before

/-- A fact about the input that looking keeps until something bad happens, which it reports as
an error. -/
theorem keeps_input_until {holds bad : σ → Prop} {source : Source σ}
    (peekKeeps : ∀ input, holds input → ¬ bad input → holds (source.peek input).2 ∧
      (bad (source.peek input).2 → ∃ error, error ≠ 0 ∧ (source.peek input).1 = .failed error))
    (advanceKeeps : ∀ input, holds input → holds (source.advance input))
    (advanceBad : ∀ input, bad (source.advance input) → bad input) :
    Keeps (fun parser => holds parser.input ∧ (bad parser.input → parser.scan.error ≠ 0))
      source := by
  have lifted : ∀ {α : Type} {action : Program ScanState α}, Sticky action →
      Preserves (fun parser => holds parser.input ∧ (bad parser.input → parser.scan.error ≠ 0))
        (lift action) := by
    rintro α action sticky parser ⟨before, stopped⟩
    exact ⟨before, fun isBad => sticky.ne_zero (stopped isBad)⟩
  refine ⟨?_, ?_, lifted (sticky_fail EPROTO), fun byte => lifted (sticky_emit byte),
    fun destination scalar => lifted (sticky_decodedScalar destination scalar),
    fun depth _ => lifted (sticky_enterValue depth), fun format => lifted (sticky_beginOutput format),
    lifted (sticky_of_error_eq fun _ => rfl), fun _ => lifted (sticky_of_error_eq fun _ => rfl),
    lifted (sticky_of_error_eq fun _ => rfl)⟩
  · rintro parser ⟨before, stopped⟩
    by_cases clean : parser.scan.error = 0
    · obtain ⟨after, reported⟩ := peekKeeps parser.input before fun isBad => stopped isBad clean
      unfold peek
      rw [if_neg (not_not.mpr clean)]
      dsimp only
      cases found : (source.peek parser.input).1 with
      | failed error =>
          refine ⟨after, fun isBad => ?_⟩
          obtain ⟨_, nonzero, failed⟩ := reported isBad
          obtain rfl := Peeked.failed.inj (found.symm.trans failed)
          simpa [fail, clean] using nonzero
      | _ =>
          refine ⟨after, fun isBad => ?_⟩
          obtain ⟨_, -, failed⟩ := reported isBad
          cases found.symm.trans failed
    · rw [peek, if_pos clean]
      exact ⟨before, stopped⟩
  · rintro parser ⟨before, stopped⟩
    exact ⟨advanceKeeps _ before, fun isBad => stopped (advanceBad _ isBad)⟩

/-! ### Success -/

/-- Without an error, nothing to look at means that the input has ended. -/
theorem peek_finished {source : Source σ}
    (nonzero : ∀ input error, (source.peek input).1 = .failed error → error ≠ 0)
    (nothing : (peek source parser).1 = none) (clean : (peek source parser).2.scan.error = 0) :
    ∃ input, (source.peek input).1 = .finished ∧
      (peek source parser).2.input = (source.peek input).2 := by
  refine ⟨parser.input, ?_⟩
  by_cases running : parser.scan.error = 0
  · cases found : (source.peek parser.input).1 with
    | byte byte => simp [peek, running, found] at nothing
    | finished => exact ⟨rfl, by simp [peek, running, found]⟩
    | failed error =>
        have cleared : error = 0 := by simpa [peek, running, found, fail] using clean
        exact absurd cleared (nonzero _ _ found)
  · exact absurd (by rwa [peek, if_pos running] at clean) running

/-- A scanner that succeeds has looked at the end of its input, and has no error. -/
theorem root_succeeded {source : Source σ} {final : Parser σ}
    (nonzero : ∀ input error, (source.peek input).1 = .failed error → error ≠ 0)
    (succeeded : root source parser = (true, final)) :
    final.scan.error = 0 ∧
      ∃ input, (source.peek input).1 = .finished ∧ final.input = (source.peek input).2 := by
  have ended : ∃ start, rootEnd source start = (true, final) := by
    obtain ⟨-, afterBrace⟩ := andThen_eq_true succeeded
    obtain ⟨-, afterOpen⟩ := andThen_eq_true afterBrace
    obtain ⟨-, afterMembers⟩ := andThen_eq_true afterOpen
    obtain ⟨-, afterClose⟩ := andThen_eq_true afterMembers
    exact ⟨_, (andThen_eq_true afterClose).2⟩
  obtain ⟨start, ended⟩ := ended
  simp only [rootEnd, bind_apply] at ended
  generalize (whitespace source start).2 = spaced at ended
  by_cases stopped : (peek source spaced).1 = none ∧ (errorNow (peek source spaced).2).1 = 0
  · rw [if_pos stopped] at ended
    obtain rfl : (peek source spaced).2 = final := congrArg Prod.snd ended
    exact ⟨stopped.2, peek_finished nonzero stopped.1 stopped.2⟩
  · rw [if_neg stopped] at ended
    exact absurd (congrArg Prod.fst ended) (by simp [lift, fail])

end IperfSwift.Output
