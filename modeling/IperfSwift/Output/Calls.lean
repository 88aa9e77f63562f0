import IperfSwift.Output.Budget

/-!
Contract: what the collector holds after any calls, whichever allocations fail.

Owns: the calls that reach the collector of a server; the invariant of its output;
that what is sent is within the limit, valid text and comes with a status that the
client accepts.

Does not own: which bytes are held.
-/

set_option autoImplicit false

namespace IperfSwift.Output

open IperfSwift.Lib
open IperfSwift.Lib.Program
open IperfSwift.CJson

/-! ### The invariant -/

/-- The format that a server collects. -/
def formatOf (jsonOutput : Bool) : OutputFormat := if jsonOutput then .json else .text

/-- What the status of an output says. -/
def claimOf (output : ServerOutput) : Claim := ⟨output.state, output.format, output.reason⟩

/-- There are bytes, a format and a reason exactly as the state has to have them. -/
structure SafeOutput (limit : Nat) (jsonOutput : Bool) (output : ServerOutput) : Prop where
  room : output.held.length ≤ limit
  bytes : output.value = none ↔ output.state ≠ .complete ∧ output.state ≠ .truncated
  unbegun : output.state = .missing → output.reason = .none
  format : output.state ≠ .missing → output.format = formatOf jsonOutput
  claim : output.state ≠ .missing → (claimOf output).Consistent
  text : jsonOutput = false → PlainText output.held

theorem plainText_nil : PlainText [] := ⟨[], nofun, rfl⟩

section Outputs

variable {limit : Nat} {jsonOutput : Bool} {output : ServerOutput}

theorem safe_fresh : SafeOutput limit jsonOutput {} :=
  ⟨Nat.zero_le _, by simp, fun _ => rfl, fun begun => absurd rfl begun,
    fun begun => absurd rfl begun, fun _ => plainText_nil⟩

theorem discard_begun (output : ServerOutput) (reason : OutputReason) :
    (discard output reason).state ≠ .missing := by
  rw [discard]
  dsimp only
  split_ifs <;> decide

theorem safe_discard {reason : OutputReason} (format : output.format = formatOf jsonOutput)
    (given : reason ≠ .none) : SafeOutput limit jsonOutput (discard output reason) where
  room := Nat.zero_le _
  bytes := by
    rw [discard]
    dsimp only
    split_ifs <;> simp
  unbegun := fun missing => absurd missing (discard_begun output reason)
  format := fun _ => format
  claim := fun _ => by
    rw [discard, claimOf, Claim.Consistent]
    split_ifs <;> exact given
  text := fun _ => plainText_nil

/-- The count of bytes plays no part. -/
theorem SafeOutput.counted (safe : SafeOutput limit jsonOutput output) (observedBytes : Nat)
    (observedBytesComplete : Bool) : SafeOutput limit jsonOutput
      { output with
        observedBytes := observedBytes, observedBytesComplete := observedBytesComplete } :=
  ⟨safe.room, safe.bytes, safe.unbegun, safe.format, safe.claim, safe.text⟩

/-- Other bytes in an output that is complete. -/
theorem SafeOutput.replace (safe : SafeOutput limit jsonOutput output)
    (complete : output.state = .complete) {bytes : List Byte} (room : bytes.length ≤ limit)
    (text : jsonOutput = false → PlainText bytes) :
    SafeOutput limit jsonOutput { output with value := some bytes } where
  room := room
  bytes := by simp [complete]
  unbegun := safe.unbegun
  format := safe.format
  claim := safe.claim
  text := text

/-! ### Text -/

theorem plainText_append {first second : List Byte} (one : PlainText first)
    (two : PlainText second) : PlainText (first ++ second) := by
  obtain ⟨scalars, notNul, rfl⟩ := one
  obtain ⟨others, otherNotNul, rfl⟩ := two
  exact ⟨scalars ++ others, List.forall_mem_append.mpr ⟨notNul, otherNotNul⟩,
    Utf8.encode_append _ _⟩

/-- Whatever the bytes are, the part that is passed over is plain text. -/
theorem utf8Scalars_kept (cut : Bool) (passes : Nat) (text : List Byte) (valid : Nat) :
    ∃ kept ≤ text.length, (utf8Scalars cut passes text valid).2 = valid + kept ∧
      PlainText (text.take kept) := by
  have nothing : ∃ kept ≤ text.length, valid = valid + kept ∧ PlainText (text.take kept) :=
    ⟨0, Nat.zero_le _, rfl, plainText_nil⟩
  induction passes generalizing text valid with
  | zero => exact nothing
  | succ passes inductionHypothesis =>
      cases text with
      | nil => exact nothing
      | cons first rest =>
          rw [utf8Scalars]
          cases head : scalarHead first with
          | none => exact nothing
          | some lead =>
              dsimp only
              split_ifs with short
              · exact nothing
              · cases pushed : pushTails lead.payload (rest.take lead.following) with
                | none => exact nothing
                | some scalar =>
                    dsimp only
                    split_ifs with isScalar
                    · obtain ⟨tails, rfl⟩ := pushTails_eq_some_iff.mp pushed
                      obtain ⟨c, notNul, bytes⟩ := exists_of_decoded head
                        (List.length_take_of_le (Nat.le_of_not_lt short)) tails isScalar
                      obtain ⟨kept, inside, count, plain⟩ := inductionHypothesis
                        (rest.drop lead.following) (valid + (lead.following + 1))
                        ⟨0, Nat.zero_le _, rfl, plainText_nil⟩
                      rw [List.length_drop] at inside
                      refine ⟨lead.following + 1 + kept, by rw [List.length_cons]; omega,
                        by rw [count]; omega, ?_⟩
                      have split : (first :: rest).take (lead.following + 1 + kept) =
                          (first :: rest.take lead.following) ++
                            (rest.drop lead.following).take kept := by
                        rw [show lead.following + 1 + kept = lead.following + kept + 1 by omega,
                          List.take_succ_cons, List.take_add, List.cons_append]
                      rw [split]
                      exact plainText_append
                        ⟨[c], by simpa using notNul, by simp [Utf8.encode, bytes]⟩
                        plain
                    · exact nothing

theorem utf8Prefix_kept (text : List Byte) (cut : Bool) :
    (utf8Prefix text cut).2 ≤ text.length ∧ PlainText (text.take (utf8Prefix text cut).2) := by
  obtain ⟨kept, inside, count, plain⟩ := utf8Scalars_kept cut text.length text 0
  rw [utf8Prefix, count, Nat.zero_add]
  exact ⟨inside, plain⟩

theorem safe_retain (text : List Byte) (safe : SafeOutput limit false output)
    (complete : output.state = .complete) : SafeOutput limit false (retain limit text output) := by
  have format := safe.format (by simp [complete])
  have room := safe.room
  rw [retain]
  dsimp only
  generalize decide (limit - output.held.length < text.length) = cut
  obtain ⟨inside, plain⟩ := utf8Prefix_kept (text.take (limit - output.held.length)) cut
  generalize utf8Prefix (text.take (limit - output.held.length)) cut = checked at inside plain
  rw [List.length_take] at inside
  rw [List.take_take, Nat.min_eq_left (by omega)] at plain
  have kept : SafeOutput limit false
      { output with value := some (output.held ++ text.take checked.2) } := by
    refine safe.replace complete ?_ fun text => plainText_append (safe.text text) plain
    rw [List.length_append, List.length_take]
    omega
  split_ifs
  · exact ⟨kept.room, by simp, nofun, fun _ => format, fun _ => ⟨format, rfl⟩, kept.text⟩
  · exact kept
  · exact safe_discard format (by decide)

theorem safe_appendFormat (piece : Formatted) (safe : SafeOutput limit false output)
    (begun : output.state ≠ .missing) : SafeOutput limit false (appendFormat limit piece output) ∧
      (appendFormat limit piece output).state ≠ .missing := by
  have format := safe.format begun
  have counted : ∀ count, SafeOutput limit false (countBytes output count) ∧
      (countBytes output count).state = output.state ∧
      (countBytes output count).format = output.format := by
    intro count
    rw [countBytes]
    split_ifs
    · exact ⟨safe.counted _ _, rfl, rfl⟩
    · exact ⟨safe.counted _ output.observedBytesComplete, rfl, rfl⟩
  rw [appendFormat]
  cases piece.required with
  | none =>
      have dropped : SafeOutput limit false (discard output .invalidData) :=
        safe_discard format (by decide)
      exact ⟨dropped.counted _ _, discard_begun output .invalidData⟩
  | some required =>
      obtain ⟨still, state, sameFormat⟩ := counted required
      have dropped : SafeOutput limit false
          (discard (countBytes output required) .invalidData) :=
        safe_discard (sameFormat.trans format) (by decide)
      dsimp only
      split_ifs with incomplete
      · exact ⟨still, by rw [state]; exact begun⟩
      · cases piece.written with
        | none => exact ⟨dropped, discard_begun _ _⟩
        | some text =>
            dsimp only
            split_ifs
            · exact ⟨dropped, discard_begun _ _⟩
            · refine ⟨safe_retain text still (not_not.mp incomplete), ?_⟩
              rw [retain]
              dsimp only
              split_ifs
              · exact nofun
              · rw [state]
                exact begun
              · exact discard_begun _ _

end Outputs

/-! ### Collecting -/

/-- The output is collected still, and safe. -/
structure Collects (limit : Nat) (jsonOutput : Bool) (test : Collector) : Prop where
  byteLimit : test.byteLimit = limit
  json : test.jsonOutput = jsonOutput
  notFinalized : test.outputFinalized = false
  safe : SafeOutput limit jsonOutput test.output

/-- Something has been collected, or given up. -/
def Begun (limit : Nat) (jsonOutput : Bool) (test : Collector) : Prop :=
  Collects limit jsonOutput test ∧ test.output.state ≠ .missing

section Collecting

variable {limit : Nat} {jsonOutput : Bool} {test : Collector}

/-- Another output, and nothing else that matters. -/
theorem Collects.change (collects : Collects limit jsonOutput test) {next : Collector}
    (byteLimit : next.byteLimit = test.byteLimit) (json : next.jsonOutput = test.jsonOutput)
    (finalized : next.outputFinalized = test.outputFinalized)
    (safe : SafeOutput limit jsonOutput next.output) : Collects limit jsonOutput next :=
  ⟨byteLimit.trans collects.byteLimit, json.trans collects.json,
    finalized.trans collects.notFinalized, safe⟩

theorem Begun.discard {reason : OutputReason} (begun : Begun limit jsonOutput test)
    (given : reason ≠ .none) : Begun limit jsonOutput (discardOutputFor reason test).2 :=
  ⟨begun.1.change rfl rfl rfl (safe_discard (begun.1.safe.format begun.2) given),
    discard_begun test.output reason⟩

/-- What `begin` makes of an output that is not begun yet. -/
def begunIf (granted : Bool) (format : OutputFormat) (output : ServerOutput) : ServerOutput :=
  let chosen :=
    { output with format := format, observedBytesComplete := decide (format = .text) }
  if granted then { chosen with value := some [], state := .complete }
  else discard chosen .allocationFailure

theorem begin_eq (format : OutputFormat) (test : Collector) : begin format test =
    if test.output.state ≠ .missing then (decide (test.output.state = .complete), test)
    else (test.answers.succeeds test.tick,
      { test with
        tick := test.tick + 1
        output := begunIf (test.answers.succeeds test.tick) format test.output }) := by
  rw [begin, bind_apply, current_apply]
  split_ifs with begun
  · rfl
  · change (if test.answers.succeeds test.tick = true then _ else _ : Program Collector Bool) _ = _
    cases test.answers.succeeds test.tick
    · rfl
    · rfl

theorem begin_begun (collects : Collects limit jsonOutput test) :
    Begun limit jsonOutput (begin (formatOf jsonOutput) test).2 := by
  rw [begin_eq]
  split_ifs with begun
  · exact ⟨collects, begun⟩
  · have reason := collects.safe.unbegun (not_not.mp begun)
    cases test.answers.succeeds test.tick with
    | false =>
        exact ⟨collects.change rfl rfl rfl (safe_discard rfl (by decide)), discard_begun _ _⟩
    | true =>
        refine ⟨collects.change rfl rfl rfl ⟨Nat.zero_le _, ?_, nofun, fun _ => rfl,
          fun _ => reason, fun _ => plainText_nil⟩, nofun⟩
        simp [begunIf]

theorem begin_returns (format : OutputFormat) (test : Collector) :
    (begin format test).1 = decide ((begin format test).2.output.state = .complete) := by
  rw [begin_eq]
  split_ifs
  · rfl
  · cases test.answers.succeeds test.tick
    · rfl
    · rfl

theorem scratch_eq (test : Collector) : scratch test =
    if test.outputScratch = true then (true, test)
    else if test.answers.succeeds test.tick = true then
      (true, { test with tick := test.tick + 1, outputScratch := true })
    else (false,
      { test with tick := test.tick + 1, output := discard test.output .allocationFailure }) := by
  rw [scratch, bind_apply, current_apply]
  dsimp only
  by_cases there : test.outputScratch = true
  · rw [if_pos there, if_pos there]
    rfl
  · rw [if_neg there, if_neg there]
    change (if test.answers.succeeds test.tick = true then _ else _ : Program Collector Bool) _ = _
    cases test.answers.succeeds test.tick
    · rfl
    · rfl

theorem scratch_begun (begun : Begun limit jsonOutput test) :
    Begun limit jsonOutput (scratch test).2 ∧
      ((scratch test).1 = true → (scratch test).2.output = test.output) ∧
      ((scratch test).1 ≠ true → (scratch test).2.output.state ≠ .complete) := by
  rw [scratch_eq]
  split_ifs
  · exact ⟨begun, fun _ => rfl, fun failed => absurd rfl failed⟩
  · exact ⟨⟨begun.1.change rfl rfl rfl begun.1.safe, begun.2⟩, fun _ => rfl,
      fun failed => absurd rfl failed⟩
  · exact ⟨⟨begun.1.change rfl rfl rfl (safe_discard (begun.1.safe.format begun.2) (by decide)),
      discard_begun _ _⟩, nofun, fun _ => by simp [discard]⟩

theorem append_begun (begun : Begun limit false test) (piece : Formatted) :
    Begun limit false (append piece test).2 := by
  obtain ⟨safe, still⟩ := safe_appendFormat piece begun.1.safe begun.2
  rw [← begun.1.byteLimit] at safe still
  refine ⟨begun.1.change rfl rfl rfl ?_, still⟩
  rw [← begun.1.byteLimit]
  exact safe

theorem collects_collectPrintf (collects : Collects limit false test) (stamp : Option Formatted)
    (line : Formatted) : Collects limit false (iperfOutputCollectPrintf stamp line test).2 := by
  have begun := begin_begun collects
  rw [iperfOutputCollectPrintf, bind_apply, current_apply, if_neg (by simp [collects.notFinalized]),
    bind_apply]
  cases stamp with
  | none => exact (append_begun begun line).1
  | some piece => exact (append_begun (append_begun begun piece) line).1

/-! ### Documents -/

/-- A refusal comes with a reason. -/
def Reasoned {α : Type} : Except OutputReason α → Prop
  | .ok _ => True
  | .error reason => reason ≠ .none

theorem Reasoned.bind {α β : Type} {first : Except OutputReason α}
    {rest : α → Except OutputReason β} (here : Reasoned first)
    (later : ∀ value, Reasoned (rest value)) :
    Reasoned (first >>= rest) := by
  cases first with
  | error reason => exact here
  | ok value => exact later value

theorem reasoned_enterNode (depth nodes : Nat) : Reasoned (enterNode depth nodes) := by
  rw [enterNode]
  split_ifs
  · exact nofun
  · exact nofun
  · trivial

mutual

theorem reasoned_shape : (node : Node Double) → (depth nodes : Nat) →
    Reasoned (shape node depth nodes)
  | .null, depth, nodes => reasoned_enterNode depth nodes
  | .bool _, depth, nodes => reasoned_enterNode depth nodes
  | .number _, depth, nodes => reasoned_enterNode depth nodes
  | .string _, depth, nodes => reasoned_enterNode depth nodes
  | .raw _, depth, nodes => reasoned_enterNode depth nodes
  | .array children, depth, nodes =>
      (reasoned_enterNode depth nodes).bind fun _ => reasoned_shapeElements children (depth + 1) _
  | .object members, depth, nodes =>
      (reasoned_enterNode depth nodes).bind fun _ => reasoned_shapeMembers members (depth + 1) _

theorem reasoned_shapeElements : (children : List (Node Double)) → (depth nodes : Nat) →
    Reasoned (shapeElements children depth nodes)
  | [], _, _ => trivial
  | child :: rest, depth, nodes =>
      (reasoned_shape child depth nodes).bind fun _ => reasoned_shapeElements rest depth _

theorem reasoned_shapeMembers : (members : List (List Byte × Node Double)) →
    (depth nodes : Nat) → Reasoned (shapeMembers members depth nodes)
  | [], _, _ => trivial
  | (_, child) :: rest, depth, nodes =>
      (reasoned_shape child depth nodes).bind fun _ => reasoned_shapeMembers rest depth _

end

theorem addInterval_begun (begun : Begun limit true test) (complete : test.output.state = .complete)
    (nodes : Nat) (text : List Byte) : Begun limit true (addInterval nodes text test) := by
  have same := begun.1.byteLimit
  rw [addInterval]
  generalize (if test.outputJsonIntervals = 0 then [] else [ascii ',']) = comma
  dsimp only
  split_ifs with long
  · exact begun.discard (by decide)
  · refine ⟨begun.1.change rfl rfl rfl (begun.1.safe.replace complete ?_ nofun), begun.2⟩
    rw [List.length_append, List.length_append]
    omega

theorem collects_collectInterval (print : Printer) (collects : Collects limit true test)
    (interval : Node Double) :
    Collects limit true (iperfOutputCollectInterval print interval test).2 := by
  have begun := begin_begun collects
  have returns := begin_returns (formatOf true) test
  rw [iperfOutputCollectInterval, bind_apply, current_apply,
    if_neg (by simp [collects.notFinalized]), bind_apply]
  change Collects limit true (Prod.snd ((if (begin (formatOf true) test).1 = true then _ else _ :
    Program Collector Unit) (begin (formatOf true) test).2))
  split_ifs with yes
  · have complete : (begin (formatOf true) test).2.output.state = .complete := by
      rw [returns] at yes
      exact of_decide_eq_true yes
    have reasoned := reasoned_shape interval 3 test.outputJsonValues
    cases result : shape interval 3 test.outputJsonValues with
    | error reason =>
        rw [result] at reasoned
        exact (begun.discard reasoned).1
    | ok nodes =>
        obtain ⟨still, unchanged, -⟩ := scratch_begun begun
        dsimp only
        rw [bind_apply]
        split_ifs with there
        · cases print interval (scratchSize test.byteLimit) with
          | none => exact (still.discard (by decide)).1
          | some text =>
              exact (addInterval_begun still (by rw [unchanged there]; exact complete) nodes text).1
        · exact still.1
  · exact begun.1

/-- The text of a document is within the limit. -/
def Bounded (limit : Nat) : Except OutputReason (List Byte) → Prop
  | .ok text => text.length ≤ limit
  | .error reason => reason ≠ .none

theorem printDocument_bounded (print : Printer) (limit nodes : Nat) (intervals : List Byte)
    (top : JsonTop) : Bounded limit (printDocument print limit nodes intervals top) := by
  have reasoned := reasoned_shape (rawDocument top intervals) 1 nodes
  rw [printDocument]
  cases result : shape (rawDocument top intervals) 1 nodes with
  | error reason =>
      rw [result] at reasoned
      exact reasoned
  | ok total =>
      change Bounded limit (printBounded print limit (rawDocument top intervals))
      rw [printBounded]
      cases print (rawDocument top intervals) (scratchSize limit) with
      | none => exact nofun
      | some text =>
          dsimp only
          split_ifs with long
          · exact nofun
          · exact Nat.le_of_not_lt long

/-- Bytes that are sent are plain text. -/
structure Closed (limit : Nat) (jsonOutput : Bool) (output : ServerOutput) : Prop where
  safe : SafeOutput limit jsonOutput output
  begun : output.state ≠ .missing
  plain : PlainText output.held

theorem closed_discard {output : ServerOutput} {reason : OutputReason}
    (format : output.format = formatOf jsonOutput) (given : reason ≠ .none) :
    Closed limit jsonOutput (discard output reason) :=
  ⟨safe_discard format given, discard_begun output reason, plainText_nil⟩

theorem closed_finishDocument {output : ServerOutput} {result : Except OutputReason (List Byte)}
    (bounded : Bounded limit result) (safe : SafeOutput limit true output)
    (complete : output.state = .complete) (held : List Byte) :
    Closed limit true (finishDocument result { output with value := some held }) := by
  have format := safe.format (by simp [complete])
  cases result with
  | error reason => exact closed_discard format bounded
  | ok text =>
      rw [finishDocument]
      split_ifs with accepted
      · exact ⟨(safe.replace complete bounded nofun).counted _ _, by simp [complete],
          (utf8Prefix_accepts_iff text).mp accepted⟩
      · exact closed_discard format (by decide)

theorem closed_closeDocument (print : Printer) (top : JsonTop)
    (begun : Begun limit true test) (complete : test.output.state = .complete) :
    Closed limit true (closeDocument print top test).2.output := by
  have format := begun.1.safe.format begun.2
  rw [closeDocument, bind_apply, current_apply, bind_apply]
  change Closed limit true (Prod.snd ((if test.answers.succeeds test.tick = true then _ else _ :
    Program Collector Unit) _)).output
  split_ifs
  · refine closed_finishDocument ?_ begun.1.safe complete _
    rw [← begun.1.byteLimit]
    exact printDocument_bounded print _ _ _ top
  · exact closed_discard format (by decide)

/-- A document that is not complete has been given up. -/
theorem Begun.closed (begun : Begun limit true test) (incomplete : test.output.state ≠ .complete) :
    Closed limit true test.output := by
  have untruncated : test.output.state ≠ .truncated := by
    intro truncated
    have claim := begun.1.safe.claim begun.2
    rw [Claim.Consistent, claimOf] at claim
    simp only [truncated, begun.1.safe.format begun.2] at claim
    exact absurd claim.1 (by decide)
  refine ⟨begun.1.safe, begun.2, ?_⟩
  rw [ServerOutput.held, begun.1.safe.bytes.mpr ⟨incomplete, untruncated⟩]
  exact plainText_nil

theorem closed_finalizeJson (print : Printer) (collects : Collects limit true test) :
    Closed limit true (finalizeJson print test).2.output := by
  have begun := begin_begun collects
  have returns := begin_returns (formatOf true) test
  rw [finalizeJson, bind_apply]
  change Closed limit true (Prod.snd ((if (andThen (begin (formatOf true)) scratch test).1 = true
    then _ else _ : Program Collector Unit)
      (andThen (begin (formatOf true)) scratch test).2)).output
  by_cases yes : (begin (formatOf true) test).1 = true
  · have complete : (begin (formatOf true) test).2.output.state = .complete := by
      rw [returns] at yes
      exact of_decide_eq_true yes
    obtain ⟨still, unchanged, failed⟩ := scratch_begun begun
    have format := still.1.safe.format still.2
    rw [andThen_of_true yes]
    split_ifs with there
    · rw [bind_apply, current_apply]
      dsimp only
      cases (scratch (begin (formatOf true) test).2).2.jsonTop with
      | none => exact closed_discard format (by decide)
      | some top =>
          dsimp only
          split_ifs
          · exact closed_discard format (by decide)
          · exact closed_closeDocument print top still (by rw [unchanged there]; exact complete)
    · exact still.closed (failed there)
  · rw [andThen_of_false (Bool.eq_false_iff.mpr yes), if_neg Bool.false_ne_true]
    refine begun.closed fun complete => yes ?_
    rw [returns, complete]
    rfl

end Collecting

/-! ### Calls -/

/-- A call that reaches the collector, or a new tree of the program's own. -/
inductive Call where
  | reset
  | printf (stamp : Option Formatted) (line : Formatted)
  | interval (tree : Node Double)
  | top (tree : Option JsonTop)
  | send (results : List (List Byte × Node Double))

/-- A server prints text or has intervals, never both. -/
def Call.run (print : Printer) : Call → Program Collector Unit
  | .reset => iperfOutputBudgetReset
  | .printf stamp line => do
      let test ← current
      if test.jsonOutput then pure () else iperfOutputCollectPrintf stamp line
  | .interval tree => do
      let test ← current
      if test.jsonOutput then iperfOutputCollectInterval print tree else pure ()
  | .top tree => update fun test => { test with jsonTop := tree }
  | .send results => do
      let _ ← iperfOutputAddServerResults print results
      pure ()

def runCalls (print : Printer) : List Call → Program Collector Unit
  | [] => pure ()
  | call :: rest => do
      Call.run print call
      runCalls print rest

/-- A server between two calls. -/
structure Safe (limit : Nat) (jsonOutput : Bool) (test : Collector) : Prop where
  byteLimit : test.byteLimit = limit
  json : test.jsonOutput = jsonOutput
  safe : SafeOutput limit jsonOutput test.output
  finalized : test.outputFinalized = true → Closed limit jsonOutput test.output

section Calls

variable {limit : Nat} {jsonOutput : Bool} {test : Collector}

theorem Safe.collects (safe : Safe limit jsonOutput test)
    (notFinalized : test.outputFinalized = false) : Collects limit jsonOutput test :=
  ⟨safe.byteLimit, safe.json, notFinalized, safe.safe⟩

theorem Collects.between (collects : Collects limit jsonOutput test) :
    Safe limit jsonOutput test where
  byteLimit := collects.byteLimit
  json := collects.json
  safe := collects.safe
  finalized := fun finalized => absurd finalized (by simp [collects.notFinalized])

/-- A call that only works while the output is still collected. -/
theorem Safe.unlessFinalized {program : Program Collector Unit} (safe : Safe limit jsonOutput test)
    (idle : test.outputFinalized = true → (program test).2 = test)
    (collecting : Collects limit jsonOutput test → Collects limit jsonOutput (program test).2) :
    Safe limit jsonOutput (program test).2 := by
  by_cases finalized : test.outputFinalized = true
  · rw [idle finalized]
    exact safe
  · exact (collecting (safe.collects (Bool.eq_false_iff.mpr finalized))).between

/-- What no step of `finalize_json` changes. -/
def Settings (limit : Nat) (jsonOutput : Bool) (test : Collector) : Prop :=
  test.byteLimit = limit ∧ test.jsonOutput = jsonOutput

theorem settings_finalizeJson (print : Printer) :
    Preserves (Settings limit jsonOutput) (finalizeJson print) := by
  have asks : Preserves (Settings limit jsonOutput) (ask : Program Collector Bool) :=
    preserves_ask fun _ settings => settings
  have begins : Preserves (Settings limit jsonOutput) (begin .json) := fun test settings => by
    rw [begin_eq]
    split_ifs <;> exact settings
  have scratches : Preserves (Settings limit jsonOutput) scratch := fun test settings => by
    rw [scratch_eq]
    split_ifs <;> exact settings
  refine preserves_bind (preserves_andThen begins scratches) fun _ =>
    preserves_ite (preserves_bind preserves_current fun test => ?_) (preserves_pure _)
  cases test.jsonTop with
  | none => exact fun _ settings => settings
  | some top =>
      refine preserves_ite (fun _ settings => settings) (preserves_bind preserves_current fun _ =>
        preserves_bind (fun _ settings => settings) fun _ => preserves_bind asks fun _ => ?_)
      exact preserves_ite (fun _ settings => settings) fun _ settings => settings

theorem safe_finalizeOutput (print : Printer) (safe : Safe limit jsonOutput test) :
    Safe limit jsonOutput (finalizeOutput print test).2 ∧
      Closed limit jsonOutput (finalizeOutput print test).2.output := by
  rw [finalizeOutput, bind_apply, current_apply]
  dsimp only
  by_cases finalized : test.outputFinalized = true
  · rw [if_pos finalized]
    exact ⟨safe, safe.finalized finalized⟩
  · have collects := safe.collects (Bool.eq_false_iff.mpr finalized)
    rw [if_neg finalized, safe.json]
    cases jsonOutput with
    | true =>
        have closed := closed_finalizeJson print collects
        obtain ⟨byteLimit, json⟩ := settings_finalizeJson print test ⟨safe.byteLimit, safe.json⟩
        exact ⟨⟨byteLimit, json, closed.safe, fun _ => closed⟩, closed⟩
    | false =>
        obtain ⟨begun, state⟩ := begin_begun collects
        have closed : Closed limit false (begin .text test).2.output :=
          ⟨begun.safe, state, begun.safe.text rfl⟩
        exact ⟨⟨begun.byteLimit, begun.json, closed.safe, fun _ => closed⟩, closed⟩

/-- Making room for the members changes nothing but the number of questions. -/
theorem allocate_same (count : Nat) (test : Collector) :
    ∃ tick, (allocate count test).2 = { test with tick := tick } := by
  induction count generalizing test with
  | zero => exact ⟨test.tick, rfl⟩
  | succ count inductionHypothesis =>
      by_cases granted : (ask test).1 = true
      · obtain ⟨tick, same⟩ := inductionHypothesis (ask test).2
        rw [allocate, andThen_of_true granted, same]
        exact ⟨tick, rfl⟩
      · rw [allocate, andThen_of_false (Bool.eq_false_iff.mpr granted)]
        exact ⟨test.tick + 1, rfl⟩

/-- The members that are added, if there is memory for them. -/
theorem addServerResults_spec (print : Printer) (results : List (List Byte × Node Double))
    (test : Collector) :
    let output := (finalizeOutput print test).2.output
    let sent := iperfOutputAddServerResults print results test
    (∃ tick, sent.2 = { (finalizeOutput print test).2 with tick := tick }) ∧
      ∀ members, sent.1 = some members →
        members = results ++ outputMembers output ++
          [(statusKey, .object (statusMembers output))] := by
  intro output sent
  obtain ⟨tick, same⟩ := allocate_same ((outputMembers output).length + 1 +
    (statusMembers output).length) (finalizeOutput print test).2
  have run : sent = (if (allocate ((outputMembers output).length + 1 +
      (statusMembers output).length) (finalizeOutput print test).2).1 = true then
        pure (some (results ++ outputMembers output ++
          [(statusKey, .object (statusMembers output))]))
      else pure none : Program Collector _)
        { (finalizeOutput print test).2 with tick := tick } := by
    rw [← same]
    rfl
  rw [run]
  split_ifs
  · exact ⟨⟨tick, rfl⟩, fun members found => (Option.some.inj found).symm⟩
  · exact ⟨⟨tick, rfl⟩, nofun⟩

theorem safe_run (print : Printer) (call : Call) :
    Preserves (Safe limit jsonOutput) (Call.run print call) := by
  intro test safe
  cases call with
  | reset => exact ⟨safe.byteLimit, safe.json, safe_fresh, nofun⟩
  | top tree => exact ⟨safe.byteLimit, safe.json, safe.safe, safe.finalized⟩
  | send results =>
      obtain ⟨⟨tick, same⟩, -⟩ := addServerResults_spec print results test
      have final := (safe_finalizeOutput print safe).1
      change Safe limit jsonOutput (iperfOutputAddServerResults print results test).2
      rw [same]
      exact ⟨final.byteLimit, final.json, final.safe, final.finalized⟩
  | printf stamp line =>
      rw [Call.run, bind_apply, current_apply]
      cases jsonOutput with
      | true =>
          rw [if_pos safe.json]
          exact safe
      | false =>
          rw [if_neg (by simp [safe.json])]
          refine safe.unlessFinalized (fun finalized => ?_) fun collects =>
            collects_collectPrintf collects stamp line
          rw [iperfOutputCollectPrintf, bind_apply, current_apply, if_pos finalized]
          rfl
  | interval tree =>
      rw [Call.run, bind_apply, current_apply]
      cases jsonOutput with
      | true =>
          rw [if_pos safe.json]
          refine safe.unlessFinalized (fun finalized => ?_) fun collects =>
            collects_collectInterval print collects tree
          rw [iperfOutputCollectInterval, bind_apply, current_apply, if_pos finalized]
          rfl
      | false =>
          rw [if_neg (by simp [safe.json])]
          exact safe

theorem safe_runCalls (print : Printer) (calls : List Call) :
    Preserves (Safe limit jsonOutput) (runCalls print calls) := by
  induction calls with
  | nil => exact preserves_pure _
  | cons call rest inductionHypothesis =>
      exact preserves_bind (safe_run print call) fun _ => inductionHypothesis

end Calls

/-! ### What is sent -/

section Status

variable {limit : Nat} {jsonOutput : Bool} {output : ServerOutput}

theorem Closed.makes (closed : Closed limit jsonOutput output) :
    Makes (.object (statusMembers output)) (claimOf output) where
  object := rfl
  version := rfl
  state := rfl
  sent := closed.begun
  format := rfl
  named := by
    change output.format ≠ .none
    rw [closed.safe.format closed.begun]
    cases jsonOutput <;> decide
  reason := rfl

theorem unambiguous_status (output : ServerOutput) :
    Unambiguous (.object (statusMembers output)) := by
  have once : ∀ key ∈ knownKeys,
      (knownKeys.filter fun name => decide (cString name = key)).length ≤ 1 := by
    decide +kernel
  have keys : ((statusMembers output).map Prod.fst).Sublist knownKeys := by
    rw [statusMembers]
    split_ifs
    · exact List.Sublist.refl knownKeys
    · exact List.take_sublist 4 knownKeys
  intro key known
  have filtered := (keys.filter fun name => decide (cString name = key)).length_le
  rw [List.filter_map, List.length_map] at filtered
  exact filtered.trans (once key known)

/-- The client takes the status for an output of this format, and also without any output if
none was sent. -/
theorem Closed.accepted (closed : Closed limit jsonOutput output) {received : ServerOutput}
    (agrees : received.format = .none ∨ received.format = formatOf jsonOutput)
    (nothing : received.state = .missing → output.value = none) :
    Accepted received (.object (statusMembers output)) (claimOf output) where
  makes := closed.makes
  consistent := closed.safe.claim closed.begun
  unambiguous := unambiguous_status output
  agrees := agrees.imp id fun same => same.trans (closed.safe.format closed.begun).symm
  received := fun missing => closed.safe.bytes.mp (nothing missing)

end Status

/-- A server before its first call. -/
def freshCollector (answers : Answers) (byteLimit : Nat) (jsonOutput : Bool) : Collector where
  answers := answers
  tick := 0
  byteLimit := byteLimit
  jsonOutput := jsonOutput
  output := {}
  outputScratch := false
  outputJsonValues := 0
  outputJsonIntervals := 0
  outputFinalized := false
  jsonTop := none

/-- After any calls, and whichever allocations fail, the output that is added to the results is
within the limit and valid text, and the client accepts the status that comes with it. -/
theorem sent_output_accepted (print : Printer) (answers : Answers) (limit : Nat)
    (jsonOutput : Bool) (calls : List Call) (results members : List (List Byte × Node Double))
    (sent : (iperfOutputAddServerResults print results
      (runCalls print calls (freshCollector answers limit jsonOutput)).2).1 = some members) :
    ∃ output : ServerOutput,
      members = results ++ outputMembers output ++ [(statusKey, .object (statusMembers output))] ∧
        Closed limit jsonOutput output ∧
        ∀ received : ServerOutput,
          received.format = .none ∨ received.format = formatOf jsonOutput →
          (received.state = .missing → output.value = none) →
          Accepted received (.object (statusMembers output)) (claimOf output) := by
  have fresh : Safe limit jsonOutput (freshCollector answers limit jsonOutput) :=
    ⟨rfl, rfl, safe_fresh, nofun⟩
  have safe := safe_runCalls print calls _ fresh
  have closed := (safe_finalizeOutput print safe).2
  exact ⟨_, (addServerResults_spec print results _).2 members sent, closed,
    fun received agrees nothing => closed.accepted agrees nothing⟩

/-- Two lines for a server that may keep three bytes. -/
def sampleCalls : List Call :=
  [.printf none ⟨some 2, some (bytesOf "ab")⟩, .printf none ⟨some 2, some (bytesOf "cd")⟩]

/-- The two lines as they are sent. -/
def sampleMembers : List (List Byte × Node Double) :=
  [(bytesOf "server_output_text", .string (bytesOf "abc")),
    (statusKey, .object
      [(bytesOf "version", .number (.ofInt 1)),
        (bytesOf "state", .number (.ofInt OutputState.truncated.code)),
        (bytesOf "format", .number (.ofInt OutputFormat.text.code)),
        (bytesOf "reason", .number (.ofInt OutputReason.byteLimit.code)),
        (bytesOf "observed_bytes", .number (.ofInt 4))])]

theorem sampleCalls_accepted :
    ∃ output : ServerOutput,
      sampleMembers = [] ++ outputMembers output ++
          [(statusKey, .object (statusMembers output))] ∧
        Closed 3 false output ∧
        ∀ received : ServerOutput,
          received.format = .none ∨ received.format = formatOf false →
          (received.state = .missing → output.value = none) →
          Accepted received (.object (statusMembers output)) (claimOf output) :=
  sent_output_accepted (fun _ _ => none) ⟨fun _ => true, fun _ => 0, fun _ => 0⟩ 3 false
    sampleCalls [] sampleMembers (by rfl)

end IperfSwift.Output
