import IperfSwift.Output.Fragmentation
import IperfSwift.Output.Core

/-!
Contract: which frames `iperf_read_bounded_results` accepts, and the tree it
returns for them.

Owns: the documented language of result frames; that the call accepts exactly
this language; and that the returned tree is the tree of the whole frame
without its output members.

Does not own: the output that is kept, and the memory in use meanwhile.
-/

set_option autoImplicit false

namespace IperfSwift.Output

open IperfSwift.Lib
open IperfSwift.CJson

variable {κ ν : Type}
variable {document : Json.Document} {heap : Heap} {outputLimit : Nat}

/-! ### The documented language -/

/-- The object keys of a document, at any depth. -/
def documentKeys (document : Json.Document) : List Json.Text :=
  document.memberList.flatMap fun member => member.key.text :: member.value.keys

/-- The limits of `iperf_bounded_output.h` on one document. -/
structure Documented (document : Json.Document) : Prop where
  noNul : ∀ text ∈ documentKeys document, text.NoNul
  shortNames : ∀ member ∈ document.memberList, (memberName member).length ≤ 127
  reserved : ∀ name ∈ uniqueNames, (named name (document.memberList.map memberName)).length ≤ 1
  numbers : ∀ member ∈ document.memberList, ∀ number ∈ member.value.numbers,
    number.bytes.length ≤ resultMaxNumberLength
  depth : ∀ member ∈ document.memberList, member.value.depth ≤ resultMaxDepth
  values : valueCount document.memberList ≤ resultMaxValues
  coreValues : valueCount (coreMembers document.memberList) ≤ resultCoreMaxValues
  core : (coreText document).length ≤ resultCoreMaxBytes

theorem namesPass_document (document : Json.Document) :
    NamesPass [] (document.memberList.map (·.key.text.decoded)) ↔
      ∀ name ∈ uniqueNames, (named name (document.memberList.map memberName)).length ≤ 1 := by
  rw [namesPass_iff]
  simp only [List.not_mem_nil, if_false, Nat.add_zero]
  rfl

theorem keysFit_document (document : Json.Document) :
    (∀ member ∈ document.memberList, KeysFit member) ↔
      (∀ text ∈ documentKeys document, text.NoNul) ∧
        (∀ member ∈ document.memberList, (memberName member).length ≤ 127) ∧
        ∀ member ∈ document.memberList, member.value.depth ≤ resultMaxDepth := by
  constructor
  · intro fit
    refine ⟨fun text found => ?_, fun member found => (fit member found).short,
      fun member found => (fit member found).value.shallow⟩
    obtain ⟨member, inList, here⟩ := List.mem_flatMap.mp found
    rcases List.mem_cons.mp here with rfl | inside
    · exact (fit member inList).noNul
    · exact (fit member inList).value.keys text inside
  · rintro ⟨noNul, short, shallow⟩ member found
    have keys : ∀ text ∈ member.key.text :: member.value.keys, text.NoNul :=
      fun text here => noNul text (List.mem_flatMap.mpr ⟨member, found, here⟩)
    obtain ⟨own, inside⟩ := List.forall_mem_cons.mp keys
    exact ⟨own, short member found, inside, shallow member found⟩

/-- The documented limits are the ones the scanner checks. -/
theorem documented_iff (document : Json.Document) : Documented document ↔
    Shaped document ∧ (∀ member ∈ document.memberList, KeysFit member) ∧
      (documentAmount document).Fits := by
  rw [keysFit_document, documentAmount_eq]
  constructor
  · intro documented
    exact ⟨⟨documented.numbers, (namesPass_document document).mpr documented.reserved⟩,
      ⟨documented.noNul, documented.shortNames, documented.depth⟩,
      documented.values, documented.coreValues, documented.core⟩
  · rintro ⟨⟨values, names⟩, ⟨noNul, short, shallow⟩, fits⟩
    exact ⟨noNul, short, (namesPass_document document).mp names, values, shallow,
      fits.values, fits.coreValues, fits.core⟩

/-! ### Scanning a frame -/

/-- The end of the run of a document, if memory does not run out. -/
theorem perform_documented (documented : Documented document) (outputLimit : Nat)
    (unlimited : heap.Unlimited) :
    ∃ final, perform (documentEvents document) (startState outputLimit heap) = (true, final) := by
  obtain ⟨-, keys, fits⟩ := (documented_iff document).mp documented
  have start : (startState outputLimit heap).tally.used.Fits := fits_zero
  obtain ⟨final, run, -⟩ := perform_of_tallies start unlimited
    ((tallies_document document _).mpr ⟨keys, fits, rfl⟩)
  exact ⟨final, run⟩

/-- A performed document keeps the limits, and its core text is the one promised. -/
theorem documented_of_perform (shaped : Shaped document) {final : ScanState}
    (run : perform (documentEvents document) (startState outputLimit heap) = (true, final)) :
    Documented document ∧ final.core = coreText document := by
  have start : (startState outputLimit heap).tally.used.Fits := fits_zero
  have tallied := tallies_of_perform start run
  obtain ⟨keys, fits, after⟩ := (tallies_document document _).mp tallied
  refine ⟨(documented_iff document).mpr ⟨shaped, keys, fits⟩, ?_⟩
  have core := congrArg (fun tally : Tally => tally.used.core) after
  rw [documentAmount_eq] at core
  exact core

section Frame

variable {frame later : List Byte} {ending : Ending} {read : ReadFunction κ} {context : κ}

theorem frameStream_whole (frame later : List Byte) (ending : Ending) :
    frameStream frame.length (frame ++ later) ending = ⟨frame, 0, ending.error⟩ := by
  simp [frameStream]

/-- The scanner on a frame that arrives in full, whatever the pieces. -/
theorem root_feed (delivers : Delivers read context (frame ++ later) ending) (scan : ScanState) :
    (root (Feed.source read) ⟨⟨context, frame.length, [], 0, []⟩, scan⟩).1 =
        (root Stream.source (position ending.error frame scan)).1 ∧
      (root (Feed.source read) ⟨⟨context, frame.length, [], 0, []⟩, scan⟩).2.scan =
        (root Stream.source (position ending.error frame scan)).2.scan := by
  obtain ⟨ahead, delivery, started⟩ := delivers
  have simulation : Simulation (FeedStream (frame ++ later) ending ahead) (Feed.source read)
      Stream.source := feed_simulation delivery
  have start : FeedStream (frame ++ later) ending ahead ⟨context, frame.length, [], 0, []⟩ _ :=
    feedStream_start frame.length started
  rw [frameStream_whole] at start
  obtain ⟨sameResult, after⟩ :=
    simulation.related_root _ _ (simulation.sameScan start scan)
  exact ⟨sameResult, after.scan⟩

/-- A successful scan has read one document. -/
theorem document_of_root (delivers : Delivers read context (frame ++ later) ending)
    (succeeded : (root (Feed.source read)
      ⟨⟨context, frame.length, [], 0, []⟩, startState outputLimit heap⟩).1 = true) :
    ∃ document, Json.Document.bytes document = frame ∧ Shaped document ∧
      perform (documentEvents document) (startState outputLimit heap) = (true,
        (root (Feed.source read)
          ⟨⟨context, frame.length, [], 0, []⟩, startState outputLimit heap⟩).2.scan) := by
  obtain ⟨sameResult, sameScan⟩ := root_feed delivers (startState outputLimit heap)
  have clean := (root_succeeded (feed_failed_ne_zero read) (Prod.ext succeeded rfl)).1
  rw [sameScan] at clean ⊢
  obtain ⟨trace, rest, scan, final, split, spec, run⟩ := exact_root.sound rfl
    (Prod.ext (sameResult.symm.trans succeeded) rfl) clean
  obtain ⟨-, rfl, document, rfl, shaped⟩ := spec
  rw [List.append_nil, consumed_documentEvents] at split
  have sameFinal := congrArg Parser.scan final
  exact ⟨document, split.symm, shaped, run.trans (congrArg (Prod.mk true) sameFinal.symm)⟩

/-- The scan of a document that keeps the limits succeeds. -/
theorem root_of_document (delivers : Delivers read context (document.bytes ++ later) ending)
    (shaped : Shaped document) {final : ScanState}
    (run : perform (documentEvents document) (startState outputLimit heap) = (true, final)) :
    (root (Feed.source read)
        ⟨⟨context, document.bytes.length, [], 0, []⟩, startState outputLimit heap⟩).1 = true ∧
      (root (Feed.source read) ⟨⟨context, document.bytes.length, [], 0, []⟩,
        startState outputLimit heap⟩).2.scan = final := by
  obtain ⟨sameResult, sameScan⟩ := root_feed delivers (startState outputLimit heap)
  have scanned : root Stream.source (position ending.error (consumed (documentEvents document) ++
      []) (startState outputLimit heap)) = (true, position ending.error [] final) :=
    exact_root.complete rfl ⟨rfl, rfl, document, rfl, shaped⟩ run
  rw [List.append_nil, consumed_documentEvents] at scanned
  rw [sameResult, sameScan, scanned]
  exact ⟨rfl, rfl⟩

end Frame

/-! ### The call of cJSON -/

theorem nestingLimit_le {depth : Nat} (shallow : depth ≤ resultMaxDepth + 1) :
    depth ≤ nestingLimit :=
  shallow.trans (by decide)

/-- cJSON reads the core text of a documented frame, or memory runs out. -/
theorem obtains_core (convert : List Byte → ν) (documented : Documented document) :
    Obtains (cJSONParseWithLengthOpts convert (coreText document ++ [0]) true)
      (tree convert (coreDocument document).value) [0]
      (nodeSize :: valueBlocks (coreDocument document).value) := by
  rw [← coreDocument_text]
  exact cJSONParseWithLengthOpts_text convert Json.Space.none Json.Space.none
    (nestingLimit_le (coreDocument_depth documented.depth))
    (coreDocument_numbers documented.numbers) true

theorem document_numbers (documented : Documented document) :
    ∀ number ∈ document.value.numbers, number.bytes.length ≤ numberBuffer := by
  rw [Json.Document.value_numbers]
  intro number found
  obtain ⟨member, here, found⟩ := List.mem_flatMap.mp found
  exact documented.numbers member here number found

/-- cJSON reads the whole frame as well, with or without a terminator behind it. -/
theorem obtains_frame (convert : List Byte → ν) (documented : Documented document) :
    (∀ requireNullTerminated, Obtains (cJSONParseWithLengthOpts convert (document.bytes ++ [0])
        requireNullTerminated) (tree convert document.value) (document.after.val ++ [0])
        (nodeSize :: valueBlocks document.value)) ∧
      Obtains (cJSONParseWithLengthOpts convert document.bytes false)
        (tree convert document.value) document.after.val
        (nodeSize :: valueBlocks document.value) := by
  have shallow := nestingLimit_le (Json.Document.value_depth_le documented.depth)
  have numbers := document_numbers documented
  constructor
  · intro requireNullTerminated
    rw [Json.Document.bytes_eq, List.append_assoc, List.append_assoc]
    exact cJSONParseWithLengthOpts_text convert document.before document.after shallow numbers
      requireNullTerminated
  · rw [Json.Document.bytes_eq]
    exact cJSONParseWithLengthOpts_value convert document.before (ends_blanks document.after)
      shallow numbers fun impossible => nomatch impossible

theorem cJSONParse_frame (convert : List Byte → ν) (document : Json.Document) :
    cJSONParse convert document.bytes =
      cJSONParseWithLengthOpts convert (document.bytes ++ [0]) false := by
  have whole : document.bytes.takeWhile (· ≠ 0) = document.bytes := by
    refine List.takeWhile_eq_self_iff.mpr fun byte member => decide_eq_true ?_
    rintro rfl
    exact document.zero_notMem member
  rw [cJSONParse, whole]

theorem obtains_unlimited {α : Type} {program : Program Heap (Option (Parsed α))} {value : α}
    {rest : List Byte} {blocks : List Nat} (obtains : Obtains program value rest blocks)
    (unlimited : heap.Unlimited) :
    program heap = (some ⟨value, rest, blocks⟩, heap.grant blocks) := by
  rcases obtains heap with done | ⟨after, -, before, size, later, released, -, limited, -⟩
  · exact done
  · exact absurd unlimited limited

/-- A refusal shows among the events since the call. -/
theorem refusedSince_of_refuses {blocks kept : List Nat} {after : Heap}
    (refuses : Heap.Refuses blocks kept heap after) : refusedSince heap after = true := by
  obtain ⟨before, size, later, released, -, -, -, rfl⟩ := refuses
  simp [refusedSince]

theorem parseCore_fst (convert : List Byte → ν) (state : ScanState) :
    (parseCore convert state).1 =
      (cJSONParseWithLengthOpts convert (state.core ++ [0]) true state.heap).1 := by
  unfold parseCore
  dsimp only
  split
  next found => exact found.symm
  next nothing => exact nothing.symm

/-! ### The call -/

/-- The limits a caller has to keep. -/
structure ValidCall (frameLength outputLimit : Nat) : Prop where
  nonempty : 1 ≤ frameLength
  short : frameLength ≤ resultFrameMaxBytes
  positive : 1 ≤ outputLimit
  small : outputLimit ≤ outputMaxBytes

section Call

variable {read : ReadFunction κ} {context : κ} {frameLength outputLimit : Nat} {heap : Heap}

/-- The state in which the scanner of a call ends, once its buffer is granted. -/
def scanned (read : ReadFunction κ) (context : κ) (frameLength outputLimit : Nat) (heap : Heap) :
    Bool × Parser (Feed κ) :=
  root (Feed.source read) ⟨⟨context, frameLength, [], 0, []⟩,
    startState outputLimit (Heap.malloc (resultCoreMaxBytes + 1) heap).2⟩

/-- What a call with a valid length and limit comes down to. -/
theorem iperfReadBoundedResults_valid (valid : ValidCall frameLength outputLimit)
    (convert : List Byte → ν) :
    iperfReadBoundedResults convert frameLength outputLimit read context heap =
      let scan := scanned read context frameLength outputLimit heap
      if (Heap.malloc (resultCoreMaxBytes + 1) heap).1 then
        if scan.1 then
          finishRead (parseCore convert scan.2.scan).1
            ⟨scan.2.input, (parseCore convert scan.2.scan).2⟩
        else finishRead none scan.2
      else ⟨.error ENOMEM, { state := .invalid, reason := .allocationFailure }, {},
        (Heap.malloc (resultCoreMaxBytes + 1) heap).2, ⟨context, frameLength, [], 0, []⟩⟩ := by
  have goodLimit : ¬ (outputLimit = 0 ∨ outputMaxBytes < outputLimit) := by
    have positive := valid.positive
    have small := valid.small
    omega
  have goodLength : ¬ (frameLength = 0 ∨ resultFrameMaxBytes < frameLength) := by
    have nonempty := valid.nonempty
    have short := valid.short
    omega
  rw [iperfReadBoundedResults, readBoundedResults, if_neg goodLimit, if_neg goodLength]
  rfl

/-- A call succeeds if its buffer is granted, the scanner succeeds and cJSON does. -/
theorem iperfReadBoundedResults_ok (valid : ValidCall frameLength outputLimit)
    (convert : List Byte → ν) (parsed : Parsed (Node ν)) :
    (iperfReadBoundedResults convert frameLength outputLimit read context heap).result =
        .ok parsed ↔
      (Heap.malloc (resultCoreMaxBytes + 1) heap).1 = true ∧
        (scanned read context frameLength outputLimit heap).1 = true ∧
        (parseCore convert (scanned read context frameLength outputLimit heap).2.scan).1 =
          some parsed := by
  rw [iperfReadBoundedResults_valid valid]
  dsimp only
  by_cases granted : (Heap.malloc (resultCoreMaxBytes + 1) heap).1 = true
  · rw [if_pos granted]
    split_ifs with succeeded
    · simp only [granted, succeeded, true_and]
      cases (parseCore convert (scanned read context frameLength outputLimit heap).2.scan).1 with
      | none | some tree => simp [finishRead]
    · simp [finishRead, succeeded]
  · rw [if_neg granted]
    simp [granted]

end Call

section Delivered

variable {frame later : List Byte} {ending : Ending} {read : ReadFunction κ} {context : κ}
  {outputLimit : Nat} {heap : Heap}

/-- A scan that succeeds has found a documented frame and its core text. -/
theorem documented_of_scanned (delivers : Delivers read context (frame ++ later) ending)
    (succeeded : (scanned read context frame.length outputLimit heap).1 = true) :
    ∃ document, Json.Document.bytes document = frame ∧ Documented document ∧
      (scanned read context frame.length outputLimit heap).2.scan.core = coreText document := by
  obtain ⟨document, bytes, shaped, run⟩ := document_of_root delivers succeeded
  obtain ⟨documented, core⟩ := documented_of_perform shaped run
  exact ⟨document, bytes, documented, core⟩

theorem document_of_ok (valid : ValidCall frame.length outputLimit)
    (delivers : Delivers read context (frame ++ later) ending) {convert : List Byte → ν}
    {parsed : Parsed (Node ν)}
    (ok : (iperfReadBoundedResults convert frame.length outputLimit read context heap).result =
      .ok parsed) :
    ∃ document, Json.Document.bytes document = frame ∧ Documented document ∧
      parsed.value = tree convert (coreDocument document).value := by
  obtain ⟨-, succeeded, found⟩ := (iperfReadBoundedResults_ok valid convert parsed).mp ok
  obtain ⟨document, bytes, documented, core⟩ := documented_of_scanned delivers succeeded
  refine ⟨document, bytes, documented, ?_⟩
  rw [parseCore_fst, core] at found
  rcases obtains_core convert documented
    (scanned read context frame.length outputLimit heap).2.scan.heap with done | ⟨_, failed, -⟩
  · rw [done] at found
    rw [← Option.some.inj found]
  · rw [failed] at found
    cases found

theorem ok_of_document {document : Json.Document}
    (valid : ValidCall document.bytes.length outputLimit) (documented : Documented document)
    (delivers : Delivers read context (document.bytes ++ later) ending)
    (unlimited : heap.Unlimited) (convert : List Byte → ν) :
    ∃ parsed, (iperfReadBoundedResults convert document.bytes.length outputLimit read context
      heap).result = .ok parsed := by
  have granted := Heap.malloc_of_unlimited unlimited (resultCoreMaxBytes + 1)
  have stillUnlimited : (Heap.malloc (resultCoreMaxBytes + 1) heap).2.Unlimited := by
    rw [granted]
    exact unlimited
  obtain ⟨shaped, -⟩ := (documented_iff document).mp documented
  obtain ⟨final, run⟩ := perform_documented documented outputLimit stillUnlimited
  obtain ⟨succeeded, sameScan⟩ := root_of_document delivers shaped run
  have core := (documented_of_perform shaped run).2
  have finalUnlimited : final.heap.Unlimited := by
    intro request
    have sameGrants := grants_run (documentEvents document)
      (startState outputLimit (Heap.malloc (resultCoreMaxBytes + 1) heap).2)
    rw [run] at sameGrants
    rw [sameGrants]
    exact stillUnlimited request
  have parsed := obtains_unlimited (obtains_core convert documented) finalUnlimited
  rw [← core] at parsed
  have found := (parseCore_fst convert final).trans (congrArg Prod.fst parsed)
  rw [← sameScan] at found
  exact ⟨_, (iperfReadBoundedResults_ok valid convert _).mpr
    ⟨congrArg Prod.fst granted, succeeded, found⟩⟩

/-- The call accepts exactly the documented language. -/
theorem iperfReadBoundedResults_language (convert : List Byte → ν) (frame later : List Byte)
    {ending : Ending} {read : ReadFunction κ} {context : κ} {outputLimit : Nat} {heap : Heap}
    (valid : ValidCall frame.length outputLimit)
    (delivers : Delivers read context (frame ++ later) ending) (unlimited : heap.Unlimited) :
    (∃ parsed, (iperfReadBoundedResults convert frame.length outputLimit read context
        heap).result = .ok parsed) ↔
      ∃ document, Json.Document.bytes document = frame ∧ Documented document := by
  constructor
  · rintro ⟨parsed, ok⟩
    obtain ⟨document, bytes, documented, -⟩ := document_of_ok valid delivers ok
    exact ⟨document, bytes, documented⟩
  · rintro ⟨document, rfl, documented⟩
    exact ok_of_document valid documented delivers unlimited convert

/-- A frame with one statistic and one output member, as a document. -/
def sampleDocument : Json.Document :=
  .ofList [⟨⟨"a".toList.map coreSpelling, .none, .none⟩,
      .number ⟨false, ⟨bytesOf "1", by decide⟩, by decide, none, none⟩, .none⟩,
    ⟨⟨"server_output_text".toList.map coreSpelling, .none, .none⟩,
      .text ("x".toList.map coreSpelling), .none⟩]

theorem sampleDocument_documented : Documented sampleDocument where
  noNul := by decide
  shortNames := by decide
  reserved := by decide
  numbers := by decide
  depth := by decide
  values := by decide
  coreValues := by decide
  core := by decide

theorem language_of_sampleDocument :
    let frame := bytesOf "\x7b\"a\":1,\"server_output_text\":\"x\"\x7d"
    ∃ parsed, (iperfReadBoundedResults id frame.length 1 (memoryReader 1) frame
      ⟨fun _ => true, []⟩).result = .ok parsed := by
  intro frame
  exact (iperfReadBoundedResults_language id frame [] ⟨by decide, by decide, by decide, by decide⟩
    (memoryReader_delivers (by decide : 0 < 1) _) fun _ => rfl).mpr
    ⟨sampleDocument, by decide, sampleDocument_documented⟩

/-- cJSON reads the whole frame of a call that succeeds, and the tree returned is the whole
tree without its output members. The core text is refused for lack of memory only. -/
theorem iperfReadBoundedResults_statistics (convert : List Byte → ν) (frame later : List Byte)
    {ending : Ending} {read : ReadFunction κ} {context : κ} {outputLimit : Nat} {heap : Heap}
    (valid : ValidCall frame.length outputLimit)
    (delivers : Delivers read context (frame ++ later) ending) :
    (∀ parsed, (iperfReadBoundedResults convert frame.length outputLimit read context
        heap).result = .ok parsed → ∀ unbounded : Heap, unbounded.Unlimited →
      ∀ parse ∈ [cJSONParse convert frame, cJSONParseWithLengthOpts convert frame false,
        cJSONParseWithLengthOpts convert (frame ++ [0]) false,
        cJSONParseWithLengthOpts convert (frame ++ [0]) true],
      ∃ whole, (parse unbounded).1 = some whole ∧
        parsed.value = withoutOutput whole.value) ∧
    ((scanned read context frame.length outputLimit heap).1 = true → ∀ coreHeap : Heap,
      let core := (scanned read context frame.length outputLimit heap).2.scan.core
      let parse := cJSONParseWithLengthOpts convert (core ++ [0]) true coreHeap
      parse.1 = none → refusedSince coreHeap parse.2 = true) := by
  constructor
  · intro parsed ok unbounded unlimited
    obtain ⟨document, rfl, documented, value⟩ := document_of_ok valid delivers ok
    obtain ⟨terminated, unterminated⟩ := obtains_frame convert documented
    rw [tree_coreDocument] at value
    have found : ∀ {program : Program Heap (Option (Parsed (Node ν)))} {rest : List Byte}
        {blocks : List Nat}, Obtains program (tree convert document.value) rest blocks →
        ∃ whole, (program unbounded).1 = some whole ∧
          parsed.value = withoutOutput whole.value := by
      intro program rest blocks obtains
      exact ⟨_, congrArg Prod.fst (obtains_unlimited obtains unlimited), value⟩
    rw [cJSONParse_frame]
    simp only [List.forall_mem_cons]
    exact ⟨found (terminated false), found unterminated, found (terminated false),
      found (terminated true), fun _ impossible => absurd impossible List.not_mem_nil⟩
  · intro succeeded coreHeap core parse failed
    obtain ⟨document, -, documented, isCore⟩ := documented_of_scanned delivers succeeded
    rcases obtains_core convert documented coreHeap with done | ⟨after, refused, refuses⟩
    · rw [← isCore] at done
      rw [show parse = _ from done] at failed
      cases failed
    · rw [← isCore] at refused
      rw [show parse = _ from refused]
      exact refusedSince_of_refuses refuses

theorem statistics_of_sampleDocument :
    let frame := sampleDocument.bytes
    let heap : Heap := ⟨fun _ => true, []⟩
    ∃ parsed whole, (iperfReadBoundedResults id frame.length 1 (memoryReader 1) frame
        heap).result = .ok parsed ∧ (cJSONParse id frame heap).1 = some whole ∧
      parsed.value = withoutOutput whole.value := by
  intro frame heap
  have valid : ValidCall frame.length 1 := ⟨by decide, by decide, by decide, by decide⟩
  have delivers : Delivers (memoryReader 1) frame (frame ++ []) .endOfInput := by
    rw [List.append_nil]
    exact memoryReader_delivers (by decide) frame
  have unlimited : heap.Unlimited := fun _ => rfl
  obtain ⟨parsed, ok⟩ := ok_of_document valid sampleDocument_documented delivers unlimited id
  obtain ⟨whole, found, same⟩ := (iperfReadBoundedResults_statistics id frame [] valid
    delivers).1 parsed ok heap unlimited _ (List.mem_cons_self ..)
  exact ⟨parsed, whole, ok, found, same⟩

end Delivered

end IperfSwift.Output
