import IperfSwift.Output.Arrival

/-!
Contract: the memory a result frame can claim.

Owns: the heap invariant of the scanner; the bound on the live bytes at every
moment of `iperf_read_bounded_results`, on its single requests and on the depth
of its recursion; and what is left allocated when it returns.

Nothing is assumed of the read function or of the allocator.
-/

set_option autoImplicit false

namespace IperfSwift.Output

open IperfSwift.Lib
open IperfSwift.Lib.Program
open IperfSwift.CJson

variable {κ ν : Type}
variable {σ : Type} {document : Json.Document}

/-! ### The heap while scanning -/

/-- The core text buffer. -/
def coreBlock : Nat := resultCoreMaxBytes + 1

/-- The buffer that holds server output, if there is one. -/
def outputBlock (limit : Nat) (output : ServerOutput) : Multiset Nat :=
  if output.value.isSome then {limit + 1} else 0

theorem outputBlock_sum_le (limit : Nat) (output : ServerOutput) :
    (outputBlock limit output).sum ≤ limit + 1 := by
  unfold outputBlock
  split
  · exact (Multiset.sum_singleton _).le
  · exact Nat.zero_le _

/-- What the scanner keeps true of its heap, counted from the start of the call. -/
structure ScanMemory (bound : Nat) (start : Heap) (outputLimit : Nat) (scan : ScanState) : Prop where
  limit : scan.limit = outputLimit
  shallow : scan.metrics.maximumDepth ≤ resultMaxDepth
  moves : Heap.Moves bound coreBlock start 0 scan.heap
    (coreBlock ::ₘ outputBlock outputLimit scan.output)

section Scanner

variable {bound outputLimit : Nat} {start : Heap} {scan : ScanState}

/-- A change that touches neither the heap nor the buffer. -/
theorem ScanMemory.of_same (memory : ScanMemory bound start outputLimit scan) {other : ScanState}
    (limit : other.limit = scan.limit) (shallow : other.metrics.maximumDepth ≤ resultMaxDepth)
    (heap : other.heap = scan.heap)
    (value : other.output.value.isSome = scan.output.value.isSome) :
    ScanMemory bound start outputLimit other := by
  have sameBlock : outputBlock outputLimit other.output = outputBlock outputLimit scan.output := by
    rw [outputBlock, outputBlock, value]
  refine ⟨limit.trans memory.limit, shallow, ?_⟩
  rw [heap, sameBlock]
  exact memory.moves

theorem ScanMemory.moves_freeValue (memory : ScanMemory bound start outputLimit scan) :
    Heap.Moves bound coreBlock start 0 (freeValue scan) {coreBlock} := by
  have moves := memory.moves
  have swapped : coreBlock ::ₘ {outputLimit + 1} = (outputLimit + 1) ::ₘ {coreBlock} :=
    Multiset.cons_swap _ _ 0
  unfold freeValue
  cases held : scan.output.value with
  | none =>
      simp only [outputBlock, held, Option.isSome_none, if_false, Bool.false_eq_true] at moves
      exact moves
  | some bytes =>
      simp only [outputBlock, held, Option.isSome_some, if_true, swapped] at moves
      rw [memory.limit]
      exact moves.trans (Heap.moves_free moves.fits)

theorem ScanMemory.fail (memory : ScanMemory bound start outputLimit scan) (error : Errno) :
    ScanMemory bound start outputLimit (fail error scan).2 := by
  unfold Output.fail
  dsimp only
  split
  · exact memory.of_same rfl memory.shallow rfl rfl
  · exact memory

theorem ScanMemory.discardOutput (memory : ScanMemory bound start outputLimit scan)
    (outputState : OutputState) (reason : OutputReason) :
    ScanMemory bound start outputLimit (discardOutput outputState reason scan) :=
  ⟨memory.limit, memory.shallow, memory.moves_freeValue⟩

theorem ScanMemory.emit (memory : ScanMemory bound start outputLimit scan) (byte : Byte) :
    ScanMemory bound start outputLimit (emit byte scan).2 := by
  unfold Output.emit
  cases scan.capture with
  | discard => exact memory
  | core =>
      dsimp only
      split
      · exact memory.fail EFBIG
      · exact memory.of_same rfl memory.shallow rfl rfl
  | outputJson =>
      dsimp only
      split
      · split
        · refine ScanMemory.discardOutput ?_ _ _
          exact memory.of_same rfl memory.shallow rfl rfl
        · exact memory.of_same rfl memory.shallow rfl Option.isSome_map
      · exact memory.of_same rfl memory.shallow rfl rfl

theorem ScanMemory.decodedText (memory : ScanMemory bound start outputLimit scan) (scalar : Nat)
    (bytes : List Byte) : ScanMemory bound start outputLimit (decodedText scalar bytes scan) := by
  unfold Output.decodedText
  dsimp only
  split
  · refine ScanMemory.discardOutput ?_ _ _
    exact memory.of_same rfl memory.shallow rfl rfl
  · split
    · split
      · exact memory.of_same rfl memory.shallow rfl rfl
      · exact memory.of_same rfl memory.shallow rfl Option.isSome_map
    · exact memory.of_same rfl memory.shallow rfl rfl

theorem ScanMemory.decodedScalar (memory : ScanMemory bound start outputLimit scan)
    (destination : Option Decoded) (scalar : Nat) :
    ScanMemory bound start outputLimit (decodedScalar destination scalar scan).2 := by
  unfold Output.decodedScalar
  cases destination with
  | none => exact memory
  | some decoded =>
      dsimp only
      split
      · exact memory.fail EPROTO
      · split
        · split
          · exact memory.fail _
          · exact memory.of_same rfl memory.shallow rfl rfl
        · split
          · exact memory.decodedText scalar _
          · exact memory

theorem ScanMemory.enterValue (memory : ScanMemory bound start outputLimit scan) {depth : Nat}
    (shallow : depth ≤ resultMaxDepth) :
    ScanMemory bound start outputLimit (enterValue depth scan).2 := by
  have deepest : max depth scan.metrics.maximumDepth ≤ resultMaxDepth :=
    max_le shallow memory.shallow
  unfold Output.enterValue
  dsimp only
  split
  · refine ScanMemory.fail ?_ EFBIG
    exact memory.of_same rfl memory.shallow rfl rfl
  · cases scan.capture with
    | discard => exact memory.of_same rfl deepest rfl rfl
    | core =>
        dsimp only
        split
        · refine ScanMemory.fail ?_ EFBIG
          exact memory.of_same rfl deepest rfl rfl
        · exact memory.of_same rfl deepest rfl rfl
    | outputJson =>
        dsimp only
        split
        · refine ScanMemory.discardOutput ?_ _ _
          exact memory.of_same rfl deepest rfl rfl
        · exact memory.of_same rfl deepest rfl rfl

/-- Both buffers together. -/
def buffersFit (bound outputLimit : Nat) : Prop :=
  (coreBlock ::ₘ {outputLimit + 1}).sum ≤ bound ∧ outputLimit + 1 ≤ coreBlock

theorem ScanMemory.beginOutput (memory : ScanMemory bound start outputLimit scan)
    (fit : buffersFit bound outputLimit) (format : OutputFormat) :
    ScanMemory bound start outputLimit (beginOutput format scan).2 := by
  have swapped : coreBlock ::ₘ {outputLimit + 1} = (outputLimit + 1) ::ₘ {coreBlock} :=
    Multiset.cons_swap _ _ 0
  have released := memory.moves_freeValue
  have fits := fit.1
  rw [swapped] at fits
  unfold Output.beginOutput
  rw [memory.limit]
  dsimp only
  rcases @Heap.moves_malloc _ _ _ (freeValue scan) _ fits fit.2 with ⟨granted, moves⟩ |
    ⟨refused, moves⟩
  · rw [if_pos granted]
    refine ⟨rfl, memory.shallow, ?_⟩
    rw [← swapped] at moves
    exact released.trans moves
  · rw [if_neg (by rw [refused]; exact Bool.false_ne_true)]
    refine ScanMemory.fail ?_ ENOMEM
    exact ⟨rfl, memory.shallow, released.trans moves⟩

theorem ScanMemory.startState {bound outputLimit : Nat} {start heap : Heap}
    (moves : Heap.Moves bound coreBlock start 0 heap {coreBlock}) :
    ScanMemory bound start outputLimit (startState outputLimit heap) :=
  ⟨rfl, Nat.zero_le _, moves⟩

/-- The scanner keeps the invariant over any source. -/
theorem keeps_scanMemory (source : Source σ) (fit : buffersFit bound outputLimit) :
    Keeps (fun parser => ScanMemory bound start outputLimit parser.scan) source where
  peek := by
    intro parser memory
    unfold peek
    split
    · exact memory
    · dsimp only
      split
      · exact memory
      · exact memory
      · exact memory.fail _
  advance := fun _ memory => memory
  refuse := fun _ memory => memory.fail EPROTO
  emit := fun byte _ memory => memory.emit byte
  decodedScalar := fun destination scalar _ memory => memory.decodedScalar destination scalar
  enterValue := fun _ shallow _ memory => memory.enterValue shallow
  beginOutput := fun format _ memory => memory.beginOutput fit format
  wrongType := fun _ memory => ⟨memory.limit, memory.shallow, memory.moves_freeValue⟩
  setCapture := fun _ _ memory => memory.of_same rfl memory.shallow rfl rfl
  clearKey := fun _ memory => memory.of_same rfl memory.shallow rfl rfl

end Scanner

/-! ### The blocks of the tree -/

/-- The most bytes that can be live during a call. -/
def memoryBound (outputLimit : Nat) : Nat :=
  2 * resultCoreMaxBytes + outputLimit + 2 + (resultCoreMaxValues + 1) * nodeSize

theorem buffersFit_memoryBound {outputLimit : Nat} (small : outputLimit ≤ outputMaxBytes) :
    buffersFit (memoryBound outputLimit) outputLimit := by
  refine ⟨?_, Nat.succ_le_succ small⟩
  rw [Multiset.sum_cons, Multiset.sum_singleton, coreBlock, memoryBound]
  omega

theorem items_count (members : Json.Members) :
    members.items.count = valueCount members.toList := by
  induction members with
  | last member => exact (Nat.add_zero _).symm
  | cons member next rest inductionHypothesis =>
      show member.value.count + rest.items.count = _
      rw [inductionHypothesis]
      rfl

theorem document_count (document : Json.Document) :
    document.value.count = 1 + valueCount document.memberList := by
  obtain ⟨before, inside, members, after⟩ := document
  cases members with
  | none => rfl
  | some members => exact congrArg (1 + ·) (items_count members)

theorem compact_count (member : Json.Member) : (respelled member).value.count = member.value.count :=
  member.value.compact_count

theorem coreDocument_count (document : Json.Document) :
    (coreDocument document).value.count = 1 + valueCount (coreMembers document.memberList) := by
  rw [document_count, coreDocument_memberList, valueCount, valueCount, List.map_map]
  exact congrArg (fun counts => 1 + counts.sum)
    (List.map_congr_left fun member _ => compact_count member)

/-- The blocks of the tree, next to both buffers. -/
theorem blocks_fit (documented : Documented document) (outputLimit : Nat) (output : ServerOutput) :
    (coreBlock ::ₘ outputBlock outputLimit output +
      (nodeSize :: valueBlocks (coreDocument document).value : List Nat)).sum ≤
        memoryBound outputLimit := by
  have blocks := valueBlocks_sum (coreDocument document).value
  have values := documented.coreValues
  have text := documented.core
  have buffer := outputBlock_sum_le outputLimit output
  rw [coreDocument_count, coreDocument_text] at blocks
  have nodes : nodeSize * (1 + valueCount (coreMembers document.memberList)) ≤
      (resultCoreMaxValues + 1) * nodeSize := by
    rw [Nat.mul_comm, Nat.add_comm]
    exact Nat.mul_le_mul_right nodeSize (Nat.succ_le_succ values)
  rw [Multiset.sum_add, Multiset.sum_cons, Multiset.sum_coe, List.sum_cons, coreBlock, memoryBound]
  omega

theorem blocks_small (documented : Documented document) :
    ∀ size ∈ nodeSize :: valueBlocks (coreDocument document).value, size ≤ coreBlock := by
  have node : nodeSize ≤ coreBlock := by decide
  refine List.forall_mem_cons.mpr ⟨node, fun size found => ?_⟩
  rcases valueBlocks_le _ size found with rfl | inText
  · exact node
  · rw [coreDocument_text] at inText
    exact inText.trans (documented.core.trans (Nat.le_succ _))

/-! ### The end of a call -/

section Finish

variable {bound outputLimit : Nat} {start : Heap} {scan : ScanState}

/-- A call that fails gives everything back. -/
theorem moves_finish_none (memory : ScanMemory bound start outputLimit scan) (input : σ) :
    Heap.Moves bound coreBlock start 0
      (finishRead (none : Option (Parsed (Node ν))) ⟨input, scan⟩).heap 0 := by
  have moves := memory.moves
  have freed := moves.trans (Heap.moves_free moves.fits)
  have freedSum := freed.fits
  show Heap.Moves bound coreBlock start 0
    (freeValue { scan with heap := scan.heap.free coreBlock }) 0
  unfold freeValue
  cases held : scan.output.value with
  | none =>
      simp only [outputBlock, held, Option.isSome_none, if_false, Bool.false_eq_true] at freed
      exact freed
  | some bytes =>
      simp only [outputBlock, held, Option.isSome_some, if_true] at freed freedSum
      rw [memory.limit]
      exact freed.trans (Heap.moves_free freedSum)

end Finish

/-- The heap and the depth at the end of a call. -/
structure CallMemory {σ : Type} (start : Heap) (outputLimit : Nat) (call : ReadOutcome ν σ) : Prop where
  shallow : call.metrics.maximumDepth ≤ resultMaxDepth
  moves : ∃ left, Heap.Moves (memoryBound outputLimit) coreBlock start 0 call.heap left ∧
    (∀ errno, call.result = .error errno → left = 0) ∧
    ∀ parsed, call.result = .ok parsed → left = outputBlock outputLimit call.output + parsed.owned

/-- A call that never gets its first buffer. -/
theorem callMemory_of_nothing {start : Heap} {outputLimit : Nat} {call : ReadOutcome ν σ}
    (metrics : call.metrics = {}) (errno : Errno) (failed : call.result = .error errno)
    (moves : Heap.Moves (memoryBound outputLimit) coreBlock start 0 call.heap 0) :
    CallMemory start outputLimit call := by
  refine ⟨by rw [metrics]; exact Nat.zero_le _, 0, moves, fun _ _ => rfl, fun parsed ok => ?_⟩
  rw [failed] at ok
  cases ok

section Scan

variable {σ : Type} {outputLimit : Nat} {start : Heap} {scan : ScanState}

theorem callMemory_of_failure
    (memory : ScanMemory (memoryBound outputLimit) start outputLimit scan) (input : σ) :
    CallMemory start outputLimit
      (finishRead (none : Option (Parsed (Node ν))) ⟨input, scan⟩) := by
  refine ⟨memory.shallow, 0, moves_finish_none memory input, fun _ _ => rfl, fun parsed ok => ?_⟩
  cases ok

/-- The call of cJSON on the core text of a documented frame, and the end behind it. -/
theorem callMemory_of_success (convert : List Byte → ν) (documented : Documented document)
    (core : scan.core = coreText document)
    (memory : ScanMemory (memoryBound outputLimit) start outputLimit scan) (input : σ) :
    CallMemory start outputLimit (finishRead (parseCore convert scan).1
      ⟨input, (parseCore convert scan).2⟩) := by
  have fits := blocks_fit documented outputLimit scan.output
  have small := blocks_small documented
  have obtains := obtains_core convert documented scan.heap
  rw [← core] at obtains
  unfold parseCore
  dsimp only
  rcases obtains with done | ⟨after, failed, refuses⟩
  · rw [done]
    have granted := memory.moves.trans (Heap.moves_grant _ fits small)
    rw [Multiset.cons_add] at granted
    refine ⟨memory.shallow, _, granted.trans (Heap.moves_free granted.fits), ?_, ?_⟩
    · intro errno failed
      cases failed
    · intro parsed ok
      obtain rfl := Except.ok.inj ok
      rfl
  · rw [failed]
    have given := memory.moves.trans (Heap.moves_refuses refuses fits small)
    refine callMemory_of_failure ?_ input
    refine ScanMemory.fail ?_ _
    exact ⟨memory.limit, memory.shallow, given⟩

end Scan

theorem callMemory (convert : List Byte → ν) (frameLength outputLimit : Nat)
    (read : ReadFunction κ) (context : κ) (heap : Heap) :
    CallMemory heap outputLimit
      (iperfReadBoundedResults convert frameLength outputLimit read context heap) := by
  have nothing : Heap.Moves (memoryBound outputLimit) coreBlock heap 0 heap 0 :=
    Heap.Moves.refl (Nat.zero_le _)
  rw [iperfReadBoundedResults, readBoundedResults]
  by_cases badLimit : outputLimit = 0 ∨ outputMaxBytes < outputLimit
  · rw [if_pos badLimit]
    exact callMemory_of_nothing rfl EINVAL rfl nothing
  rw [if_neg badLimit]
  split_ifs with badLength
  · exact callMemory_of_nothing rfl EFBIG rfl nothing
  have fit : buffersFit (memoryBound outputLimit) outputLimit :=
    buffersFit_memoryBound (Nat.le_of_not_lt fun large => badLimit (.inr large))
  have coreFits : (coreBlock ::ₘ 0).sum ≤ memoryBound outputLimit := by
    have both := fit.1
    rw [Multiset.sum_cons] at both ⊢
    exact (Nat.add_le_add_left (Nat.zero_le _) _).trans both
  dsimp only
  rw [← scanned, ← coreBlock]
  rcases @Heap.moves_malloc _ _ _ heap _ coreFits (Nat.le_refl _) with ⟨granted, moves⟩ |
    ⟨refused, moves⟩
  · rw [if_pos granted]
    have memory : ScanMemory (memoryBound outputLimit) heap outputLimit
        (scanned read context frameLength outputLimit heap).2.scan :=
      (keeps_scanMemory (Feed.source read) fit).preserves_root (fun _ memory => memory.fail EFBIG) _
        (.startState moves)
    split_ifs with succeeded
    · obtain ⟨document, documented, -, core⟩ := document_of_scanned context succeeded
      exact callMemory_of_success convert documented core memory _
    · exact callMemory_of_failure memory _
  · rw [if_neg (by rw [refused]; exact Bool.false_ne_true)]
    exact callMemory_of_nothing rfl ENOMEM rfl moves

/-- Whatever the peer sends and however its bytes arrive: the live bytes are bounded at every
moment of the call, so are its single requests and its depth. A call that fails leaves nothing
allocated, and one that succeeds only the tree and the output it hands over. -/
theorem iperfReadBoundedResults_memory (convert : List Byte → ν) (frameLength outputLimit : Nat)
    (read : ReadFunction κ) (context : κ) (heap : Heap) :
    let call := iperfReadBoundedResults convert frameLength outputLimit read context heap
    ∃ events, call.heap.events = heap.events ++ events ∧
      (∀ moment, moment <+: events → (Heap.outstanding 0 moment).sum ≤
        2 * (1024 * 1024) + outputLimit + 2 + 16385 * nodeSize) ∧
      (∀ size, .granted size ∈ events ∨ .refused size ∈ events → size ≤ 1024 * 1024 + 1) ∧
      (∀ moment size, moment ++ [.released size] <+: events →
        size ∈ Heap.outstanding 0 moment) ∧
      call.metrics.maximumDepth ≤ 64 ∧
      (∀ errno, call.result = .error errno → Heap.outstanding 0 events = 0) ∧
      ∀ parsed, call.result = .ok parsed → Heap.outstanding 0 events =
        outputBlock outputLimit call.output + parsed.owned := by
  obtain ⟨shallow, left, ⟨events, split, uses⟩, failed, succeeded⟩ :=
    callMemory convert frameLength outputLimit read context heap
  refine ⟨events, split, fun _ early => uses.peak early, fun _ asked => uses.request_le asked,
    fun _ _ early => uses.release_mem early, shallow, fun errno error => ?_, fun parsed ok => ?_⟩
  · rw [uses.outstanding_eq]
    exact failed errno error
  · rw [uses.outstanding_eq]
    exact succeeded parsed ok

end IperfSwift.Output
