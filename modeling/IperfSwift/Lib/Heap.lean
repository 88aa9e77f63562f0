import Mathlib.Algebra.BigOperators.Group.Multiset.Basic
import Mathlib.Algebra.Order.BigOperators.Group.Multiset
import IperfSwift.Lib.Program

/-!
Contract: heap requests of a program as a trace.

Owns: the trace of granted, refused and released requests, an allocator whose
refusals are an arbitrary function of the request number, the blocks live after
a trace, and bounds on them at every moment of it.

A block is known by its requested size only, so the live blocks of a trace are
a multiset of sizes. Alignment and allocator overhead are not part of the model.
-/

set_option autoImplicit false

namespace IperfSwift.Lib

/-- One call of the allocator, with the requested size of the block. -/
inductive HeapEvent where
  | granted (size : Nat)
  | refused (size : Nat)
  | released (size : Nat)
deriving DecidableEq, Repr

/-- The allocator's decisions and everything asked of it so far, oldest first. -/
structure Heap where
  grants : Nat → Bool
  events : List HeapEvent

namespace Heap

variable {heap after : Heap} {blocks kept : List Nat} {size : Nat}

/-- The calls that ask for memory are numbered; a release is not a request. -/
def isRequest : HeapEvent → Bool
  | .granted _ => true
  | .refused _ => true
  | .released _ => false

def requests (heap : Heap) : Nat := (heap.events.filter isRequest).length

/-- Ask for a block. The result says whether the allocator granted it. -/
def malloc (size : Nat) : Program Heap Bool := fun heap =>
  if heap.grants heap.requests then
    (true, { heap with events := heap.events ++ [.granted size] })
  else
    (false, { heap with events := heap.events ++ [.refused size] })

/-- Give a block back. -/
def free (size : Nat) (heap : Heap) : Heap :=
  { heap with events := heap.events ++ [.released size] }

/-- Every request is granted. -/
def Unlimited (heap : Heap) : Prop := ∀ request, heap.grants request = true

@[simp] theorem malloc_grants (size : Nat) (heap : Heap) :
    (malloc size heap).2.grants = heap.grants := by
  unfold malloc
  split <;> rfl

theorem malloc_of_unlimited (unlimited : heap.Unlimited) (size : Nat) :
    malloc size heap = (true, { heap with events := heap.events ++ [.granted size] }) := by
  simp [malloc, unlimited heap.requests]

/-! ### Sequences of requests -/

/-- All these requests granted. -/
def grant (blocks : List Nat) (heap : Heap) : Heap :=
  { heap with events := heap.events ++ blocks.map .granted }

def releaseAll (blocks : List Nat) (heap : Heap) : Heap :=
  { heap with events := heap.events ++ blocks.map .released }

theorem foldl_free (blocks : List Nat) (heap : Heap) :
    blocks.foldl (fun heap size => heap.free size) heap = heap.releaseAll blocks := by
  induction blocks generalizing heap with
  | nil => simp [releaseAll]
  | cons size rest inductionHypothesis =>
      rw [List.foldl_cons, inductionHypothesis]
      simp [releaseAll, free]

@[simp] theorem grant_nil (heap : Heap) : heap.grant [] = heap := by
  simp [grant]

theorem grant_grant (first second : List Nat) (heap : Heap) :
    (heap.grant first).grant second = heap.grant (first ++ second) := by
  simp [grant]

/-- One of the requests was refused, and the blocks granted before it have been
released again, apart from those in `kept`. -/
def Refuses (blocks kept : List Nat) (heap after : Heap) : Prop :=
  ∃ before size later released, blocks = before ++ size :: later ∧ ¬ heap.Unlimited ∧
    (released ++ kept).Perm before ∧
    after = { heap with events := heap.events ++ (before.map .granted ++
      .refused size :: released.map .released) }

theorem malloc_cases (size : Nat) (heap : Heap) : malloc size heap = (true, heap.grant [size]) ∨
    ∃ after, malloc size heap = (false, after) ∧ Refuses [size] [] heap after := by
  by_cases granted : heap.grants heap.requests = true
  · left
    rw [malloc, if_pos granted]
    rfl
  · right
    refine ⟨{ heap with events := heap.events ++ [.refused size] }, ?_, [], size, [], [], rfl, ?_,
      .nil, rfl⟩
    · rw [malloc, if_neg granted]
    · exact fun unlimited => granted (unlimited heap.requests)

theorem Refuses.after_grant {earlier : List Nat}
    (refuses : Refuses blocks kept (heap.grant earlier) after) :
    Refuses (earlier ++ blocks) (earlier ++ kept) heap after := by
  obtain ⟨before, size, later, released, rfl, limited, permuted, rfl⟩ := refuses
  have swapped : (released ++ (earlier ++ kept)).Perm (earlier ++ (released ++ kept)) := by
    rw [← List.append_assoc, ← List.append_assoc]
    exact List.perm_append_comm.append_right kept
  exact ⟨earlier ++ before, size, later, released, by simp, limited,
    swapped.trans (permuted.append_left earlier), by simp [grant]⟩

theorem Refuses.extend (refuses : Refuses blocks kept heap after) (more : List Nat) :
    Refuses (blocks ++ more) kept heap after := by
  obtain ⟨before, size, later, released, rfl, limited, permuted, rfl⟩ := refuses
  exact ⟨before, size, later ++ more, released, by simp, limited, permuted, rfl⟩

theorem Refuses.release (refuses : Refuses blocks kept heap after) :
    Refuses blocks [] heap (after.releaseAll kept) := by
  obtain ⟨before, size, later, released, rfl, limited, permuted, rfl⟩ := refuses
  exact ⟨before, size, later, released ++ kept, rfl, limited, by simpa using permuted,
    by simp [releaseAll]⟩

/-! ### Live blocks -/

/-- The sizes of the blocks still live after a trace, starting from `live`. -/
def outstanding : Multiset Nat → List HeapEvent → Multiset Nat
  | live, [] => live
  | live, .granted size :: rest => outstanding (size ::ₘ live) rest
  | live, .refused _ :: rest => outstanding live rest
  | live, .released size :: rest => outstanding (live.erase size) rest

/-- Along the trace at most `bound` bytes are live, no request is larger than `largest`, and
only live blocks are released. `live` and `left` are the blocks before and after it. -/
inductive Uses (bound largest : Nat) : Multiset Nat → List HeapEvent → Multiset Nat → Prop where
  | done {live : Multiset Nat} (fits : live.sum ≤ bound) : Uses bound largest live [] live
  | granted {live left : Multiset Nat} {size : Nat} {rest : List HeapEvent}
      (fits : live.sum ≤ bound) (small : size ≤ largest)
      (later : Uses bound largest (size ::ₘ live) rest left) :
      Uses bound largest live (.granted size :: rest) left
  | refused {live left : Multiset Nat} {size : Nat} {rest : List HeapEvent}
      (small : size ≤ largest) (later : Uses bound largest live rest left) :
      Uses bound largest live (.refused size :: rest) left
  | released {live left : Multiset Nat} {size : Nat} {rest : List HeapEvent}
      (fits : live.sum ≤ bound) (owned : size ∈ live)
      (later : Uses bound largest (live.erase size) rest left) :
      Uses bound largest live (.released size :: rest) left

section Uses

variable {bound largest : Nat} {live middle left : Multiset Nat} {events : List HeapEvent}

theorem Uses.fits (uses : Uses bound largest live events left) : live.sum ≤ bound := by
  induction uses with
  | done fits | granted fits small later inductionHypothesis => exact fits
  | refused small later inductionHypothesis => exact inductionHypothesis
  | released fits owned later inductionHypothesis => exact fits

theorem Uses.append {first second : List HeapEvent} (uses : Uses bound largest live first middle)
    (next : Uses bound largest middle second left) :
    Uses bound largest live (first ++ second) left := by
  induction uses with
  | done fits => exact next
  | granted fits small later inductionHypothesis =>
      exact .granted fits small (inductionHypothesis next)
  | refused small later inductionHypothesis => exact .refused small (inductionHypothesis next)
  | released fits owned later inductionHypothesis =>
      exact .released fits owned (inductionHypothesis next)

theorem Uses.outstanding_eq (uses : Uses bound largest live events left) :
    outstanding live events = left := by
  induction uses with
  | done fits => rfl
  | granted fits small later inductionHypothesis | refused small later inductionHypothesis
  | released fits owned later inductionHypothesis => exact inductionHypothesis

/-- At every moment of the trace. -/
theorem Uses.peak (uses : Uses bound largest live events left) {moment : List HeapEvent}
    (early : moment <+: events) : (outstanding live moment).sum ≤ bound := by
  induction uses generalizing moment with
  | done fits =>
      rw [List.prefix_nil.mp early]
      exact fits
  | granted fits small later inductionHypothesis
  | released fits owned later inductionHypothesis =>
      rcases List.prefix_cons_iff.mp early with rfl | ⟨tail, rfl, tailEarly⟩
      · exact fits
      · exact inductionHypothesis tailEarly
  | refused small later inductionHypothesis =>
      rcases List.prefix_cons_iff.mp early with rfl | ⟨tail, rfl, tailEarly⟩
      · exact later.fits
      · have peak := inductionHypothesis tailEarly
        exact peak

theorem Uses.request_le (uses : Uses bound largest live events left)
    (asked : .granted size ∈ events ∨ .refused size ∈ events) : size ≤ largest := by
  induction uses with
  | done fits => simp at asked
  | granted fits small later inductionHypothesis =>
      simp only [List.mem_cons, HeapEvent.granted.injEq, reduceCtorEq, false_or] at asked
      rcases asked with (rfl | before) | before
      · exact small
      · exact inductionHypothesis (.inl before)
      · exact inductionHypothesis (.inr before)
  | refused small later inductionHypothesis =>
      simp only [List.mem_cons, HeapEvent.refused.injEq, reduceCtorEq, false_or] at asked
      rcases asked with before | rfl | before
      · exact inductionHypothesis (.inl before)
      · exact small
      · exact inductionHypothesis (.inr before)
  | released fits owned later inductionHypothesis =>
      simp only [List.mem_cons, reduceCtorEq, false_or] at asked
      exact inductionHypothesis asked

/-- Only live blocks are released. -/
theorem Uses.release_mem (uses : Uses bound largest live events left) {moment : List HeapEvent}
    (early : moment ++ [.released size] <+: events) : size ∈ outstanding live moment := by
  induction uses generalizing moment with
  | done fits => simp at early
  | granted fits small later inductionHypothesis | refused small later inductionHypothesis =>
      cases moment with
      | nil => simp at early
      | cons event moment =>
          obtain ⟨rfl, tailEarly⟩ := List.cons_prefix_cons.mp early
          have owned := inductionHypothesis tailEarly
          exact owned
  | released fits owned later inductionHypothesis =>
      cases moment with
      | nil =>
          obtain ⟨same, -⟩ := List.cons_prefix_cons.mp early
          rw [HeapEvent.released.inj same]
          exact owned
      | cons event moment =>
          obtain ⟨rfl, tailEarly⟩ := List.cons_prefix_cons.mp early
          have owned := inductionHypothesis tailEarly
          exact owned

theorem uses_grant (blocks : List Nat) (fits : (live + blocks).sum ≤ bound)
    (small : ∀ size ∈ blocks, size ≤ largest) :
    Uses bound largest live (blocks.map .granted) (live + blocks) := by
  induction blocks generalizing live with
  | nil =>
      rw [Multiset.coe_nil, add_zero] at fits ⊢
      exact .done fits
  | cons size rest inductionHypothesis =>
      obtain ⟨first, others⟩ := List.forall_mem_cons.mp small
      have moved : live + ↑(size :: rest) = (size ::ₘ live) + ↑rest := by
        rw [← Multiset.cons_coe, Multiset.add_cons, Multiset.cons_add]
      have before : live.sum ≤ bound := by
        rw [Multiset.sum_add] at fits
        exact (Nat.le_add_right _ _).trans fits
      rw [moved] at fits ⊢
      exact .granted before first (inductionHypothesis fits others)

theorem uses_release (blocks : List Nat) (fits : (live + blocks).sum ≤ bound) :
    Uses bound largest (live + blocks) (blocks.map .released) live := by
  induction blocks with
  | nil =>
      rw [Multiset.coe_nil, add_zero] at fits ⊢
      exact .done fits
  | cons size rest inductionHypothesis =>
      have moved : live + ↑(size :: rest) = size ::ₘ (live + ↑rest) := by
        rw [← Multiset.cons_coe, Multiset.add_cons]
      rw [moved] at fits ⊢
      refine .released fits (Multiset.mem_cons_self size _) ?_
      rw [Multiset.erase_cons_head]
      refine inductionHypothesis ?_
      rw [Multiset.sum_cons] at fits
      exact (Nat.le_add_left _ _).trans fits

end Uses

/-- The heap moves on by a trace that `Uses` allows. -/
def Moves (bound largest : Nat) (before : Heap) (live : Multiset Nat) (after : Heap)
    (left : Multiset Nat) : Prop :=
  ∃ events, after.events = before.events ++ events ∧ Uses bound largest live events left

section Moves

variable {bound largest : Nat} {live middle left : Multiset Nat} {before between after : Heap}

theorem Moves.refl (fits : live.sum ≤ bound) : Moves bound largest before live before live :=
  ⟨[], (List.append_nil _).symm, .done fits⟩

theorem Moves.trans (first : Moves bound largest before live between middle)
    (second : Moves bound largest between middle after left) :
    Moves bound largest before live after left := by
  obtain ⟨events, split, uses⟩ := first
  obtain ⟨later, laterSplit, laterUses⟩ := second
  exact ⟨events ++ later, by rw [laterSplit, split, List.append_assoc], uses.append laterUses⟩

theorem Moves.fits (moves : Moves bound largest before live after left) : left.sum ≤ bound := by
  obtain ⟨events, -, uses⟩ := moves
  have atEnd := uses.peak (List.prefix_refl events)
  rwa [uses.outstanding_eq] at atEnd

theorem moves_grant (blocks : List Nat) (fits : (live + blocks).sum ≤ bound)
    (small : ∀ size ∈ blocks, size ≤ largest) :
    Moves bound largest before live (before.grant blocks) (live + blocks) :=
  ⟨blocks.map .granted, rfl, uses_grant blocks fits small⟩

theorem moves_free (fits : (size ::ₘ live).sum ≤ bound) :
    Moves bound largest before (size ::ₘ live) (before.free size) live := by
  refine ⟨[.released size], rfl, .released fits (Multiset.mem_cons_self size live) ?_⟩
  rw [Multiset.erase_cons_head]
  rw [Multiset.sum_cons] at fits
  exact .done ((Nat.le_add_left _ _).trans fits)

/-- A refused sequence of requests leaves nothing behind. -/
theorem moves_refuses (refuses : Refuses blocks [] before after)
    (fits : (live + blocks).sum ≤ bound) (small : ∀ size ∈ blocks, size ≤ largest) :
    Moves bound largest before live after live := by
  obtain ⟨granted, size, later, released, rfl, -, permuted, rfl⟩ := refuses
  rw [List.append_nil] at permuted
  rw [← Multiset.coe_add, ← add_assoc, Multiset.sum_add] at fits
  have grantedFits := (Nat.le_add_right _ _).trans fits
  have sameBlocks : (released : Multiset Nat) = granted := Multiset.coe_eq_coe.mpr permuted
  have releases : Uses bound largest (live + granted) (released.map .released) live := by
    rw [← sameBlocks] at grantedFits ⊢
    exact uses_release released grantedFits
  refine ⟨_, rfl, (uses_grant granted grantedFits fun size found => small size ?_).append
    (.refused (small size ?_) releases)⟩
  · exact List.mem_append_left _ found
  · exact List.mem_append_right _ (List.mem_cons_self ..)

theorem moves_malloc {size : Nat} (fits : (size ::ₘ live).sum ≤ bound) (small : size ≤ largest) :
    ((malloc size before).1 = true ∧
        Moves bound largest before live (malloc size before).2 (size ::ₘ live)) ∨
      ((malloc size before).1 = false ∧
        Moves bound largest before live (malloc size before).2 live) := by
  have withBlock : live + ↑[size] = size ::ₘ live := by
    rw [Multiset.coe_singleton, add_comm, Multiset.singleton_add]
  have allSmall : ∀ other ∈ [size], other ≤ largest := by
    intro other isSize
    rwa [List.mem_singleton.mp isSize]
  rw [← withBlock] at fits ⊢
  rcases malloc_cases size before with granted | ⟨after, refused, refuses⟩
  · left
    rw [granted]
    exact ⟨rfl, moves_grant [size] fits allSmall⟩
  · right
    rw [refused]
    exact ⟨rfl, moves_refuses refuses fits allSmall⟩

end Moves

end Heap

end IperfSwift.Lib
