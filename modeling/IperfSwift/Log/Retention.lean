import IperfSwift.Log.Bounded

/-!
Contract: a bounded log file holds exactly the promised prefix.

Owns: what the tail holds while bytes come in, in pieces of any size; where
`utf8_prefix` cuts the last bytes of a text; and the content of the file when
the log is closed, for a sink that accepts everything.

Does not own: sinks that fail.
-/

set_option autoImplicit false

namespace IperfSwift.Log

open IperfSwift.Lib
open IperfSwift.Output

variable {bytes initial written : List Byte} {scalars : List Char} {world : World}
  {log : BoundedLog} {capacity : Nat}

/-! ### The cut -/

theorem isTail_iff (byte : Byte) : byte &&& 0xc0 = 0x80 ↔ Utf8.IsTail byte := by
  have all : ∀ n : Fin 256, n.val &&& 0xc0 = 0x80 ↔ 0x80 ≤ n.val ∧ n.val ≤ 0xbf := by
    decide +kernel
  rw [← UInt8.toNat_inj, UInt8.toNat_and]
  exact all ⟨byte.toNat, byte.toNat_lt⟩

/-- The loop stops at the last byte that is no continuation, or at the first byte. -/
theorem leadIndex_eq {lead last : Nat} (before : lead ≤ last)
    (tails : ∀ index, lead < index → index ≤ last → Utf8.IsTail (bytes.getD index 0))
    (stop : lead = 0 ∨ ¬ Utf8.IsTail (bytes.getD lead 0)) : leadIndex bytes last = lead := by
  induction last with
  | zero => exact (Nat.le_zero.mp before).symm
  | succ last inductionHypothesis =>
      rw [leadIndex]
      by_cases here : lead = last + 1
      · subst here
        rw [if_neg]
        rw [isTail_iff]
        exact stop.resolve_left (Nat.succ_ne_zero last)
      · rw [if_pos ((isTail_iff _).mpr (tails (last + 1) (by omega) le_rfl))]
        exact inductionHypothesis (by omega) fun index after within =>
          tails index after (by omega)

theorem getD_append_cons (front rest : List Byte) (first : Byte) :
    (front ++ first :: rest).getD front.length 0 = first := by
  simp

theorem leadIndex_append {front rest : List Byte} {first : Byte}
    (notTail : ¬ Utf8.IsTail first) (tails : ∀ byte ∈ rest, Utf8.IsTail byte) :
    leadIndex (front ++ first :: rest) ((front ++ first :: rest).length - 1) = front.length := by
  refine leadIndex_eq (by simp) (fun index after within => ?_) (.inr ?_)
  · obtain ⟨offset, rfl⟩ := Nat.exists_eq_add_of_lt after
    have inside : offset < rest.length := by
      simp only [List.length_append, List.length_cons] at within
      omega
    have here : (front ++ first :: rest).getD (front.length + offset + 1) 0 = rest[offset] := by
      rw [List.getD_eq_getElem?_getD, Nat.add_assoc,
        List.getElem?_append_right (Nat.le_add_right _ _), Nat.add_sub_cancel_left,
        List.getElem?_cons_succ, List.getElem?_eq_getElem inside, Option.getD_some]
    rw [here]
    exact tails _ (List.getElem_mem inside)
  · rwa [getD_append_cons]

/-- An incomplete sequence at the end is left out, a complete one stays. -/
theorem utf8Prefix_append {front rest : List Byte} {first : Byte}
    (notTail : ¬ Utf8.IsTail first) (tails : ∀ byte ∈ rest, Utf8.IsTail byte) :
    utf8Prefix (front ++ first :: rest) =
      if rest.length + 1 < leadWidth first then front.length
      else (front ++ first :: rest).length := by
  have length : (front ++ first :: rest).length - front.length = rest.length + 1 := by simp
  rw [utf8Prefix, if_neg (by simp), leadIndex_append notTail tails]
  dsimp only
  rw [getD_append_cons, length]

theorem leadIndex_le (bytes : List Byte) (last : Nat) : leadIndex bytes last ≤ last := by
  induction last with
  | zero => exact le_rfl
  | succ last inductionHypothesis =>
      rw [leadIndex]
      split_ifs <;> omega

theorem utf8Prefix_le (bytes : List Byte) : utf8Prefix bytes ≤ bytes.length := by
  have lead := leadIndex_le bytes (bytes.length - 1)
  rw [utf8Prefix]
  dsimp only
  split_ifs <;> omega

/-- Continuations alone are the end of a sequence that began before. -/
theorem utf8Prefix_tails (tails : ∀ byte ∈ bytes, Utf8.IsTail byte) :
    utf8Prefix bytes = bytes.length := by
  cases bytes with
  | nil => rfl
  | cons first rest =>
      have isTail := tails first (List.mem_cons_self ..)
      have width : leadWidth first = 1 := by
        obtain ⟨low, high⟩ := isTail
        rw [leadWidth, if_neg (by omega), if_neg (by omega), if_neg (by omega)]
      have start : leadIndex (first :: rest) ((first :: rest).length - 1) = 0 := by
        refine leadIndex_eq (Nat.zero_le _) (fun index after within => ?_) (.inl rfl)
        have inside : index < (first :: rest).length := by
          simp only [List.length_cons] at within ⊢
          omega
        rw [List.getD_eq_getElem?_getD, List.getElem?_eq_getElem inside, Option.getD_some]
        exact tails _ (List.getElem_mem inside)
      rw [utf8Prefix, if_neg (by simp), start]
      dsimp only
      rw [List.getD_cons_zero, width, if_neg (by simp)]

theorem leadWidth_of_lead {byte : Byte} {info : Utf8.Lead} (leads : Utf8.lead byte = some info) :
    leadWidth byte = info.following + 1 ∧ info.following ≤ 3 := by
  rw [Utf8.lead] at leads
  split_ifs at leads with two three four
  all_goals
    obtain rfl := Option.some.inj leads
    simp only [leadWidth]
    split_ifs <;> omega

/-- The bytes of a scalar. -/
theorem encodeChar_shape (c : Char) : ∃ first rest, String.utf8EncodeChar c = first :: rest ∧
    ¬ Utf8.IsTail first ∧ (∀ byte ∈ rest, Utf8.IsTail byte) ∧
    leadWidth first = rest.length + 1 ∧ rest.length ≤ 3 := by
  by_cases small : c.toNat < 0x80
  · refine ⟨.ofNat c.toNat, [], Utf8.encodeChar_small small, ?_, by simp, ?_, by simp⟩
    · rw [Utf8.IsTail, UInt8.toNat_ofNat']
      omega
    · rw [leadWidth, UInt8.toNat_ofNat', if_neg (by omega), if_neg (by omega), if_neg (by omega)]
      rfl
  · obtain ⟨first, rest, info, bytes, leads, length, tails, -⟩ :=
      Utf8.encodeChar_multibyte c (by omega)
    refine ⟨first, rest, bytes, ?_, tails, ?_, ?_⟩
    · intro isTail
      simp only [Utf8.IsTail] at isTail
      rw [Utf8.lead, if_neg (by omega), if_neg (by omega), if_neg (by omega)] at leads
      cases leads
    · rw [(leadWidth_of_lead leads).1, length]
    · rw [length]
      exact (leadWidth_of_lead leads).2

/-- `utf8_prefix` of the last bytes of a complete text keeps all of them. -/
theorem utf8Prefix_complete (kept : List Char) :
    utf8Prefix ((Utf8.encode kept).drop ((Utf8.encode kept).length - 3)) =
      ((Utf8.encode kept).drop ((Utf8.encode kept).length - 3)).length := by
  rcases List.eq_nil_or_concat kept with rfl | ⟨init, d, rfl⟩
  · rfl
  · obtain ⟨first, rest, bytes, notTail, tails, width, short⟩ := encodeChar_shape d
    have whole : Utf8.encode (init.concat d) = Utf8.encode init ++ first :: rest := by
      rw [List.concat_eq_append, Utf8.encode_append, Utf8.encode_cons, bytes]
      simp
    rw [whole]
    by_cases inside : (Utf8.encode init ++ first :: rest).length - 3 ≤ (Utf8.encode init).length
    · rw [List.drop_append_of_le_length inside, utf8Prefix_append notTail tails, if_neg (by omega)]
    · -- Four bytes, of which the last three are in sight.
      have all : ∀ byte ∈ (Utf8.encode init ++ first :: rest).drop
          ((Utf8.encode init ++ first :: rest).length - 3), Utf8.IsTail byte := by
        intro byte member
        simp only [List.length_append, List.length_cons] at inside member
        obtain ⟨count, same⟩ := Nat.exists_eq_add_of_lt (not_le.mp inside)
        rw [same, Nat.add_assoc, ← List.drop_drop, List.drop_left, List.drop_succ_cons] at member
        exact tails byte (List.mem_of_mem_drop member)
      exact utf8Prefix_tails all

/-- The last three bytes are enough to find the longest prefix of whole scalars. -/
theorem take_utf8Prefix {count : Nat} (within : count ≤ (Utf8.encode scalars).length) :
    let seen := (Utf8.encode scalars).take count
    seen.take (count - 3) ++ (seen.drop (count - 3)).take (utf8Prefix (seen.drop (count - 3))) =
      Utf8.encode (Utf8.cut count scalars) := by
  intro seen
  obtain ⟨part, shown, begun⟩ := Utf8.take_encode count scalars
  have length : count = (Utf8.encode (Utf8.cut count scalars)).length + part.length := by
    rw [← List.length_append, ← shown, List.length_take_of_le within]
  generalize Utf8.cut count scalars = kept at shown length ⊢
  change seen = _ at shown
  rcases begun with rfl | ⟨c, -, nonempty, isPrefix, short⟩
  · rw [List.append_nil] at shown
    rw [List.length_nil, Nat.add_zero] at length
    rw [shown, length, utf8Prefix_complete, List.take_length, List.take_append_drop]
  · obtain ⟨first, tail, bytes, notTail, tails, width, few⟩ := encodeChar_shape c
    rw [bytes] at isPrefix short
    cases part with
    | nil => exact absurd rfl nonempty
    | cons byte more =>
        obtain ⟨rfl, later⟩ := List.cons_prefix_cons.mp isPrefix
        rw [List.length_cons, List.length_cons] at short
        rw [List.length_cons] at length
        have early : count - 3 ≤ (Utf8.encode kept).length := by omega
        rw [shown, List.take_append_of_le_length early, List.drop_append_of_le_length early,
          utf8Prefix_append notTail fun byte member => tails byte (later.subset member),
          if_pos (by omega), List.take_left, List.take_append_drop]

/-! ### A sink that accepts everything -/

/-- The world after all of the bytes went to the file. -/
def World.appended (world : World) (bytes : List Byte) : World :=
  { world with
    file := world.file ++ bytes
    status :=
      { world.status with
        bytesWritten := world.status.bytesWritten + bytes.length
        fileBytes := world.status.fileBytes + bytes.length } }

theorem World.appended_nil (world : World) : world.appended [] = world := by
  simp [World.appended]

theorem World.appended_appended (world : World) (first second : List Byte) :
    (world.appended first).appended second = world.appended (first ++ second) := by
  simp [World.appended, Nat.add_assoc]

/-- No write has failed and none will. -/
structure World.Accepting (world : World) : Prop where
  replies : world.replies = []
  writeErrno : world.status.writeErrno = 0

theorem World.Accepting.appended (accepting : world.Accepting) (bytes : List Byte) :
    (world.appended bytes).Accepting :=
  ⟨accepting.replies, accepting.writeErrno⟩

theorem writeBytes_accepting (accepting : world.Accepting) (bytes : List Byte) :
    writeBytes true bytes world = world.appended bytes := by
  by_cases empty : bytes = []
  · rw [writeBytes, if_pos (.inl empty), empty, World.appended_nil]
  · rw [writeBytes, if_neg (by simp [empty, accepting.writeErrno]), accepting.replies]
    rw [World.appended, ← accepting.replies]
    simp [fwrite, accepting.replies]

/-- What is held back and what comes in goes out from the front. -/
theorem retainPrefix_accepting (accepting : world.Accepting) (sink : log.sink = true)
    (bytes : List Byte) :
    retainPrefix log bytes world =
      ({ log with tail := (log.tail ++ bytes).drop (log.tail.length + bytes.length - tailSize) },
        world.appended
          ((log.tail ++ bytes).take (log.tail.length + bytes.length - tailSize))) := by
  rw [retainPrefix]
  generalize log.tail.length + bytes.length - tailSize = flush
  have rest : flush - min flush log.tail.length = flush - log.tail.length := by omega
  rw [sink, writeBytes_accepting accepting, writeBytes_accepting (accepting.appended _),
    World.appended_appended, rest, List.take_append, List.drop_append, ← sink]
  rcases le_total flush log.tail.length with inside | beyond
  · rw [min_eq_left inside]
  · rw [min_eq_right beyond, List.take_length, List.drop_length, List.take_of_length_le beyond,
      List.drop_of_length_le beyond]

/-- All that was written so far has been accepted: it is in the file but for the tail. -/
structure Filling (initial : List Byte) (capacity : Nat) (written : List Byte)
    (log : BoundedLog) (world : World) : Prop where
  sink : log.sink = true
  bound : log.capacity = capacity
  accepted : log.accepted = written.length
  within : written.length ≤ capacity
  content : world.file ++ log.tail = initial ++ written
  held : log.tail.length = min tailSize written.length
  accepting : world.Accepting
  truncated : world.status.truncated = false
  opened : world.status.openErrno = 0

theorem Filling.retain (filling : Filling initial capacity written log world)
    (room : written.length + bytes.length ≤ capacity) :
    Filling initial capacity (written ++ bytes)
      { (retainPrefix log bytes world).1 with
        accepted := (retainPrefix log bytes world).1.accepted + bytes.length }
      (retainPrefix log bytes world).2 := by
  rw [retainPrefix_accepting filling.accepting filling.sink]
  have held := filling.held
  refine ⟨filling.sink, filling.bound, ?_, by simpa using room, ?_, ?_,
    filling.accepting.appended _, filling.truncated, filling.opened⟩
  · rw [filling.accepted, List.length_append]
  · simp only [World.appended]
    rw [List.append_assoc, List.take_append_drop, ← List.append_assoc, filling.content,
      List.append_assoc]
  · simp only [List.length_drop, List.length_append]
    omega

theorem boundedWrite_nil (log : BoundedLog) (world : World) :
    boundedWrite log [] world = (log, world) := by
  rw [boundedWrite, if_pos rfl]

theorem boundedWrite_truncated (truncated : world.status.truncated = true) (bytes : List Byte) :
    boundedWrite log bytes world = (log, world) := by
  rw [boundedWrite]
  split_ifs with empty disabled
  · rfl
  · rfl
  · exact absurd (.inl truncated) disabled
  · exact absurd (.inl truncated) disabled

theorem Filling.boundedWrite_eq (filling : Filling initial capacity written log world)
    (large : markerSize ≤ capacity) (some : bytes ≠ []) :
    boundedWrite log bytes world =
      let keep := min bytes.length (capacity - written.length)
      let retained := retainPrefix log (bytes.take keep) world
      let accepting := { retained.1 with accepted := retained.1.accepted + keep }
      if capacity - written.length < bytes.length then truncate accepting retained.2
      else (accepting, retained.2) := by
  rw [boundedWrite, if_neg some,
    if_neg (by simp [filling.truncated, filling.opened, filling.accepting.writeErrno]),
    filling.bound, if_neg (not_lt.mpr large), filling.accepted]

/-- One write that fits. -/
theorem Filling.write (filling : Filling initial capacity written log world)
    (large : markerSize ≤ capacity) (room : written.length + bytes.length ≤ capacity) :
    Filling initial capacity (written ++ bytes) (boundedWrite log bytes world).1
      (boundedWrite log bytes world).2 := by
  by_cases empty : bytes = []
  · rw [empty, boundedWrite_nil, List.append_nil]
    exact filling
  · have whole : min bytes.length (capacity - written.length) = bytes.length := by omega
    rw [filling.boundedWrite_eq large empty, whole]
    dsimp only
    rw [List.take_length, if_neg (by omega)]
    exact filling.retain room

/-- The file ends with the marker, behind the promised prefix. -/
structure Ended (initial : List Byte) (capacity : Nat) (scalars : List Char)
    (log : BoundedLog) (world : World) : Prop where
  tail : log.tail = []
  content : world.file =
    initial ++ Utf8.encode (Utf8.cut (capacity - markerSize) scalars) ++ marker
  truncated : world.status.truncated = true

/-- The bytes of the tail that are kept, with what is in the file already. -/
theorem Filling.kept (filling : Filling initial capacity written log world)
    (large : markerSize ≤ capacity) (full : written = (Utf8.encode scalars).take capacity)
    (more : capacity ≤ (Utf8.encode scalars).length) :
    world.file ++ log.tail.take (utf8Prefix (log.tail.take (log.tail.length - markerSize))) =
      initial ++ Utf8.encode (Utf8.cut (capacity - markerSize) scalars) := by
  have length : written.length = capacity := by
    rw [full, List.length_take, min_eq_left more]
  have held := filling.held
  rw [length] at held
  have count : written.length - log.tail.length = capacity - markerSize - 3 := by
    simp only [tailSize] at held
    omega
  -- The file and the tail are the two parts of what was written.
  have parts := List.append_inj' (filling.content.trans
      (congrArg (initial ++ ·) (List.take_append_drop (capacity - markerSize - 3) written).symm
        |>.trans (List.append_assoc ..).symm))
    (by rw [List.length_drop]; omega)
  have last : log.tail.take (log.tail.length - markerSize) =
      ((Utf8.encode scalars).take (capacity - markerSize)).drop (capacity - markerSize - 3) := by
    rw [parts.2, List.take_drop, List.length_drop, full, List.take_take]
    congr 2
    rw [List.length_take]
    simp only [tailSize] at held
    omega
  have short : utf8Prefix (log.tail.take (log.tail.length - markerSize)) ≤
      log.tail.length - markerSize :=
    (utf8Prefix_le _).trans (by simp)
  have first : written.take (capacity - markerSize - 3) =
      ((Utf8.encode scalars).take (capacity - markerSize)).take (capacity - markerSize - 3) := by
    rw [full, List.take_take, List.take_take]
    congr 1
    omega
  have whole := take_utf8Prefix (show capacity - markerSize ≤ (Utf8.encode scalars).length by omega)
  rw [← whole, ← last, ← first, List.take_take, min_eq_left short, parts.1, List.append_assoc]

theorem Filling.truncate (filling : Filling initial capacity written log world)
    (large : markerSize ≤ capacity) (full : written = (Utf8.encode scalars).take capacity)
    (more : capacity ≤ (Utf8.encode scalars).length) :
    Ended initial capacity scalars (truncate log world).1 (truncate log world).2 := by
  have kept := filling.kept large full more
  have marked : World.Accepting
      { world with status := { world.status with truncated := true } } :=
    ⟨filling.accepting.replies, filling.accepting.writeErrno⟩
  rw [Log.truncate]
  dsimp only
  rw [filling.sink, writeBytes_accepting marked, writeBytes_accepting]
  · exact ⟨rfl, congrArg (· ++ marker) kept, rfl⟩
  · exact ⟨marked.replies, marked.writeErrno⟩

/-- The first write that does not fit. -/
theorem Filling.overflow (filling : Filling initial capacity written log world)
    (large : markerSize ≤ capacity) (long : capacity < written.length + bytes.length)
    (start : written ++ bytes <+: Utf8.encode scalars) :
    Ended initial capacity scalars (boundedWrite log bytes world).1
      (boundedWrite log bytes world).2 := by
  have within := filling.within
  have some : bytes ≠ [] := by
    rintro rfl
    simp only [List.length_nil] at long
    omega
  have keep : min bytes.length (capacity - written.length) = capacity - written.length := by omega
  have more : capacity ≤ (Utf8.encode scalars).length := by
    have shorter := start.length_le
    rw [List.length_append] at shorter
    omega
  have full : written ++ bytes.take (capacity - written.length) =
      (Utf8.encode scalars).take capacity := by
    obtain ⟨rest, whole⟩ := start
    rw [← whole, List.append_assoc, List.take_append, List.take_of_length_le within,
      List.take_append_of_le_length (by omega)]
  have length : (bytes.take (capacity - written.length)).length = capacity - written.length := by
    rw [List.length_take]
    omega
  have room : written.length + (bytes.take (capacity - written.length)).length ≤ capacity := by
    omega
  have ended := (filling.retain room).truncate large full more
  rw [filling.boundedWrite_eq large some, keep]
  dsimp only
  rw [if_pos (by omega)]
  rwa [length] at ended

/-! ### Whole runs -/

/-- One `bounded_write` after the other. -/
def writeAll (log : BoundedLog) (chunks : List (List Byte)) (world : World) :
    BoundedLog × World :=
  chunks.foldl (fun state bytes => boundedWrite state.1 bytes state.2) (log, world)

theorem writeAll_cons (log : BoundedLog) (bytes : List Byte) (rest : List (List Byte))
    (world : World) :
    writeAll log (bytes :: rest) world =
      writeAll (boundedWrite log bytes world).1 rest (boundedWrite log bytes world).2 := rfl

theorem writeAll_truncated (truncated : world.status.truncated = true) (chunks : List (List Byte)) :
    writeAll log chunks world = (log, world) := by
  induction chunks with
  | nil => rfl
  | cons bytes rest inductionHypothesis =>
      rw [writeAll_cons, boundedWrite_truncated truncated]
      exact inductionHypothesis

/-- The log fills up until a write does not fit; nothing changes after that. -/
theorem Filling.writeAll {initial written : List Byte} {capacity : Nat} {log : BoundedLog}
    {world : World} {scalars : List Char} {chunks : List (List Byte)}
    (filling : Filling initial capacity written log world) (large : markerSize ≤ capacity)
    (start : written ++ chunks.flatten <+: Utf8.encode scalars) :
    if written.length + chunks.flatten.length ≤ capacity then
      Filling initial capacity (written ++ chunks.flatten) (writeAll log chunks world).1
        (writeAll log chunks world).2
    else
      Ended initial capacity scalars (writeAll log chunks world).1
        (writeAll log chunks world).2 := by
  induction chunks generalizing written log world with
  | nil =>
      rw [if_pos (by simpa using filling.within), List.flatten_nil, List.append_nil]
      exact filling
  | cons bytes rest inductionHypothesis =>
      rw [List.flatten_cons, ← List.append_assoc] at start
      rw [writeAll_cons, List.flatten_cons, List.length_append, ← Nat.add_assoc,
        ← List.append_assoc]
      by_cases room : written.length + bytes.length ≤ capacity
      · have later := inductionHypothesis (filling.write large room) start
        rwa [List.length_append] at later
      · have ended := filling.overflow large (not_le.mp room)
          ((List.prefix_append _ _).trans start)
        rw [if_neg (by omega), writeAll_truncated ended.truncated]
        exact ended

/-- Without room for the marker nothing is written at all. -/
theorem writeAll_small {log : BoundedLog} {world : World} (small : log.capacity < markerSize)
    (opened : world.status.openErrno = 0) (accepting : world.status.writeErrno = 0)
    (chunks : List (List Byte)) :
    writeAll log chunks world =
      (log, { world with status := { world.status with
        truncated := world.status.truncated || !chunks.flatten.isEmpty } }) := by
  induction chunks with
  | nil => simp [Log.writeAll]
  | cons bytes rest inductionHypothesis =>
      rw [writeAll_cons]
      by_cases empty : bytes = []
      · rw [empty, boundedWrite_nil, inductionHypothesis, List.flatten_cons, List.nil_append]
      · cases truncated : world.status.truncated with
        | true =>
            rw [boundedWrite_truncated truncated, writeAll_truncated truncated, Bool.true_or,
              ← truncated]
        | false =>
            rw [boundedWrite, if_neg empty, if_neg (by simp [truncated, opened, accepting]),
              if_pos small, writeAll_truncated rfl]
            simp [empty]

/-- The pieces are written and the log is closed. -/
def logged (log : BoundedLog) (chunks : List (List Byte)) (closing : Option Errno)
    (world : World) : World :=
  let written := writeAll log chunks world
  boundedClose written.1 closing written.2

/-- Closing writes the tail and leaves `truncated` alone, whatever `fclose` answers. -/
theorem boundedClose_written (log : BoundedLog) (closing : Option Errno) (world : World) :
    (boundedClose log closing world).file = (writeBytes log.sink log.tail world).file ∧
      (boundedClose log closing world).status.truncated =
        (writeBytes log.sink log.tail world).status.truncated := by
  cases sink : log.sink <;> cases closing <;> simp [boundedClose, sink]

theorem writeBytes_nil (sink : Bool) (world : World) : writeBytes sink [] world = world := by
  rw [writeBytes, if_pos (.inl rfl)]

theorem Filling.close (filling : Filling initial capacity written log world)
    (closing : Option Errno) :
    (boundedClose log closing world).file = initial ++ written ∧
      (boundedClose log closing world).status.truncated = false := by
  obtain ⟨file, truncated⟩ := boundedClose_written log closing world
  rw [filling.sink, writeBytes_accepting filling.accepting] at file truncated
  exact ⟨file.trans filling.content, truncated.trans filling.truncated⟩

theorem boundedClose_empty {log : BoundedLog} (empty : log.tail = []) (closing : Option Errno)
    (world : World) :
    (boundedClose log closing world).file = world.file ∧
      (boundedClose log closing world).status.truncated = world.status.truncated := by
  obtain ⟨file, truncated⟩ := boundedClose_written log closing world
  rw [empty, writeBytes_nil] at file truncated
  exact ⟨file, truncated⟩

/-- Nothing fails on the way to a log. -/
structure OpenReplies.Succeed (replies : OpenReplies) : Prop where
  calloc : replies.calloc = true
  setvbuf : replies.setvbuf = none
  funopen : replies.funopen = none

theorem iperfBoundedLogWrap_succeed {replies : OpenReplies} (succeed : replies.Succeed)
    {existing : Nat} (limited : markerSize ≤ world.status.limit)
    (fits : existing ≤ world.status.limit) :
    iperfBoundedLogWrap true existing replies world =
      (some ⟨true, world.status.limit - existing, 0, []⟩, world.wrapped true existing) := by
  have large : ¬ ((world.wrapped true existing).status.limit < markerSize ∨
      (world.wrapped true existing).status.limit < existing) := by
    simp only [World.wrapped]
    omega
  rw [iperfBoundedLogWrap, if_pos succeed.calloc, World.limited, if_neg large, succeed.setvbuf,
    succeed.funopen]
  rfl

/-- What the file holds at the end and whether it was cut, as promised for a capacity. -/
structure Promised (initial : List Byte) (capacity : Nat) (bytes : List Byte)
    (final : World) : Prop where
  whole : bytes.length ≤ capacity → markerSize ≤ capacity ∨ bytes = [] →
    final.file = initial ++ bytes ∧ final.status.truncated = false
  cut : markerSize ≤ capacity → capacity < bytes.length →
    ∃ scalars kept, Utf8.encode scalars = bytes ∧
      Utf8.LongestWithin (capacity - markerSize) scalars kept ∧
      final.file = initial ++ Utf8.encode kept ++ marker ∧ final.status.truncated = true
  none : capacity < markerSize → bytes ≠ [] →
    final.file = initial ∧ final.status.truncated = true

/-- The content of the file depends on the text and on the room, not on the pieces. -/
theorem boundedLog_promised (world : World) (replies : OpenReplies) (closing : Option Errno)
    (chunks : List (List Byte)) (wellFormed : Utf8.WellFormed chunks.flatten)
    (limited : markerSize ≤ world.status.limit) (fits : world.file.length ≤ world.status.limit)
    (accepting : world.Accepting) (truncated : world.status.truncated = false)
    (opened : world.status.openErrno = 0) (succeed : replies.Succeed) :
    ∃ log start, iperfBoundedLogWrap true world.file.length replies world = (some log, start) ∧
      Promised world.file (world.status.limit - world.file.length) chunks.flatten
        (logged log chunks closing start) := by
  refine ⟨_, _, iperfBoundedLogWrap_succeed succeed limited fits, ?_⟩
  obtain ⟨scalars, encoded⟩ := wellFormed
  generalize world.status.limit - world.file.length = capacity
  have begun : Filling world.file capacity [] ⟨true, capacity, 0, []⟩
      (world.wrapped true world.file.length) :=
    ⟨rfl, rfl, rfl, Nat.zero_le _, rfl, rfl, ⟨accepting.replies, accepting.writeErrno⟩,
      truncated, opened⟩
  by_cases large : markerSize ≤ capacity
  · have run := @Filling.writeAll _ _ _ _ _ scalars chunks begun large
      (by rw [List.nil_append, encoded])
    rw [List.length_nil, Nat.zero_add, List.nil_append] at run
    refine ⟨fun room _ => ?_, fun _ long => ?_, fun small _ => absurd large (not_le.mpr small)⟩
    · rw [if_pos room] at run
      exact run.close closing
    · rw [if_neg (not_le.mpr long)] at run
      obtain ⟨file, isTruncated⟩ := boundedClose_empty run.tail closing
        (Log.writeAll ⟨true, capacity, 0, []⟩ chunks (world.wrapped true world.file.length)).2
      exact ⟨scalars, _, encoded, Utf8.cut_longest _ _, file.trans run.content,
        isTruncated.trans run.truncated⟩
  · have run := @writeAll_small ⟨true, capacity, 0, []⟩ (world.wrapped true world.file.length)
      (not_le.mp large) opened accepting.writeErrno chunks
    have written := @boundedClose_empty ⟨true, capacity, 0, []⟩ rfl closing
      (Log.writeAll ⟨true, capacity, 0, []⟩ chunks (world.wrapped true world.file.length)).2
    have final : logged ⟨true, capacity, 0, []⟩ chunks closing (world.wrapped true world.file.length) =
        boundedClose ⟨true, capacity, 0, []⟩ closing
          (Log.writeAll ⟨true, capacity, 0, []⟩ chunks (world.wrapped true world.file.length)).2 := by
      rw [logged, run]
    rw [← final, run] at written
    obtain ⟨file, isTruncated⟩ := written
    have flag : (world.wrapped true world.file.length).status.truncated = false := truncated
    rw [flag, Bool.false_or] at isTruncated
    refine ⟨fun _ room => ?_, fun room => absurd room large, fun _ some => ⟨file, ?_⟩⟩
    · have empty := room.resolve_left large
      rw [empty] at isTruncated ⊢
      exact ⟨file.trans (List.append_nil _).symm, isTruncated⟩
    · rw [isTruncated]
      simp [some]

/-- Thirty bytes of room; the text is one `é` and then letters, and its first scalar comes in
two pieces. -/
def splitText : List (List Byte) := [[0xc3], [0xa9, 0x61], List.replicate 40 0x62]

def roomForThirty : World := ⟨⟨32, 0, 0, false, false, false, 0, 0, 0⟩, [0x78, 0x0a], [], 0, 0⟩

theorem promised_of_splitText :
    ∃ log start, iperfBoundedLogWrap true 2 ⟨none, none, true, none, true, none, none, none⟩
        roomForThirty = (some log, start) ∧
      Promised [0x78, 0x0a] 30 splitText.flatten (logged log splitText none start) :=
  boundedLog_promised roomForThirty ⟨none, none, true, none, true, none, none, none⟩ none
    splitText ⟨'é' :: 'a' :: List.replicate 40 'b', by decide +kernel⟩ (by decide) (by decide)
    ⟨rfl, rfl⟩ rfl rfl ⟨rfl, rfl, rfl⟩

end IperfSwift.Log
