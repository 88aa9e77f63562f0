import IperfSwift.Output.Root

/-!
Contract: what a whole document costs the limits of the scanner.

Owns: the core text of a document; the closed form of the tally behind its
events; and the condition on its names that the bits of `root` check.

Does not own: cJSON.
-/

set_option autoImplicit false

namespace IperfSwift.Output

open IperfSwift.Lib

variable {used : Amount} {name : List Byte}

/-! ### The core text -/

def isOutput (key : List Byte) : Bool := isOutputJson key || isOutputText key

/-- The name of a root member. -/
def memberName (member : Json.Member) : List Byte := member.key.text.decoded

/-- The members that reach the core text. -/
def coreMembers (members : List Json.Member) : List Json.Member :=
  members.filter fun member => !isOutput (memberName member)

def memberText (member : Json.Member) : List Byte :=
  coreKeyText (memberName member) ++ member.value.compact.bytes

/-- The members of the core text, with a comma in front of all but the first. -/
def joined : List Json.Member → List Byte
  | [] => []
  | member :: rest =>
      memberText member ++ rest.flatMap fun other => ascii ',' :: memberText other

/-- The text that is handed to cJSON. -/
def coreText (document : Json.Document) : List Byte :=
  ascii '{' :: (joined (coreMembers document.memberList) ++ [ascii '}'])

def valueCount (members : List Json.Member) : Nat := (members.map (·.value.count)).sum

/-! ### The cost of a member -/

/-- What a member adds to the tally. -/
def memberAmount (locals : RootLocals) (member : Json.Member) : Amount :=
  if isOutput (memberName member) then ⟨member.value.count, 0, []⟩
  else ⟨member.value.count, member.value.count,
    emitted (commaEvents (decide (locals.coreFields = 0))) ++ memberText member⟩

/-- The keys of a value hold no NUL, and its levels fit. -/
structure Enterable (value : Json.Value) : Prop where
  keys : ∀ text ∈ value.keys, text.NoNul
  shallow : value.depth ≤ resultMaxDepth

/-- The key of a member holds no NUL and fits the buffer, and its value can be entered. -/
structure KeysFit (member : Json.Member) : Prop where
  noNul : member.key.text.NoNul
  short : (memberName member).length ≤ keyBuffer
  value : Enterable member.value

theorem clean_rootValue {destination : Option Decoded} (quiet : Quiet destination)
    (value : Json.Value) :
    (∀ event ∈ .enter 1 :: valueEvents 1 destination value, event.Clean) ↔ Enterable value := by
  rw [clean_entered 1 quiet value, Nat.add_comm, Nat.add_le_add_iff_right]
  exact ⟨fun both => ⟨both.1, both.2⟩, fun enterable => ⟨enterable.keys, enterable.shallow⟩⟩

theorem tallies_idle {trace : List Event} (plain : ∀ event ∈ trace, event.Plain)
    (clean : ∀ event ∈ trace, event.Clean) (nothing : entries trace = 0) (fits : used.Fits)
    (key : List Byte) : tallies trace ⟨.discard, key, used⟩ = some ⟨.discard, key, used⟩ := by
  refine (tallies_plain plain fits).mpr ⟨clean, ?_⟩
  rw [nothing, Amount.under_discard]
  exact Tally.spend_zero fits

/-- A plain run under some capture mode, which is then reset. -/
theorem tallies_captured {trace : List Event} (plain : ∀ event ∈ trace, event.Plain)
    (mode : Capture) (fits : used.Fits) (key : List Byte) (after : Tally) :
    tallies (.capture mode :: (trace ++ [.capture .discard])) ⟨.discard, key, used⟩ = some after ↔
      (∀ event ∈ trace, event.Clean) ∧
        (used + .under mode (entries trace) (emitted trace)).Fits ∧
        after = ⟨.discard, key, used + .under mode (entries trace) (emitted trace)⟩ := by
  rw [tallies, Event.tally, Option.bind_some, tallies_append_iff]
  constructor
  · rintro ⟨middle, run, reset⟩
    obtain ⟨clean, spent⟩ := (tallies_plain plain fits).mp run
    obtain ⟨more, rfl⟩ := Tally.spend_eq_some.mp spent
    exact ⟨clean, more, (Option.some.inj reset).symm⟩
  · rintro ⟨clean, more, rfl⟩
    exact ⟨_, (tallies_plain plain fits).mpr ⟨clean, Tally.spend_eq_some.mpr ⟨more, rfl⟩⟩, rfl⟩

/-- The events of a value once it is entered. -/
theorem tallies_entered {destination : Option Decoded} (quiet : Quiet destination)
    (value : Json.Value) (mode : Capture) (fits : used.Fits) (key : List Byte) (after : Tally) :
    tallies (.capture mode :: (.enter 1 :: valueEvents 1 destination value ++ [.capture .discard]))
      ⟨.discard, key, used⟩ = some after ↔
      Enterable value ∧ (used + .under mode value.count value.compact.bytes).Fits ∧
        after = ⟨.discard, key, used + .under mode value.count value.compact.bytes⟩ := by
  have plain : ∀ event ∈ .enter 1 :: valueEvents 1 destination value, event.Plain :=
    List.forall_mem_cons.mpr ⟨trivial, plain_valueEvents 1 quiet value⟩
  have counted : entries (.enter 1 :: valueEvents 1 destination value) = value.count := by
    rw [entries_cons]
    exact entries_valueEvents 1 destination value
  have text : emitted (.enter 1 :: valueEvents 1 destination value) = value.compact.bytes := by
    rw [emitted_cons]
    exact emitted_valueEvents 1 destination value
  rw [tallies_captured plain mode fits key after, clean_rootValue quiet value, counted, text]

theorem quiet_outputDestination (json : Bool) : Quiet (outputDestination json) := by
  cases json with
  | true => exact quiet_none
  | false =>
      intro decoded found
      rw [← Option.mem_some_iff.mp found]
      exact ⟨rfl, rfl⟩

/-- Output costs its values only, whether it is kept, dropped or of the wrong type. -/
theorem tallies_output (json : Bool) (value : Json.Value) (fits : used.Fits) (key : List Byte)
    (after : Tally) :
    tallies (outputEvents json value ++ [.capture .discard]) ⟨.discard, key, used⟩ = some after ↔
      Enterable value ∧ (used + ⟨value.count, 0, []⟩).Fits ∧
        after = ⟨.discard, key, used + ⟨value.count, 0, []⟩⟩ := by
  have idle : Tally.spend ⟨.discard, key, used⟩ (.under .discard 0 []) =
      some ⟨.discard, key, used⟩ := Tally.spend_zero fits
  have mode : ∀ bytes, Amount.under (outputCapture json) value.count bytes =
      ⟨value.count, 0, []⟩ := by
    cases json <;> exact fun _ => rfl
  rw [outputEvents]
  by_cases starts : value.bytes.head? = some (outputStart json)
  · have entered := tallies_entered (quiet_outputDestination json) value (outputCapture json) fits
      key after
    rw [mode] at entered
    rw [if_pos starts, List.cons_append, tallies]
    change (Tally.spend _ (.under .discard 0 [])).bind _ = _ ↔ _
    rw [idle, Option.bind_some]
    exact entered
  · have entered := tallies_entered quiet_none value .discard fits key after
    rw [if_neg starts, List.cons_append, tallies]
    change (Tally.spend _ (.under .discard 0 [])).bind _ = _ ↔ _
    rw [idle, Option.bind_some, List.cons_append, tallies]
    change (Tally.spend _ (.under .discard 0 [])).bind _ = _ ↔ _
    rw [idle, Option.bind_some]
    exact entered

theorem plain_emits (bytes : List Byte) : ∀ event ∈ emits bytes, event.Plain := by
  simp [emits, Event.Plain]

theorem clean_emits (bytes : List Byte) : ∀ event ∈ emits bytes, event.Clean := by
  simp [emits, Event.Clean]

theorem entries_emits (bytes : List Byte) : entries (emits bytes) = 0 := by
  simp [entries, emits, Event.entries, Function.comp_def]

theorem emitted_emits (bytes : List Byte) : emitted (emits bytes) = bytes := by
  simp [emitted, emits, Event.emitted, List.flatMap_map]

theorem tallies_core (first : Bool) (name : List Byte) (value : Json.Value) (fits : used.Fits)
    (key : List Byte) (after : Tally) :
    tallies (coreEvents first name value ++ [.capture .discard]) ⟨.discard, key, used⟩ =
      some after ↔
      Enterable value ∧
        (used + ⟨value.count, value.count,
          emitted (commaEvents first) ++ (coreKeyText name ++ value.compact.bytes)⟩).Fits ∧
        after = ⟨.discard, key, used + ⟨value.count, value.count,
          emitted (commaEvents first) ++ (coreKeyText name ++ value.compact.bytes)⟩⟩ := by
  have comma : (∀ event ∈ commaEvents first, event.Plain) ∧
      (∀ event ∈ commaEvents first, event.Clean) ∧ entries (commaEvents first) = 0 := by
    cases first <;> simp [commaEvents, Event.Plain, Event.Clean, Event.entries]
  have plain : ∀ event ∈ commaEvents first ++ (emits (coreKeyText name) ++
      .enter 1 :: valueEvents 1 none value), event.Plain := by
    simp only [List.forall_mem_append, List.forall_mem_cons]
    exact ⟨comma.1, plain_emits _, trivial, plain_valueEvents 1 quiet_none value⟩
  have clean : (∀ event ∈ commaEvents first ++ (emits (coreKeyText name) ++
      .enter 1 :: valueEvents 1 none value), event.Clean) ↔ Enterable value := by
    rw [List.forall_mem_append, List.forall_mem_append, clean_rootValue quiet_none value]
    exact ⟨fun all => all.2.2, fun enterable => ⟨comma.2.1, clean_emits _, enterable⟩⟩
  have counted : entries (commaEvents first ++ (emits (coreKeyText name) ++
      .enter 1 :: valueEvents 1 none value)) = value.count := by
    rw [entries_append, entries_append, comma.2.2, entries_emits, entries_cons, Nat.zero_add,
      Nat.zero_add]
    exact entries_valueEvents 1 none value
  have text : emitted (commaEvents first ++ (emits (coreKeyText name) ++
      .enter 1 :: valueEvents 1 none value)) =
        emitted (commaEvents first) ++ (coreKeyText name ++ value.compact.bytes) := by
    rw [emitted_append, emitted_append, emitted_emits, emitted_cons, emitted_valueEvents]
    rfl
  have captured := tallies_captured plain .core fits key after
  rw [clean, counted, text] at captured
  rw [coreEvents]
  exact captured

theorem tallies_memberValue (locals : RootLocals) (member : Json.Member) (fits : used.Fits)
    (key : List Byte) (after : Tally) :
    tallies (memberValueEvents locals (memberName member) member.value ++ [.capture .discard])
      ⟨.discard, key, used⟩ = some after ↔
      Enterable member.value ∧ (used + memberAmount locals member).Fits ∧
        after = ⟨.discard, key, used + memberAmount locals member⟩ := by
  rw [memberValueEvents, memberAmount]
  by_cases output : isOutputJson (memberName member) = true ∨
      (isOutputText (memberName member) = true ∧ (!locals.seenJson) = true)
  · have isOutput : isOutput (memberName member) = true := by
      rcases output with json | ⟨text, -⟩
      · simp [isOutput, json]
      · simp [isOutput, text]
    rw [if_pos output, if_pos isOutput]
    exact tallies_output _ member.value fits key after
  · rw [if_neg output]
    by_cases text : isOutputText (memberName member) = true
    · have isOutput : isOutput (memberName member) = true := by simp [isOutput, text]
      rw [if_pos text, if_pos isOutput]
      exact tallies_entered quiet_none member.value .discard fits key after
    · have noOutput : ¬ isOutput (memberName member) = true := by
        simp only [not_or] at output
        simp [isOutput, text, output.1]
      rw [if_neg text, if_neg noOutput]
      exact tallies_core _ (memberName member) member.value fits key after

theorem tallies_key {member : Json.Member} (fits : used.Fits) (key : List Byte) (after : Tally) :
    tallies (keyEvents member.key) ⟨.discard, key, used⟩ = some after ↔
      member.key.text.NoNul ∧ (memberName member).length ≤ keyBuffer ∧
        after = ⟨.discard, memberName member, used⟩ := by
  have spaces : tallies (skips member.key.after ++ .take (ascii ':') ::
      skips member.key.beforeValue) ⟨.discard, memberName member, used⟩ =
        some ⟨.discard, memberName member, used⟩ := by
    refine tallies_idle ?_ ?_ ?_ fits _
    · simp only [List.forall_mem_append, List.forall_mem_cons, plain_skips, plain_take, and_true]
    · simp only [List.forall_mem_append, List.forall_mem_cons, clean_skips, clean_take, and_true]
    · simp [Event.entries]
  have observed : tallies (.key (memberName member) :: (skips member.key.after ++
      .take (ascii ':') :: skips member.key.beforeValue)) ⟨.discard, memberName member, used⟩ =
        some ⟨.discard, memberName member, used⟩ := by
    rw [tallies, Event.tally, if_pos rfl, Option.bind_some, spaces]
  rw [keyEvents, ← List.cons_append, tallies_append_iff]
  constructor
  · rintro ⟨middle, named, later⟩
    obtain ⟨noNul, short, rfl⟩ := (tallies_rootKey fits key member.key.text).mp named
    exact ⟨noNul, short, Option.some.inj (later.symm.trans observed)⟩
  · rintro ⟨noNul, short, rfl⟩
    exact ⟨_, (tallies_rootKey fits key member.key.text).mpr ⟨noNul, short, rfl⟩, observed⟩

theorem tallies_skips (space : Json.Space) (fits : used.Fits) (key : List Byte) :
    tallies (skips space) ⟨.discard, key, used⟩ = some ⟨.discard, key, used⟩ :=
  tallies_idle ((plain_skips space).mpr trivial) ((clean_skips space).mpr trivial)
    (entries_skips space) fits key

theorem tallies_member (locals : RootLocals) (member : Json.Member) (fits : used.Fits)
    (key : List Byte) (after : Tally) :
    tallies (memberEvents locals member) ⟨.discard, key, used⟩ = some after ↔
      KeysFit member ∧ (used + memberAmount locals member).Fits ∧
        after = ⟨.discard, memberName member, used + memberAmount locals member⟩ := by
  have split : memberEvents locals member = keyEvents member.key ++
      ((memberValueEvents locals (memberName member) member.value ++ [.capture .discard]) ++
        skips member.after) := by
    simp [memberEvents, memberName]
  rw [split, tallies_append_iff]
  constructor
  · rintro ⟨middle, named, later⟩
    obtain ⟨noNul, short, rfl⟩ := (tallies_key fits key middle).mp named
    obtain ⟨behind, valued, spaced⟩ := tallies_append_iff.mp later
    obtain ⟨enterable, more, rfl⟩ := (tallies_memberValue locals member fits _ behind).mp valued
    rw [tallies_skips member.after more] at spaced
    exact ⟨⟨noNul, short, enterable⟩, more, (Option.some.inj spaced).symm⟩
  · rintro ⟨⟨noNul, short, enterable⟩, more, rfl⟩
    exact ⟨_, (tallies_key fits key _).mpr ⟨noNul, short, rfl⟩, tallies_append_iff.mpr
      ⟨_, (tallies_memberValue locals member fits _ _).mpr ⟨enterable, more, rfl⟩,
        tallies_skips member.after more _⟩⟩

/-! ### The cost of a document -/

/-- What the members add to the tally, one after the other. -/
def membersAmount : RootLocals → List Json.Member → Amount
  | _, [] => 0
  | locals, member :: rest =>
      memberAmount locals member + membersAmount (advanceLocals locals (memberName member)) rest

/-- The name that stays in the key buffer. -/
def lastName : Json.Members → List Byte
  | .last member => memberName member
  | .cons _ _ rest => lastName rest

theorem tallies_members (locals : RootLocals) (members : Json.Members) (fits : used.Fits)
    (key : List Byte) (after : Tally) :
    tallies (membersEvents locals members) ⟨.discard, key, used⟩ = some after ↔
      (∀ member ∈ members.toList, KeysFit member) ∧
        (used + membersAmount locals members.toList).Fits ∧
        after = ⟨.discard, lastName members, used + membersAmount locals members.toList⟩ := by
  induction members generalizing locals used key with
  | last member =>
      rw [membersEvents, tallies_member locals member fits key after]
      simp only [Json.Members.toList, membersAmount, add_zero, List.forall_mem_singleton, lastName]
  | cons member next rest inductionHypothesis =>
      have comma : ∀ {used : Amount} (key : List Byte), used.Fits →
          tallies (.take (ascii ',') :: skips next) ⟨.discard, key, used⟩ =
            some ⟨.discard, key, used⟩ := by
        intro used key fits
        refine tallies_idle ?_ ?_ (by simp [Event.entries]) fits key
        · simp only [List.forall_mem_cons, plain_skips, plain_take, and_true]
        · simp only [List.forall_mem_cons, clean_skips, clean_take, and_true]
      have split : membersEvents locals (.cons member next rest) = memberEvents locals member ++
          ((.take (ascii ',') :: skips next) ++
            membersEvents (advanceLocals locals (memberName member)) rest) := by
        simp [membersEvents, memberName]
      rw [split, Json.Members.toList, membersAmount, lastName, List.forall_mem_cons, ← add_assoc,
        tallies_append_iff]
      constructor
      · rintro ⟨middle, first, later⟩
        obtain ⟨keysFit, more, rfl⟩ := (tallies_member locals member fits key middle).mp first
        rw [tallies_append, comma _ more, Option.bind_some] at later
        obtain ⟨restFit, all, rfl⟩ := (inductionHypothesis _ more _).mp later
        exact ⟨⟨keysFit, restFit⟩, all, rfl⟩
      · rintro ⟨⟨keysFit, restFit⟩, all, rfl⟩
        have more := all.of_add
        refine ⟨_, (tallies_member locals member fits key _).mpr ⟨keysFit, more, rfl⟩, ?_⟩
        rw [tallies_append, comma _ more, Option.bind_some]
        exact (inductionHypothesis _ more _).mpr ⟨restFit, all, rfl⟩

theorem tallies_coreByte (byte : Byte) (fits : used.Fits) (key : List Byte) (after : Tally) :
    tallies (coreByteEvents byte) ⟨.discard, key, used⟩ = some after ↔
      (used + ⟨0, 0, [byte]⟩).Fits ∧ after = ⟨.discard, key, used + ⟨0, 0, [byte]⟩⟩ := by
  have plain : ∀ event ∈ [Event.emit byte], event.Plain := by simp [Event.Plain]
  have captured := tallies_captured plain .core fits key after
  have clean : ∀ event ∈ [Event.emit byte], event.Clean := by simp [Event.Clean]
  exact captured.trans (and_iff_right clean)

/-- The cost of the whole document. -/
def documentAmount (document : Json.Document) : Amount :=
  ⟨0, 0, [ascii '{']⟩ + (membersAmount {} document.memberList + ⟨0, 0, [ascii '}']⟩)

/-- The tally before anything is read. -/
def startTally : Tally := ⟨.discard, [], 0⟩

theorem tallies_memberList (document : Json.Document) (fits : used.Fits) (after : Tally) :
    tallies (document.members.elim [] (membersEvents {})) ⟨.discard, [], used⟩ = some after ↔
      (∀ member ∈ document.memberList, KeysFit member) ∧
        (used + membersAmount {} document.memberList).Fits ∧
        after = ⟨.discard, document.members.elim [] lastName,
          used + membersAmount {} document.memberList⟩ := by
  obtain ⟨before, inside, members, behind⟩ := document
  cases members with
  | none =>
      have noMember : ∀ member ∈ ([] : List Json.Member), KeysFit member :=
        fun _ impossible => absurd impossible List.not_mem_nil
      simp only [Option.elim_none, tallies, Json.Document.memberList, membersAmount, add_zero]
      exact ⟨fun same => ⟨noMember, fits, (Option.some.inj same).symm⟩, fun all => by rw [all.2.2]⟩
  | some members => exact tallies_members {} members fits [] after

/-- Reading white space and a bracket changes nothing. -/
theorem tallies_bracket (space : Json.Space) (byte : Byte) (rest : List Event) (fits : used.Fits)
    (key : List Byte) :
    tallies (skips space ++ .take byte :: rest) ⟨.discard, key, used⟩ =
      tallies rest ⟨.discard, key, used⟩ := by
  have idle : tallies (skips space ++ [.take byte]) ⟨.discard, key, used⟩ =
      some ⟨.discard, key, used⟩ := by
    refine tallies_idle ?_ ?_ (by simp [Event.entries]) fits key
    · simp only [List.forall_mem_append, List.forall_mem_singleton, plain_skips, plain_take,
        and_true]
    · simp only [List.forall_mem_append, List.forall_mem_singleton, clean_skips, clean_take,
        and_true]
  rw [List.append_cons, tallies_append, idle, Option.bind_some]

theorem fits_zero : (0 : Amount).Fits := ⟨Nat.zero_le _, Nat.zero_le _, Nat.zero_le _⟩

theorem tallies_document (document : Json.Document) (after : Tally) :
    tallies (documentEvents document) startTally = some after ↔
      (∀ member ∈ document.memberList, KeysFit member) ∧ (documentAmount document).Fits ∧
        after = ⟨.discard, document.members.elim [] lastName, documentAmount document⟩ := by
  have opened := tallies_bracket document.before (ascii '{') (coreByteEvents (ascii '{') ++
    (skips document.inside ++ (document.members.elim [] (membersEvents {}) ++
      .take (ascii '}') :: (coreByteEvents (ascii '}') ++ skips document.after)))) fits_zero []
  have closed : ∀ {used : Amount} {key : List Byte}, used.Fits →
      tallies (.take (ascii '}') :: (coreByteEvents (ascii '}') ++ skips document.after))
        ⟨.discard, key, used⟩ = tallies (coreByteEvents (ascii '}') ++ skips document.after)
        ⟨.discard, key, used⟩ :=
    fun fits => tallies_bracket Json.Space.none (ascii '}') _ fits _
  have sum : documentAmount document = 0 + ⟨0, 0, [ascii '{']⟩ +
      membersAmount {} document.memberList + ⟨0, 0, [ascii '}']⟩ := by
    rw [documentAmount, zero_add, add_assoc]
  rw [documentEvents, tallies, startTally, Event.tally, Option.bind_some, opened,
    tallies_append_iff, sum]
  constructor
  · rintro ⟨first, brace, later⟩
    obtain ⟨braceFits, rfl⟩ := (tallies_coreByte _ fits_zero [] first).mp brace
    rw [tallies_append, tallies_skips document.inside braceFits, Option.bind_some] at later
    obtain ⟨second, members, closing⟩ := tallies_append_iff.mp later
    obtain ⟨keys, membersFit, rfl⟩ := (tallies_memberList document braceFits second).mp members
    rw [closed membersFit] at closing
    obtain ⟨third, last, trailing⟩ := tallies_append_iff.mp closing
    obtain ⟨all, rfl⟩ := (tallies_coreByte _ membersFit _ third).mp last
    rw [tallies_skips document.after all] at trailing
    exact ⟨keys, all, (Option.some.inj trailing).symm⟩
  · rintro ⟨keys, all, rfl⟩
    have membersFit := all.of_add
    have braceFits := membersFit.of_add
    refine ⟨_, (tallies_coreByte _ fits_zero [] _).mpr ⟨braceFits, rfl⟩, ?_⟩
    rw [tallies_append, tallies_skips document.inside braceFits, Option.bind_some]
    refine tallies_append_iff.mpr
      ⟨_, (tallies_memberList document braceFits _).mpr ⟨keys, membersFit, rfl⟩, ?_⟩
    rw [closed membersFit]
    exact tallies_append_iff.mpr
      ⟨_, (tallies_coreByte _ membersFit _ _).mpr ⟨all, rfl⟩, tallies_skips document.after all _⟩

theorem coreFields_output {locals : RootLocals} (output : isOutput name = true) :
    (advanceLocals locals name).coreFields = locals.coreFields := by
  unfold advanceLocals
  split_ifs with kept text
  · rfl
  · rfl
  · simp only [not_or] at kept
    simp [isOutput, kept.1, text] at output

theorem coreFields_core {locals : RootLocals} (core : ¬ isOutput name = true) :
    (advanceLocals locals name).coreFields = locals.coreFields + 1 := by
  simp only [isOutput, Bool.or_eq_true, not_or] at core
  unfold advanceLocals
  rw [if_neg (by simp [core.1, core.2]), if_neg core.2]

/-- The core text so far decides whether the next member gets a comma. -/
def joinedFrom (locals : RootLocals) (members : List Json.Member) : List Byte :=
  if locals.coreFields = 0 then joined members
  else members.flatMap fun member => ascii ',' :: memberText member

theorem joinedFrom_cons (locals : RootLocals) {member : Json.Member}
    (core : ¬ isOutput (memberName member) = true) (rest : List Json.Member) :
    joinedFrom locals (member :: rest) =
      emitted (commaEvents (decide (locals.coreFields = 0))) ++ (memberText member ++
        joinedFrom (advanceLocals locals (memberName member)) rest) := by
  have later : ¬ (advanceLocals locals (memberName member)).coreFields = 0 := by
    rw [coreFields_core core]
    exact Nat.succ_ne_zero _
  unfold joinedFrom
  rw [if_neg later]
  by_cases first : locals.coreFields = 0
  · rw [if_pos first, joined, decide_eq_true first]
    rfl
  · rw [if_neg first, List.flatMap_cons, decide_eq_false first]
    rfl

/-- The amounts of the members in closed form. -/
theorem membersAmount_eq (locals : RootLocals) (members : List Json.Member) :
    membersAmount locals members = ⟨valueCount members, valueCount (coreMembers members),
      joinedFrom locals (coreMembers members)⟩ := by
  induction members generalizing locals with
  | nil =>
      have nothing : joinedFrom locals [] = [] := by
        unfold joinedFrom
        split <;> rfl
      simp [membersAmount, valueCount, coreMembers, nothing]
      rfl
  | cons member rest inductionHypothesis =>
      rw [membersAmount, inductionHypothesis, memberAmount]
      by_cases output : isOutput (memberName member) = true
      · have sameFrom : joinedFrom (advanceLocals locals (memberName member)) (coreMembers rest) =
            joinedFrom locals (coreMembers rest) := by
          simp only [joinedFrom, coreFields_output output]
        rw [if_pos output, sameFrom]
        simp [Amount.ext_iff, valueCount, coreMembers, output]
      · have joins := joinedFrom_cons locals output (coreMembers rest)
        rw [if_neg output]
        simp [Amount.ext_iff, valueCount, coreMembers, output] at joins ⊢
        rw [joins]

theorem documentAmount_eq (document : Json.Document) :
    documentAmount document = ⟨valueCount document.memberList,
      valueCount (coreMembers document.memberList), coreText document⟩ := by
  rw [documentAmount, membersAmount_eq]
  simp [Amount.ext_iff, coreText, joinedFrom]

/-! ### Reserved names -/

/-- The keys that spell a reserved name. -/
def named (name : List Byte) (keys : List (List Byte)) : List (List Byte) :=
  keys.filter fun key => sameIgnoringCase key name

/-- The reserved names that a key spells. -/
def matching (key : List Byte) (names : List (List Byte)) : List (List Byte) :=
  names.filter fun name => sameIgnoringCase key name

theorem markSeen_eq {names : List (List Byte)} (distinct : names.Nodup) (key : List Byte)
    (seen : List (List Byte)) :
    markSeen key names seen = if ∀ name ∈ matching key names, name ∉ seen then
      some ((matching key names).reverse ++ seen) else none := by
  induction names generalizing seen with
  | nil => simp [markSeen, matching]
  | cons first names inductionHypothesis =>
      obtain ⟨fresh, restDistinct⟩ := List.nodup_cons.mp distinct
      rw [markSeen]
      by_cases same : sameIgnoringCase key first = true
      · have split : matching key (first :: names) = first :: matching key names := by
          simp [matching, same]
        -- The name just added is not among the ones still to come.
        have others : ∀ name ∈ matching key names, name ≠ first := by
          rintro name member rfl
          exact fresh (List.mem_of_mem_filter member)
        have unseen : (∀ name ∈ matching key names, name ∉ first :: seen) ↔
            ∀ name ∈ matching key names, name ∉ seen := by
          refine forall₂_congr fun name member => ?_
          rw [List.mem_cons, not_or]
          exact and_iff_right (others name member)
        rw [if_pos same, inductionHypothesis restDistinct]
        simp only [split, List.forall_mem_cons, unseen]
        by_cases repeated : first ∈ seen
        · rw [if_pos repeated, if_neg fun all => all.1 repeated]
        · simp only [repeated, if_false, not_false_eq_true, true_and, List.reverse_cons,
            List.append_assoc, List.singleton_append]
      · have split : matching key (first :: names) = matching key names := by
          simp [matching, same]
        rw [if_neg same, inductionHypothesis restDistinct, split]

theorem named_cons {key : List Byte} (same : sameIgnoringCase key name = true)
    (rest : List (List Byte)) :
    (named name (key :: rest)).length = (named name rest).length + 1 := by
  simp [named, same]

theorem uniqueNames_nodup : uniqueNames.Nodup := by decide

/-- `root` accepts the keys exactly if no reserved name comes twice. -/
theorem namesPass_iff (keys seen : List (List Byte)) : NamesPass seen keys ↔
    ∀ name ∈ uniqueNames, (named name keys).length + (if name ∈ seen then 1 else 0) ≤ 1 := by
  induction keys generalizing seen with
  | nil =>
      refine iff_of_true trivial fun name _ => ?_
      split <;> simp [named]
  | cons key rest inductionHypothesis =>
      have passes : NamesPass seen (key :: rest) ↔
          (∀ name ∈ matching key uniqueNames, name ∉ seen) ∧
            NamesPass ((matching key uniqueNames).reverse ++ seen) rest := by
        simp only [NamesPass, markSeen_eq uniqueNames_nodup]
        by_cases unseen : ∀ name ∈ matching key uniqueNames, name ∉ seen
        · simp only [if_pos unseen, Option.some.injEq]
          exact ⟨fun ⟨_, same, later⟩ => ⟨unseen, same ▸ later⟩, fun both => ⟨_, rfl, both.2⟩⟩
        · simp [unseen]
      rw [passes, inductionHypothesis]
      constructor
      · rintro ⟨unseen, later⟩ name reserved
        have rest := later name reserved
        by_cases same : sameIgnoringCase key name = true
        · have isMatch : name ∈ matching key uniqueNames := by
            simp [matching, reserved, same]
          have isSeen : name ∈ (matching key uniqueNames).reverse ++ seen := by simp [isMatch]
          rw [if_pos isSeen] at rest
          rw [if_neg (unseen name isMatch), named_cons same]
          exact rest
        · have noMatch : name ∉ matching key uniqueNames := by simp [matching, same]
          simpa [named, same, noMatch] using rest
      · intro all
        refine ⟨fun name isMatch isSeen => ?_, fun name reserved => ?_⟩
        · obtain ⟨reserved, same⟩ := List.mem_filter.mp isMatch
          have bound := all name reserved
          rw [if_pos isSeen, named_cons same] at bound
          omega
        · have bound := all name reserved
          by_cases same : sameIgnoringCase key name = true
          · rw [named_cons same] at bound
            have empty : (named name rest).length = 0 := by omega
            rw [empty]
            split <;> decide
          · have noMatch : name ∉ matching key uniqueNames := by simp [matching, same]
            simpa [named, same, noMatch] using bound

end IperfSwift.Output
