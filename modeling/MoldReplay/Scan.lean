import MoldReplay.Downstream

/- Where a replay can be in its file. Nothing but the lengths and timestamps in the file
   and the room left in a packet decides where it goes next. -/
namespace MoldScan
open FixedBytes MoldWire MoldFraming MoldPacket MoldDownstream ScheduledRuns Relation

/-- A position at the head of the replay loop, or inside a packet with room left. -/
inductive Place where
  | head (pos : Nat)
  | reading (pos room : Nat)

inductive Next (S : Setup) : Place → Place → Prop where
  | skipped {pos : Nat} (below : S.SkippedAt pos) (complete : Complete S.file.bytes pos) :
      Next S (.head pos) (.head (S.afterMessage pos))
  | opened {pos : Nat} (kept : S.KeptAt pos) :
      Next S (.head pos) (.reading pos S.config.capacity)
  | added {pos room : Nat} (complete : Complete S.file.bytes pos)
      (fits : (S.messageAt pos).length ≤ room) :
      Next S (.reading pos room)
        (.reading (S.afterMessage pos) (room - (S.messageAt pos).length))
  | full {pos room : Nat} (complete : Complete S.file.bytes pos)
      (large : room < (S.messageAt pos).length) : Next S (.reading pos room) (.head pos)
  | unreadable {pos room : Nat} (incomplete : ¬ Complete S.file.bytes pos) :
      Next S (.reading pos room) (.head (afterFailure S.file.bytes pos))

def Reaches (S : Setup) : Place → Prop := ReflTransGen (Next S) (.head 0)

inductive Stands (S : Setup) : Thread → Place → Prop where
  | head {f : Feed} (mtu : f.packetBuilder.MTU = S.config.MTU) :
      Stands S ⟨f, .replaying⟩ (.head f.filePos)
  | reading {f : Feed} (timestamp : Nat) (mtu : f.packetBuilder.MTU = S.config.MTU) :
      Stands S ⟨f, .building timestamp⟩ (.reading f.filePos f.packetBuilder.bytesRemaining)

def returning : Phase → Bool
  | .starting | .pacing _ | .publishing | .sending => true
  | _ => false

def left : Phase → Bool
  | .stopping | .joining | .ending | .finished => true
  | _ => false

inductive Heads (S : Setup) : Thread → Place → Prop where
  | stands {t : Thread} {place : Place} (there : Stands S t place) : Heads S t place
  | returns {f : Feed} {phase : Phase} (mtu : f.packetBuilder.MTU = S.config.MTU)
      (back : returning phase = true) : Heads S ⟨f, phase⟩ (.head f.filePos)
  | leaves {t : Thread} {place : Place} (out : left t.phase = true) : Heads S t place

/-- What peek_timestamp is to do at a position: it hands extract_timestamp no less than is
    asserted there, and where it cannot it finds no timestamp. -/
structure PeeksInside (file : MappedFile) (pos : Nat) : Prop where
  asserted : ∀ timestamp, peekTimestamp file pos = some timestamp →
    timestampOffset + timestampSize ≤ file.size - pos - lengthPrefixSize
  inside : ∀ timestamp, peekTimestamp file pos = some timestamp →
    ∀ i, 7 ≤ i → i ≤ 12 → pos + i < file.size
  otherwise : file.size - pos - lengthPrefixSize < timestampOffset + timestampSize →
    peekTimestamp file pos = none

variable {S : Setup} {f : Feed}

theorem capacity_reset (mtu : f.packetBuilder.MTU = S.config.MTU) :
    f.startPacket.packetBuilder.bytesRemaining = S.config.capacity := by
  rw [Feed.startPacket, PacketBuilder.reset, mtu]
  rfl

theorem messageAt_tried {b : PacketBuilder} {pos : Nat} (complete : Complete S.file.bytes pos) :
    b.tryAdd (S.messageAt pos) =
      if b.bytesRemaining < (S.messageAt pos).length then (false, b)
      else (true, { b with
        iovecs := b.iovecs ++ [.message (S.messageAt pos)]
        bytesRemaining := b.bytesRemaining - (S.messageAt pos).length }) := by
  have nonempty : (S.messageAt pos).isEmpty = false :=
    List.isEmpty_eq_false_iff.mpr (messageAt_ne_nil complete)
  simp [PacketBuilder.tryAdd, nonempty]

theorem addMessage_stuck (incomplete : ¬ Complete S.file.bytes f.filePos) :
    f.addMessage S = .leave { f with filePos := afterFailure S.file.bytes f.filePos } := by
  by_cases inside : f.filePos < S.file.size
  · exact addMessage_unreadable inside incomplete
  · have stays : afterFailure S.file.bytes f.filePos = f.filePos := by
      rw [afterFailure, if_neg (by simp only [MappedFile.size] at inside; omega)]
    rw [addMessage_eof (Nat.not_lt.mp inside), stays]

theorem addMessage_scanned (timestamp : Nat) (mtu : f.packetBuilder.MTU = S.config.MTU)
    (inputs : Inputs) :
    ∃ place, Next S (.reading f.filePos f.packetBuilder.bytesRemaining) place ∧
      Heads S (Thread.step S ⟨f, .building timestamp⟩ inputs) place := by
  by_cases complete : Complete S.file.bytes f.filePos
  · by_cases fits : (S.messageAt f.filePos).length ≤ f.packetBuilder.bytesRemaining
    · refine ⟨_, .added complete fits, ?_⟩
      have added := (messageAt_tried complete).trans (if_neg (Nat.not_lt.mpr fits))
      simp only [Thread.step, addMessage_adds complete added]
      exact .stands (.reading timestamp mtu)
    · have large := Nat.not_le.mp fits
      refine ⟨_, .full complete large, ?_⟩
      have refused := (messageAt_tried complete).trans (if_pos large)
      simp only [Thread.step, addMessage_full complete refused]
      exact .returns mtu rfl
  · refine ⟨_, .unreadable complete, ?_⟩
    simp only [Thread.step, addMessage_stuck complete]
    exact .returns mtu rfl

theorem atHead_scanned (mtu : f.packetBuilder.MTU = S.config.MTU) (inputs : Inputs) :
    ∃ place, ReflTransGen (Next S) (.head f.filePos) place ∧
      Heads S (Thread.step S ⟨f, .replaying⟩ inputs) place := by
  simp only [Thread.step]
  cases inputs.stopRequested with
  | true => exact ⟨_, .refl, by rw [atHead_stopped]; exact .leaves rfl⟩
  | false =>
    have choice := atHead_choice S f
    generalize f.atHead S false = found at choice ⊢
    cases choice with
    | short _ => exact ⟨_, .refl, .leaves rfl⟩
    | skipFails _ _ => exact ⟨_, .refl, .leaves rfl⟩
    | skip skipped complete => exact ⟨_, .single (.skipped skipped complete), .stands (.head mtu)⟩
    | build peeked keeps =>
      refine ⟨_, .single (.opened ⟨_, peeked, keeps⟩), ?_⟩
      rw [← capacity_reset mtu]
      exact .stands (.reading _ mtu)

theorem step_scanned (t : Thread) (place : Place) (inputs : Inputs) (heads : Heads S t place) :
    ∃ place', ReflTransGen (Next S) place place' ∧ Heads S (t.step S inputs) place' := by
  cases heads with
  | stands there =>
    cases there with
    | head mtu => exact atHead_scanned mtu inputs
    | reading timestamp mtu =>
      obtain ⟨place', next, there⟩ := addMessage_scanned timestamp mtu inputs
      exact ⟨place', .single next, there⟩
  | returns mtu back =>
    rename_i f phase
    cases phase with
    | starting => exact ⟨_, .refl, .stands (.head mtu)⟩
    | pacing timestamp => exact ⟨_, .refl, .returns (f := f.pace timestamp) mtu rfl⟩
    | publishing => exact ⟨_, .refl, .returns (f := f.publishSequence) mtu rfl⟩
    | sending => exact ⟨_, .refl, .stands (.head (f := f.transmit) mtu)⟩
    | _ => cases back
  | leaves out =>
    refine ⟨place, .refl, .leaves ?_⟩
    obtain ⟨f, phase⟩ := t
    cases phase with
    | ending =>
      simp only [Thread.step]
      split <;> rfl
    | stopping => rfl
    | joining => rfl
    | finished => rfl
    | _ => cases out

theorem thread_scanned (S : Setup) (inputs : List Inputs) :
    ∃ place, Reaches S place ∧ Heads S (S.runThread inputs) place := by
  have mtu : S.builder.MTU = S.config.MTU := (construct_accepts S.built).2.mtu
  exact run_simulated step_scanned inputs (.returns (f := S.initial) mtu rfl)

theorem packet_closed {g : Feed} (timestamp : Nat) (closes : f.addMessage S = .leave g)
    (mtu : g.packetBuilder.MTU = S.config.MTU) :
    ∃ inputs, Stands S (run (Thread.step S) ⟨f, .building timestamp⟩ inputs) (.head g.filePos) := by
  refine ⟨[undisturbed, undisturbed, undisturbed, undisturbed], ?_⟩
  simp only [run, List.foldl_cons, List.foldl_nil, Thread.step, closes]
  exact .head (f := ((g.pace timestamp).publishSequence).transmit) mtu

theorem next_taken (t : Thread) (place place' : Place) (there : Stands S t place)
    (next : Next S place place') : ∃ inputs, Stands S (run (Thread.step S) t inputs) place' := by
  cases there with
  | head mtu =>
    refine ⟨[undisturbed], ?_⟩
    simp only [run, List.foldl_cons, List.foldl_nil, Thread.step, undisturbed]
    cases next with
    | skipped below complete =>
      rw [atHead_skip below complete]
      exact .head mtu
    | opened kept =>
      obtain ⟨timestamp, peeked, keeps⟩ := kept
      rw [atHead_build peeked keeps, ← capacity_reset mtu]
      exact .reading timestamp mtu
  | reading timestamp mtu =>
    cases next with
    | added complete fits =>
      have added := (messageAt_tried complete).trans (if_neg (Nat.not_lt.mpr fits))
      refine ⟨[undisturbed], ?_⟩
      simp only [run, List.foldl_cons, List.foldl_nil, Thread.step,
        addMessage_adds complete added]
      exact .reading timestamp mtu
    | full complete large =>
      have refused := (messageAt_tried complete).trans (if_pos large)
      exact packet_closed timestamp (addMessage_full complete refused) mtu
    | unreadable incomplete =>
      exact packet_closed timestamp (addMessage_stuck incomplete) mtu

/-- Wherever the scan goes, some run of the thread gets. -/
theorem scan_taken {place : Place} (reached : Reaches S place) :
    ∃ inputs, Stands S (S.runThread inputs) place := by
  have mtu : S.builder.MTU = S.config.MTU := (construct_accepts S.built).2.mtu
  have start : Stands S (S.runThread [undisturbed]) (.head 0) := .head (f := S.initial) mtu
  obtain ⟨inputs, there⟩ := path_run next_taken start reached
  refine ⟨undisturbed :: inputs, ?_⟩
  exact there

theorem head_reached {inputs : List Inputs} (replaying : S.runThread inputs = ⟨f, .replaying⟩) :
    Reaches S (.head f.filePos) := by
  obtain ⟨place, reached, heads⟩ := thread_scanned S inputs
  rw [replaying] at heads
  cases heads with
  | stands there =>
    cases there with
    | head _ => exact reached
  | returns _ back => cases back
  | leaves out => cases out

theorem peeksInside_iff (file : MappedFile) (pos : Nat) :
    PeeksInside file pos ↔ ¬ (8 ≤ file.size - pos ∧ file.size - pos < 13) := by
  constructor
  · rintro peeks ⟨enough, short⟩
    cases peeked : peekTimestamp file pos with
    | none =>
      have := peekTimestamp_none.mp peeked
      omega
    | some timestamp =>
      have := peeks.inside timestamp peeked 12 (by decide) (by decide)
      omega
  · intro far
    have bound : ∀ timestamp, peekTimestamp file pos = some timestamp → 13 ≤ file.size - pos := by
      intro timestamp peeked
      by_contra short
      rw [peekTimestamp_none.mpr (by omega)] at peeked
      cases peeked
    refine ⟨?_, ?_, ?_⟩
    · intro timestamp peeked
      have := bound timestamp peeked
      simp only [timestampOffset, timestampSize, lengthPrefixSize]
      omega
    · intro timestamp peeked i _ _
      have := bound timestamp peeked
      omega
    · intro short
      simp only [timestampOffset, timestampSize, lengthPrefixSize] at short
      exact peekTimestamp_none.mpr (by omega)

/-- A replay looks for timestamps inside the file only, exactly if it never comes to the
    head of its loop with 8 to 12 bytes left. -/
theorem peeks_inside_iff (S : Setup) :
    (∀ inputs f, S.runThread inputs = ⟨f, .replaying⟩ → f.filePos < S.file.size →
      PeeksInside S.file f.filePos) ↔
    ∀ pos, Reaches S (.head pos) → ¬ (8 ≤ S.file.size - pos ∧ S.file.size - pos < 13) := by
  constructor
  · intro peeks pos reached tail
    obtain ⟨inputs, there⟩ := scan_taken reached
    generalize at_head : S.runThread inputs = t at there
    cases there with
    | head _ => exact (peeksInside_iff _ _).mp (peeks inputs _ at_head (by omega)) tail
  · intro tails inputs f replaying _
    exact (peeksInside_iff _ _).mpr (tails _ (head_reached replaying))

theorem short_tail_overread : ∃ S,
    Setup.make ⟨List.replicate 8 0, fun _ => 0, by decide⟩ ⟨0⟩
      { session := List.replicate 10 0x20 } 4 = .ok S ∧
    S.runThread [undisturbed] = ⟨S.initial, .replaying⟩ ∧
    S.initial.filePos < S.file.size ∧ ¬ PeeksInside S.file S.initial.filePos := by
  refine ⟨⟨⟨List.replicate 8 0, fun _ => 0, by decide⟩, ⟨0⟩,
    { session := List.replicate 10 0x20 }, 4, _, _, rfl, rfl⟩, rfl, rfl, by decide, ?_⟩
  intro peeks
  exact (peeksInside_iff _ _).mp peeks (by decide)

end MoldScan
