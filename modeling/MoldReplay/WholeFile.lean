import MoldReplay.WellFormedFiles
import MoldReplay.GapFree

/- A replay of a file of regular messages, from its start to the end of the loop. -/
namespace MoldWholeFile
open FixedBytes MoldWire MoldFraming MoldPacket MoldBuffer MoldDownstream MoldLedger
open MoldGapFree MoldTermination MoldWellFormed LoopBody NumberedStream GreedyPacking

/-- Every message sent, under the number in its packet's header plus its index. -/
def numberedMessages (ps : List Packet) : List (Nat × List UInt8) :=
  ps.flatMap fun p => p.messages.mapIdx fun i m => (p.sequenceNumber + i, m)

variable {S : Setup} {f : Feed} {L : Ledger Entry} {ms : List (List UInt8)}

theorem numbered_messages {n : Nat} {packets : List (List Entry)}
    (bound : ∀ p ∈ numbered n packets, p.1 < 2 ^ 64) :
    numberedMessages ((numbered n packets).map (numberedPacket S.config.session)) =
      packets.flatten.mapIdx fun j e => (n + j, e.message) := by
  induction packets generalizing n with
  | nil => rfl
  | cons p rest ih =>
    have first : (numberedPacket S.config.session (n, p)).sequenceNumber = n :=
      packet_number (bound (n, p) List.mem_cons_self)
    have others := ih (n := n + p.length) fun q member => bound q (List.mem_cons_of_mem _ member)
    simp only [numberedMessages] at others
    simp only [numberedMessages, numbered, List.map_cons, List.flatMap_cons, first, others,
      List.flatten_cons, List.mapIdx_append]
    unfold numberedPacket
    rw [dataPacket_messages, messages, mapIdx_of_map]
    simp only [Nat.add_comm, Nat.add_left_comm]

theorem sent_numbers (h : Tracks S f L) :
    numberedMessages (sentPackets f.log) = L.sent.mapIdx fun j e => (j + 1, e.message) := by
  rw [h.sent, render, numbered_messages]
  · simp only [Nat.add_comm 1]
    rfl
  · intro p member
    have := number_bound h member
    omega

theorem sent_blocks (h : Tracks S f L) :
    ((sentPackets f.log).map Packet.block).flatten = (messages L.sent).flatten := by
  have blocks : ∀ (n : Nat) (packets : List (List Entry)),
      (((numbered n packets).map (numberedPacket S.config.session)).map Packet.block).flatten =
        (messages packets.flatten).flatten := by
    intro n packets
    induction packets generalizing n with
    | nil => rfl
    | cons p rest ih =>
      have block : (numberedPacket S.config.session (n, p)).block = (messages p).flatten :=
        dataPacket_block (accepted S).session _ _
      simp only [numbered, List.map_cons, List.flatten_cons, block, ih, messages_append,
        List.flatten_append]
  rw [h.sent]
  exact blocks 1 L.packets

theorem located_after {pos : Nat} {e : Entry} (member : e ∈ located pos ms) :
    pos ≤ e.position := by
  induction ms generalizing pos with
  | nil => simp [located] at member
  | cons m rest ih =>
    rcases List.mem_cons.mp member with rfl | later
    · exact Nat.le_refl _
    · exact Nat.le_trans (Nat.le_add_right _ _) (ih later)

theorem located_nodup (pos : Nat) (nonempty : ∀ m ∈ ms, 0 < m.length) :
    ((located pos ms).map Entry.position).Nodup := by
  induction ms generalizing pos with
  | nil => simp [located]
  | cons m rest ih =>
    unfold located
    rw [List.map_cons, List.nodup_cons]
    refine ⟨?_, ih _ fun m' member => nonempty m' (List.mem_cons_of_mem _ member)⟩
    intro member
    obtain ⟨e, later, same⟩ := List.mem_map.mp member
    have after := located_after later
    have positive := nonempty m List.mem_cons_self
    simp only at same
    omega

theorem arrived_entries (h : Arrived S ms ms [] f) (regular : ∀ m ∈ ms, Regular S m) :
    (ledger S f.log).sent =
      (located 0 ms).filter fun e => decide (e.position ∉ skippedPositions f.log) := by
  have nonempty : ∀ m ∈ ms, 0 < m.length := by
    intro m member
    have := (regular m member).timed
    omega
  unfold Ledger.sent
  rw [h.packets, packets_flatten, h.skipped]
  exact packed_items (rule S) Entry.position (located_nodup 0 nonempty)

theorem arrived_skipped (h : Arrived S ms ms [] f) :
    ∀ pos ∈ skippedPositions f.log, ∃ e ∈ located 0 ms, e.position = pos ∧
      (timestampOf e.message : Int) < S.pacer.skipBefore := by
  intro pos member
  rw [h.skipped] at member
  obtain ⟨e, dropped, rfl⟩ := List.mem_map.mp member
  refine ⟨e, (dropped_sublist _ _).subset dropped, rfl, ?_⟩
  have unwanted := dropped_unwanted _ _ e dropped
  simpa [rule, Pacer.shouldSkip] using unwanted

theorem whole_begins (regular : ∀ m ∈ ms, Regular S m) (file : S.file.bytes = ms.flatten) :
    Begins S ms where
  bytes := ⟨[], by simp [file]⟩
  regular := regular
  ends := by
    simp only [file, Complete]
    omega

theorem arrived_leaves (h : Arrived S ms ms [] f) (file : S.file.bytes = ms.flatten) :
    Leaves (Feed.replayPass S) S.initial f ∧ f.filePos = S.file.size := by
  have position : f.filePos = S.file.size := by
    have unmoved : stopped S ms [] = ms.flatten.length := by
      unfold stopped
      rw [if_pos rfl, afterFailure, if_neg (by rw [file]; omega)]
    rw [h.position, unmoved, ite_self, MappedFile.size, file]
  refine ⟨visits_leaves h.visits (.leave ?_), position⟩
  have head : f.atHead S false = .leave f := by simp [Feed.atHead, position]
  unfold Feed.replayPass
  rw [head]

/-- Every message of the file is sent once and in order, or skipped for its timestamp;
    the j-th message sent has number j, and was pushed with it and its offset. -/
theorem whole_file_replayed (S : Setup) (ms : List (List UInt8))
    (file : S.file.bytes = ms.flatten)
    (framed : ∀ m ∈ ms, IsFrame m ∧ max 13 S.config.minMessageSize ≤ m.length ∧
      m.length ≤ S.config.MTU - 20) :
    ∃ g, Leaves (Feed.replayPass S) S.initial g ∧ g.filePos = S.file.size ∧
      (∀ pos ∈ skippedPositions g.log, ∃ e ∈ located 0 ms, e.position = pos ∧
        (timestampOf e.message : Int) < S.pacer.skipBefore) ∧
      ∃ kept, kept = (located 0 ms).filter (fun e => decide (e.position ∉ skippedPositions g.log)) ∧
        ((sentPackets g.log).map Packet.block).flatten = (messages kept).flatten ∧
        numberedMessages (sentPackets g.log) = kept.mapIdx (fun j e => (j + 1, e.message)) ∧
        pushedRecords g.log =
          kept.mapIdx (fun j e => (⟨UInt64.ofNat (j + 1), e.position⟩ : MessageRecord)) := by
  have regular := framed_regular framed
  obtain ⟨g, head⟩ := messages_replayed (whole_begins regular file)
  obtain ⟨leaves, position⟩ := arrived_leaves head file
  have follows := visited_follows head.visits
  have closed : (ledger S g.log).entries = (ledger S g.log).sent := by
    unfold Ledger.entries
    rw [follows.phase.1, List.append_nil]
  refine ⟨g, leaves, position, arrived_skipped head, _, arrived_entries head regular,
    sent_blocks follows.tracks, sent_numbers follows.tracks, ?_⟩
  rw [follows.tracks.pushed, closed, records, positions, mapIdx_of_map]

/-- A message below the threshold, then three of which a packet takes two. -/
def oneSkipped : List (List UInt8) := [0, 1, 2, 3].map fun b => frame (List.replicate 12 b)

def oneSkippedSetup : Setup :=
  ⟨⟨oneSkipped.flatten, fun _ => 0, by decide⟩, ⟨1⟩,
    { session := List.replicate 10 0x20, MTU := 48 }, 4, _, _, rfl, rfl⟩

theorem one_skipped_replayed : ∃ S g,
    Setup.make ⟨oneSkipped.flatten, fun _ => 0, by decide⟩ ⟨1⟩
      { session := List.replicate 10 0x20, MTU := 48 } 4 = .ok S ∧
    Leaves (Feed.replayPass S) S.initial g ∧ g.filePos = S.file.size ∧
    skippedPositions g.log = [0] ∧
    (sentPackets g.log).map (fun p => p.messages.length) = [2, 1] ∧
    numberedMessages (sentPackets g.log) =
      [(1, frame (List.replicate 12 1)), (2, frame (List.replicate 12 2)),
        (3, frame (List.replicate 12 3))] := by
  have framed : ∀ m ∈ oneSkipped,
      IsFrame m ∧ max 13 oneSkippedSetup.config.minMessageSize ≤ m.length ∧
        m.length ≤ oneSkippedSetup.config.MTU - 20 := by
    intro m member
    obtain ⟨b, _, rfl⟩ := List.mem_map.mp member
    have length : (frame (List.replicate 12 b)).length = 14 := by simp [frame]
    rw [length]
    exact ⟨frame_isFrame (List.replicate 12 b) (by simp), by decide, by decide⟩
  obtain ⟨g, leaves, position, _, kept, chosen, _, numbered, _⟩ :=
    whole_file_replayed oneSkippedSetup oneSkipped rfl framed
  -- the feed that the theorem speaks of, by running the loop
  have ends : (LoopBody.run (Feed.replayPass oneSkippedSetup) 4 oneSkippedSetup.initial).map
      (fun g => (skippedPositions g.log, (sentPackets g.log).map fun p => p.messages.length)) =
        some ([0], [2, 1]) := by decide +kernel
  obtain ⟨last, ran, seen⟩ := Option.map_eq_some_iff.mp ends
  have same := leaves_unique (leaves_of_run ran) leaves
  obtain ⟨skipped, sizes⟩ := Prod.mk.inj seen
  rw [same] at skipped sizes
  refine ⟨oneSkippedSetup, g, rfl, leaves, position, skipped, sizes, ?_⟩
  rw [numbered, chosen, skipped]
  decide +kernel

end MoldWholeFile
