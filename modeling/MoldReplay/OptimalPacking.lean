import MoldReplay.Threshold
import Mathlib.Order.Bounds.Defs

/- With nothing to skip, a replay sends as few data packets as its messages can be sent in
   without changing their order. -/
namespace MoldOptimal
open FixedBytes MoldWire MoldFraming MoldPacket MoldDownstream MoldTermination MoldWellFormed
open MoldWholeFile MoldThreshold LoopBody GreedyPacking

/-- The messages cut into groups that each fit into a packet. -/
structure Grouping (S : Setup) (ms : List (List UInt8)) (groups : List (List (List UInt8))) :
    Prop where
  whole : groups.flatten = ms
  nonempty : ∀ g ∈ groups, g ≠ []
  fits : ∀ g ∈ groups, g.flatten.length ≤ S.config.MTU - 20

variable {S : Setup}

theorem message_total (S : Setup) (ms : List (List UInt8)) :
    (messageRule S).total ms = ms.flatten.length := by
  induction ms with
  | nil => rfl
  | cons m rest ih =>
    rw [Rule.total, ih, List.flatten_cons, List.length_append]
    rfl

theorem nothing_unwanted (all : S.pacer.skipBefore = 0) (m : List UInt8) :
    (messageRule S).unwanted m = false := by
  simp [messageRule, Pacer.shouldSkip, all]

/-- The packets of an uninterrupted replay are a grouping of its messages, and no grouping
    has fewer groups. -/
theorem replay_packs_fewest (S : Setup) (ms : List (List UInt8))
    (file : S.file.bytes = ms.flatten) (all : S.pacer.skipBefore = 0)
    (framed : ∀ m ∈ ms, IsFrame m ∧ max 13 S.config.minMessageSize ≤ m.length ∧
      m.length ≤ S.config.MTU - 20) :
    ∃ g, Leaves (Feed.replayPass S) S.initial g ∧
      Grouping S ms ((sentPackets g.log).map Packet.messages) ∧
      IsLeast {count | ∃ groups, Grouping S ms groups ∧ groups.length = count}
        (sentPackets g.log).length := by
  obtain ⟨g, arrived⟩ := messages_replayed (whole_begins (framed_regular framed) file)
  have packets := arrived_packets arrived
  have wanted : ∀ m ∈ ms, (messageRule S).unwanted m = false := fun m _ => nothing_unwanted all m
  have grouping : Grouping S ms ((sentPackets g.log).map Packet.messages) := by
    rw [packets]
    have fit := packets_fit wanted fun m member => (framed m member).2.2
    refine ⟨?_, fun p member => (fit p member).1, fun p member => ?_⟩
    · rw [packets_flatten, wanted_items wanted]
    · rw [← message_total S]
      exact (fit p member).2
  refine ⟨g, (arrived_leaves arrived file).1, grouping, ⟨_, grouping, by simp⟩, ?_⟩
  rintro count ⟨groups, cut, rfl⟩
  have room : ∀ group ∈ groups, (messageRule S).total group ≤ (messageRule S).capacity := by
    intro group member
    rw [message_total]
    exact cut.fits group member
  have fewest := pack_fewest (fun m _ => nothing_unwanted all m) room
  rw [cut.whole, ← packets, List.length_map] at fewest
  exact fewest

theorem three_messages_packed : ∃ S g,
    Setup.make ⟨(List.replicate 3 (frame (List.replicate 12 1))).flatten, fun _ => 0, by decide⟩ ⟨0⟩
      { session := List.replicate 10 0x20, MTU := 50 } 4 = .ok S ∧
    Leaves (Feed.replayPass S) S.initial g ∧
    IsLeast {count | ∃ groups, Grouping S (List.replicate 3 (frame (List.replicate 12 1))) groups ∧
      groups.length = count} (sentPackets g.log).length :=
  have packed := replay_packs_fewest
    ⟨⟨(List.replicate 3 (frame (List.replicate 12 1))).flatten, fun _ => 0, by decide⟩, ⟨0⟩,
      { session := List.replicate 10 0x20, MTU := 50 }, 4, _, _, rfl, rfl⟩
    (List.replicate 3 (frame (List.replicate 12 1))) rfl rfl
    (by simpa using ⟨frame_isFrame (List.replicate 12 1) (by decide), by decide, by decide⟩)
  packed.elim fun g facts => ⟨_, g, rfl, facts.1, facts.2.2⟩

end MoldOptimal
