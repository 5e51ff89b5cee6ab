import MoldReplay.Ledger

/- The multicast stream as its receivers see it: numbers without gaps, counts that
   agree with the message blocks, and the number end of session announces. -/
namespace MoldGapFree
open FixedBytes MoldWire MoldFraming MoldPacket MoldDownstream MoldLedger ScheduledRuns
open NumberedStream

/-- The first packet has number 1, and every packet ends where the next one starts. -/
def GapFree (ps : List Packet) : Prop :=
  (∀ p ∈ ps.head?, p.sequenceNumber = 1) ∧
    ps.IsChain fun p q => q.sequenceNumber = p.sequenceNumber + p.messageCount

/-- The block consists of framed messages, and the header counts them. -/
structure WellCounted (p : Packet) : Prop where
  block : p.block = p.messages.flatten
  framed : ∀ m ∈ p.messages, IsFrame m
  count : p.messageCount = p.messages.length

def messagesSent (log : List Event) : Nat :=
  ((sentPackets log).map fun p => p.messages.length).sum

def eosPacket (session : List UInt8) (seq : Nat) : Packet :=
  ⟨[headerBytes session seq endOfSessionMsgCount.toNat]⟩

/-- End of session packets are only sent at the end, all with the final number. -/
def Announced (S : Setup) (t : Thread) : Prop :=
  ∀ p ∈ endOfSessionPackets t.feed.log,
    t.phase.ended = true ∧ p = eosPacket S.config.session t.feed.sequenceNumber.toNat

variable {S : Setup} {f : Feed} {L : Ledger Entry}

theorem frames_count {ms : List (List UInt8)} (framed : ∀ m ∈ ms, IsFrame m) :
    2 * ms.length ≤ ms.flatten.length :=
  least_total fun m member => (framed m member).1

theorem messages_framed {es : List Entry} (reads : ∀ e ∈ es, Reads S e) :
    ∀ m ∈ messages es, IsFrame m := by
  intro m member
  obtain ⟨e, inside, rfl⟩ := List.mem_map.mp member
  rw [(reads e inside).2]
  exact messageAt_isFrame (reads e inside).1

theorem accepted (S : Setup) : S.config.Accepted := (construct_accepts S.built).1

theorem packed_count (mtu : S.config.MTU ≤ 65507) {es : List Entry} (packed : Packed S es)
    (reads : ∀ e ∈ es, Reads S e) : es.length < 65536 := by
  have count := frames_count (messages_framed reads)
  have fits := packed.fits
  simp only [Config.capacity, messages_length] at count fits
  omega

theorem packet_number {p : Nat × List Entry} (bound : p.1 < 2 ^ 64) :
    (numberedPacket S.config.session p).sequenceNumber = p.1 :=
  dataPacket_sequenceNumber (accepted S).session bound _

theorem packet_count {p : Nat × List Entry} (few : p.2.length < 65536) :
    (numberedPacket S.config.session p).messageCount = p.2.length := by
  unfold numberedPacket
  rw [dataPacket_messageCount (accepted S).session, messages_length]
  exact Nat.mod_eq_of_lt few

theorem packet_reads (h : Tracks S f L) {p : List Entry} (member : p ∈ L.packets) :
    ∀ e ∈ p, Reads S e := by
  intro e inside
  apply h.reads
  exact List.mem_append_left _ (List.mem_flatten.mpr ⟨p, member, inside⟩)

theorem packet_few (mtu : S.config.MTU ≤ 65507) (h : Tracks S f L) {p : Nat × List Entry}
    (member : p ∈ numbered 1 L.packets) : p.2.length < 65536 :=
  have inside := numbered_packet member
  packed_count mtu (h.packets _ inside) (packet_reads h inside)

theorem number_bound (h : Tracks S f L) {p : Nat × List Entry}
    (member : p ∈ numbered 1 L.packets) : p.1 + p.2.length < 2 ^ 64 := by
  obtain ⟨before, after, stream, number⟩ := numbered_split member
  have small := numbers_small h
  have total := sent_le_entries L
  have sizes := congrArg List.length stream
  simp only [List.length_append] at sizes
  change L.sent.length = _ at sizes
  omega

theorem rendered_gap_free (mtu : S.config.MTU ≤ 65507) (h : Tracks S f L) :
    GapFree (sentPackets f.log) := by
  rw [h.sent, render]
  constructor
  · intro p first
    rw [List.head?_map, Option.mem_def, Option.map_eq_some_iff] at first
    obtain ⟨q, head, rfl⟩ := first
    have member := List.mem_of_mem_head? (Option.mem_def.mpr head)
    have bound := number_bound h member
    rw [packet_number (by omega), numbered_first head]
  · rw [List.isChain_map]
    apply (numbered_chain 1 L.packets).imp_of_mem_imp
    intro p q member member' follows
    have bound := number_bound h member
    have bound' := number_bound h member'
    rw [packet_number (by omega), packet_number (by omega), packet_count (packet_few mtu h member)]
    exact follows

theorem rendered_well_counted (mtu : S.config.MTU ≤ 65507) (h : Tracks S f L) :
    ∀ p ∈ sentPackets f.log, WellCounted p := by
  intro p member
  rw [h.sent, render, List.mem_map] at member
  obtain ⟨q, inside, rfl⟩ := member
  refine ⟨dataPacket_block (accepted S).session _ _,
    messages_framed (packet_reads h (numbered_packet inside)), ?_⟩
  rw [packet_count (packet_few mtu h inside)]
  simp [numberedPacket]

theorem rendered_total (h : Tracks S f L) : messagesSent f.log = L.sent.length := by
  have totals : ∀ (n : Nat) (packets : List (List Entry)),
      (((numbered n packets).map (numberedPacket S.config.session)).map
        fun p => p.messages.length).sum = packets.flatten.length := by
    intro n packets
    induction packets generalizing n with
    | nil => rfl
    | cons p rest ih =>
      simp only [numbered, List.map_cons, List.sum_cons, ih, numberedPacket, dataPacket_messages,
        messages_length, List.flatten_cons, List.length_append]
  unfold messagesSent
  rw [h.sent]
  exact totals 1 L.packets

theorem published_number {t : Thread} (h : Follows S t) (outside : t.phase ≠ .sending) :
    t.feed.sentSequenceNumber = UInt64.ofNat ((ledger S t.feed.log).sent.length + 1) := by
  obtain ⟨f, phase⟩ := t
  obtain ⟨tracks, at_phase⟩ := h
  have between : (ledger S f.log).current = [] → f.sentSequenceNumber = f.sequenceNumber →
      f.sentSequenceNumber = UInt64.ofNat ((ledger S f.log).sent.length + 1) := by
    intro closed same
    rw [same, tracks.next, Ledger.entries, closed, List.append_nil]
  cases phase with
  | building timestamp => exact at_phase.1.announced
  | pacing timestamp => exact at_phase.announced
  | publishing => exact at_phase.announced
  | sending => exact absurd rfl outside
  | _ => exact between at_phase.1 at_phase.2.2

theorem eosPacket_bytes (session : List UInt8) (seq : Nat) :
    (eosPacket session seq).bytes =
      headerBytes session seq endOfSessionMsgCount.toNat ++ [] := by
  simp [eosPacket, Packet.bytes]

theorem eos_eq {cfg : Config} {sq : List UInt8} {ms : List (List UInt8)}
    (holds : Holds cfg f.packetBuilder sq ms) :
    f.endOfSessionPacket = eosPacket cfg.session f.sequenceNumber.toNat := by
  have ten := holds.accepted.session
  simp only [Feed.endOfSessionPacket, eosPacket, headerBytes, session_configured holds]
  rw [write_session ten, write_number ten (by simp), write_count ten (by simp) (by simp)]

theorem early_silent {t : Thread} (h : Announced S t) (early : t.phase.ended = false) :
    endOfSessionPackets t.feed.log = [] := by
  apply List.eq_nil_iff_forall_not_mem.mpr
  intro p member
  rw [(h p member).1] at early
  cases early

theorem silent_announced {t : Thread} (silent : endOfSessionPackets t.feed.log = []) :
    Announced S t := by
  intro p member
  rw [silent] at member
  cases member

theorem move_announced {t t' : Thread} (follows : Follows S t) (h : Announced S t)
    (move : Move S t t') : Announced S t' := by
  cases move with
  | turn before after onward =>
    intro p member
    exact ⟨onward (h p member).1, (h p member).2⟩
  | announce =>
    obtain ⟨_, _, holds⟩ := follows.phase.2.1
    intro p member
    refine ⟨rfl, ?_⟩
    simp only [Feed.emit, endOfSessionPackets, List.filterMap_append, List.mem_append] at member
    rcases member with old | new
    · exact (h p old).2
    · rw [List.mem_singleton.mp (show p ∈ [_] from new)]
      exact eos_eq holds
  | _ =>
    have silent := early_silent h rfl
    apply silent_announced
    simpa [endOfSessionPackets, Feed.emit, Feed.accept, Feed.pace, Feed.transmit, Feed.startPacket,
      Feed.publishSequence] using silent

theorem run_announced (S : Setup) (inputs : List Inputs) : Announced S (S.runThread inputs) := by
  have keeps : ∀ t i, Follows S t ∧ Announced S t →
      Follows S (t.step S i) ∧ Announced S (t.step S i) := by
    rintro t i ⟨follows, announced⟩
    exact ⟨move_follows follows (step_moves t i),
      move_announced follows announced (step_moves t i)⟩
  exact (run_always keeps inputs
    ⟨initial_follows S, silent_announced rfl⟩).2

theorem ended_complete {t : Thread} (h : Follows S t) (ended : t.phase.ended = true) :
    t.feed.sequenceNumber.toNat = (ledger S t.feed.log).sent.length + 1 := by
  have closed : (ledger S t.feed.log).current = [] := by
    obtain ⟨f, phase⟩ := t
    obtain ⟨_, at_phase⟩ := h
    cases phase <;> first | exact at_phase.1 | cases ended
  rw [number_toNat h.tracks, Ledger.entries, closed, List.append_nil]

theorem multicast_stream_gap_free (S : Setup) (mtu : S.config.MTU ≤ 65507)
    (inputs : List Inputs) :
    GapFree (sentPackets (S.runThread inputs).feed.log) ∧
    (∀ p ∈ sentPackets (S.runThread inputs).feed.log, WellCounted p) ∧
    ((S.runThread inputs).phase ≠ .sending →
      (S.runThread inputs).feed.sentSequenceNumber.toNat =
        1 + messagesSent (S.runThread inputs).feed.log) ∧
    ∀ p ∈ endOfSessionPackets (S.runThread inputs).feed.log,
      p.sequenceNumber = 1 + messagesSent (S.runThread inputs).feed.log ∧
        p.messageCount = endOfSessionMsgCount.toNat := by
  have follows := run_follows S inputs
  have tracks := follows.tracks
  have small := numbers_small tracks
  have total := sent_le_entries (ledger S (S.runThread inputs).feed.log)
  rw [rendered_total tracks]
  refine ⟨rendered_gap_free mtu tracks, rendered_well_counted mtu tracks, ?_, ?_⟩
  · intro open_
    have fits := Nat.lt_of_le_of_lt (Nat.add_le_add_right total 1) small
    rw [published_number follows open_, UInt64.toNat_ofNat_of_lt' fits, Nat.add_comm]
  · intro p member
    obtain ⟨ended, same⟩ := run_announced S inputs p member
    rw [same, ended_complete follows ended]
    have ten := (accepted S).session
    have bytes := eosPacket_bytes S.config.session
      ((ledger S (S.runThread inputs).feed.log).sent.length + 1)
    exact ⟨(header_sequenceNumber bytes ten (by omega)).trans (Nat.add_comm _ _),
      header_messageCount bytes ten (by decide)⟩

theorem default_stream_gap_free : ∃ S,
    Setup.make ⟨frame (List.replicate 12 1), fun _ => 0, by decide⟩ ⟨0⟩
      { session := List.replicate 10 0x20 } 4 = .ok S ∧
    GapFree (sentPackets (S.runThread (List.replicate 9 undisturbed)).feed.log) :=
  ⟨_, rfl, (multicast_stream_gap_free _ (by decide) _).1⟩

end MoldGapFree
