import MoldReplay.ServedRequests
import MoldReplay.TestClient

/- What a receiver makes of the datagrams of a server, multicast or sent to a client. -/
namespace MoldServerDatagrams
open FixedBytes MoldWire MoldFraming MoldPacket MoldDownstream MoldLedger MoldGapFree
open MoldDecoder MoldRerequest MoldServerRuns MoldServedRequests ScheduledRuns
open MoldHeartbeat (Datagram heartbeatPacket heartbeatPacket_bytes)
open MoldTestClient (Continues Datagram.packet run_continues)
open MoldRetransmission (readRun)

def everySent {n : Nat} (w : World n) : List Packet :=
  w.heart.wire.map Datagram.packet ++ w.unicast.map fun r => r.2.2

/-- The datagram has a size that the MTU allows, and a decoder finds in it the session, the
    number, the count, the bodies of the messages, and nothing else. The count is theirs,
    or is that of an end of session packet. -/
structure Legible (cfg : Config) (p : Packet) : Prop where
  size : p.bytes.length ≤ cfg.MTU
  decodes : decode p.bytes =
    some ⟨⟨cfg.session, p.sequenceNumber, p.messageCount⟩, p.messages.map (List.drop 2), []⟩
  counted : p.messageCount = p.messages.length ∨
    p.messages = [] ∧ p.messageCount = endOfSessionMsgCount.toNat

variable {cfg : Config} {S : Setup} {n seq : Nat} {ms : List (List UInt8)}

theorem data_legible (accepted : cfg.Accepted) (mtu : cfg.MTU ≤ 65507) (bound : seq < 2 ^ 64)
    (framed : ∀ m ∈ ms, IsFrame m) (fits : ms.flatten.length ≤ cfg.capacity) :
    Legible cfg (dataPacket cfg.session seq ms) := by
  have ten := accepted.session
  have room := accepted.mtu
  have total := frames_count framed
  unfold Config.capacity at fits
  have few : ms.length < 65535 := by omega
  have count : (dataPacket cfg.session seq ms).messageCount = ms.length := by
    rw [dataPacket_messageCount ten, Nat.mod_eq_of_lt (by omega)]
  have short : (ms.map (List.drop 2)).length ≤ 65534 := by
    rw [List.length_map]
    exact Nat.le_of_lt_succ few
  have valid : ∀ body ∈ ms.map (List.drop 2), body.length < 65536 := by
    intro body member
    obtain ⟨m, inside, rfl⟩ := List.mem_map.mp member
    exact (frame_body (framed m inside)).2
  have decoded := decode_messages ten bound short valid
  rw [List.length_map, bodies_framed framed] at decoded
  refine ⟨?_, ?_, Or.inl count⟩
  · rw [dataPacket_size ten]
    omega
  · rw [dataPacket_sequenceNumber ten bound, count, dataPacket_messages, dataPacket_bytes,
      Nat.mod_eq_of_lt (by omega)]
    exact decoded

theorem header_legible (accepted : cfg.Accepted) (bound : seq < 2 ^ 64) {count : Nat}
    (only : count = 0 ∨ count = endOfSessionMsgCount.toNat) :
    Legible cfg ⟨[headerBytes cfg.session seq count]⟩ := by
  have ten := accepted.session
  have room := accepted.mtu
  have bytes : (Packet.mk [headerBytes cfg.session seq count]).bytes =
      headerBytes cfg.session seq count ++ [] := by simp [Packet.bytes]
  have countBound : count < 65536 := by
    rcases only with rfl | rfl <;> decide
  have counted := header_messageCount bytes ten countBound
  refine ⟨?_, ?_, ?_⟩
  · rw [bytes]
    simp only [headerBytes, List.length_append, ten, bytesBE_length, List.length_nil]
    omega
  · rw [bytes, header_sequenceNumber bytes ten bound, counted]
    exact decode_header ten bound only
  · rw [counted]
    exact only.imp_right fun last => ⟨rfl, last⟩

theorem continues_legible (accepted : cfg.Accepted) (mtu : cfg.MTU ≤ 65507) {m : Nat}
    {wire : List Datagram} (continues : Continues cfg n wire m) :
    ∀ d ∈ wire, Legible cfg (Datagram.packet d) := by
  induction continues with
  | nil => simp
  | data few framed fits bound _ ih =>
    exact List.forall_mem_cons.mpr ⟨data_legible accepted mtu bound framed fits, ih⟩
  | heartbeat bound _ ih =>
    exact List.forall_mem_cons.mpr ⟨header_legible accepted bound (Or.inl rfl), ih⟩
  | endOfSession bound _ ih =>
    exact List.forall_mem_cons.mpr ⟨header_legible accepted bound (Or.inr rfl), ih⟩

theorem readRun_framed (bytes : List UInt8) (count pos room : Nat) :
    ∀ m ∈ readRun bytes count pos room, IsFrame m := by
  intro m member
  obtain ⟨at_, complete, rfl⟩ := MoldRetransmission.readRun_read member
  exact messageAt_isFrame complete

/-- Whatever a server sends, on whichever socket and at whatever time, is legible. -/
theorem server_datagrams_legible (S : Setup) (mtu : S.config.MTU ≤ 65507)
    (actions : List (Action n)) :
    ∀ p ∈ everySent (run (step S) (initial S n) actions), Legible S.config p := by
  intro p member
  rcases List.mem_append.mp member with multicast | unicast
  · obtain ⟨d, sent, rfl⟩ := List.mem_map.mp multicast
    obtain ⟨beats, same⟩ := run_heart S actions
    rw [same] at sent
    exact continues_legible (accepted S) mtu (run_continues mtu beats) d sent
  · obtain ⟨r, sent, rfl⟩ := List.mem_map.mp unicast
    obtain ⟨⟨request, found⟩, _, response⟩ := sent_response sent
    obtain ⟨pos, rfl, packet⟩ := Option.map_eq_some_iff.mp response
    rw [← packet]
    exact data_legible (accepted S) mtu request.startingSequence.toNat_lt
      (readRun_framed S.file.bytes request.msgCount.toNat pos S.config.capacity)
      (MoldRetransmission.readRun_room S.file.bytes request.msgCount.toNat pos S.config.capacity)

theorem replay_legible : ∃ S,
    Setup.make ⟨frame (List.replicate 12 1), fun _ => 0, by decide⟩ ⟨0⟩
      { session := List.replicate 10 0x20 } 4 = .ok S ∧
    ∀ p ∈ everySent (run (step S) (initial S 1) ([.call .start, .feed 0 ⟨false, false⟩] ++
      List.replicate 4 (.downstream false) ++
      [.arrive 0 ⟨0, 0⟩ (MoldRetransmission.request S.config.session 1 1) true] ++
      List.replicate 5 (.feed 0 ⟨false, false⟩) ++ List.replicate 4 (.downstream false))),
      Legible S.config p :=
  ⟨_, rfl, server_datagrams_legible _ (by decide) _⟩

end MoldServerDatagrams
