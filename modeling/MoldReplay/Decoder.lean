import MoldReplay.BuilderHistory
import MoldReplay.CountedRuns
import MoldReplay.Heartbeat

/- A receiver's view of a datagram: the decoder of the end to end tests (parse_header,
   for_each_message), with the bounds checks that those leave to assertions. -/
namespace MoldDecoder
open FixedBytes MoldWire MoldFraming MoldPacket MoldHistory CountedRuns ScheduledRuns

structure Header where
  session : List UInt8
  sequenceNumber : Nat
  messageCount : Nat
  deriving DecidableEq, Repr

structure Decoded where
  header : Header
  messages : List (List UInt8)
  rest : List UInt8
  deriving DecidableEq, Repr

def parseHeader (bytes : List UInt8) : Option Header :=
  if bytes.length < headerLength then none
  else some {
    session := (bytes.drop sessionOffset).take sessionSize
    sequenceNumber := readAtBe native sequenceNumberSize bytes sequenceNumberOffset
    messageCount := readAtBe native messageCountSize bytes messageCountOffset }

def decodeMessage (payload : List UInt8) : Option (List UInt8 × List UInt8) :=
  if payload.length < lengthPrefixSize then none
  else
    let (len, pos) := readBe native lengthPrefixSize payload 0
    if payload.length < pos + len then none
    else some ((payload.drop pos).take len, payload.drop (pos + len))

theorem decodeMessage_eq (payload : List UInt8) :
    decodeMessage payload =
      if Complete payload 0 then
        some ((payload.drop 2).take (lengthAt payload 0), payload.drop (2 + lengthAt payload 0))
      else none := by
  simp only [decodeMessage, Complete, lengthPrefixSize]
  by_cases prefixed : payload.length < 2
  · rw [if_pos prefixed, if_neg (by omega)]
  · rw [if_neg prefixed, readBe_eq native (by omega)]
    change (if payload.length < 0 + 2 + lengthAt payload 0 then none else
      some ((payload.drop (0 + 2)).take (lengthAt payload 0),
        payload.drop (0 + 2 + lengthAt payload 0))) = _
    rw [Nat.zero_add]
    split <;> split <;> first | omega | rfl

theorem decodeMessage_frame (body rest : List UInt8) (bound : body.length < 65536) :
    decodeMessage (frame body ++ rest) = some (body, rest) := by
  obtain ⟨complete, read⟩ : Complete ([] ++ frame body ++ rest) [].length ∧
      messageAt ([] ++ frame body ++ rest) [].length = frame body :=
    frame_in_place (frame_isFrame body bound)
  simp only [List.nil_append, List.length_nil] at complete read
  have size := messageAt_length complete
  have framed : (frame body).length = 2 + body.length := by simp [frame]
  rw [read, framed] at size
  have length : lengthAt (frame body ++ rest) 0 = body.length := by omega
  have body_ : ((frame body ++ rest).drop 2).take body.length = body := by simp [frame]
  rw [decodeMessage_eq, if_pos complete, length, body_, List.drop_left' framed]

theorem decodeMessage_written (payload body rest : List UInt8)
    (decoded : decodeMessage payload = some (body, rest)) :
    body.length < 65536 ∧ payload = frame body ++ rest := by
  rw [decodeMessage_eq] at decoded
  split at decoded
  · rename_i complete
    cases decoded
    simp only [Complete] at complete
    have prefixed : (payload.take 2).length = 2 := by simp; omega
    have length : lengthAt payload 0 = natBE (payload.take 2) := by simp [lengthAt]
    have bound := natBE_lt (payload.take 2)
    have stored := bytesBE_natBE (payload.take 2)
    rw [prefixed, ← length] at bound stored
    have size : ((payload.drop 2).take (lengthAt payload 0)).length = lengthAt payload 0 := by
      simp
      omega
    refine ⟨by rw [size]; exact bound, ?_⟩
    rw [frame, size, stored, List.append_assoc, ← List.drop_drop, List.take_append_drop,
      List.take_append_drop]
  · cases decoded

def messageCodec : Codec (List UInt8) UInt8 where
  encode := frame
  decode := decodeMessage
  valid body := body.length < 65536
  reads := decodeMessage_frame
  writes := decodeMessage_written

def decode (bytes : List UInt8) : Option Decoded :=
  match parseHeader bytes with
  | none => none
  | some header =>
    -- the count of an end of session packet is not one of messages
    if header.messageCount = endOfSessionMsgCount.toNat then
      some ⟨header, [], bytes.drop messageBlockOffset⟩
    else
      (messageCodec.decodeAll header.messageCount (bytes.drop messageBlockOffset)).map
        fun p => ⟨header, p.1, p.2⟩

variable {session bytes rest : List UInt8} {seq count : Nat}

theorem parse_header (ten : session.length = 10) (seqBound : seq < 2 ^ 64)
    (countBound : count < 65536) (rest : List UInt8) :
    parseHeader (headerBytes session seq count ++ rest) = some ⟨session, seq, count⟩ ∧
      (headerBytes session seq count ++ rest).drop 20 = rest := by
  have size : (headerBytes session seq count).length = 20 := by simp [headerBytes, ten]
  have whole : (⟨[headerBytes session seq count ++ rest]⟩ : Packet).bytes =
      headerBytes session seq count ++ rest := by simp [Packet.bytes]
  have number := header_sequenceNumber whole ten seqBound
  have total := header_messageCount whole ten countBound
  unfold Packet.sequenceNumber at number
  unfold Packet.messageCount at total
  rw [whole] at number total
  have first : ((headerBytes session seq count ++ rest).drop 0).take 10 = session := by
    simp [headerBytes, ← ten]
  refine ⟨?_, List.drop_left' size⟩
  unfold parseHeader
  rw [if_neg (by simp [size]), number, total, first]

theorem field_written {width offset : Nat} (inside : offset + width ≤ bytes.length) :
    readAtBe native width bytes offset < 256 ^ width ∧
      bytesBE width (readAtBe native width bytes offset) = (bytes.drop offset).take width := by
  have size : ((bytes.drop offset).take width).length = width := by
    simp only [List.length_take, List.length_drop]
    omega
  have bound := natBE_lt ((bytes.drop offset).take width)
  have stored := bytesBE_natBE ((bytes.drop offset).take width)
  rw [size] at bound stored
  rw [readAtBe_eq native inside]
  exact ⟨bound, stored⟩

theorem header_written {header : Header} (parsed : parseHeader bytes = some header) :
    header.session.length = 10 ∧ header.sequenceNumber < 2 ^ 64 ∧
      bytes = headerBytes header.session header.sequenceNumber header.messageCount ++
        bytes.drop 20 := by
  unfold parseHeader at parsed
  split at parsed
  · cases parsed
  rename_i long
  have long : 20 ≤ bytes.length := Nat.not_lt.mp long
  cases parsed
  obtain ⟨bound, number⟩ : _ ∧ bytesBE 8 (readAtBe native 8 bytes 10) = _ :=
    field_written (by omega)
  obtain ⟨_, total⟩ : _ ∧ bytesBE 2 (readAtBe native 2 bytes 18) = _ := field_written (by omega)
  refine ⟨by simp; omega, bound, ?_⟩
  change bytes = bytes.take 10 ++ bytesBE 8 (readAtBe native 8 bytes 10) ++
    bytesBE 2 (readAtBe native 2 bytes 18) ++ bytes.drop 20
  rw [number, total, ← List.take_add, ← List.take_add, List.take_append_drop]

theorem decode_messages (ten : session.length = 10) (seqBound : seq < 2 ^ 64)
    {bodies : List (List UInt8)} (few : bodies.length ≤ 65534)
    (valid : ∀ body ∈ bodies, body.length < 65536) :
    decode (headerBytes session seq bodies.length ++ messageCodec.encodeAll bodies) =
      some ⟨⟨session, seq, bodies.length⟩, bodies, []⟩ := by
  obtain ⟨parsed, block⟩ := parse_header ten seqBound (Nat.lt_of_le_of_lt few (by decide))
    (messageCodec.encodeAll bodies)
  have read := decodeAll_encodeAll (C := messageCodec) valid []
  rw [List.append_nil] at read
  have regular : bodies.length ≠ endOfSessionMsgCount.toNat := by
    intro same
    rw [same] at few
    exact absurd few (by decide)
  simp only [decode, parsed, if_neg regular]
  change (messageCodec.decodeAll _ (List.drop 20 _)).map _ = _
  rw [block, read]
  rfl

theorem decode_header (ten : session.length = 10) (seqBound : seq < 2 ^ 64)
    (only : count = 0 ∨ count = endOfSessionMsgCount.toNat) :
    decode (headerBytes session seq count ++ []) = some ⟨⟨session, seq, count⟩, [], []⟩ := by
  have countBound : count < 65536 := by
    rcases only with rfl | rfl <;> decide
  obtain ⟨parsed, block⟩ := parse_header ten seqBound countBound []
  simp only [decode, parsed]
  change (if _ then some (Decoded.mk _ [] (List.drop 20 _)) else
    (messageCodec.decodeAll _ (List.drop 20 _)).map _) = _
  rw [block]
  rcases only with rfl | rfl
  · rw [if_neg (by decide)]
    rfl
  · rw [if_pos rfl]

theorem frame_body {m : List UInt8} (framed : IsFrame m) :
    frame (m.drop 2) = m ∧ (m.drop 2).length < 65536 := by
  obtain ⟨prefixed, size⟩ := framed
  have short : (m.take 2).length = 2 := by simp; omega
  have stored := bytesBE_natBE (m.take 2)
  have bound := natBE_lt (m.take 2)
  have length : (m.drop 2).length = natBE (m.take 2) := by
    rw [List.length_drop]
    omega
  rw [short] at stored bound
  constructor
  · rw [frame, length, stored, List.take_append_drop]
  · rw [length]
    exact bound

theorem bodies_framed {ms : List (List UInt8)} (framed : ∀ m ∈ ms, IsFrame m) :
    messageCodec.encodeAll (ms.map (List.drop 2)) = ms.flatten := by
  have same : (ms.map (List.drop 2)).map frame = ms := by
    rw [List.map_map]
    exact (List.map_congr_left fun m member => (frame_body (framed m member)).1).trans
      (List.map_id ms)
  change ((ms.map (List.drop 2)).map frame).flatten = _
  rw [same]

theorem decoded_written {d : Decoded} (decoded : decode bytes = some d) (whole : d.rest = [])
    (regular : d.header.messageCount ≤ 65534) :
    d.header.session.length = 10 ∧ d.header.sequenceNumber < 2 ^ 64 ∧
      d.messages.length = d.header.messageCount ∧
      bytes = headerBytes d.header.session d.header.sequenceNumber d.header.messageCount ++
        (d.messages.map frame).flatten := by
  simp only [decode] at decoded
  split at decoded
  · cases decoded
  rename_i header parsed
  obtain ⟨ten, bound, written⟩ := header_written parsed
  split at decoded
  · rename_i ends
    cases decoded
    simp only [endOfSessionMsgCount] at ends
    exact absurd regular (by rw [ends]; decide)
  · rw [Option.map_eq_some_iff] at decoded
    obtain ⟨⟨messages, rest⟩, read, same⟩ := decoded
    cases same
    obtain ⟨count, _, block⟩ := encodeAll_decodeAll read
    simp only at whole
    rw [whole, List.append_nil] at block
    change List.drop 20 bytes = _ at block
    rw [block] at written
    exact ⟨ten, bound, count, written⟩

theorem sends_stamped (ten : session.length = 10) (earlier : List SequenceNumber) :
    MoldHeartbeat.Stamped session
      (run (fun h s => (h.send s).1) (MoldHeartbeat.construct session) earlier) :=
  run_always (I := MoldHeartbeat.Stamped session)
    (fun _ s stamped => (MoldHeartbeat.send_stamped ten stamped s).1) earlier
    (MoldHeartbeat.construct_stamped ten)

variable {cfg : Config} {b : PacketBuilder}

theorem packet_decodes (built : construct cfg = .ok b) (ops : List Operation)
    (seq : SequenceNumber) {ms : List (List UInt8)} (few : ms.length ≤ 65534)
    (framed : ∀ m ∈ ms, IsFrame m) (fits : ms.flatten.length ≤ cfg.capacity) :
    decode (history b (ops ++ .reset seq ::
        (ms.map .tryAdd ++ [.finalize]))).builder.packet.bytes =
      some ⟨⟨cfg.session, seq.toNat, ms.length⟩, ms.map (List.drop 2), []⟩ := by
  have ten := (construct_accepts built).1.session
  have nonempty : ∀ m ∈ ms, m ≠ [] := by
    rintro m member rfl
    exact absurd (framed [] member).1 (by decide)
  have short : (ms.map (List.drop 2)).length ≤ 65534 := by simpa using few
  have valid : ∀ body ∈ ms.map (List.drop 2), body.length < 65536 := by
    intro body member
    obtain ⟨m, inside, rfl⟩ := List.mem_map.mp member
    exact (frame_body (framed m inside)).2
  have decoded := decode_messages ten seq.toNat_lt short valid
  rw [List.length_map, bodies_framed framed] at decoded
  rw [history_packet built ops seq nonempty fits, dataPacket_bytes,
    Nat.mod_eq_of_lt (Nat.lt_of_le_of_lt few (by decide))]
  exact decoded

theorem heartbeat_decodes (ten : session.length = 10) (earlier : List SequenceNumber)
    (seq : SequenceNumber) :
    decode ((run (fun h s => (h.send s).1) (MoldHeartbeat.construct session)
        earlier).send seq).2.bytes =
      some ⟨⟨session, seq.toNat, 0⟩, [], []⟩ := by
  have stamped := sends_stamped ten earlier
  rw [(MoldHeartbeat.send_stamped ten stamped seq).2, MoldHeartbeat.heartbeatPacket_bytes]
  exact decode_header ten seq.toNat_lt (Or.inl rfl)

theorem end_decodes (built : construct cfg = .ok b) (ops : List Operation)
    {f : MoldDownstream.Feed} (same : f.packetBuilder = (history b ops).builder) :
    decode f.endOfSessionPacket.bytes =
      some ⟨⟨cfg.session, f.sequenceNumber.toNat, 65535⟩, [], []⟩ := by
  have ten := (construct_accepts built).1.session
  obtain ⟨_, holds, _⟩ := history_sound built ops
  rw [← same] at holds
  rw [MoldGapFree.eos_eq holds, MoldGapFree.eosPacket_bytes]
  exact decode_header ten f.sequenceNumber.toNat_lt (Or.inr rfl)

theorem datagram_rebuilt (built : construct cfg = .ok b) (ops : List Operation) {d : Decoded}
    (decoded : decode bytes = some d) (whole : d.rest = [])
    (regular : d.header.messageCount ≤ 65534) (own : d.header.session = cfg.session)
    (fits : bytes.length ≤ cfg.MTU) :
    (history b (ops ++ .reset (UInt64.ofNat d.header.sequenceNumber) ::
      (d.messages.map (fun body => .tryAdd (frame body)) ++ [.finalize]))).builder.packet.bytes =
      bytes := by
  have ten := (construct_accepts built).1.session
  obtain ⟨_, bound, count, written⟩ := decoded_written decoded whole regular
  have nonempty : ∀ m ∈ d.messages.map frame, m ≠ [] := by
    intro m member empty
    obtain ⟨body, _, rfl⟩ := List.mem_map.mp member
    have size := congrArg List.length empty
    simp [frame] at size
  have room : (d.messages.map frame).flatten.length ≤ cfg.capacity := by
    have size := congrArg List.length written
    simp only [headerBytes, List.length_append, own, ten, bytesBE_length] at size
    unfold Config.capacity
    omega
  have rebuilt := history_packet built ops (UInt64.ofNat d.header.sequenceNumber) nonempty room
  rw [List.map_map] at rebuilt
  have number := UInt64.toNat_ofNat_of_lt' bound
  change (history b (ops ++ .reset _ ::
    (d.messages.map (Operation.tryAdd ∘ frame) ++ [.finalize]))).builder.packet.bytes = _
  rw [rebuilt, dataPacket_bytes, number, List.length_map, count,
    Nat.mod_eq_of_lt (Nat.lt_of_le_of_lt regular (by decide)), ← own]
  exact written.symm

/-- Every kind of datagram decodes to what went into it, whatever its builder did before,
    and a datagram of messages is what a builder makes of them. -/
theorem datagrams_decode (cfg : Config) (b : PacketBuilder) (built : construct cfg = .ok b)
    (ops : List Operation) (seq : SequenceNumber) :
    (∀ ms : List (List UInt8), ms.length ≤ 65534 → (∀ m ∈ ms, IsFrame m) →
      ms.flatten.length ≤ cfg.MTU - 20 →
      decode (history b (ops ++ .reset seq ::
          (ms.map .tryAdd ++ [.finalize]))).builder.packet.bytes =
        some ⟨⟨cfg.session, seq.toNat, ms.length⟩, ms.map (List.drop 2), []⟩) ∧
    (∀ earlier : List SequenceNumber,
      decode ((run (fun h s => (h.send s).1) (MoldHeartbeat.construct cfg.session)
          earlier).send seq).2.bytes =
        some ⟨⟨cfg.session, seq.toNat, 0⟩, [], []⟩) ∧
    (∀ f : MoldDownstream.Feed, f.packetBuilder = (history b ops).builder →
      f.sequenceNumber = seq →
      decode f.endOfSessionPacket.bytes = some ⟨⟨cfg.session, seq.toNat, 65535⟩, [], []⟩) ∧
    ∀ datagram d, decode datagram = some d → d.rest = [] → 1 ≤ d.header.messageCount →
      d.header.messageCount ≤ 65534 → d.header.session = cfg.session →
      datagram.length ≤ cfg.MTU →
      (history b (ops ++ .reset (UInt64.ofNat d.header.sequenceNumber) ::
        (d.messages.map (fun body => .tryAdd (frame body)) ++ [.finalize]))).builder.packet.bytes =
        datagram := by
  refine ⟨?_, ?_, ?_, ?_⟩
  · intro ms few framed fits
    exact packet_decodes built ops seq few framed fits
  · intro earlier
    exact heartbeat_decodes (construct_accepts built).1.session earlier seq
  · rintro f same rfl
    exact end_decodes built ops same
  · intro datagram d decoded whole _ regular session fits
    exact datagram_rebuilt built ops decoded whole regular session fits

theorem two_messages_decode : ∃ b,
    construct { session := List.replicate 10 0x20 } = .ok b ∧
    decode (history b ([.tryAdd [0, 1, 7]] ++ .reset 9 ::
        ([frame [1, 2], frame []].map .tryAdd ++ [.finalize]))).builder.packet.bytes =
      some ⟨⟨List.replicate 10 0x20, 9, 2⟩, [[1, 2], []], []⟩ := by
  refine ⟨_, rfl, ?_⟩
  have decoded := datagrams_decode { session := List.replicate 10 0x20 } _ rfl
    [.tryAdd [0, 1, 7]] 9
  refine decoded.1 [frame [1, 2], frame []] (by decide) ?_ (by decide)
  intro m member
  rcases List.mem_cons.mp member with rfl | member
  · exact frame_isFrame [1, 2] (by decide)
  · rw [List.mem_singleton.mp member]
    exact frame_isFrame [] (by decide)

end MoldDecoder
