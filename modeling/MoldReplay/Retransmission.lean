import MoldReplay.RetransmissionBuffer

/- retransmission::Feed: one datagram in, at most one packet out. The file is read-only,
   the buffer belongs to the downstream thread and is passed in as it is at the time of
   the lookup. -/
namespace MoldRetransmission
open FixedBytes MoldWire MoldFraming MoldPacket MoldBuffer

/-- sockaddr_in -/
structure SockAddr where
  address : UInt32
  port : UInt16
  deriving DecidableEq, Repr

structure RequestContext where
  clientAddress : SockAddr
  startingSequence : SequenceNumber
  msgCount : MessageCount
  filePosition : Nat
  deriving DecidableEq, Repr

structure Feed where
  recvBuffer : List UInt8
  packetBuilder : PacketBuilder
  deriving DecidableEq, Repr

def construct (cfg : Config) : Except Failure Feed :=
  match MoldPacket.construct cfg with
  | .error failure => .error failure
  | .ok builder => .ok ⟨List.replicate headerLength 0, builder⟩

/-- recvfrom into recv_buffer_: a longer datagram is cut off, and its length is lost. -/
def Feed.receive (f : Feed) (datagram : List UInt8) : Feed × Nat :=
  let received := datagram.take headerLength
  ({ f with recvBuffer := received ++ f.recvBuffer.drop received.length }, received.length)

def Feed.parseRequest (f : Feed) (buffer : RetransmissionBuffer) (client : SockAddr) :
    Option RequestContext :=
  if f.recvBuffer.take sessionSize ≠ f.packetBuilder.session then none
  else
    let startingSequence :=
      UInt64.ofNat (readAtBe native sequenceNumberSize f.recvBuffer sequenceNumberOffset)
    match buffer.filePositionFor startingSequence with
    | none => none
    | some filePosition => some {
        clientAddress := client
        startingSequence := startingSequence
        msgCount :=
          UInt16.ofNat (readAtBe native messageCountSize f.recvBuffer messageCountOffset)
        filePosition := filePosition }

def addMessages (bytes : List UInt8) : Nat → Nat → PacketBuilder → PacketBuilder
  | 0, _, builder => builder
  | left + 1, filePos, builder =>
    match readMessage bytes filePos with
    | (msg, next) =>
      -- eof or bad file
      if msg.isEmpty then builder
      else
        match builder.tryAdd msg with
        -- full before msg_count
        | (false, builder) => builder
        | (true, builder) => addMessages bytes left next builder

def Feed.buildPacket (f : Feed) (bytes : List UInt8) (ctx : RequestContext) : Feed :=
  let builder := f.packetBuilder.reset ctx.startingSequence
  { f with packetBuilder := addMessages bytes ctx.msgCount.toNat ctx.filePosition builder }

/- What is handed to sendmsg, which takes no more than 1024 iovecs and 65507 bytes. -/
def Feed.sendPacket (f : Feed) : Feed × Packet :=
  let f := { f with packetBuilder := f.packetBuilder.finalize }
  (f, f.packetBuilder.packet)

/-- handle_request up to the lookup, and from the lookup on. -/
def Feed.takeRequest (f : Feed) (buffer : RetransmissionBuffer) (client : SockAddr)
    (datagram : List UInt8) : Feed × Option RequestContext :=
  match f.receive datagram with
  | (f, bytesRecv) =>
    if bytesRecv ≠ headerLength then (f, none) else (f, f.parseRequest buffer client)

def Feed.answer (f : Feed) (bytes : List UInt8) (ctx : RequestContext) : Feed × Packet :=
  (f.buildPacket bytes ctx).sendPacket

def Feed.handleRequest (f : Feed) (bytes : List UInt8) (buffer : RetransmissionBuffer)
    (client : SockAddr) (datagram : List UInt8) : Feed × Option (SockAddr × Packet) :=
  match f.takeRequest buffer client datagram with
  | (f, none) => (f, none)
  | (f, some ctx) =>
    match f.answer bytes ctx with
    | (f, packet) => (f, some (ctx.clientAddress, packet))

/-- The messages a response carries: consecutive ones from `pos` on, `count` at most, as
    long as they are whole and fit into `room` together. -/
def readRun (bytes : List UInt8) : Nat → Nat → Nat → List (List UInt8)
  | 0, _, _ => []
  | count + 1, pos, room =>
    if Complete bytes pos ∧ (messageAt bytes pos).length ≤ room then
      messageAt bytes pos ::
        readRun bytes count (pos + (messageAt bytes pos).length)
          (room - (messageAt bytes pos).length)
    else []

def Fits (bytes : List UInt8) : Nat → Nat → Nat → Prop
  | 0, _, _ => True
  | count + 1, pos, room =>
    Complete bytes pos ∧ (messageAt bytes pos).length ≤ room ∧
      Fits bytes count (pos + (messageAt bytes pos).length)
        (room - (messageAt bytes pos).length)

/-- The fields of a datagram of 20 bytes or more. -/
def requestedSequence (datagram : List UInt8) : SequenceNumber :=
  UInt64.ofNat (readAtBe native sequenceNumberSize (datagram.take headerLength)
    sequenceNumberOffset)
def requestedCount (datagram : List UInt8) : MessageCount :=
  UInt16.ofNat (readAtBe native messageCountSize (datagram.take headerLength)
    messageCountOffset)

def request (session : List UInt8) (seq count : Nat) : List UInt8 := headerBytes session seq count

structure Ready (cfg : Config) (f : Feed) : Prop where
  buffer : f.recvBuffer.length = 20
  builder : ∃ sq ms, Holds cfg f.packetBuilder sq ms

variable {cfg : Config} {f : Feed} {bytes : List UInt8}

theorem construct_ready (built : construct cfg = .ok f) : Ready cfg f := by
  simp only [construct] at built
  split at built
  · cases built
  · rename_i accepted
    cases built
    exact ⟨by simp, _, _, (construct_accepts accepted).2⟩

theorem readRun_more {count pos room : Nat} (complete : Complete bytes pos)
    (fits : (messageAt bytes pos).length ≤ room) :
    readRun bytes (count + 1) pos room =
      messageAt bytes pos ::
        readRun bytes count (pos + (messageAt bytes pos).length)
          (room - (messageAt bytes pos).length) := by
  rw [readRun, if_pos ⟨complete, fits⟩]

theorem readRun_stops {count pos room : Nat}
    (blocked : ¬ (Complete bytes pos ∧ (messageAt bytes pos).length ≤ room)) :
    readRun bytes count pos room = [] := by
  cases count with
  | zero => rfl
  | succ count => rw [readRun, if_neg blocked]

theorem readRun_head {count pos room : Nat} {m : List UInt8} {tail : List (List UInt8)}
    (run : readRun bytes count pos room = m :: tail) :
    Complete bytes pos ∧ m = messageAt bytes pos := by
  by_cases whole : Complete bytes pos ∧ (messageAt bytes pos).length ≤ room
  · cases count with
    | zero => cases run
    | succ count =>
      rw [readRun_more whole.1 whole.2] at run
      exact ⟨whole.1, (List.cons.inj run).1.symm⟩
  · rw [readRun_stops whole] at run
    cases run

theorem readRun_length (bytes : List UInt8) (count pos room : Nat) :
    (readRun bytes count pos room).length ≤ count := by
  induction count generalizing pos room with
  | zero => exact Nat.le_refl _
  | succ count ih =>
    unfold readRun
    split
    · exact Nat.succ_le_succ (ih _ _)
    · exact Nat.zero_le _

theorem readRun_prefix {count count' : Nat} (less : count ≤ count') (pos room : Nat) :
    readRun bytes count pos room <+: readRun bytes count' pos room := by
  induction count generalizing count' pos room with
  | zero => exact List.nil_prefix
  | succ count ih =>
    obtain ⟨more, rfl⟩ := Nat.exists_eq_add_of_le' less
    by_cases whole : Complete bytes pos ∧ (messageAt bytes pos).length ≤ room
    · rw [← Nat.add_assoc, readRun_more whole.1 whole.2, readRun_more whole.1 whole.2]
      exact (List.prefix_cons_inj _).mpr (ih (Nat.le_add_left _ _) _ _)
    · rw [readRun_stops whole]
      exact List.nil_prefix

theorem readRun_reaches (bytes : List UInt8) (n count pos room : Nat) :
    n ≤ (readRun bytes count pos room).length ↔ n ≤ count ∧ Fits bytes n pos room := by
  induction n generalizing count pos room with
  | zero => simp [Fits]
  | succ n ih =>
    cases count with
    | zero => simp [readRun]
    | succ count =>
      by_cases whole : Complete bytes pos ∧ (messageAt bytes pos).length ≤ room
      · rw [readRun_more whole.1 whole.2, List.length_cons, Nat.add_le_add_iff_right, ih, Fits]
        simp [whole.1, whole.2]
      · rw [readRun_stops whole, Fits]
        constructor
        · intro none
          simp at none
        · rintro ⟨_, complete, fits, _⟩
          exact absurd ⟨complete, fits⟩ whole

theorem readRun_room (bytes : List UInt8) (count pos room : Nat) :
    (readRun bytes count pos room).flatten.length ≤ room := by
  induction count generalizing pos room with
  | zero => simp [readRun]
  | succ count ih =>
    by_cases whole : Complete bytes pos ∧ (messageAt bytes pos).length ≤ room
    · have rest := ih (pos + (messageAt bytes pos).length) (room - (messageAt bytes pos).length)
      rw [readRun_more whole.1 whole.2, List.flatten_cons, List.length_append]
      omega
    · simp [readRun_stops whole]

theorem readRun_read {count pos room : Nat} {m : List UInt8}
    (member : m ∈ readRun bytes count pos room) :
    ∃ p, Complete bytes p ∧ m = messageAt bytes p := by
  induction count generalizing pos room with
  | zero => cases member
  | succ count ih =>
    by_cases whole : Complete bytes pos ∧ (messageAt bytes pos).length ≤ room
    · rw [readRun_more whole.1 whole.2] at member
      rcases List.mem_cons.mp member with rfl | later
      · exact ⟨pos, whole.1, rfl⟩
      · exact ih later
    · rw [readRun_stops whole] at member
      cases member

theorem readRun_behind (front bytes : List UInt8) (count pos room : Nat) :
    readRun (front ++ bytes) count (front.length + pos) room = readRun bytes count pos room := by
  induction count generalizing pos room with
  | zero => rfl
  | succ count ih =>
    by_cases whole : Complete bytes pos ∧ (messageAt bytes pos).length ≤ room
    · have same := messageAt_behind front bytes pos
      rw [readRun_more ((complete_behind front bytes pos).mpr whole.1) (same ▸ whole.2),
        readRun_more whole.1 whole.2, same, Nat.add_assoc, ih]
    · rw [readRun_stops whole, readRun_stops]
      rwa [complete_behind, messageAt_behind]

theorem addMessages_holds (bytes : List UInt8) {sq : List UInt8} (count : Nat) : ∀ {ms : List (List UInt8)} (pos : Nat)
    {b : PacketBuilder}, Holds cfg b sq ms →
    Holds cfg (addMessages bytes count pos b) sq
      (ms ++ readRun bytes count pos (cfg.capacity - ms.flatten.length)) := by
  induction count with
  | zero =>
    intro ms pos b holds
    simpa [addMessages, readRun] using holds
  | succ count ih =>
    intro ms pos b holds
    have used := holds_within_capacity holds
    by_cases complete : Complete bytes pos
    · have nonempty := messageAt_ne_nil complete
      have length := messageAt_length complete
      have unread : ¬ (messageAt bytes pos).isEmpty = true := by simpa using nonempty
      simp only [addMessages, readMessage_complete complete, if_neg unread]
      by_cases room : (messageAt bytes pos).length ≤ cfg.capacity - ms.flatten.length
      · obtain ⟨b', added, grown⟩ := tryAdd_accepts holds nonempty (by omega)
        simp only [added, readRun_more complete room]
        have rest := ih (pos + (messageAt bytes pos).length) grown
        rw [List.flatten_append, List.length_append, List.flatten_singleton,
          ← Nat.sub_sub, List.append_assoc] at rest
        rwa [Nat.add_assoc, ← length]
      · have refused := tryAdd_rejects (m := messageAt bytes pos) holds (by omega)
        rw [readRun_stops fun whole => room whole.2, List.append_nil]
        simpa [refused] using holds
    · rw [readRun_stops fun whole => complete whole.1, List.append_nil]
      simpa [addMessages, readMessage_incomplete complete] using holds

theorem buildPacket_holds (bytes : List UInt8) (ready : Ready cfg f) (ctx : RequestContext) :
    Holds cfg (f.buildPacket bytes ctx).packetBuilder (bytesBE 8 ctx.startingSequence.toNat)
      (readRun bytes ctx.msgCount.toNat ctx.filePosition cfg.capacity) := by
  obtain ⟨_, _, _, holds⟩ := ready
  have built := addMessages_holds bytes ctx.msgCount.toNat ctx.filePosition
    (reset_holds holds ctx.startingSequence)
  simpa [Feed.buildPacket] using built

theorem receive_ready (ready : Ready cfg f) (datagram : List UInt8) :
    Ready cfg (f.receive datagram).1 := by
  obtain ⟨length, builder⟩ := ready
  refine ⟨?_, builder⟩
  simp only [Feed.receive, List.length_append, List.length_drop, List.length_take, length,
    headerLength, sessionSize, sequenceNumberSize, messageCountSize]
  omega

theorem takeRequest_ready (ready : Ready cfg f) (buffer : RetransmissionBuffer)
    (client : SockAddr) (datagram : List UInt8) :
    Ready cfg (f.takeRequest buffer client datagram).1 := by
  have received := receive_ready ready datagram
  simp only [Feed.takeRequest]
  split
  · exact received
  · exact received

theorem takeRequest_found {buffer : RetransmissionBuffer} {client : SockAddr}
    {datagram : List UInt8} {ctx : RequestContext}
    (taken : (f.takeRequest buffer client datagram).2 = some ctx) :
    buffer.filePositionFor ctx.startingSequence = some ctx.filePosition := by
  simp only [Feed.takeRequest, Feed.parseRequest] at taken
  split at taken; · cases taken
  split at taken; · cases taken
  split at taken; · cases taken
  rename_i found
  cases taken
  exact found

theorem takeRequest_client {buffer : RetransmissionBuffer} {client : SockAddr}
    {datagram : List UInt8} {ctx : RequestContext}
    (taken : (f.takeRequest buffer client datagram).2 = some ctx) : ctx.clientAddress = client := by
  simp only [Feed.takeRequest, Feed.parseRequest] at taken
  split at taken; · cases taken
  split at taken; · cases taken
  split at taken; · cases taken
  cases taken
  rfl

theorem answer_packet (bytes : List UInt8) (ready : Ready cfg f) (ctx : RequestContext) :
    (f.answer bytes ctx).2 = dataPacket cfg.session ctx.startingSequence.toNat
      (readRun bytes ctx.msgCount.toNat ctx.filePosition cfg.capacity) :=
  finalize_packet (buildPacket_holds bytes ready ctx)

theorem answer_ready (bytes : List UInt8) (ready : Ready cfg f) (ctx : RequestContext) :
    Ready cfg (f.answer bytes ctx).1 :=
  ⟨ready.buffer, _, _, finalize_holds (buildPacket_holds bytes ready ctx)⟩

theorem received_bytes (ready : Ready cfg f) {datagram : List UInt8}
    (long : 20 ≤ datagram.length) :
    (f.receive datagram).1.recvBuffer = datagram.take headerLength ∧
      (f.receive datagram).2 = headerLength := by
  have size : (datagram.take headerLength).length = headerLength := by
    simp only [List.length_take, headerLength, sessionSize, sequenceNumberSize, messageCountSize]
    omega
  refine ⟨?_, size⟩
  have overwritten : f.recvBuffer.drop headerLength = [] :=
    List.drop_eq_nil_of_le (Nat.le_of_eq ready.buffer)
  simp only [Feed.receive]
  rw [size, overwritten, List.append_nil]

theorem handleRequest_any (bytes : List UInt8) (ready : Ready cfg f)
    (buffer : RetransmissionBuffer) (client : SockAddr) (datagram : List UInt8) :
    (f.handleRequest bytes buffer client datagram).2 =
      if 20 ≤ datagram.length ∧ datagram.take 10 = cfg.session then
        (buffer.filePositionFor (requestedSequence datagram)).map fun pos =>
          (client, dataPacket cfg.session (requestedSequence datagram).toNat
            (readRun bytes (requestedCount datagram).toNat pos cfg.capacity))
      else none := by
  have ready' := receive_ready ready datagram
  by_cases long : 20 ≤ datagram.length
  · obtain ⟨received, size⟩ := received_bytes ready long
    obtain ⟨_, _, holds⟩ := ready'.builder
    have named : (datagram.take headerLength).take sessionSize = datagram.take 10 := by
      rw [List.take_take]
      rfl
    simp only [Feed.handleRequest, Feed.takeRequest, size, ne_eq, not_true_eq_false, if_false,
      Feed.parseRequest, received, named, session_configured holds]
    by_cases same : datagram.take 10 = cfg.session
    · rw [if_neg (not_not.mpr same), if_pos ⟨long, same⟩]
      unfold requestedSequence requestedCount
      cases buffer.filePositionFor _ with
      | none => rfl
      | some pos => simp only [Option.map_some, answer_packet bytes ready' _]
    · rw [if_pos same, if_neg fun whole => same whole.2]
  · have size : (f.receive datagram).2 ≠ headerLength := by
      simp only [Feed.receive, List.length_take, headerLength, sessionSize, sequenceNumberSize,
        messageCountSize]
      omega
    simp only [Feed.handleRequest, Feed.takeRequest, if_pos size]
    rw [if_neg fun whole => long whole.1]

theorem request_fields {session : List UInt8} {seq count : Nat} (ten : session.length = 10)
    (seqBound : seq < 2 ^ 64) (countBound : count < 65536) :
    (request session seq count).length = 20 ∧ (request session seq count).take 10 = session ∧
      requestedSequence (request session seq count) = UInt64.ofNat seq ∧
      requestedCount (request session seq count) = UInt16.ofNat count := by
  have size : (request session seq count).length = 20 := by simp [request, headerBytes, ten]
  have whole : (request session seq count).take headerLength = request session seq count :=
    List.take_of_length_le (Nat.le_of_eq size)
  have bytes : (⟨[request session seq count]⟩ : Packet).bytes =
      headerBytes session seq count ++ [] := by simp [Packet.bytes, request]
  have number := header_sequenceNumber bytes ten seqBound
  have total := header_messageCount bytes ten countBound
  simp only [Packet.sequenceNumber, Packet.messageCount, Packet.bytes, List.flatten_singleton]
    at number total
  refine ⟨size, by simp [request, headerBytes, ← ten], ?_, ?_⟩
  · rw [requestedSequence, whole, number]
  · rw [requestedCount, whole, total]

theorem takeRequest_request (ready : Ready cfg f) {buffer : RetransmissionBuffer}
    (client : SockAddr) {s : SequenceNumber} {count pos : Nat} (countBound : count < 65536)
    (found : buffer.filePositionFor s = some pos) :
    (f.takeRequest buffer client (request cfg.session s.toNat count)).2 =
      some ⟨client, s, UInt16.ofNat count, pos⟩ := by
  obtain ⟨_, _, holds⟩ := ready.builder
  obtain ⟨size, named, number, total⟩ :=
    request_fields holds.accepted.session s.toNat_lt countBound
  obtain ⟨received, whole⟩ := received_bytes ready (Nat.le_of_eq size.symm)
  have session : ((request cfg.session s.toNat count).take headerLength).take sessionSize =
      cfg.session := by
    rw [List.take_take]
    exact named
  have configured : (f.receive (request cfg.session s.toNat count)).1.packetBuilder.session =
      cfg.session := session_configured holds
  have same : UInt64.ofNat s.toNat = s := by simp
  unfold requestedSequence at number
  unfold requestedCount at total
  simp only [Feed.takeRequest, whole, ne_eq, not_true_eq_false, if_false, Feed.parseRequest,
    received, session, configured, number, total, same, found]

theorem handleRequest_eq (bytes : List UInt8) (ready : Ready cfg f) (seq count : Nat)
    (seqBound : seq < 2 ^ 64) (countBound : count < 65536) (buffer : RetransmissionBuffer)
    (client : SockAddr) :
    (f.handleRequest bytes buffer client (request cfg.session seq count)).2 =
      (buffer.filePositionFor (UInt64.ofNat seq)).map fun pos =>
        (client, dataPacket cfg.session seq (readRun bytes count pos cfg.capacity)) := by
  obtain ⟨_, _, holds⟩ := ready.builder
  obtain ⟨size, named, number, total⟩ :=
    request_fields holds.accepted.session seqBound countBound
  rw [handleRequest_any bytes ready, if_pos ⟨Nat.le_of_eq size.symm, named⟩, number, total,
    UInt64.toNat_ofNat_of_lt' seqBound, UInt16.toNat_ofNat_of_lt' countBound]

theorem handleRequest_ready (bytes : List UInt8) (ready : Ready cfg f)
    (buffer : RetransmissionBuffer) (client : SockAddr) (datagram : List UInt8) :
    Ready cfg (f.handleRequest bytes buffer client datagram).1 := by
  have taken := takeRequest_ready ready buffer client datagram
  unfold Feed.handleRequest
  generalize f.takeRequest buffer client datagram = result at taken ⊢
  obtain ⟨g, _ | ctx⟩ := result
  · exact taken
  · exact answer_ready bytes taken ctx

end MoldRetransmission
