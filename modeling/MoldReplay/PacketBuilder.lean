import MoldReplay.Framing

/- PacketBuilder: one 20-byte header buffer and a vector of iovecs, the first of
   which points at that buffer. Sizes are Nat. The assertion of try_add
   (message.size() >= min_message_size_) is compiled out of release builds and is
   not part of the function. -/
namespace MoldPacket
open FixedBytes MoldWire MoldFraming

/-- Ways a constructor ends without an object. The division by a zero
    min_message_size_ is not an exception: nothing catches it. -/
inductive Failure where
  | invalidArgument (what : String)
  | lengthError (what : String)
  | divisionByZero
  deriving DecidableEq, Repr

structure Config where
  session : List UInt8
  MTU : Nat := 1472
  minMessageSize : Nat := 14

inductive Iovec where
  | header
  | message (data : List UInt8)
  deriving DecidableEq, Repr

structure PacketBuilder where
  MTU : Nat
  bytesRemaining : Nat
  headerBuffer : List UInt8
  iovecs : List Iovec
  minMessageSize : Nat
  deriving DecidableEq, Repr

/-- std::source_location::current().function_name() in the constructor. -/
def constructorName : String := "imr::mold::PacketBuilder::PacketBuilder(const Config&)"

/-- vector<iovec>::max_size(): an iovec is 16 bytes. -/
def iovecMaxSize : Nat := (2 ^ 63 - 1) / 16

def construct (cfg : Config) : Except Failure PacketBuilder :=
  if cfg.MTU < headerLength then
    .error (.invalidArgument (constructorName ++ ": Config::MTU must be at least 20 bytes"))
  else if cfg.session.length ≠ sessionSize then
    .error (.invalidArgument
      (constructorName ++ ": Config::session must be exactly 10 characters"))
  else if cfg.minMessageSize = 0 then .error .divisionByZero
  else if iovecMaxSize < (1 + cfg.MTU / cfg.minMessageSize) % 2 ^ 64 then
    .error (.lengthError "vector::reserve")
  else .ok {
    MTU := cfg.MTU
    bytesRemaining := cfg.MTU - headerLength
    headerBuffer := writeAt (List.replicate headerLength 0) 0 cfg.session
    iovecs := [.header]
    minMessageSize := cfg.minMessageSize }

def PacketBuilder.tryAdd (b : PacketBuilder) (message : List UInt8) : Bool × PacketBuilder :=
  if message.length > b.bytesRemaining || message.isEmpty then (false, b)
  else (true, { b with
    iovecs := b.iovecs ++ [.message message]
    bytesRemaining := b.bytesRemaining - message.length })

def PacketBuilder.messageCount (b : PacketBuilder) : MessageCount :=
  (b.iovecs.length - 1).toUInt16

def PacketBuilder.finalize (b : PacketBuilder) : PacketBuilder :=
  { b with headerBuffer :=
      writeAtBe native messageCountSize b.headerBuffer messageCountOffset b.messageCount.toNat }

def PacketBuilder.reset (b : PacketBuilder) (seq : SequenceNumber) : PacketBuilder :=
  { b with
    headerBuffer :=
      writeAtBe native sequenceNumberSize b.headerBuffer sequenceNumberOffset seq.toNat
    iovecs := b.iovecs.take 1
    bytesRemaining := b.MTU - headerLength }

def PacketBuilder.session (b : PacketBuilder) : List UInt8 := b.headerBuffer.take sessionSize

def Iovec.data (headerBuffer : List UInt8) : Iovec → List UInt8
  | .header => headerBuffer
  | .message data => data

/-- What sendmsg gathers: the bytes behind each iovec at the time of the call. -/
structure Packet where
  iovecs : List (List UInt8)
  deriving DecidableEq, Repr

def PacketBuilder.packet (b : PacketBuilder) : Packet :=
  ⟨b.iovecs.map (Iovec.data b.headerBuffer)⟩

def Packet.bytes (p : Packet) : List UInt8 := p.iovecs.flatten
def Packet.messages (p : Packet) : List (List UInt8) := p.iovecs.tail
def Packet.sequenceNumber (p : Packet) : Nat :=
  readAtBe native sequenceNumberSize p.bytes sequenceNumberOffset
def Packet.messageCount (p : Packet) : Nat :=
  readAtBe native messageCountSize p.bytes messageCountOffset
def Packet.block (p : Packet) : List UInt8 := p.bytes.drop messageBlockOffset

def headerBytes (session : List UInt8) (seq count : Nat) : List UInt8 :=
  session ++ bytesBE 8 seq ++ bytesBE 2 count

def dataPacket (session : List UInt8) (seq : Nat) (ms : List (List UInt8)) : Packet :=
  ⟨headerBytes session seq (ms.length % 65536) :: ms⟩

def Config.capacity (cfg : Config) : Nat := cfg.MTU - 20

structure Config.Accepted (cfg : Config) : Prop where
  mtu : 20 ≤ cfg.MTU
  session : cfg.session.length = 10
  minimum : 0 < cfg.minMessageSize

structure Holds (cfg : Config) (b : PacketBuilder) (sq : List UInt8)
    (ms : List (List UInt8)) : Prop where
  accepted : cfg.Accepted
  mtu : b.MTU = cfg.MTU
  minimum : b.minMessageSize = cfg.minMessageSize
  sequenceBytes : sq.length = 8
  header : ∃ count, count.length = 2 ∧ b.headerBuffer = cfg.session ++ sq ++ count
  iovecs : b.iovecs = .header :: ms.map .message
  room : b.bytesRemaining + ms.flatten.length = cfg.capacity

/- The three fields of a header, written one by one. -/
theorem write_session {session : List UInt8} (ten : session.length = 10) :
    writeAt (List.replicate headerLength 0) sessionOffset session =
      session ++ List.replicate 8 0 ++ List.replicate 2 0 := by
  simp [writeAt, write, ten]

theorem write_number {session sq : List UInt8} (ten : session.length = 10)
    (eight : sq.length = 8) (count : List UInt8) (seq : Nat) :
    writeAtBe native sequenceNumberSize (session ++ sq ++ count) sequenceNumberOffset seq =
      session ++ bytesBE 8 seq ++ count := by
  have field := write_field session sq count (bytesBE 8 seq) (by simp [eight])
  rw [ten, bytesBE_length] at field
  rw [writeAtBe_eq]
  exact field

theorem write_count {session sq count : List UInt8} (ten : session.length = 10)
    (eight : sq.length = 8) (two : count.length = 2) (total : Nat) :
    writeAtBe native messageCountSize (session ++ sq ++ count) messageCountOffset total =
      session ++ sq ++ bytesBE 2 total := by
  have field := write_field (session ++ sq) count [] (bytesBE 2 total) (by simp [two])
  simp only [List.length_append, ten, eight, bytesBE_length, List.append_nil] at field
  rw [writeAtBe_eq]
  exact field

theorem least_total {least : Nat} {ms : List (List UInt8)} (sized : ∀ m ∈ ms, least ≤ m.length) :
    least * ms.length ≤ ms.flatten.length := by
  induction ms with
  | nil => simp
  | cons m rest ih =>
    have first := sized m List.mem_cons_self
    have others := ih fun m' member => sized m' (List.mem_cons_of_mem _ member)
    rw [List.length_cons, List.flatten_cons, List.length_append, Nat.mul_succ]
    omega

theorem construct_accepts {cfg : Config} {b : PacketBuilder} (built : construct cfg = .ok b) :
    cfg.Accepted ∧ Holds cfg b (List.replicate 8 0) [] := by
  simp only [construct] at built
  split at built; · cases built
  rename_i mtu
  split at built; · cases built
  rename_i session
  split at built; · cases built
  rename_i minimum
  split at built; · cases built
  have accepted : cfg.Accepted :=
    ⟨by simpa using mtu, by simpa using session, by omega⟩
  cases built
  exact ⟨accepted, accepted, rfl, rfl, by simp,
    ⟨List.replicate 2 0, by simp, write_session accepted.session⟩, rfl, by simp [Config.capacity]⟩

theorem tryAdd_accepts {cfg : Config} {b : PacketBuilder} {sq m : List UInt8}
    {ms : List (List UInt8)} (h : Holds cfg b sq ms) (nonempty : m ≠ [])
    (fits : ms.flatten.length + m.length ≤ cfg.capacity) :
    ∃ b', b.tryAdd m = (true, b') ∧ Holds cfg b' sq (ms ++ [m]) := by
  have room := h.room
  have small : ¬ m.length > b.bytesRemaining := by omega
  refine ⟨_, if_neg (by simp [small, nonempty]), h.accepted, h.mtu, h.minimum, h.sequenceBytes,
    h.header, by simp [h.iovecs], ?_⟩
  simp only [List.flatten_append, List.length_append, List.flatten_cons, List.flatten_nil,
    List.append_nil]
  omega

theorem tryAdd_rejects {cfg : Config} {b : PacketBuilder} {sq m : List UInt8}
    {ms : List (List UInt8)} (h : Holds cfg b sq ms)
    (full : cfg.capacity < ms.flatten.length + m.length) : b.tryAdd m = (false, b) := by
  have room := h.room
  have large : m.length > b.bytesRemaining := by omega
  simp [PacketBuilder.tryAdd, large]

theorem tryAdd_refused {b builder : PacketBuilder} {m : List UInt8}
    (refused : b.tryAdd m = (false, builder)) : builder = b := by
  simp only [PacketBuilder.tryAdd] at refused
  split at refused
  · exact (Prod.mk.inj refused).2.symm
  · exact absurd (Prod.mk.inj refused).1 (by decide)

theorem reset_holds {cfg : Config} {b : PacketBuilder} {sq : List UInt8} {ms : List (List UInt8)}
    (h : Holds cfg b sq ms) (seq : SequenceNumber) :
    Holds cfg (b.reset seq) (bytesBE 8 seq.toNat) [] := by
  obtain ⟨count, two, header⟩ := h.header
  refine ⟨h.accepted, h.mtu, h.minimum, by simp, ⟨count, two, ?_⟩, by simp [PacketBuilder.reset,
    h.iovecs], by simp [PacketBuilder.reset, h.mtu, Config.capacity]⟩
  simp only [PacketBuilder.reset, header]
  exact write_number h.accepted.session h.sequenceBytes count seq.toNat

theorem finalize_header {cfg : Config} {b : PacketBuilder} {sq : List UInt8}
    {ms : List (List UInt8)} (h : Holds cfg b sq ms) :
    b.finalize.headerBuffer = cfg.session ++ sq ++ bytesBE 2 (ms.length % 65536) := by
  obtain ⟨count, two, header⟩ := h.header
  have total : b.messageCount.toNat = ms.length % 65536 := by
    simp [PacketBuilder.messageCount, h.iovecs]
  simp only [PacketBuilder.finalize, header, total]
  exact write_count h.accepted.session h.sequenceBytes two _

theorem finalize_holds {cfg : Config} {b : PacketBuilder} {sq : List UInt8}
    {ms : List (List UInt8)} (h : Holds cfg b sq ms) : Holds cfg b.finalize sq ms :=
  ⟨h.accepted, h.mtu, h.minimum, h.sequenceBytes, ⟨_, by simp, finalize_header h⟩, h.iovecs, h.room⟩

theorem finalize_packet {cfg : Config} {b : PacketBuilder} {seq : Nat} {ms : List (List UInt8)}
    (h : Holds cfg b (bytesBE 8 seq) ms) : b.finalize.packet = dataPacket cfg.session seq ms := by
  have same : b.finalize.iovecs = .header :: ms.map .message := h.iovecs
  simp only [PacketBuilder.packet, same, finalize_header h, dataPacket, headerBytes, List.map_cons,
    List.map_map, Iovec.data]
  congr 2
  exact List.map_id'' (fun _ => rfl) ms

theorem session_configured {cfg : Config} {b : PacketBuilder} {sq : List UInt8}
    {ms : List (List UInt8)} (h : Holds cfg b sq ms) : b.session = cfg.session := by
  obtain ⟨count, _, header⟩ := h.header
  simp [PacketBuilder.session, header, ← h.accepted.session]

theorem holds_within_capacity {cfg : Config} {b : PacketBuilder} {sq : List UInt8}
    {ms : List (List UInt8)} (h : Holds cfg b sq ms) : ms.flatten.length ≤ cfg.capacity := by
  have := h.room
  omega

@[simp] theorem dataPacket_messages (session : List UInt8) (seq : Nat) (ms : List (List UInt8)) :
    (dataPacket session seq ms).messages = ms := rfl

theorem dataPacket_bytes (session : List UInt8) (seq : Nat) (ms : List (List UInt8)) :
    (dataPacket session seq ms).bytes =
      session ++ bytesBE 8 seq ++ bytesBE 2 (ms.length % 65536) ++ ms.flatten := by
  simp [dataPacket, Packet.bytes, headerBytes]

theorem dataPacket_block {session : List UInt8} (ten : session.length = 10) (seq : Nat)
    (ms : List (List UInt8)) : (dataPacket session seq ms).block = ms.flatten := by
  have header : (session ++ bytesBE 8 seq ++ bytesBE 2 (ms.length % 65536)).length = 20 := by
    simp [ten]
  rw [Packet.block, dataPacket_bytes]
  exact List.drop_left' header

theorem header_sequenceNumber {p : Packet} {session rest : List UInt8} {seq count : Nat}
    (bytes : p.bytes = headerBytes session seq count ++ rest) (ten : session.length = 10)
    (bound : seq < 2 ^ 64) : p.sequenceNumber = seq := by
  have field := read_field session (bytesBE 8 seq) (bytesBE 2 count ++ rest)
  rw [ten, bytesBE_length] at field
  have inside : 10 + 8 ≤ p.bytes.length := by
    simp only [bytes, headerBytes, List.length_append, ten, bytesBE_length]
    omega
  rw [Packet.sequenceNumber, readAtBe_eq native inside, bytes, headerBytes,
    List.append_assoc _ _ rest, field]
  exact natBE_bytesBE 8 seq bound

theorem header_messageCount {p : Packet} {session rest : List UInt8} {seq count : Nat}
    (bytes : p.bytes = headerBytes session seq count ++ rest) (ten : session.length = 10)
    (bound : count < 65536) : p.messageCount = count := by
  have field := read_field (session ++ bytesBE 8 seq) (bytesBE 2 count) rest
  simp only [List.length_append, ten, bytesBE_length] at field
  have inside : 10 + 8 + 2 ≤ p.bytes.length := by
    simp only [bytes, headerBytes, List.length_append, ten, bytesBE_length]
    omega
  unfold Packet.messageCount
  rw [readAtBe_eq native inside, bytes, headerBytes, field]
  exact natBE_bytesBE 2 count bound

theorem dataPacket_sequenceNumber {session : List UInt8} (ten : session.length = 10) {seq : Nat}
    (bound : seq < 2 ^ 64) (ms : List (List UInt8)) :
    (dataPacket session seq ms).sequenceNumber = seq :=
  header_sequenceNumber (dataPacket_bytes session seq ms) ten bound

theorem dataPacket_messageCount {session : List UInt8} (ten : session.length = 10) (seq : Nat)
    (ms : List (List UInt8)) : (dataPacket session seq ms).messageCount = ms.length % 65536 :=
  header_messageCount (dataPacket_bytes session seq ms) ten (Nat.mod_lt _ (by decide))

theorem dataPacket_size {session : List UInt8} (ten : session.length = 10) (seq : Nat)
    (ms : List (List UInt8)) :
    (dataPacket session seq ms).bytes.length = 20 + ms.flatten.length := by
  simp only [dataPacket_bytes, List.length_append, ten, bytesBE_length]

end MoldPacket
