import MoldReplay.FixedBytes

/- The fixed-size fields of a MoldUDP64 header (types.h) and the functions that
   read and write them (binary_io.h). A buffer is its bytes, a cursor a Nat.
   The host's byte order is a parameter; the replay itself runs on `native`. -/
namespace MoldWire
open FixedBytes

abbrev SequenceNumber := UInt64
abbrev MessageCount := UInt16

@[simp] abbrev sessionSize : Nat := 10
@[simp] abbrev sequenceNumberSize : Nat := 8
@[simp] abbrev messageCountSize : Nat := 2
@[simp] abbrev lengthPrefixSize : Nat := 2

@[simp] abbrev headerLength : Nat := sessionSize + sequenceNumberSize + messageCountSize
@[simp] abbrev sessionOffset : Nat := 0
@[simp] abbrev sequenceNumberOffset : Nat := sessionSize
@[simp] abbrev messageCountOffset : Nat := sequenceNumberOffset + sequenceNumberSize
@[simp] abbrev messageBlockOffset : Nat := messageCountOffset + messageCountSize

def heartbeatMsgCount : MessageCount := 0
def endOfSessionMsgCount : MessageCount := 0xFFFF

/-- std::endian -/
inductive Endian where
  | little
  | big
  deriving DecidableEq, Repr

abbrev native : Endian := .little

/-- memcpy of an object representation into an integer of that size. -/
def load (host : Endian) (bytes : List UInt8) : Nat :=
  match host with
  | .little => natLE bytes
  | .big => natBE bytes

def represent (host : Endian) (width value : Nat) : List UInt8 :=
  match host with
  | .little => bytesLE width value
  | .big => bytesBE width value

def toBe (host : Endian) (width value : Nat) : Nat :=
  match host with
  | .big => value
  | .little => byteswap width value

def read (host : Endian) (width : Nat) (buf : List UInt8) (pos : Nat) : Nat × Nat :=
  (load host ((buf.drop pos).take width), pos + width)

/-- Both overloads of write: the bytes of a value, or of a byte range. -/
def write (buf : List UInt8) (pos : Nat) (bytes : List UInt8) : List UInt8 × Nat :=
  (buf.take pos ++ bytes ++ buf.drop (pos + bytes.length), pos + bytes.length)

def readAt (host : Endian) (width : Nat) (buf : List UInt8) (offset : Nat) : Nat :=
  (read host width buf offset).1

def writeAt (buf : List UInt8) (offset : Nat) (bytes : List UInt8) : List UInt8 :=
  (write buf offset bytes).1

def readBe (host : Endian) (width : Nat) (buf : List UInt8) (pos : Nat) : Nat × Nat :=
  (toBe host width (read host width buf pos).1, (read host width buf pos).2)

def writeBe (host : Endian) (width : Nat) (buf : List UInt8) (pos value : Nat) :
    List UInt8 × Nat :=
  write buf pos (represent host width (toBe host width value))

def readAtBe (host : Endian) (width : Nat) (buf : List UInt8) (offset : Nat) : Nat :=
  toBe host width (readAt host width buf offset)

def writeAtBe (host : Endian) (width : Nat) (buf : List UInt8) (offset value : Nat) : List UInt8 :=
  writeAt buf offset (represent host width (toBe host width value))

theorem toBe_load (host : Endian) (bytes : List UInt8) :
    toBe host bytes.length (load host bytes) = natBE bytes := by
  cases host with
  | little => exact byteswap_natLE bytes
  | big => rfl

theorem represent_toBe (host : Endian) (width value : Nat) :
    represent host width (toBe host width value) = bytesBE width value := by
  cases host with
  | little => exact bytesLE_byteswap width value
  | big => rfl

theorem readAtBe_eq (host : Endian) {width offset : Nat} {buf : List UInt8}
    (inside : offset + width ≤ buf.length) :
    readAtBe host width buf offset = natBE ((buf.drop offset).take width) := by
  have size : ((buf.drop offset).take width).length = width := by simp; omega
  have loaded := toBe_load host ((buf.drop offset).take width)
  rwa [size] at loaded

theorem readBe_eq (host : Endian) {width pos : Nat} {buf : List UInt8}
    (inside : pos + width ≤ buf.length) :
    readBe host width buf pos = (natBE ((buf.drop pos).take width), pos + width) :=
  Prod.ext (readAtBe_eq host inside) rfl

theorem writeBe_eq (host : Endian) (width : Nat) (buf : List UInt8) (pos value : Nat) :
    writeBe host width buf pos value =
      (buf.take pos ++ bytesBE width value ++ buf.drop (pos + width), pos + width) := by
  simp [writeBe, write, represent_toBe]

theorem writeAtBe_eq (host : Endian) (width : Nat) (buf : List UInt8) (offset value : Nat) :
    writeAtBe host width buf offset value =
      buf.take offset ++ bytesBE width value ++ buf.drop (offset + width) :=
  congrArg Prod.fst (writeBe_eq host width buf offset value)

theorem write_field (before field after new : List UInt8) (same : new.length = field.length) :
    (before ++ field ++ after).take before.length ++ new ++
      (before ++ field ++ after).drop (before.length + new.length) = before ++ new ++ after := by
  simp [same]

theorem read_field (before field after : List UInt8) :
    ((before ++ field ++ after).drop before.length).take field.length = field := by
  simp

end MoldWire
