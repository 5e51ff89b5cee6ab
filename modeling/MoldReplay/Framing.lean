import MoldReplay.Wire

/- Length-prefixed messages in the mapped file: mold/io.cpp, itch/timestamp.cpp
   and downstream peek_timestamp. A cursor is a Nat: a mapping is far smaller than
   the range of size_t, so the additions of io.cpp do not wrap. -/
namespace MoldFraming
open FixedBytes MoldWire

/-- The mapping, and the memory behind it: `beyond i` is what a load i bytes past the end
    finds, which is taken as readable. -/
structure MappedFile where
  bytes : List UInt8
  beyond : Nat → UInt8
  small : bytes.length < 2 ^ 64

def MappedFile.size (file : MappedFile) : Nat := file.bytes.length

def MappedFile.byteAt (file : MappedFile) (i : Nat) : UInt8 :=
  file.bytes.getD i (file.beyond (i - file.size))

def getAndCheckLengthPrefix (bytes : List UInt8) (pos : Nat) : Option Nat × Nat :=
  if pos + lengthPrefixSize > bytes.length then (none, pos)
  else
    -- read_be has moved the cursor behind the prefix by the time of the second check
    let (lengthPrefix, pos) := readBe native lengthPrefixSize bytes pos
    if pos + lengthPrefix > bytes.length then (none, pos)
    else (some lengthPrefix, pos + lengthPrefix)

def readMessage (bytes : List UInt8) (pos : Nat) : List UInt8 × Nat :=
  match getAndCheckLengthPrefix bytes pos with
  | (some lengthPrefix, next) => ((bytes.drop pos).take (lengthPrefixSize + lengthPrefix), next)
  | (none, next) => ([], next)

def skipMessage (bytes : List UInt8) (pos : Nat) : Bool × Nat :=
  match getAndCheckLengthPrefix bytes pos with
  | (lengthPrefix, next) => (lengthPrefix.isSome, next)

@[simp] abbrev timestampOffset : Nat := 5
@[simp] abbrev timestampSize : Nat := 6

/-- `data i` is the byte i places behind the span's start, inside the span or not: the bounds
    are the caller's, and the assertion of them is compiled out. -/
def extractTimestamp (host : Endian) (data : Nat → UInt8) : Nat :=
  let copied := (List.range timestampSize).map fun i => data (timestampOffset + i)
  byteswap 8 (load host (copied ++ [0, 0])) >>> 16

def peekTimestamp (file : MappedFile) (pos : Nat) : Option Nat :=
  if file.size - pos < lengthPrefixSize + timestampSize then none
  else some (extractTimestamp native fun i => file.byteAt (pos + lengthPrefixSize + i))

/- What the reader sees at a position, without the cursor. -/
def lengthAt (bytes : List UInt8) (pos : Nat) : Nat :=
  natBE ((bytes.drop pos).take lengthPrefixSize)

abbrev Complete (bytes : List UInt8) (pos : Nat) : Prop :=
  pos + 2 + lengthAt bytes pos ≤ bytes.length

def messageAt (bytes : List UInt8) (pos : Nat) : List UInt8 :=
  (bytes.drop pos).take (2 + lengthAt bytes pos)

/-- Where a failed read leaves the cursor: behind the prefix if there was one. -/
def afterFailure (bytes : List UInt8) (pos : Nat) : Nat :=
  if pos + 2 ≤ bytes.length then pos + 2 else pos

def IsFrame (m : List UInt8) : Prop := 2 ≤ m.length ∧ m.length = 2 + natBE (m.take 2)

def frame (body : List UInt8) : List UInt8 := bytesBE 2 body.length ++ body

/-- The 48-bit timestamp of a framed message. -/
def timestampOf (m : List UInt8) : Nat := natBE ((m.drop 7).take timestampSize)

theorem check_eq (bytes : List UInt8) (pos : Nat) :
    getAndCheckLengthPrefix bytes pos =
      if Complete bytes pos then (some (lengthAt bytes pos), pos + 2 + lengthAt bytes pos)
      else (none, afterFailure bytes pos) := by
  simp only [getAndCheckLengthPrefix, afterFailure, Complete, lengthPrefixSize]
  by_cases prefixed : pos + 2 ≤ bytes.length
  · rw [if_neg (by omega), readBe_eq native prefixed, if_pos prefixed]
    change (if pos + 2 + lengthAt bytes pos > bytes.length then _ else _) = _
    split <;> split <;> first | rfl | omega
  · rw [if_pos (by omega), if_neg (by omega), if_neg prefixed]

theorem check_complete {bytes : List UInt8} {pos : Nat} (complete : Complete bytes pos) :
    getAndCheckLengthPrefix bytes pos =
      (some (lengthAt bytes pos), pos + 2 + lengthAt bytes pos) := by
  rw [check_eq, if_pos complete]

theorem check_incomplete {bytes : List UInt8} {pos : Nat} (incomplete : ¬ Complete bytes pos) :
    getAndCheckLengthPrefix bytes pos = (none, afterFailure bytes pos) := by
  rw [check_eq, if_neg incomplete]

theorem readMessage_complete {bytes : List UInt8} {pos : Nat} (complete : Complete bytes pos) :
    readMessage bytes pos = (messageAt bytes pos, pos + 2 + lengthAt bytes pos) := by
  simp [readMessage, check_complete complete, messageAt]

theorem readMessage_incomplete {bytes : List UInt8} {pos : Nat}
    (incomplete : ¬ Complete bytes pos) :
    readMessage bytes pos = ([], afterFailure bytes pos) := by
  simp [readMessage, check_incomplete incomplete]

theorem skipMessage_complete {bytes : List UInt8} {pos : Nat} (complete : Complete bytes pos) :
    skipMessage bytes pos = (true, pos + 2 + lengthAt bytes pos) := by
  simp [skipMessage, check_complete complete]

theorem skipMessage_incomplete {bytes : List UInt8} {pos : Nat}
    (incomplete : ¬ Complete bytes pos) :
    skipMessage bytes pos = (false, afterFailure bytes pos) := by
  simp [skipMessage, check_incomplete incomplete]

theorem messageAt_length {bytes : List UInt8} {pos : Nat} (complete : Complete bytes pos) :
    (messageAt bytes pos).length = 2 + lengthAt bytes pos := by
  simp only [messageAt, List.length_take, List.length_drop]
  omega

theorem messageAt_isFrame {bytes : List UInt8} {pos : Nat} (complete : Complete bytes pos) :
    IsFrame (messageAt bytes pos) := by
  have length := messageAt_length complete
  refine ⟨by omega, ?_⟩
  rw [length, messageAt, List.take_take, Nat.min_eq_left (by omega)]
  rfl

theorem messageAt_ne_nil {bytes : List UInt8} {pos : Nat} (complete : Complete bytes pos) :
    messageAt bytes pos ≠ [] := by
  have length := messageAt_length complete
  intro empty
  simp [empty] at length
  omega

theorem afterFailure_bounds (bytes : List UInt8) (pos : Nat) (inside : pos ≤ bytes.length) :
    pos ≤ afterFailure bytes pos ∧ afterFailure bytes pos ≤ bytes.length := by
  simp only [afterFailure]
  split <;> omega

theorem frame_isFrame (body : List UInt8) (bound : body.length < 65536) : IsFrame (frame body) := by
  have decoded := natBE_bytesBE 2 body.length (by omega)
  simp [IsFrame, frame, decoded]

theorem frame_in_place {before m after : List UInt8} (framed : IsFrame m) :
    Complete (before ++ m ++ after) before.length ∧
      messageAt (before ++ m ++ after) before.length = m := by
  have rest : (before ++ m ++ after).drop before.length = m ++ after := by simp
  have length : lengthAt (before ++ m ++ after) before.length = natBE (m.take 2) := by
    unfold lengthAt
    rw [rest, List.take_append_of_le_length framed.1]
  have size := framed.2
  constructor
  · simp only [Complete, length, List.length_append]
    omega
  · unfold messageAt
    rw [length, rest, ← size]
    simp

/- Bytes in front of what is read only move it. -/
theorem lengthAt_behind (front bytes : List UInt8) (pos : Nat) :
    lengthAt (front ++ bytes) (front.length + pos) = lengthAt bytes pos := by
  rw [lengthAt, lengthAt, List.drop_length_add_append]

theorem complete_behind (front bytes : List UInt8) (pos : Nat) :
    Complete (front ++ bytes) (front.length + pos) ↔ Complete bytes pos := by
  rw [Complete, Complete, lengthAt_behind, List.length_append]
  omega

theorem messageAt_behind (front bytes : List UInt8) (pos : Nat) :
    messageAt (front ++ bytes) (front.length + pos) = messageAt bytes pos := by
  rw [messageAt, messageAt, lengthAt_behind, List.drop_length_add_append]

theorem afterFailure_behind (front bytes : List UInt8) (pos : Nat) :
    afterFailure (front ++ bytes) (front.length + pos) =
      front.length + afterFailure bytes pos := by
  simp only [afterFailure, List.length_append]
  split <;> split <;> omega

theorem extractTimestamp_little (data : Nat → UInt8) :
    extractTimestamp .little data =
      natBE ((List.range timestampSize).map fun i => data (timestampOffset + i)) := by
  simp only [extractTimestamp, load]
  generalize fields : (List.range timestampSize).map (fun i => data (timestampOffset + i)) = copied
  have size : (copied ++ [0, 0]).length = 8 := by simp [← fields]
  have swapped := byteswap_natLE (copied ++ [0, 0])
  rw [size] at swapped
  have padding : natBE [0, 0] = 0 := rfl
  rw [swapped, natBE_append, padding, Nat.shiftRight_eq_div_pow]
  simp

/-- Copied to the front of an integer and swapped, the first two bytes are the lowest:
    they are the ones that are shifted out. -/
theorem extractTimestamp_big (data : Nat → UInt8) :
    extractTimestamp .big data =
      natLE (((List.range timestampSize).map fun i => data (timestampOffset + i)).drop 2) := by
  simp only [extractTimestamp, load]
  generalize fields : (List.range timestampSize).map (fun i => data (timestampOffset + i)) = copied
  have size : (copied ++ [0, 0]).length = 8 := by simp [← fields]
  have swapped := byteswap_natBE (copied ++ [0, 0])
  rw [size] at swapped
  have padding : natLE [0, 0] = 0 := rfl
  rw [swapped, natLE_append, padding, natLE_drop, Nat.shiftRight_eq_div_pow]
  rfl

theorem bytes_loaded {data : Nat → UInt8} {bytes : List UInt8} {offset count : Nat}
    (there : ∀ i < count, bytes[offset + i]? = some (data i)) :
    (List.range count).map data = (bytes.drop offset).take count := by
  apply List.ext_getElem?
  intro i
  rw [List.getElem?_take, List.getElem?_drop, List.getElem?_map]
  split
  · rename_i inside
    rw [there i inside, List.getElem?_range inside, Option.map_some]
  · rename_i outside
    rw [List.getElem?_eq_none (by simpa using outside), Option.map_none]

theorem peekTimestamp_none {file : MappedFile} {pos : Nat} :
    peekTimestamp file pos = none ↔ file.size - pos < 8 := by
  simp only [peekTimestamp, lengthPrefixSize, timestampSize]
  split <;> simp <;> omega

theorem peekTimestamp_message {file : MappedFile} {pos : Nat} (complete : Complete file.bytes pos)
    (long : 13 ≤ (messageAt file.bytes pos).length) :
    peekTimestamp file pos = some (timestampOf (messageAt file.bytes pos)) := by
  have length := messageAt_length complete
  have enough : ¬ file.size - pos < lengthPrefixSize + timestampSize := by
    simp only [MappedFile.size, lengthPrefixSize, timestampSize]
    omega
  unfold peekTimestamp
  rw [if_neg enough, extractTimestamp_little, timestampOf]
  congr 2
  refine bytes_loaded fun i small => ?_
  simp only [timestampSize] at small
  have inside : pos + 2 + (5 + i) < file.bytes.length := by omega
  have same : pos + (7 + i) = pos + 2 + (5 + i) := by omega
  rw [messageAt, List.getElem?_take_of_lt (by omega), List.getElem?_drop, same,
    MappedFile.byteAt, List.getD_eq_getElem?_getD, List.getElem?_eq_getElem inside]
  rfl

end MoldFraming
