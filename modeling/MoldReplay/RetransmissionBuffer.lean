import MoldReplay.PacketBuilder
import MoldReplay.RingWindow
import Mathlib.Data.List.Induction
import Mathlib.Data.List.Nodup

/- RetransmissionBuffer: records of the newest messages in a circular array. push
   and file_position_for are each given by the separate memory accesses they make,
   so that the sequential and the concurrent reading share one definition. -/
namespace MoldBuffer
open MoldWire MoldPacket RingWindow

structure MessageRecord where
  sequenceNumber : SequenceNumber
  filePosition : Nat
  deriving DecidableEq, Repr

/-- What buffer_.resize fills the slots with. -/
def blank : MessageRecord := ⟨0, 0⟩

structure RetransmissionBuffer where
  buffer : List MessageRecord
  mask : UInt64
  useMask : Bool
  writeSeq : SequenceNumber
  nonempty : 0 < buffer.length
  bounded : buffer.length < 2 ^ 64
  mask_eq : mask = UInt64.ofNat buffer.length - 1
  useMask_eq : useMask = ((UInt64.ofNat buffer.length &&& mask) == 0)
  deriving DecidableEq

/-- vector<MessageRecord>::max_size(): a record is 16 bytes. -/
def recordMaxSize : Nat := (2 ^ 63 - 1) / 16

def construct (bufferSize : UInt64) : Except Failure RetransmissionBuffer :=
  if empty : bufferSize = 0 then
    .error (.invalidArgument "mold::RetransmissionBuffer: buffer_size must be > 0")
  else if recordMaxSize < bufferSize.toNat then
    .error (.lengthError "vector::_M_default_append")
  else .ok {
    buffer := List.replicate bufferSize.toNat blank
    mask := bufferSize - 1
    useMask := bufferSize != 0 && (bufferSize &&& (bufferSize - 1)) == 0
    writeSeq := 0
    nonempty := by
      have positive : bufferSize.toNat ≠ 0 := fun zero => empty (UInt64.toNat_inj.mp zero)
      simp only [List.length_replicate]
      omega
    bounded := by simpa using bufferSize.toNat_lt
    mask_eq := by simp
    useMask_eq := by simp [empty] }

def RetransmissionBuffer.size (b : RetransmissionBuffer) : UInt64 := UInt64.ofNat b.buffer.length

def RetransmissionBuffer.indexFor (b : RetransmissionBuffer) (seqNum : SequenceNumber) : Nat :=
  if b.useMask then (seqNum &&& b.mask).toNat else (seqNum % b.size).toNat

@[simp] theorem size_toNat (b : RetransmissionBuffer) : b.size.toNat = b.buffer.length := by
  unfold RetransmissionBuffer.size
  exact UInt64.toNat_ofNat_of_lt' b.bounded

theorem mask_toNat (b : RetransmissionBuffer) : b.mask.toNat = b.buffer.length - 1 := by
  have one : (1 : UInt64) ≤ b.size := by
    rw [UInt64.le_iff_toNat_le, size_toNat]
    exact b.nonempty
  have difference := UInt64.toNat_sub_of_le _ _ one
  rw [size_toNat] at difference
  rw [b.mask_eq]
  exact difference

theorem useMask_iff (b : RetransmissionBuffer) :
    b.useMask = true ↔ ∃ k, b.buffer.length = 2 ^ k := by
  have nonzero := Nat.pos_iff_ne_zero.mp b.nonempty
  have bits : (b.size &&& b.mask).toNat = b.buffer.length &&& (b.buffer.length - 1) := by
    rw [UInt64.toNat_and, size_toNat, mask_toNat]
  have selected : b.useMask = true ↔ b.size &&& b.mask = 0 := by
    rw [b.useMask_eq]
    exact beq_iff_eq
  rw [selected, ← UInt64.toNat_inj, bits]
  exact Nat.and_sub_one_eq_zero_iff_isPowerOfTwo nonzero

theorem indexFor_eq (b : RetransmissionBuffer) (s : SequenceNumber) :
    b.indexFor s = s.toNat % b.buffer.length := by
  unfold RetransmissionBuffer.indexFor
  split
  · rename_i masked
    obtain ⟨k, power⟩ := (useMask_iff b).mp masked
    rw [UInt64.toNat_and, mask_toNat, power, Nat.and_two_pow_sub_one_eq_mod]
  · rw [UInt64.toNat_mod, size_toNat]

theorem indexFor_lt (b : RetransmissionBuffer) (s : SequenceNumber) :
    b.indexFor s < b.buffer.length := by
  rw [indexFor_eq]
  exact Nat.mod_lt _ b.nonempty

theorem construct_size {N : UInt64} {b : RetransmissionBuffer} (built : construct N = .ok b) :
    b.buffer.length = N.toNat ∧ N.toNat ≤ recordMaxSize := by
  simp only [construct] at built
  split at built; · cases built
  split at built; · cases built
  rename_i fits
  cases built
  exact ⟨List.length_replicate, Nat.not_lt.mp fits⟩

/-- In every buffer, masked or not, a number's slot is its remainder, so that numbers in
    a row as long as the buffer have slots of their own. -/
theorem masked_index_plain (b : RetransmissionBuffer) :
    (∀ s, b.indexFor s = s.toNat % b.buffer.length ∧ b.indexFor s < b.buffer.length) ∧
    (∀ first, first + b.buffer.length ≤ 2 ^ 64 →
      ((List.range b.buffer.length).map fun i => b.indexFor (UInt64.ofNat (first + i))).Nodup) ∧
    (b.useMask = true ↔ ∃ k, b.buffer.length = 2 ^ k) ∧
    ∀ N, construct N = .ok b → b.buffer.length = N.toNat := by
  refine ⟨fun s => ⟨indexFor_eq b s, indexFor_lt b s⟩, ?_, useMask_iff b,
    fun N built => (construct_size built).1⟩
  intro first below
  refine List.Nodup.map_on ?_ List.nodup_range
  intro i inside j inside' same
  rw [List.mem_range] at inside inside'
  have number : ∀ k < b.buffer.length, (UInt64.ofNat (first + k)).toNat = first + k :=
    fun k small => UInt64.toNat_ofNat_of_lt' (by simp only [UInt64.size]; omega)
  rw [indexFor_eq, indexFor_eq, number i inside, number j inside'] at same
  rcases Nat.le_total i j with order | order
  · have equal := window_slots_distinct (by omega) (by omega) same
    omega
  · have equal := window_slots_distinct (by omega) (by omega) same.symm
    omega

def RetransmissionBuffer.store (b : RetransmissionBuffer) (r : MessageRecord) :
    RetransmissionBuffer :=
  { b with
    buffer := b.buffer.set (b.indexFor r.sequenceNumber) r
    nonempty := by simpa using b.nonempty
    bounded := by simpa using b.bounded
    mask_eq := by simpa using b.mask_eq
    useMask_eq := by simpa using b.useMask_eq }

def RetransmissionBuffer.publish (b : RetransmissionBuffer) (s : SequenceNumber) :
    RetransmissionBuffer := { b with writeSeq := s }

def RetransmissionBuffer.push (b : RetransmissionBuffer) (r : MessageRecord) :
    RetransmissionBuffer := (b.store r).publish r.sequenceNumber

/-- The three range tests of file_position_for, on the value loaded from write_seq_. -/
def RetransmissionBuffer.outOfRange (b : RetransmissionBuffer) (seqNum : SequenceNumber) : Bool :=
  let overwritten := decide (seqNum + b.size ≤ b.writeSeq)
  let notYetSent := decide (seqNum > b.writeSeq)
  let bufferEmpty := b.writeSeq == 0
  overwritten || notYetSent || bufferEmpty

def RetransmissionBuffer.entry (b : RetransmissionBuffer) (seqNum : SequenceNumber) :
    MessageRecord := b.buffer.get ⟨b.indexFor seqNum, indexFor_lt b seqNum⟩

def RetransmissionBuffer.filePositionFor (b : RetransmissionBuffer) (seqNum : SequenceNumber) :
    Option Nat :=
  if b.outOfRange seqNum then none
  else if (b.entry seqNum).sequenceNumber ≠ seqNum then none
  else some (b.entry seqNum).filePosition

def records (positions : List Nat) : List MessageRecord :=
  positions.mapIdx fun i p => ⟨UInt64.ofNat (i + 1), p⟩

def RetransmissionBuffer.pushAll (b : RetransmissionBuffer) (positions : List Nat) :
    RetransmissionBuffer := (records positions).foldl RetransmissionBuffer.push b

def recordOf (positions : List Nat) (k : Nat) : MessageRecord :=
  ⟨UInt64.ofNat k, positions.getD (k - 1) 0⟩

theorem records_snoc (positions : List Nat) (p : Nat) :
    records (positions ++ [p]) =
      records positions ++ [⟨UInt64.ofNat (positions.length + 1), p⟩] := by
  simp [records, List.mapIdx_append]

theorem pushAll_snoc (b : RetransmissionBuffer) (positions : List Nat) (p : Nat) :
    b.pushAll (positions ++ [p]) =
      (b.pushAll positions).push ⟨UInt64.ofNat (positions.length + 1), p⟩ := by
  simp [RetransmissionBuffer.pushAll, records_snoc]

theorem entry_getElem? (b : RetransmissionBuffer) (s : SequenceNumber) :
    b.buffer[s.toNat % b.buffer.length]? = some (b.entry s) := by
  rw [← indexFor_eq, List.getElem?_eq_getElem (indexFor_lt b s)]
  rfl

theorem push_buffer (b : RetransmissionBuffer) {k : Nat} (small : k < 2 ^ 64) (p : Nat) :
    (b.push ⟨UInt64.ofNat k, p⟩).buffer = RingWindow.store b.buffer k ⟨UInt64.ofNat k, p⟩ := by
  have number : (UInt64.ofNat k).toNat = k := UInt64.toNat_ofNat_of_lt' small
  simp only [RetransmissionBuffer.push, RetransmissionBuffer.publish, RetransmissionBuffer.store,
    indexFor_eq, number, RingWindow.store]

/-- The state after pushing `positions` under the numbers 1, 2, ... -/
structure Pushed (N : Nat) (b : RetransmissionBuffer) (positions : List Nat) : Prop where
  size : b.buffer.length = N
  writeSeq : b.writeSeq = UInt64.ofNat positions.length
  window : Window b.buffer positions.length (recordOf positions)
  provenance : Provenance b.buffer positions.length (recordOf positions) blank

theorem construct_pushed {N : UInt64} {b : RetransmissionBuffer} (built : construct N = .ok b) :
    Pushed N.toNat b [] := by
  simp only [construct] at built
  split at built; · cases built
  split at built; · cases built
  cases built
  exact ⟨by simp, rfl, window_initial _ _, provenance_initial _ _ _⟩

theorem recordOf_snoc (positions : List Nat) (p k : Nat) (positive : 1 ≤ k)
    (upper : k ≤ positions.length) :
    recordOf positions k = recordOf (positions ++ [p]) k := by
  have inside : k - 1 < positions.length := by omega
  simp [recordOf, List.getElem?_append_left inside]

theorem push_pushed {N : Nat} {b : RetransmissionBuffer} {positions : List Nat}
    (h : Pushed N b positions) (small : positions.length + 1 < 2 ^ 64) (p : Nat) :
    Pushed N (b.push ⟨UInt64.ofNat (positions.length + 1), p⟩) (positions ++ [p]) := by
  have stored := push_buffer b small p
  have last : (⟨UInt64.ofNat (positions.length + 1), p⟩ : MessageRecord) =
      recordOf (positions ++ [p]) (positions.length + 1) := by simp [recordOf]
  have old := recordOf_snoc positions p
  refine ⟨?_, by simp [RetransmissionBuffer.push, RetransmissionBuffer.publish], ?_, ?_⟩
  · rw [stored, store_length, h.size]
  · rw [stored, last, List.length_append, List.length_singleton]
    exact window_store b.nonempty (window_congr old h.window)
  · rw [stored, last, List.length_append, List.length_singleton]
    exact provenance_store b.nonempty (provenance_congr old h.provenance)

theorem pushAll_pushed {N : UInt64} {b : RetransmissionBuffer} (built : construct N = .ok b)
    {positions : List Nat} (small : positions.length < 2 ^ 64) :
    Pushed N.toNat (b.pushAll positions) positions := by
  induction positions using List.reverseRecOn with
  | nil => exact construct_pushed built
  | append_singleton positions p ih =>
    rw [List.length_append, List.length_singleton] at small
    rw [pushAll_snoc]
    exact push_pushed (ih (by omega)) small p

theorem writeSeq_toNat {N : Nat} {b : RetransmissionBuffer} {positions : List Nat}
    (h : Pushed N b positions) (small : positions.length < 2 ^ 64) :
    b.writeSeq.toNat = positions.length := by
  rw [h.writeSeq]
  exact UInt64.toNat_ofNat_of_lt' small

theorem outOfRange_iff {N : Nat} {b : RetransmissionBuffer} {positions : List Nat}
    (h : Pushed N b positions) (small : positions.length < 2 ^ 64) (s : SequenceNumber) :
    b.outOfRange s = true ↔ (s.toNat + N) % 2 ^ 64 ≤ positions.length ∨
      positions.length < s.toNat ∨ positions.length = 0 := by
  have newest := writeSeq_toNat h small
  have empty : b.writeSeq = 0 ↔ positions.length = 0 := by
    rw [← newest, ← UInt64.toNat_inj]
    rfl
  simp only [RetransmissionBuffer.outOfRange, UInt64.le_iff_toNat_le, UInt64.lt_iff_toNat_lt,
    gt_iff_lt, UInt64.toNat_add, size_toNat, h.size, newest, Bool.or_eq_true, decide_eq_true_eq,
    beq_iff_eq, empty, or_assoc]

theorem live_in_range {N : Nat} {b : RetransmissionBuffer} {positions : List Nat}
    (h : Pushed N b positions) (bound : positions.length + N < 2 ^ 64) {s : SequenceNumber}
    (pushed : s.toNat ≤ positions.length) (some : positions ≠ [])
    (live : positions.length < s.toNat + N) : b.outOfRange s = false := by
  have count := List.length_pos_iff.mpr some
  have sum : (s.toNat + N) % 2 ^ 64 = s.toNat + N := Nat.mod_eq_of_lt (by omega)
  rw [Bool.eq_false_iff, Ne, outOfRange_iff h (by omega), sum]
  omega

theorem live_found {N : Nat} {b : RetransmissionBuffer} {positions : List Nat}
    (h : Pushed N b positions) (bound : positions.length + N < 2 ^ 64) {s : SequenceNumber}
    (positive : 1 ≤ s.toNat) (pushed : s.toNat ≤ positions.length)
    (live : positions.length < s.toNat + N) :
    ∃ p, positions[s.toNat - 1]? = some p ∧ b.filePositionFor s = some p := by
  have some : positions ≠ [] := by
    rintro rfl
    exact absurd pushed (by simp only [List.length_nil]; omega)
  have inRange := live_in_range h bound pushed some live
  have slot := h.window s.toNat positive pushed (by rw [h.size]; exact live)
  rw [entry_getElem?] at slot
  have held : b.entry s = recordOf positions s.toNat := Option.some.inj slot
  have inside : s.toNat - 1 < positions.length := by omega
  refine ⟨positions[s.toNat - 1], List.getElem?_eq_getElem inside, ?_⟩
  simp [RetransmissionBuffer.filePositionFor, inRange, held, recordOf, inside]

theorem found_was_pushed {N : Nat} {b : RetransmissionBuffer} {positions : List Nat}
    (h : Pushed N b positions) (small : positions.length < 2 ^ 64) {s : SequenceNumber} {p : Nat}
    (positive : 1 ≤ s.toNat) (found : b.filePositionFor s = some p) :
    s.toNat ≤ positions.length ∧ positions[s.toNat - 1]? = some p := by
  simp only [RetransmissionBuffer.filePositionFor] at found
  split at found; · cases found
  split at found; · cases found
  rename_i matching
  have matching : (b.entry s).sequenceNumber = s := not_not.mp matching
  rcases h.provenance _ _ (entry_getElem? b s) with ⟨unwritten, _⟩ | ⟨k, low, high, _, stored⟩
  · rw [unwritten] at matching
    simp [← matching, blank] at positive
  · have number : (UInt64.ofNat k).toNat = k :=
      UInt64.toNat_ofNat_of_lt' (Nat.lt_of_le_of_lt high small)
    rw [stored] at matching found
    have same : k = s.toNat := by rw [← matching]; exact number.symm
    subst same
    have inside : s.toNat - 1 < positions.length := by omega
    refine ⟨high, ?_⟩
    simpa [recordOf, inside] using found

theorem newest_messages_retained (N : UInt64) (b : RetransmissionBuffer)
    (built : construct N = .ok b) (positions : List Nat)
    (bound : positions.length + N.toNat < 2 ^ 64) (s : SequenceNumber)
    (recent : max 1 (positions.length + 1 - N.toNat) ≤ s.toNat)
    (pushed : s.toNat ≤ positions.length) :
    ∃ p, positions[s.toNat - 1]? = some p ∧ (b.pushAll positions).filePositionFor s = some p :=
  live_found (pushAll_pushed built (by omega)) bound (by omega) pushed (by omega)

theorem newest_messages_retained_after_wrap : ∃ b, construct 3 = .ok b ∧
    ∃ p, [0, 20, 40, 60, 80][(3 : SequenceNumber).toNat - 1]? = some p ∧
      (b.pushAll [0, 20, 40, 60, 80]).filePositionFor 3 = some p :=
  ⟨_, rfl, newest_messages_retained 3 _ rfl [0, 20, 40, 60, 80] (by decide) 3 (by decide)
    (by decide)⟩

/-- Until the first number that is a multiple of the size, slot 0 is as it was made. -/
theorem first_slot_blank {N : Nat} {b : RetransmissionBuffer} {positions : List Nat}
    (h : Pushed N b positions) (fresh : positions.length < N) : b.entry 0 = blank := by
  rcases h.provenance _ _ (entry_getElem? b 0) with ⟨unwritten, _⟩ | ⟨k, low, high, slot, _⟩
  · exact unwritten
  · rw [h.size, Nat.mod_eq_of_lt (by omega : k < N)] at slot
    simp at slot
    omega

theorem zero_found {N : Nat} {b : RetransmissionBuffer} {positions : List Nat}
    (h : Pushed N b positions) (bound : positions.length + N < 2 ^ 64)
    (pushed : 1 ≤ positions.length) (fresh : positions.length < N) :
    b.filePositionFor 0 = some 0 := by
  have inRange := live_in_range (s := 0) h bound (Nat.zero_le _) (List.length_pos_iff.mp pushed)
    (by simpa using fresh)
  have held := first_slot_blank h fresh
  simp [RetransmissionBuffer.filePositionFor, inRange, held, blank]

/-- Found are the newest numbers, and 0 as long as its slot was never written. -/
theorem found_iff {N : Nat} {b : RetransmissionBuffer} {positions : List Nat}
    (h : Pushed N b positions) (bound : positions.length + N < 2 ^ 64) (s : SequenceNumber) :
    (b.filePositionFor s).isSome = true ↔
      (max 1 (positions.length + 1 - N) ≤ s.toNat ∧ s.toNat ≤ positions.length) ∨
        (s = 0 ∧ 1 ≤ positions.length ∧ positions.length < N) := by
  have zero : s = 0 ↔ s.toNat = 0 := UInt64.toNat_inj.symm
  constructor
  · intro found
    have inRange : ¬ b.outOfRange s = true := by
      intro out
      unfold RetransmissionBuffer.filePositionFor at found
      rw [if_pos out] at found
      cases found
    by_cases future : positions.length < s.toNat
    · rw [outOfRange_iff h (by omega)] at inRange
      omega
    · have sum : (s.toNat + N) % 2 ^ 64 = s.toNat + N := Nat.mod_eq_of_lt (by omega)
      rw [outOfRange_iff h (by omega), sum] at inRange
      rw [zero]
      omega
  · rintro (⟨recent, pushed⟩ | ⟨rfl, pushed, fresh⟩)
    · obtain ⟨p, _, found⟩ := live_found h bound (s := s) (by omega) pushed (by omega)
      rw [found]
      rfl
    · rw [zero_found h bound pushed fresh]
      rfl

/-- Numbers outside the window are rejected, but for 0: value-initialised slots carry it,
    and slot 0 stays one of them until N messages are pushed. -/
theorem unheld_rejected_iff (N : UInt64) (b : RetransmissionBuffer) (built : construct N = .ok b)
    (positions : List Nat) (bound : positions.length + N.toNat < 2 ^ 64) (s : SequenceNumber)
    (outside : ¬ (max 1 (positions.length + 1 - N.toNat) ≤ s.toNat ∧
      s.toNat ≤ positions.length)) :
    (b.pushAll positions).filePositionFor s = none ↔
      ¬ (s = 0 ∧ 1 ≤ positions.length ∧ positions.length < N.toNat) := by
  have found := found_iff (pushAll_pushed built (by omega)) bound s
  rw [or_iff_right outside] at found
  rw [← found, Bool.not_eq_true, Option.isSome_eq_false_iff, Option.isNone_iff_eq_none]

theorem evicted_number_rejected : ∃ b, construct 3 = .ok b ∧
    (b.pushAll [0, 20, 40, 60, 80]).filePositionFor 1 = none :=
  ⟨_, rfl, (unheld_rejected_iff 3 _ rfl [0, 20, 40, 60, 80] (by decide) 1 (by decide)).mpr
    (by decide)⟩

/-- Number 0 is answered with the position in a slot that was never written. -/
theorem number_zero_found : ∃ b, construct 4 = .ok b ∧
    ¬ (max 1 ([20].length + 1 - (4 : UInt64).toNat) ≤ (0 : SequenceNumber).toNat ∧
      (0 : SequenceNumber).toNat ≤ [20].length) ∧
    (b.pushAll [20]).filePositionFor 0 ≠ none :=
  ⟨_, rfl, by decide, by decide⟩

/-- Buffers that got the same numbers, with positions that lie `d` apart. Slots that were
    never written are the same in both. -/
structure Apart (d : Nat) (b b' : RetransmissionBuffer) : Prop where
  size : b.buffer.length = b'.buffer.length
  writeSeq : b.writeSeq = b'.writeSeq
  slots : ∀ (i : Nat) (r r' : MessageRecord), b.buffer[i]? = some r → b'.buffer[i]? = some r' →
    r.sequenceNumber = r'.sequenceNumber ∧
      (r'.sequenceNumber ≠ 0 → r.filePosition = d + r'.filePosition)

variable {d : Nat} {b b' : RetransmissionBuffer}

theorem construct_apart {N : UInt64} (d : Nat) (built : construct N = .ok b) : Apart d b b where
  size := rfl
  writeSeq := rfl
  slots := by
    have empty := (construct_pushed built).provenance
    intro i r r' at_i at_i'
    cases Option.some.inj (at_i.symm.trans at_i')
    rcases empty i r at_i with ⟨rfl, _⟩ | ⟨k, low, high, _⟩
    · exact ⟨rfl, fun numbered => absurd rfl numbered⟩
    · exact absurd high (by simp only [List.length_nil]; omega)

theorem push_apart (apart : Apart d b b') (s : SequenceNumber) (p : Nat) :
    Apart d (b.push ⟨s, d + p⟩) (b'.push ⟨s, p⟩) := by
  have index : b.indexFor s = b'.indexFor s := by
    rw [indexFor_eq, indexFor_eq, apart.size]
  refine ⟨?_, rfl, ?_⟩
  · simp only [RetransmissionBuffer.push, RetransmissionBuffer.publish, RetransmissionBuffer.store,
      List.length_set, apart.size]
  · intro i r r' at_i at_i'
    simp only [RetransmissionBuffer.push, RetransmissionBuffer.publish, RetransmissionBuffer.store,
      index] at at_i at_i'
    by_cases here : b'.indexFor s = i
    · subst here
      have inside := indexFor_lt b' s
      rw [List.getElem?_set_self (by rw [apart.size]; exact inside)] at at_i
      rw [List.getElem?_set_self inside] at at_i'
      cases at_i
      cases at_i'
      exact ⟨rfl, fun _ => rfl⟩
    · rw [List.getElem?_set_ne here] at at_i at_i'
      exact apart.slots i r r' at_i at_i'

theorem found_apart (apart : Apart d b b') {s : SequenceNumber} (positive : s ≠ 0) :
    b.filePositionFor s = (b'.filePositionFor s).map (d + ·) := by
  have size : b.size = b'.size := by
    unfold RetransmissionBuffer.size
    rw [apart.size]
  have range : b.outOfRange s = b'.outOfRange s := by
    unfold RetransmissionBuffer.outOfRange
    rw [size, apart.writeSeq]
  have held := entry_getElem? b s
  rw [apart.size] at held
  obtain ⟨number, position⟩ := apart.slots _ _ _ held (entry_getElem? b' s)
  unfold RetransmissionBuffer.filePositionFor
  rw [range, number]
  by_cases out : b'.outOfRange s = true
  · rw [if_pos out, if_pos out]
    rfl
  · rw [if_neg out, if_neg out]
    by_cases other : (b'.entry s).sequenceNumber ≠ s
    · rw [if_pos other, if_pos other]
      rfl
    · have same : (b'.entry s).sequenceNumber = s := not_not.mp other
      have numbered : (b'.entry s).sequenceNumber ≠ 0 := by
        rw [same]
        exact positive
      rw [if_neg other, if_neg other, position numbered]
      rfl

end MoldBuffer
