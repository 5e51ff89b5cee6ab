import MoldReplay.RetransmissionBuffer
import MoldReplay.ScheduledRuns

/- One thread pushes 1, 2, 3, ... while any number of others look numbers up. Every
   access to shared memory is a step of its own; the steps interleave in any order. -/
namespace MoldRacing
open MoldWire MoldBuffer RingWindow ScheduledRuns

inductive Lookup where
  | idle
  | inRange (s : SequenceNumber)
  | matched (s : SequenceNumber)
  | done (s : SequenceNumber) (result : Option Nat)
  deriving DecidableEq, Repr

/-- `next` is the number being pushed; `stored` says its record is in its slot while
    write_seq_ still holds the number before. -/
structure Shared where
  buffer : RetransmissionBuffer
  next : Nat
  stored : Bool
  readers : Nat → Lookup

inductive Action where
  | storeRecord
  | publish
  | start (r : Nat) (s : SequenceNumber)
  | compare (r : Nat)
  | readPosition (r : Nat)

def initial (b : RetransmissionBuffer) : Shared := ⟨b, 1, false, fun _ => .idle⟩

def Shared.setReader (st : Shared) (r : Nat) (l : Lookup) : Shared :=
  { st with readers := fun k => if k = r then l else st.readers k }

/-- `position n` is the file position pushed with number n. An action that is not
    enabled changes nothing. -/
def step (position : Nat → Nat) (st : Shared) : Action → Shared
  | .storeRecord =>
    if st.stored || 2 ^ 64 ≤ st.next then st
    else { st with
      buffer := st.buffer.store ⟨UInt64.ofNat st.next, position st.next⟩, stored := true }
  | .publish =>
    if st.stored then
      { st with
        buffer := st.buffer.publish (UInt64.ofNat st.next), next := st.next + 1, stored := false }
    else st
  | .start r s =>
    match st.readers r with
    | .inRange _ => st
    | .matched _ => st
    | _ => st.setReader r (if st.buffer.outOfRange s then .done s none else .inRange s)
  | .compare r =>
    match st.readers r with
    | .inRange s =>
      st.setReader r
        (if (st.buffer.entry s).sequenceNumber ≠ s then .done s none else .matched s)
    | _ => st
  | .readPosition r =>
    match st.readers r with
    | .matched s => st.setReader r (.done s (some (st.buffer.entry s).filePosition))
    | _ => st

def Shared.written (st : Shared) : Nat := if st.stored then st.next else st.next - 1

/-- Every completed lookup has nullopt or the position pushed with its number. -/
def Exact (position : Nat → Nat) (st : Shared) : Prop :=
  ∀ r s p, st.readers r = .done s (some p) →
    1 ≤ s.toNat ∧ s.toNat ≤ st.written ∧ p = position s.toNat

/-- The writer does not store another position into a slot between a lookup's comparison
    and its second read, and 0 is not compared with a slot that no push has written. -/
def Undisturbed (position : Nat → Nat) (st : Shared) : Action → Prop
  | .storeRecord => st.stored = false → st.next < 2 ^ 64 →
      ∀ r s, st.readers r = .matched s →
        st.buffer.indexFor s = st.buffer.indexFor (UInt64.ofNat st.next) →
          position st.next = position s.toNat
  | .compare r => st.readers r = .inRange 0 → st.buffer.entry 0 ≠ blank
  | _ => True

def numbered (position : Nat → Nat) (k : Nat) : MessageRecord := ⟨UInt64.ofNat k, position k⟩

structure Invariant (position : Nat → Nat) (st : Shared) : Prop where
  next_pos : 1 ≤ st.next
  next_le : st.next ≤ 2 ^ 64
  half : st.stored = true → st.next < 2 ^ 64
  provenance : Provenance st.buffer.buffer st.written (numbered position) blank
  matched : ∀ r s, st.readers r = .matched s →
    1 ≤ s.toNat ∧ s.toNat ≤ st.written ∧ (st.buffer.entry s).filePosition = position s.toNat
  exact : Exact position st

theorem written_lt {position : Nat → Nat} {st : Shared} (inv : Invariant position st) :
    st.written < 2 ^ 64 := by
  have := inv.next_pos
  have := inv.next_le
  have := inv.half
  simp only [Shared.written]
  split
  · rename_i half; exact inv.half half
  · omega

theorem matching_entry {position : Nat → Nat} {st : Shared} (inv : Invariant position st)
    {s : SequenceNumber} (number : (st.buffer.entry s).sequenceNumber = s)
    (real : s = 0 → st.buffer.entry 0 ≠ blank) :
    1 ≤ s.toNat ∧ s.toNat ≤ st.written ∧
      (st.buffer.entry s).filePosition = position s.toNat := by
  have bound := written_lt inv
  rcases inv.provenance _ _ (entry_getElem? st.buffer s) with
    ⟨unwritten, _⟩ | ⟨k, low, high, _, held⟩
  · have zero : s = 0 := by rw [← number, unwritten]; rfl
    subst zero
    exact absurd unwritten (real rfl)
  · have same : k = s.toNat := by
      rw [← number, held]
      exact (UInt64.toNat_ofNat_of_lt' (Nat.lt_of_le_of_lt high bound)).symm
    subst same
    exact ⟨low, high, by rw [held]; rfl⟩

theorem initial_invariant {N : UInt64} {b : RetransmissionBuffer} (built : construct N = .ok b)
    (position : Nat → Nat) : Invariant position (initial b) := by
  have fresh := (construct_pushed built).provenance
  have same : ∀ k, 1 ≤ k → k ≤ 0 → recordOf [] k = numbered position k := by
    intro k low high
    omega
  refine ⟨Nat.le_refl 1, by simp [initial], by simp [initial], ?_, by simp [initial],
    by simp [Exact, initial]⟩
  exact provenance_congr same fresh

theorem store_buffer (b : RetransmissionBuffer) {k : Nat} (small : k < 2 ^ 64) (p : Nat) :
    (b.store ⟨UInt64.ofNat k, p⟩).buffer = RingWindow.store b.buffer k ⟨UInt64.ofNat k, p⟩ :=
  push_buffer b small p

theorem store_size (b : RetransmissionBuffer) (record : MessageRecord) :
    (b.store record).buffer.length = b.buffer.length := by
  simp [RetransmissionBuffer.store]

theorem store_entry (b : RetransmissionBuffer) (record : MessageRecord) (s : SequenceNumber) :
    (b.store record).entry s =
      if b.indexFor s = b.indexFor record.sequenceNumber then record else b.entry s := by
  have slot := entry_getElem? (b.store record) s
  rw [store_size, ← indexFor_eq b s] at slot
  split
  · rename_i hit
    rw [hit] at slot
    simpa [RetransmissionBuffer.store, indexFor_lt] using slot.symm
  · rename_i apart
    simp only [RetransmissionBuffer.store, List.getElem?_set_ne (Ne.symm apart)] at slot
    rw [indexFor_eq, entry_getElem?] at slot
    exact (Option.some.inj slot).symm

theorem storeRecord_invariant {position : Nat → Nat} {st : Shared}
    (inv : Invariant position st) (quiet : Undisturbed position st .storeRecord) :
    Invariant position (step position st .storeRecord) := by
  simp only [step]
  split
  · exact inv
  · rename_i enabled
    simp only [Bool.or_eq_true, decide_eq_true_eq, not_or, Bool.not_eq_true, Nat.not_le] at enabled
    obtain ⟨idle, small⟩ := enabled
    have positive := inv.next_pos
    have before : st.written + 1 = st.next := by simp [Shared.written, idle]; omega
    refine ⟨inv.next_pos, inv.next_le, fun _ => small, ?_, ?_, ?_⟩
    · have stored := provenance_store st.buffer.nonempty inv.provenance
      rw [before] at stored
      simp only [Shared.written, ↓reduceIte]
      rw [store_buffer st.buffer small]
      exact stored
    · intro r s held
      obtain ⟨low, high, entry⟩ := inv.matched r s held
      refine ⟨low, by simp only [Shared.written, ↓reduceIte]; omega, ?_⟩
      rw [store_entry]
      split
      · rename_i hit
        exact quiet idle small r s held hit
      · exact entry
    · intro r s p finished
      obtain ⟨low, high, same⟩ := inv.exact r s p finished
      exact ⟨low, by simp only [Shared.written, ↓reduceIte]; omega, same⟩

theorem publish_invariant {position : Nat → Nat} {st : Shared} (inv : Invariant position st) :
    Invariant position (step position st .publish) := by
  simp only [step]
  split
  · rename_i half
    have small := inv.half half
    have count : st.written = st.next := by simp [Shared.written, half]
    have same : ∀ b r, Shared.written ⟨b, st.next + 1, false, r⟩ = st.written := by
      intro b r
      rw [count]
      simp [Shared.written]
    refine ⟨by simp, by simp only; omega, by simp, ?_, ?_, ?_⟩
    · rw [same]; exact inv.provenance
    · intro r s held
      rw [same]; exact inv.matched r s held
    · intro r s p finished
      rw [same]; exact inv.exact r s p finished
  · exact inv

theorem setReader_invariant {position : Nat → Nat} {st : Shared} (inv : Invariant position st)
    (r : Nat) (l : Lookup)
    (matched : ∀ s, l = .matched s → 1 ≤ s.toNat ∧ s.toNat ≤ st.written ∧
      (st.buffer.entry s).filePosition = position s.toNat)
    (finished : ∀ s p, l = .done s (some p) → 1 ≤ s.toNat ∧ s.toNat ≤ st.written ∧
      p = position s.toNat) : Invariant position (st.setReader r l) := by
  refine ⟨inv.next_pos, inv.next_le, inv.half, inv.provenance, ?_, ?_⟩
  · intro k s held
    simp only [Shared.setReader] at held
    split at held
    · exact matched s held
    · exact inv.matched k s held
  · intro k s p held
    simp only [Shared.setReader] at held
    split at held
    · exact finished s p held
    · exact inv.exact k s p held

theorem start_invariant {position : Nat → Nat} {st : Shared} (inv : Invariant position st)
    (r : Nat) (s : SequenceNumber) : Invariant position (step position st (.start r s)) := by
  simp only [step]
  split
  · exact inv
  · exact inv
  · apply setReader_invariant inv <;> intros <;> split at * <;> simp_all

theorem compare_invariant {position : Nat → Nat} {st : Shared} (inv : Invariant position st)
    (r : Nat) (quiet : Undisturbed position st (.compare r)) :
    Invariant position (step position st (.compare r)) := by
  simp only [step]
  split
  · rename_i s held
    apply setReader_invariant inv
    · intro s' result
      split at result
      · cases result
      · rename_i number
        cases result
        exact matching_entry inv (not_not.mp number) (fun zero => quiet (zero ▸ held))
    · intro s' p result
      split at result <;> cases result
  · exact inv

theorem readPosition_invariant {position : Nat → Nat} {st : Shared}
    (inv : Invariant position st) (r : Nat) :
    Invariant position (step position st (.readPosition r)) := by
  simp only [step]
  split
  · rename_i s held
    apply setReader_invariant inv
    · intro s' result
      cases result
    · intro s' p result
      obtain ⟨low, high, entry⟩ := inv.matched r s held
      cases result
      exact ⟨low, high, entry⟩
  · exact inv

theorem step_invariant {position : Nat → Nat} (st : Shared) (a : Action)
    (inv : Invariant position st) (quiet : Undisturbed position st a) :
    Invariant position (step position st a) := by
  cases a with
  | storeRecord => exact storeRecord_invariant inv quiet
  | publish => exact publish_invariant inv
  | start r s => exact start_invariant inv r s
  | compare r => exact compare_invariant inv r quiet
  | readPosition r => exact readPosition_invariant inv r

/-- Lookups are exact in every interleaving that leaves compared slots alone. -/
theorem undisturbed_lookups_exact (N : UInt64) (b : RetransmissionBuffer)
    (built : construct N = .ok b) (position : Nat → Nat) (actions : List Action)
    (quiet : Throughout (step position) (Undisturbed position) (initial b) actions) :
    Exact position (run (step position) (initial b) actions) :=
  (run_invariant step_invariant (initial_invariant built position) quiet).exact

theorem undisturbed_lookup_beside_writer : ∃ b, construct 2 = .ok b ∧
    Exact (fun n => 20 * n) (run (step fun n => 20 * n) (initial b)
      [.storeRecord, .publish, .start 0 1, .storeRecord, .compare 0, .publish,
        .readPosition 0]) := by
  refine ⟨_, rfl, undisturbed_lookups_exact 2 _ rfl _ _ ⟨?_, trivial, trivial, ?_, ?_, trivial,
    trivial, trivial⟩⟩
  · intro _ _ r s held
    cases held
  · intro _ _ r s held
    change (if r = 0 then Lookup.inRange 1 else Lookup.idle) = .matched s at held
    split at held <;> cases held
  · intro held
    change Lookup.inRange 1 = .inRange 0 at held
    exact absurd (Lookup.inRange.inj held) (by decide)

theorem lapped_lookup_returns_newer_position : ∃ b, construct 1 = .ok b ∧
    ¬ Exact (fun n => 20 * n) (run (step fun n => 20 * n) (initial b)
      [.storeRecord, .publish, .start 0 1, .compare 0, .storeRecord, .readPosition 0]) := by
  refine ⟨_, rfl, fun exact => ?_⟩
  have answer := exact 0 1 40 (by decide)
  exact absurd answer.2.2 (by decide)

theorem lapped_lookup_wrong {position : Nat → Nat} {st : Shared} {r : Nat} {s : SequenceNumber}
    (held : st.readers r = .matched s) (idle : st.stored = false) (small : st.next < 2 ^ 64)
    (hit : st.buffer.indexFor s = st.buffer.indexFor (UInt64.ofNat st.next))
    (differ : position st.next ≠ position s.toNat) :
    ¬ Exact position (run (step position) st [.storeRecord, .readPosition r]) := by
  have overwritten : (st.buffer.store ⟨UInt64.ofNat st.next, position st.next⟩).entry s =
      ⟨UInt64.ofNat st.next, position st.next⟩ := by
    rw [store_entry, if_pos hit]
  have stored : step position st .storeRecord =
      { st with buffer := st.buffer.store ⟨UInt64.ofNat st.next, position st.next⟩,
                stored := true } := by
    have enabled : ¬ (st.stored || 2 ^ 64 ≤ st.next) = true := by
      rw [idle]
      simpa using small
    exact if_neg enabled
  have finished : (run (step position) st [.storeRecord, .readPosition r]).readers r =
      .done s (some (position st.next)) := by
    change (step position (step position st .storeRecord) (.readPosition r)).readers r = _
    rw [stored]
    simp only [step, held, Shared.setReader, overwritten, ↓reduceIte]
  intro exact
  exact differ (exact r s _ finished).2.2

end MoldRacing
