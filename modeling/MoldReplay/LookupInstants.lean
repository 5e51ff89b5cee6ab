import MoldReplay.RacingLookups

/- When a lookup that races with the writer takes effect. Its steps may lie far apart, but
   it answers as file_position_for would have answered at once, at one of them. -/
namespace MoldLookupInstants
open MoldWire MoldBuffer MoldRacing RingWindow ScheduledRuns

def Lookup.outside : Lookup → Bool
  | .idle | .done _ _ => true
  | _ => false

/-- The step of the reader that settles the answer: file_position_for finds the number at
    this moment, or does not. -/
def Settles (position : Nat → Nat) (r : Nat) (s : SequenceNumber) (result : Option Nat)
    (st : Shared) (a : Action) : Prop :=
  st.buffer.filePositionFor s = result.map (fun _ => position s.toNat) ∧
    (a = .start r s ∧ Lookup.outside (st.readers r) = true ∨
      a = .compare r ∧ st.readers r = .inRange s)

def Settled (r : Nat) (s : SequenceNumber) (result : Option Nat) (st : Shared) : Prop :=
  st.readers r = .done s result ∨ result.isSome = true ∧ st.readers r = .matched s

def Shared.Holds (st : Shared) (s : SequenceNumber) : Prop :=
  s.toNat < st.next ∧ st.written < s.toNat + st.buffer.buffer.length

/-- The position pushed with this number, or with one that lapped it. -/
def Shared.Lapped (position : Nat → Nat) (st : Shared) (s : SequenceNumber) (p : Nat) : Prop :=
  ∃ laps, s.toNat + laps * st.buffer.buffer.length ≤ st.written ∧
    p = position (s.toNat + laps * st.buffer.buffer.length)

structure Recorded (N : Nat) (position : Nat → Nat) (st : Shared) : Prop where
  size : st.buffer.buffer.length = N
  positive : 1 ≤ st.next
  bounded : st.next ≤ 2 ^ 64
  half : st.stored = true → st.next < 2 ^ 64
  writeSeq : st.buffer.writeSeq.toNat = st.next - 1
  window : Window st.buffer.buffer st.written (numbered position)
  inRange : ∀ r s, st.readers r = .inRange s → s.toNat < st.next
  matched : ∀ r s, st.readers r = .matched s → s.toNat < st.next
  answered : ∀ r s p, s ≠ 0 → st.readers r = .done s (some p) → Shared.Lapped position st s p

variable {N : Nat} {position : Nat → Nat} {st : Shared} {s : SequenceNumber} {r : Nat}
  {result : Option Nat}

theorem real_positive (real : s ≠ 0) : 1 ≤ s.toNat := by
  have nonzero : s.toNat ≠ 0 := fun zero => real (UInt64.toNat_inj.mp zero)
  omega

theorem written_below (recorded : Recorded N position st) :
    st.next ≤ st.written + 1 ∧ st.written < 2 ^ 64 := by
  have positive := recorded.positive
  have bounded := recorded.bounded
  unfold Shared.written
  split
  · exact ⟨Nat.le_succ _, recorded.half ‹_›⟩
  · omega

theorem entry_newest (recorded : Recorded N position st) (real : s ≠ 0)
    (pushed : s.toNat < st.next) : ∃ laps,
      s.toNat + laps * st.buffer.buffer.length ≤ st.written ∧
      st.written < s.toNat + laps * st.buffer.buffer.length + st.buffer.buffer.length ∧
      st.buffer.entry s = numbered position (s.toNat + laps * st.buffer.buffer.length) := by
  have upper := (written_below recorded).1
  obtain ⟨laps, below, near, held⟩ := window_newest st.buffer.nonempty recorded.window
    (real_positive real) (by omega : s.toNat ≤ st.written)
  rw [entry_getElem?] at held
  exact ⟨laps, below, near, Option.some.inj held⟩

theorem held_entry (recorded : Recorded N position st) (real : s ≠ 0) (there : Shared.Holds st s) :
    st.buffer.entry s = numbered position s.toNat := by
  have upper := (written_below recorded).1
  have pushed := there.1
  have held := recorded.window s.toNat (real_positive real) (by omega) there.2
  rw [entry_getElem?] at held
  exact Option.some.inj held

theorem matching_iff (recorded : Recorded N position st) (real : s ≠ 0)
    (pushed : s.toNat < st.next) :
    (st.buffer.entry s).sequenceNumber = s ↔ Shared.Holds st s := by
  constructor
  · intro same
    obtain ⟨laps, below, near, held⟩ := entry_newest recorded real pushed
    have small := (written_below recorded).2
    have number : (st.buffer.entry s).sequenceNumber.toNat =
        s.toNat + laps * st.buffer.buffer.length := by
      rw [held]
      exact UInt64.toNat_ofNat_of_lt' (Nat.lt_of_le_of_lt below small)
    rw [same] at number
    have none_ : laps * st.buffer.buffer.length = 0 := by omega
    rw [none_] at near
    exact ⟨pushed, near⟩
  · intro there
    rw [held_entry recorded real there]
    simp [numbered]

theorem outOfRange_lost (recorded : Recorded N position st) (bound : st.next + N ≤ 2 ^ 64)
    (real : s ≠ 0) (out : st.buffer.outOfRange s = true) : ¬ Shared.Holds st s := by
  rintro ⟨pushed, there⟩
  have positive := real_positive real
  have upper := (written_below recorded).1
  have newest := recorded.writeSeq
  have size := recorded.size
  have sum : (s + st.buffer.size).toNat = s.toNat + N := by
    rw [UInt64.toNat_add, size_toNat, size, Nat.mod_eq_of_lt (by omega)]
  have some_ : st.buffer.writeSeq.toNat ≠ 0 := by omega
  simp only [RetransmissionBuffer.outOfRange, Bool.or_eq_true, decide_eq_true_eq, beq_iff_eq,
    UInt64.le_iff_toNat_le, UInt64.lt_iff_toNat_lt, gt_iff_lt, sum] at out
  rw [← UInt64.toNat_inj] at out
  rcases out with (overwritten | unsent) | empty
  · omega
  · omega
  · exact some_ empty

theorem inRange_pushed (recorded : Recorded N position st)
    (inside : st.buffer.outOfRange s = false) : s.toNat < st.next := by
  have newest := recorded.writeSeq
  have positive := recorded.positive
  simp only [RetransmissionBuffer.outOfRange, Bool.or_eq_false_iff, decide_eq_false_iff_not,
    gt_iff_lt, UInt64.lt_iff_toNat_lt, Nat.not_lt] at inside
  omega

theorem found_iff_holds (recorded : Recorded N position st) (bound : st.next + N ≤ 2 ^ 64)
    (real : s ≠ 0) :
    (Shared.Holds st s → st.buffer.filePositionFor s = some (position s.toNat)) ∧
      (¬ Shared.Holds st s → st.buffer.filePositionFor s = none) := by
  unfold RetransmissionBuffer.filePositionFor
  constructor
  · intro there
    have inside : ¬ st.buffer.outOfRange s = true :=
      fun out => outOfRange_lost recorded bound real out there
    have matching := (matching_iff recorded real there.1).mpr there
    rw [if_neg inside, if_neg (not_not.mpr matching), held_entry recorded real there]
    rfl
  · intro lost
    split
    · rfl
    · rename_i inside
      have pushed := inRange_pushed recorded (by simpa using inside)
      rw [if_pos fun matching => lost ((matching_iff recorded real pushed).mp matching)]

theorem initial_recorded {size : UInt64} {b : RetransmissionBuffer}
    (built : construct size = .ok b) (position : Nat → Nat) :
    Recorded size.toNat position (initial b) where
  size := (construct_size built).1
  positive := Nat.le_refl 1
  bounded := by simp [initial]
  half := by simp [initial]
  writeSeq := by
    rw [initial, (construct_pushed built).writeSeq]
    rfl
  window := window_initial _ _
  inRange := by simp [initial]
  matched := by simp [initial]
  answered := by simp [initial]

theorem lapped_later {st' : Shared} {p : Nat} (lapped : Shared.Lapped position st s p)
    (size : st'.buffer.buffer.length = st.buffer.buffer.length)
    (more : st.written ≤ st'.written) : Shared.Lapped position st' s p := by
  obtain ⟨laps, below, same⟩ := lapped
  exact ⟨laps, by rw [size]; omega, by rw [size]; exact same⟩

theorem storeRecord_recorded (recorded : Recorded N position st) :
    Recorded N position (step position st .storeRecord) := by
  simp only [step]
  split
  · exact recorded
  · rename_i enabled
    simp only [Bool.or_eq_true, decide_eq_true_eq, not_or, Bool.not_eq_true, Nat.not_le] at enabled
    obtain ⟨idle, small⟩ := enabled
    have positive := recorded.positive
    have before : st.written + 1 = st.next := by simp [Shared.written, idle]; omega
    refine {
      size := (store_size _ _).trans recorded.size
      positive := recorded.positive
      bounded := recorded.bounded
      half := fun _ => small
      writeSeq := recorded.writeSeq
      window := ?window
      inRange := recorded.inRange
      matched := recorded.matched
      answered := fun r s p real done => lapped_later (recorded.answered r s p real done)
        (store_size _ _) ?more }
    case window =>
      have stored := window_store st.buffer.nonempty recorded.window
      rw [before] at stored
      simp only [Shared.written, ↓reduceIte]
      rw [store_buffer st.buffer small]
      exact stored
    case more =>
      have grown : st.written ≤ st.next := by omega
      exact grown

theorem publish_recorded (recorded : Recorded N position st) :
    Recorded N position (step position st .publish) := by
  simp only [step]
  split
  · rename_i half
    have small := recorded.half half
    have same : ∀ b r, Shared.written ⟨b, st.next + 1, false, r⟩ = st.written := by
      intro b r
      simp [Shared.written, half]
    refine {
      size := recorded.size
      positive := Nat.le_add_left 1 _
      bounded := small
      half := by simp
      writeSeq := UInt64.toNat_ofNat_of_lt' small
      window := ?window
      inRange := fun r s held => Nat.lt_succ_of_lt (recorded.inRange r s held)
      matched := fun r s held => Nat.lt_succ_of_lt (recorded.matched r s held)
      answered := fun r s p real done => lapped_later (recorded.answered r s p real done) rfl
        (Nat.le_of_eq (same _ _).symm) }
    rw [same]
    exact recorded.window
  · exact recorded

theorem setReader_recorded (recorded : Recorded N position st) (r : Nat) (l : Lookup)
    (inRange : ∀ s, l = .inRange s → s.toNat < st.next)
    (matched : ∀ s, l = .matched s → s.toNat < st.next)
    (answered : ∀ s p, s ≠ 0 → l = .done s (some p) → Shared.Lapped position st s p) :
    Recorded N position (st.setReader r l) := by
  refine { recorded with
    inRange := fun k s held => ?_
    matched := fun k s held => ?_
    answered := fun k s p real held => ?_ }
  all_goals
    simp only [Shared.setReader] at held
    split at held
  · exact inRange s held
  · exact recorded.inRange k s held
  · exact matched s held
  · exact recorded.matched k s held
  · exact answered s p real held
  · exact recorded.answered k s p real held

theorem step_recorded (st : Shared) (a : Action) (recorded : Recorded N position st) :
    Recorded N position (step position st a) := by
  cases a with
  | storeRecord => exact storeRecord_recorded recorded
  | publish => exact publish_recorded recorded
  | start r s =>
    simp only [step]
    split
    · exact recorded
    · exact recorded
    · cases out : st.buffer.outOfRange s with
      | true => exact setReader_recorded recorded r _ (by simp) (by simp) (by simp)
      | false =>
        refine setReader_recorded recorded r _ (fun s' held => ?_) (by simp) (by simp)
        cases held
        exact inRange_pushed recorded out
  | compare r =>
    simp only [step]
    split
    · rename_i s held
      have pushed := recorded.inRange r s held
      split
      · exact setReader_recorded recorded r _ (by simp) (by simp) (by simp)
      · refine setReader_recorded recorded r _ (by simp) (fun s' held => ?_) (by simp)
        cases held
        exact pushed
    · exact recorded
  | readPosition r =>
    simp only [step]
    split
    · rename_i s held
      refine setReader_recorded recorded r _ (by simp) (by simp) fun s' p real done => ?_
      cases done
      obtain ⟨laps, below, _, entry⟩ := entry_newest recorded real (recorded.matched r s held)
      exact ⟨laps, below, by rw [entry]; rfl⟩
    · exact recorded

theorem next_grows (st : Shared) (a : Action) : st.next ≤ (step position st a).next := by
  cases a <;> simp only [step] <;> split <;> first | exact Nat.le_refl _ | exact Nat.le_succ _

theorem settled_setReader {k : Nat} {l : Lookup} (settled : Settled r s result (st.setReader k l)) :
    Settled r s result st ∨
      k = r ∧ (l = .done s result ∨ result.isSome = true ∧ l = .matched s) := by
  by_cases own : k = r
  · subst own
    simp only [Settled, Shared.setReader, if_true] at settled
    exact Or.inr ⟨rfl, settled⟩
  · simp only [Settled, Shared.setReader, if_neg (Ne.symm own)] at settled
    exact Or.inl settled

theorem start_cause {k : Nat} {s' : SequenceNumber}
    (settled : Settled r s result (step position st (.start k s'))) :
    Settled r s result st ∨ Settles position r s result st (.start k s') := by
  have outside : Lookup.outside (st.readers k) = true → Settled r s result
      (st.setReader k (if st.buffer.outOfRange s' then .done s' none else .inRange s')) →
      Settled r s result st ∨ Settles position r s result st (.start k s') := by
    intro outside settled
    refine (settled_setReader settled).imp_right ?_
    rintro ⟨rfl, answer⟩
    cases out : st.buffer.outOfRange s' with
    | false => simp [out] at answer
    | true =>
      simp only [out, if_true, Lookup.done.injEq, reduceCtorEq, and_false, or_false] at answer
      obtain ⟨rfl, rfl⟩ := answer
      refine ⟨?_, Or.inl ⟨rfl, outside⟩⟩
      rw [RetransmissionBuffer.filePositionFor, if_pos out]
      rfl
  simp only [step] at settled
  cases place : st.readers k with
  | inRange s'' =>
    rw [place] at settled
    exact Or.inl settled
  | matched s'' =>
    rw [place] at settled
    exact Or.inl settled
  | idle =>
    rw [place] at settled
    exact outside (by rw [place]; rfl) settled
  | done s'' result' =>
    rw [place] at settled
    exact outside (by rw [place]; rfl) settled

theorem compare_cause (recorded : Recorded N position st) (real : s ≠ 0)
    (bound : st.next + N ≤ 2 ^ 64) {k : Nat}
    (settled : Settled r s result (step position st (.compare k))) :
    Settled r s result st ∨ Settles position r s result st (.compare k) := by
  simp only [step] at settled
  split at settled
  · rename_i s' held
    refine (settled_setReader settled).imp_right ?_
    rintro ⟨rfl, answer⟩
    have pushed := recorded.inRange k s' held
    by_cases matching : (st.buffer.entry s').sequenceNumber = s'
    · rw [if_neg (not_not.mpr matching)] at answer
      simp only [reduceCtorEq, Lookup.matched.injEq, false_or] at answer
      obtain ⟨some_, rfl⟩ := answer
      have there := (matching_iff recorded real pushed).mp matching
      obtain ⟨p, rfl⟩ := Option.isSome_iff_exists.mp some_
      exact ⟨(found_iff_holds recorded bound real).1 there, Or.inr ⟨rfl, held⟩⟩
    · rw [if_pos matching] at answer
      simp only [Lookup.done.injEq, reduceCtorEq, and_false, or_false] at answer
      obtain ⟨rfl, rfl⟩ := answer
      have lost := fun there => matching ((matching_iff recorded real pushed).mpr there)
      exact ⟨(found_iff_holds recorded bound real).2 lost, Or.inr ⟨rfl, held⟩⟩
  · exact Or.inl settled

/-- An answer is settled by the range tests, or by the comparison; the last read only
    fetches a position. -/
theorem settled_cause (recorded : Recorded N position st) (real : s ≠ 0) (a : Action)
    (bound : st.next + N ≤ 2 ^ 64) (settled : Settled r s result (step position st a)) :
    Settled r s result st ∨ Settles position r s result st a := by
  cases a with
  | storeRecord =>
    left
    simp only [step] at settled
    split at settled <;> exact settled
  | publish =>
    left
    simp only [step] at settled
    split at settled <;> exact settled
  | start k s' => exact start_cause settled
  | compare k => exact compare_cause recorded real bound settled
  | readPosition k =>
    left
    simp only [step] at settled
    split at settled
    · rename_i s' held
      rcases settled_setReader settled with before | ⟨rfl, answer⟩
      · exact before
      · simp only [Lookup.done.injEq, reduceCtorEq, and_false, or_false] at answer
        obtain ⟨rfl, rfl⟩ := answer
        exact Or.inr ⟨rfl, held⟩
    · exact settled

/-- Whatever the writer and the other readers do meanwhile: a lookup answers as
    file_position_for would have answered at once, at a moment between its call and its
    return. Only the position may be that of a later number, which has lapped this one
    before it was read. -/
theorem lookups_instantaneous (size : UInt64) (b : RetransmissionBuffer)
    (built : construct size = .ok b) (position : Nat → Nat) (actions : List Action)
    (bound : (run (step position) (initial b) actions).next + size.toNat ≤ 2 ^ 64) (r : Nat)
    (s : SequenceNumber) (real : s ≠ 0) (result : Option Nat)
    (finished : (run (step position) (initial b) actions).readers r = .done s result) :
    Since (step position) (initial b) (Settles position r s result) (Settled r s result) actions ∧
      ∀ p ∈ result,
        Shared.Lapped position (run (step position) (initial b) actions) s p := by
  have start := initial_recorded built position
  have recorded := run_always (I := Recorded size.toNat position) step_recorded actions start
  constructor
  · have since := run_since (I := Recorded size.toNat position)
      (P := fun st => st.next + size.toNat ≤ 2 ^ 64 ∧ Settled r s result st)
      (Q := Settles position r s result) step_recorded
      (fun st a recorded ⟨bound, settled⟩ => by
        have before := Nat.le_trans (Nat.add_le_add_right (next_grows st a) _) bound
        exact (settled_cause recorded real a before settled).imp_left fun settled =>
          ⟨before, settled⟩)
      start (by simp [Settled, initial]) ⟨bound, Or.inl finished⟩
    exact since_imp (fun _ => And.right) (fun _ _ => id) since
  · intro p found
    cases found
    exact recorded.answered r s p real finished

/-- In a buffer of one message the writer laps a lookup that has found its number. -/
theorem lapped_lookup_settled : ∃ b, construct 1 = .ok b ∧
    Since (step fun n => 20 * n) (initial b) (Settles (fun n => 20 * n) 0 1 (some 40))
        (Settled 0 1 (some 40))
        [.storeRecord, .publish, .start 0 1, .compare 0, .storeRecord, .readPosition 0] ∧
      ∀ p ∈ some 40, Shared.Lapped (fun n => 20 * n) (run (step fun n => 20 * n) (initial b)
        [.storeRecord, .publish, .start 0 1, .compare 0, .storeRecord, .readPosition 0]) 1 p :=
  ⟨_, rfl, lookups_instantaneous 1 _ rfl _ _ (by decide) 0 1 (by decide) (some 40) (by decide)⟩

end MoldLookupInstants
