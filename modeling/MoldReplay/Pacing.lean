import MoldReplay.ScheduledRuns
import Mathlib.Data.Rat.Floor
import Mathlib.Algebra.Order.Field.Basic
import Mathlib.Data.List.Induction
import Mathlib.Order.Monotone.Basic

/- The part of Pacer that delays packets (get_delay). Times and durations are nanoseconds
   that fit into 64 bits, and the quotient of doubles is taken to be exact. -/
namespace MoldPacing
open ScheduledRuns

/-- static_cast<int64_t> -/
def truncate (q : ℚ) : Int := if 0 ≤ q then ⌊q⌋ else ⌈q⌉

structure Clock where
  readings : Nat → Int
  taken : Nat

def Clock.now (c : Clock) : Int × Clock := (c.readings c.taken, { c with taken := c.taken + 1 })

def Clock.last (c : Clock) : Int := c.readings (c.taken - 1)

structure Pacer where
  playbackSpeed : ℚ
  wallOrigin : Int := 0
  replayOrigin : Option Int := none

/-- Only called with an origin. -/
def Pacer.calculateDelay (p : Pacer) (packetTimestamp : Int) (clock : Clock) : Int × Clock :=
  let replayOffset := packetTimestamp - p.replayOrigin.getD 0
  let scaledOffset := truncate ((replayOffset : ℚ) / p.playbackSpeed)
  let sendAt := p.wallOrigin + scaledOffset
  match clock.now with
  | (now, clock) => if sendAt ≤ now then (0, clock) else (sendAt - now, clock)

/-- The first timestamp becomes the origin, before the clock is read for the delay. -/
def Pacer.originate (p : Pacer) (packetTimestamp : Int) (clock : Clock) : Pacer × Clock :=
  match p.replayOrigin with
  | some _ => (p, clock)
  | none =>
    match clock.now with
    | (now, clock) => ({ p with replayOrigin := some packetTimestamp, wallOrigin := now }, clock)

def Pacer.getDelay (p : Pacer) (packetTimestamp : Int) (clock : Clock) : Int × Pacer × Clock :=
  match p.originate packetTimestamp clock with
  | (p, clock) =>
    match p.calculateDelay packetTimestamp clock with
    | (delay, clock) => (delay, p, clock)

structure Call where
  timestamp : Int
  now : Int
  delay : Int
  deriving DecidableEq, Repr

def Call.release (c : Call) : Int := c.now + c.delay

structure Pacing where
  pacer : Pacer
  clock : Clock
  calls : List Call

def Pacing.call (s : Pacing) (packetTimestamp : Int) : Pacing :=
  match s.pacer.getDelay packetTimestamp s.clock with
  | (delay, pacer, clock) =>
    ⟨pacer, clock, s.calls ++ [⟨packetTimestamp, clock.last, delay⟩]⟩

def paced (speed : ℚ) (readings : Nat → Int) (timestamps : List Int) : Pacing :=
  run Pacing.call ⟨{ playbackSpeed := speed }, ⟨readings, 0⟩, []⟩ timestamps

def due (speed : ℚ) (wall origin timestamp : Int) : Int :=
  wall + truncate (((timestamp - origin : Int) : ℚ) / speed)

structure OnSchedule (speed : ℚ) (wall origin : Int) (calls : List Call) : Prop where
  delays : ∀ c ∈ calls, 0 ≤ c.delay
  first : ∀ c ∈ calls.head?, c.delay = 0
  release : ∀ c ∈ calls, c.release = max c.now (due speed wall origin c.timestamp)
  notEarly : ∀ c ∈ calls, due speed wall origin c.timestamp ≤ c.release
  ordered : (calls.map Call.timestamp).Pairwise (· ≤ ·) → (calls.map Call.release).Pairwise (· ≤ ·)

variable {speed : ℚ} {readings : Nat → Int} {wall origin : Int}

theorem truncate_zero : truncate 0 = 0 := by simp [truncate]

theorem truncate_le {q r : ℚ} (le : q ≤ r) : truncate q ≤ truncate r := by
  unfold truncate
  split
  · rename_i positive
    rw [if_pos (positive.trans le)]
    exact Int.floor_le_floor le
  · rename_i negative
    have below : ⌈q⌉ ≤ 0 := Int.ceil_le.mpr (by simpa using le_of_not_ge negative)
    split
    · rename_i positive
      exact below.trans (Int.floor_nonneg.mpr positive)
    · exact Int.ceil_le_ceil le

theorem due_origin (speed : ℚ) (wall origin : Int) : due speed wall origin origin = wall := by
  simp [due, truncate_zero]

theorem due_le (positive : 0 < speed) (wall origin : Int) {s t : Int} (le : s ≤ t) :
    due speed wall origin s ≤ due speed wall origin t := by
  have offset : ((s - origin : Int) : ℚ) ≤ ((t - origin : Int) : ℚ) := by
    rw [Int.cast_le]
    omega
  exact Int.add_le_add_left (truncate_le (div_le_div_of_nonneg_right offset positive.le)) wall

theorem calculateDelay_eq (p : Pacer) (originated : p.replayOrigin = some origin)
    (timestamp : Int) (clock : Clock) :
    p.calculateDelay timestamp clock =
      (max (clock.readings clock.taken) (due p.playbackSpeed p.wallOrigin origin timestamp) -
        clock.readings clock.taken, { clock with taken := clock.taken + 1 }) := by
  simp only [Pacer.calculateDelay, Clock.now, originated, Option.getD_some]
  change (if due p.playbackSpeed p.wallOrigin origin timestamp ≤ _ then _ else
    (due p.playbackSpeed p.wallOrigin origin timestamp - _, _)) = _
  split
  · rename_i late
    rw [max_eq_left late, Int.sub_self]
  · rename_i early
    rw [max_eq_right (Int.le_of_lt (Int.not_le.mp early))]

def scheduled (speed : ℚ) (readings : Nat → Int) (origin : Int) (i : Nat) (timestamp : Int) :
    Call :=
  ⟨timestamp, readings (i + 1),
    max (readings (i + 1)) (due speed (readings 0) origin timestamp) - readings (i + 1)⟩

theorem paced_eq (speed : ℚ) (readings : Nat → Int) (origin : Int) (later : List Int) :
    paced speed readings (origin :: later) =
      ⟨⟨speed, readings 0, some origin⟩, ⟨readings, later.length + 2⟩,
        (origin :: later).mapIdx (scheduled speed readings origin)⟩ := by
  induction later using List.reverseRecOn with
  | nil =>
    simp only [paced, run, List.foldl_cons, List.foldl_nil, Pacing.call, Pacer.getDelay,
      Pacer.originate, Clock.now]
    rw [calculateDelay_eq _ rfl]
    rfl
  | append_singleton later timestamp ih =>
    unfold paced at ih ⊢
    rw [← List.cons_append, run_snoc, ih]
    simp only [Pacing.call, Pacer.getDelay, Pacer.originate]
    rw [calculateDelay_eq _ rfl, List.mapIdx_append]
    simp [scheduled, Clock.last]

theorem scheduled_release (speed : ℚ) (readings : Nat → Int) (origin : Int) (i : Nat)
    (timestamp : Int) : (scheduled speed readings origin i timestamp).release =
      max (readings (i + 1)) (due speed (readings 0) origin timestamp) := by
  simp only [Call.release, scheduled]
  omega

theorem scheduled_on_schedule (positive : 0 < speed)
    (ahead : ∀ i j, i ≤ j → readings i ≤ readings j) (origin : Int) (later : List Int) :
    OnSchedule speed (readings 0) origin
      ((origin :: later).mapIdx (scheduled speed readings origin)) := by
  have called : ∀ c ∈ (origin :: later).mapIdx (scheduled speed readings origin),
      ∃ i t, c = scheduled speed readings origin i t := by
    intro c member
    obtain ⟨i, inside, same⟩ := List.mem_mapIdx.mp member
    exact ⟨i, (origin :: later)[i], same.symm⟩
  refine {
    delays := ?delays
    first := ?first
    release := ?release
    notEarly := ?notEarly
    ordered := ?ordered }
  case delays =>
    intro c member
    obtain ⟨i, t, rfl⟩ := called c member
    simp only [scheduled]
    omega
  case first =>
    intro c head
    rw [List.mapIdx_cons, List.head?_cons, Option.mem_some_iff] at head
    have read : readings 0 ≤ readings (0 + 1) := ahead _ _ (Nat.zero_le 1)
    rw [← head, scheduled, due_origin, max_eq_left read, Int.sub_self]
  case release =>
    intro c member
    obtain ⟨i, t, rfl⟩ := called c member
    exact scheduled_release speed readings origin i t
  case notEarly =>
    intro c member
    obtain ⟨i, t, rfl⟩ := called c member
    rw [scheduled_release]
    exact le_max_right _ _
  case ordered =>
    intro sorted
    rw [List.pairwise_iff_getElem] at sorted ⊢
    intro i j inside inside' order
    have earlier := sorted i j (by simpa using inside) (by simpa using inside') order
    simp only [List.getElem_map, List.getElem_mapIdx, scheduled_release]
    simp only [List.getElem_map, List.getElem_mapIdx] at earlier
    exact max_le_max (ahead _ _ (Nat.succ_le_succ (Nat.le_of_lt order)))
      (due_le positive (readings 0) origin earlier)

/-- Whatever the clock does between the calls, every packet goes out when it is due by the
    two origins or at once if that is past; so no delay adds up, and packets in the order
    of their timestamps go out in that order. -/
theorem pacing_absolute (speed : ℚ) (positive : 0 < speed) (readings : Nat → Int)
    (forward : ∀ i, readings i ≤ readings (i + 1)) (origin : Int) (later : List Int) :
    (paced speed readings (origin :: later)).calls.map Call.timestamp = origin :: later ∧
    (paced speed readings (origin :: later)).calls.map Call.now =
      (List.range (later.length + 1)).map (fun i => readings (i + 1)) ∧
    OnSchedule speed (readings 0) origin (paced speed readings (origin :: later)).calls := by
  have ahead : ∀ i j, i ≤ j → readings i ≤ readings j :=
    fun _ _ le => monotone_nat_of_le_succ forward le
  rw [paced_eq]
  refine ⟨?_, ?_, scheduled_on_schedule positive ahead origin later⟩
  · apply List.ext_getElem
    · rw [List.length_map, List.length_mapIdx]
    · intro i _ _
      simp only [List.getElem_map, List.getElem_mapIdx, scheduled]
  · apply List.ext_getElem
    · rw [List.length_map, List.length_mapIdx, List.length_map, List.length_range,
        List.length_cons]
    · intro i _ _
      simp only [List.getElem_map, List.getElem_mapIdx, List.getElem_range, scheduled]

theorem half_speed_on_schedule : OnSchedule (1 / 2) 0 10
    (paced (1 / 2) (fun i => 11 * i) [10, 25, 26]).calls ∧
    (paced (1 / 2) (fun i => 11 * i) [10, 25, 26]).calls =
      [⟨10, 11, 0⟩, ⟨25, 22, 8⟩, ⟨26, 33, 0⟩] := by
  have on := pacing_absolute (1 / 2) (by norm_num) (fun i => 11 * i) (by intro i; omega) 10 [25, 26]
  refine ⟨on.2.2, by decide +kernel⟩

end MoldPacing
