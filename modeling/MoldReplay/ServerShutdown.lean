import MoldReplay.FairRounds
import MoldReplay.Stopping
import MoldReplay.ServerUnderway

/- That a server that was told to stop ends. Every thread gets its turn again and again,
   in any order; what is left to do does not depend on the file, nor on the clients. First
   the eventfd is written, then the feeds find out, then the destructor gets through. -/
namespace MoldServerShutdown
open MoldPacket MoldDownstream MoldLedger MoldStopping MoldHeartbeatLifecycle MoldServerRuns
open MoldServerLookups MoldServerLifetimes MoldServerUnderway FairRounds ScheduledRuns
open MoldRetransmission (SockAddr RequestContext)

inductive Agent (n : Nat) where
  | owner
  | downstream
  | heartbeat
  | feed (k : Fin n)
  deriving DecidableEq

variable {n : Nat}

/-- A wait that is interrupted is not a turn. -/
def turn : Action n → Option (Agent n)
  | .owner => some .owner
  | .downstream _ => some .downstream
  | .heartbeat => some .heartbeat
  | .feed k kernel => if kernel.fails then none else some (.feed k)
  | _ => none

def beatLeft : MoldHeartbeat.Place → Nat
  | .loading => 4
  | .sending _ => 3
  | .sleeping => 2
  | .checking => 1
  | .absent | .exited => 0

def joinLeft (h : MoldHeartbeat.World) : Nat :=
  match h.thread.phase with
  | .joining => beatLeft h.beat.place
  | .ending | .finished => 0
  | _ => 4

def replayLeft (h : MoldHeartbeat.World) : Nat := stepsLeft h.thread + joinLeft h

/-- The first half of a push is a step of its own, but no message is shorter than two bytes. -/
def heartLeft (w : World n) : Nat := replayLeft w.heart - if w.stored then 1 else 0

/-- Until the eventfd is written: without a stop request, as many steps as there can be. -/
def signalLeft (S : Setup) (w : World n) : Nat :=
  if w.shutdown ≠ 0 then 0
  else
    match w.downstream with
    | .running => if w.stopRequested then heartLeft w + 1 else S.config.capacity + 14
    | .absent | .exited =>
      match w.owner with
      | .joiningDownstream => 2
      | .signalling => 1
      | _ => 3

def eventsLeft : List Readable → Nat
  | [] => 7
  | .shutdownFd :: _ => 1
  | .socket :: events => eventsLeft events + 4

def Place.left : Place → Nat
  | .constructing => 7
  | .waiting => 6
  | .dispatching events => eventsLeft events
  | .comparing _ events => eventsLeft events + 3
  | .fetching _ events => eventsLeft events + 2
  | .answering _ events => eventsLeft events + 1
  | .exited => 0

def untilJoins : Owner → Nat
  | .requestingStop => 4
  | .joiningDownstream => 3
  | .signalling => 2
  | .releasingPointers => 1
  | .free | .waiting | .joiningFeeds _ | .releasing _ | .gone => 0

def joinsLeft (n : Nat) : Owner → Nat
  | .joiningFeeds k => n - k + 6
  | .releasing left => left.length + 1
  | .free | .waiting | .requestingStop | .joiningDownstream | .signalling | .releasingPointers
  | .gone => 0

def Joining (h : MoldHeartbeat.World) : Prop := h.thread.phase = .joining ∧ h.beat.running = true

/-- The owner's next step brings the writing of the eventfd closer. -/
def OwnerMoves (w : World n) : Prop :=
  match w.owner with
  | .requestingStop => w.stopRequested = false
  | .joiningDownstream => w.downstream ≠ .running
  | .signalling => True
  | _ => False

def Helps (w : World n) : Agent n → Prop
  | .owner => w.shutdown = 0 ∧ OwnerMoves w
  | .downstream =>
    w.shutdown = 0 ∧ w.downstream = .running ∧ w.stopRequested = true ∧ ¬ Joining w.heart
  | .heartbeat =>
    w.shutdown = 0 ∧ w.downstream = .running ∧ w.stopRequested = true ∧ Joining w.heart
  | .feed _ => False

def Ending (w : World n) : Prop := w.stopRequested = true ∨ w.owner.destroying = true

structure Closing (S : Setup) (w : World n) : Prop extends Underway S w where
  ending : Ending w
  half : HalfPushed S w

def AllEnded (w : World n) : Prop :=
  w.downstream ≠ .running ∧ w.heart.beat.running = false ∧ ∀ k, (w.feeds k).place = .exited

variable {S : Setup} {w w' : World n} {t t' : FeedThread}
  {buffer : MoldBuffer.RetransmissionBuffer} {shutdown : Nat} {kernel : Kernel}

theorem eventsLeft_distinct {events : List Readable} (distinct : events.Nodup) :
    eventsLeft events ≤ 11 := by
  match events with
  | [] => decide
  | [event] => cases event <;> simp [eventsLeft]
  | .shutdownFd :: _ :: _ => simp [eventsLeft]
  | .socket :: .shutdownFd :: _ => simp [eventsLeft]
  | .socket :: .socket :: _ => simp at distinct

theorem eventsLeft_handled {events : List Readable} (other : .socket ∉ events) :
    eventsLeft events ≤ 7 := by
  cases events with
  | nil => exact Nat.le_refl 7
  | cons event events =>
    cases event with
    | shutdownFd => simp [eventsLeft]
    | socket => exact absurd List.mem_cons_self other

theorem place_left_bound (h : Fed t) : Place.left t.place ≤ 11 := by
  have distinct := h.distinct
  have only := h.only
  cases place : t.place with
  | constructing => simp [Place.left]
  | waiting => simp [Place.left]
  | exited => simp [Place.left]
  | dispatching events =>
    rw [place] at distinct
    exact eventsLeft_distinct distinct
  | comparing request events =>
    rw [place] at only
    have few := eventsLeft_handled (only rfl)
    simp only [Place.events, Place.left] at few ⊢
    omega
  | fetching request events =>
    rw [place] at only
    have few := eventsLeft_handled (only rfl)
    simp only [Place.events, Place.left] at few ⊢
    omega
  | answering ctx events =>
    rw [place] at only
    have few := eventsLeft_handled (only rfl)
    simp only [Place.events, Place.left] at few ⊢
    omega

theorem left_exited {place : Place} (none_ : Place.left place = 0) : place = .exited := by
  have some_ (events : List Readable) : 0 < eventsLeft events := by
    match events with
    | [] => decide
    | .shutdownFd :: _ => simp [eventsLeft]
    | .socket :: _ => simp [eventsLeft]
  cases place with
  | exited => rfl
  | dispatching events =>
    have more := some_ events
    simp only [Place.left] at none_
    omega
  | _ => simp [Place.left] at none_

theorem ready_left (signalled : shutdown ≠ 0) (t : FeedThread) (kernel : Kernel) :
    eventsLeft (t.ready shutdown kernel) ≤ 5 := by
  simp only [FeedThread.ready, if_neg signalled]
  split <;> split <;> simp [eventsLeft]

theorem taken_left {client : SockAddr} {datagram : List UInt8}
    {queue : List (SockAddr × List UInt8)} {events : List Readable} :
    Place.left (t.take buffer client datagram queue events).place ≤ eventsLeft events + 3 := by
  rcases taken_place (take_taken buffer t client datagram queue events) with at_ | ⟨_, at_⟩
  · simp [at_, Place.left]
  · simp [at_, Place.left]

theorem move_left {response : Option (SockAddr × Packet)} (signalled : shutdown ≠ 0)
    (move : FeedMove S buffer shutdown kernel t (t', response)) :
    Place.left t'.place < Place.left t.place ∨ t' = t := by
  cases move with
  | still => exact Or.inr rfl
  | construct place => exact Or.inl (by simp [place, Place.left])
  | report place some =>
    have few := ready_left signalled t kernel
    rw [place]
    exact Or.inl (Nat.lt_succ_of_le few)
  | again place => exact Or.inl (by simp [place, Place.left, eventsLeft])
  | leave place => exact Or.inl (by simp [place, Place.left, eventsLeft])
  | lose place => exact Or.inl (by simp [place, Place.left, eventsLeft])
  | take place queued =>
    rw [place]
    exact Or.inl (Nat.lt_succ_of_le taken_left)
  | miss place other => exact Or.inl (by simp [place, Place.left, FeedThread.settle])
  | found place same => exact Or.inl (by simp [place, Place.left])
  | fetch place => exact Or.inl (by simp [place, Place.left, FeedThread.settle])
  | answer place => exact Or.inl (by simp [place, Place.left])

theorem turn_moves (S : Setup) (buffer : MoldBuffer.RetransmissionBuffer)
    (signalled : shutdown ≠ 0) (works : kernel.fails = false)
    (running : t.place ≠ .exited) (h : Fed t) : (t.step S buffer shutdown kernel).1 ≠ t := by
  intro same
  have unmoved : (t.step S buffer shutdown kernel).1.place = t.place := congrArg _ same
  cases place : t.place with
  | constructing => simp [FeedThread.step, place] at unmoved
  | waiting =>
    -- epoll_wait does not block any more
    have ready : t.ready shutdown kernel ≠ [] := by
      simp only [FeedThread.ready, if_neg signalled]
      split <;> split <;> simp
    obtain ⟨first, events, reported⟩ := List.exists_cons_of_ne_nil ready
    simp [FeedThread.step, place, works, reported] at unmoved
  | comparing request events =>
    simp only [FeedThread.step, place] at unmoved
    split at unmoved <;> simp [FeedThread.settle] at unmoved
  | fetching request events => simp [FeedThread.step, place, FeedThread.settle] at unmoved
  | answering ctx events => simp [FeedThread.step, place] at unmoved
  | exited => exact running place
  | dispatching events =>
    cases events with
    | nil => simp [FeedThread.step, place] at unmoved
    | cons event events =>
      cases event with
      | shutdownFd => simp [FeedThread.step, place] at unmoved
      | socket =>
        have queued : t.queue ≠ [] := h.queued (by rw [place]; exact List.mem_cons_self)
        obtain ⟨⟨client, datagram⟩, queue, split⟩ := List.exists_cons_of_ne_nil queued
        simp only [FeedThread.step, place, works, split, Bool.false_eq_true, if_false] at unmoved
        have less : Place.left (t.take buffer client datagram queue events).place ≤
          eventsLeft events + 3 := taken_left
        rw [unmoved] at less
        simp only [Place.left, eventsLeft] at less
        omega

theorem beatLeft_le (place : MoldHeartbeat.Place) : beatLeft place ≤ 4 := by
  cases place <;> simp [beatLeft]

theorem replayLeft_bound {h : MoldHeartbeat.World} (follows : Follows S h.thread) :
    replayLeft h ≤ S.config.capacity + 12 := by
  have steps := steps_left_bound follows
  have join : joinLeft h ≤ 4 := by
    have few := beatLeft_le h.beat.place
    unfold joinLeft
    split <;> omega
  unfold replayLeft
  omega

theorem heartLeft_bound (follows : Follows S w.heart.thread) :
    heartLeft w ≤ S.config.capacity + 12 :=
  Nat.le_trans (Nat.sub_le _ _) (replayLeft_bound follows)

theorem joinLeft_step {h : MoldHeartbeat.World} {i : Inputs} (stop : i.stopRequested = true)
    (free : ¬ Joining h) : joinLeft (MoldHeartbeat.step S h (.downstream i)) ≤ joinLeft h := by
  have open_ : ¬ (h.thread.phase = .joining ∧ h.beat.running = true) := free
  rw [MoldHeartbeat.step, if_neg open_]
  obtain ⟨⟨f, phase⟩, beat, wire⟩ := h
  cases phase with
  | building timestamp =>
    simp only [joinLeft, Thread.step]
    cases f.addMessage S <;> exact Nat.le_refl 4
  | replaying => simp [joinLeft, Thread.step, stop, atHead_stopped]
  | stopping => exact beatLeft_le _
  | ending => simp [joinLeft, Thread.step, stop]
  | joining => exact Nat.zero_le _
  | _ => exact Nat.le_refl _

theorem thread_lowers {t : Thread} {i : Inputs} (stop : i.stopRequested = true)
    (unfinished : t.phase ≠ .finished) :
    stepsLeft (t.step S i) < stepsLeft t ∧
      ((∃ timestamp next, t.phase = .building timestamp ∧ t.feed.addMessage S = .again next) →
        stepsLeft (t.step S i) + 2 ≤ stepsLeft t) := by
  refine ⟨stopped_step_lowers stop unfinished, ?_⟩
  rintro ⟨timestamp, next, phase, pass⟩
  obtain ⟨f, _⟩ := t
  subst phase
  have addition := addMessage_addition S f
  simp only [Thread.step]
  generalize f.addMessage S = result at addition pass ⊢
  cases addition with
  | closes => cases pass
  | unreadable _ _ => cases pass
  | adds complete fits =>
    obtain ⟨room, some⟩ := tryAdd_room fits
    have length := MoldFraming.messageAt_length complete
    simp only [stepsLeft, Feed.accept, Feed.emit, Setup.messageAt] at room length ⊢
    omega

theorem replay_lowers {i : Inputs} (half : HalfPushed S w) (stop : i.stopRequested = true)
    (free : ¬ Joining w.heart) (unfinished : w.heart.thread.phase ≠ .finished) :
    heartLeft { w with heart := MoldHeartbeat.step S w.heart (.downstream i), stored := false } <
      heartLeft w := by
  have join := joinLeft_step (S := S) stop free
  have open_ : ¬ (w.heart.thread.phase = .joining ∧ w.heart.beat.running = true) := free
  have thread : (MoldHeartbeat.step S w.heart (.downstream i)).thread =
      w.heart.thread.step S i := by
    rw [MoldHeartbeat.step, if_neg open_]
  obtain ⟨lower, further⟩ := thread_lowers (S := S) stop unfinished
  simp only [heartLeft, replayLeft, thread, Bool.false_eq_true, if_false]
  cases stored : w.stored with
  | true =>
    have twice := further (pushes_building (half stored))
    simp only [if_true]
    omega
  | false =>
    simp only [Bool.false_eq_true, if_false]
    omega

theorem store_lowers (pushes : w.pushes S = true) (fresh : w.stored = false) :
    heartLeft { w with stored := true } < heartLeft w := by
  obtain ⟨timestamp, _, phase, _⟩ := pushes_building pushes
  simp only [heartLeft, replayLeft, fresh, if_true, Bool.false_eq_true, if_false, stepsLeft, phase]
  omega

theorem beat_left {h : MoldHeartbeat.World}
    (asked : h.thread.phase = .joining → h.beat.stopRequested = true) :
    replayLeft (MoldHeartbeat.step S h .heartbeat) ≤ replayLeft h ∧
      (Joining h → replayLeft (MoldHeartbeat.step S h .heartbeat) < replayLeft h) := by
  have thread := heartbeat_thread S h
  have before : replayLeft (MoldHeartbeat.step S h .heartbeat) =
      stepsLeft h.thread + joinLeft (MoldHeartbeat.step S h .heartbeat) := by
    rw [replayLeft, thread]
  rw [before]
  by_cases joining : h.thread.phase = .joining
  · have left : joinLeft h = beatLeft h.beat.place := by simp [joinLeft, joining]
    have left' : joinLeft (MoldHeartbeat.step S h .heartbeat) =
        beatLeft (MoldHeartbeat.step S h .heartbeat).beat.place := by
      simp [joinLeft, thread, joining]
    have stop := asked joining
    rw [left', replayLeft, left]
    cases place : h.beat.place <;>
      simp [MoldHeartbeat.step, MoldHeartbeat.World.setPlace, MoldHeartbeat.Beat.running, Joining,
        place, stop, beatLeft]
  · have same : joinLeft (MoldHeartbeat.step S h .heartbeat) = joinLeft h := by
      unfold joinLeft
      rw [thread]
      split
      · exact absurd ‹_› joining
      · rfl
      · rfl
      · rfl
    rw [same]
    exact ⟨Nat.le_refl _, fun busy => absurd busy.1 joining⟩

theorem beat_lowers (half : HalfPushed S w)
    (asked : w.heart.thread.phase = .joining → w.heart.beat.stopRequested = true) :
    heartLeft { w with heart := MoldHeartbeat.step S w.heart .heartbeat } ≤ heartLeft w ∧
      (Joining w.heart →
        heartLeft { w with heart := MoldHeartbeat.step S w.heart .heartbeat } < heartLeft w) := by
  obtain ⟨less, lower⟩ := beat_left (S := S) asked
  refine ⟨Nat.sub_le_sub_right less _, fun joining => ?_⟩
  have whole : w.stored = false := by
    by_contra stored
    obtain ⟨_, _, phase, _⟩ := pushes_building (half (by simpa using stored))
    exact absurd (joining.1.symm.trans phase) (by simp)
  simpa [heartLeft, whole] using lower joining

theorem signalLeft_running (silent : w.shutdown = 0) (running : w.downstream = .running) :
    signalLeft S w = if w.stopRequested then heartLeft w + 1 else S.config.capacity + 14 := by
  simp [signalLeft, silent, running]

theorem signalled_none (signalled : w.shutdown ≠ 0) : signalLeft S w = 0 := by
  simp [signalLeft, signalled]

theorem signalLeft_positive (silent : w.shutdown = 0) : 0 < signalLeft S w := by
  unfold signalLeft
  rw [if_neg (not_not.mpr silent)]
  repeat' split
  all_goals omega

theorem signalLeft_bound (h : Closing S w) : signalLeft S w ≤ S.config.capacity + 14 := by
  have few := heartLeft_bound h.orderly.together.follows
  unfold signalLeft
  repeat' split
  all_goals omega

theorem ending_launched (h : Closing S w) (free : w.owner = .free) : w.downstream ≠ .absent := by
  rcases h.ending with stop | destroying
  · exact h.orderly.launched stop
  · simp [free, Owner.destroying] at destroying

theorem signalLeft_same (shutdown : w'.shutdown = w.shutdown)
    (downstream : w'.downstream = w.downstream) (stop : w'.stopRequested = w.stopRequested)
    (heart : w'.heart = w.heart) (stored : w'.stored = w.stored) (owner : w'.owner = w.owner) :
    signalLeft S w' ≤ signalLeft S w ∧ ∀ i, Helps w i → Helps w' i := by
  refine ⟨?_, fun i helps => ?_⟩
  · simp only [signalLeft, heartLeft, shutdown, downstream, stop, heart, stored, owner,
      Nat.le_refl]
  · cases i with
    | owner =>
      obtain ⟨silent, moves⟩ := helps
      refine ⟨shutdown.trans silent, ?_⟩
      unfold OwnerMoves at moves ⊢
      rwa [owner, stop, downstream]
    | downstream => simpa only [Helps, shutdown, downstream, stop, heart] using helps
    | heartbeat => simpa only [Helps, shutdown, downstream, stop, heart] using helps
    | feed k => exact helps

theorem heart_counts {heart : MoldHeartbeat.World} {stored : Bool}
    (less : w.stopRequested = true →
      heartLeft { w with heart := heart, stored := stored } ≤ heartLeft w) :
    signalLeft S { w with heart := heart, stored := stored } ≤ signalLeft S w := by
  simp only [signalLeft]
  split
  · exact Nat.le_refl 0
  · split
    · split
      · exact Nat.succ_le_succ (less ‹_›)
      · exact Nat.le_refl _
    · exact Nat.le_refl _
    · exact Nat.le_refl _

theorem heart_lowers {heart : MoldHeartbeat.World} {stored : Bool} (silent : w.shutdown = 0)
    (running : w.downstream = .running) (stop : w.stopRequested = true)
    (less : heartLeft { w with heart := heart, stored := stored } < heartLeft w) :
    signalLeft S { w with heart := heart, stored := stored } < signalLeft S w := by
  rw [signalLeft_running silent running, signalLeft_running (by exact silent) (by exact running)]
  simp only [stop, if_true] at less ⊢
  omega

theorem stop_lowers (h : Closing S w) (stop : w.stopRequested = false)
    (running : w.downstream = .running) (silent : w.shutdown = 0) {owner : Owner} :
    signalLeft S { w.requestStop with owner := owner } < signalLeft S w := by
  have few := heartLeft_bound h.orderly.together.follows
  have same : heartLeft { w.requestStop with owner := owner } = heartLeft w := rfl
  have told : ({ w.requestStop with owner := owner } : World n).stopRequested = true := by
    simp [World.requestStop, running]
  rw [signalLeft_running silent running, signalLeft_running (by exact silent) (by exact running),
    told, stop, same]
  simp only [if_true, Bool.false_eq_true, if_false]
  omega

theorem launched_owner (launched : w.downstream ≠ .absent) (h : Closing S w) (owner : Owner) :
    signalLeft S { w with owner := owner } = signalLeft S w := by
  cases launch : w.downstream with
  | absent => exact absurd launch launched
  | running => simp [signalLeft, heartLeft, launch]
  | exited =>
    have signalled : w.shutdown ≠ 0 := h.orderly.signalled.mpr (Or.inl launch)
    simp [signalLeft, signalled]

theorem silent_not_running (silent : w.shutdown = 0) (h : Closing S w)
    (ended : w.downstream ≠ .running) : w.downstream = .absent := by
  cases launch : w.downstream with
  | absent => rfl
  | running => exact absurd launch ended
  | exited => exact absurd silent (h.orderly.signalled.mpr (Or.inl launch))

theorem destroying_signalled (h : Closing S w)
    (past : MoldServerLifetimes.Owner.signalled w.owner = true) : w.shutdown ≠ 0 :=
  h.orderly.signalled.mpr (Or.inr past)

theorem owner_steps_aside (h : Closing S w) (launched : w.downstream ≠ .absent)
    (idle : ¬ OwnerMoves w) (owner : Owner) :
    signalLeft S { w with owner := owner } ≤ signalLeft S w ∧
      ∀ i, Helps w i → Helps { w with owner := owner } i := by
  refine ⟨Nat.le_of_eq (launched_owner launched h owner), fun i helps => ?_⟩
  cases i with
  | owner => exact absurd helps.2 idle
  | downstream => exact helps
  | heartbeat => exact helps
  | feed k => exact helps

theorem requestStop_waits (h : Closing S w) (silent : w.shutdown = 0) {owner : Owner}
    (before : w.owner = owner ∨ w.owner = .requestingStop ∧ owner = .joiningDownstream) :
    signalLeft S { w.requestStop with owner := owner } < signalLeft S w ∨
      (signalLeft S { w.requestStop with owner := owner } ≤ signalLeft S w ∧
        ∀ i, Helps w i → Helps { w.requestStop with owner := owner } i) := by
  cases launch : w.downstream with
  | exited => exact absurd silent (h.orderly.signalled.mpr (Or.inl launch))
  | absent =>
    have going : w.stopRequested = false := by
      by_contra stop
      exact h.orderly.launched (by simpa using stop) launch
    rcases before with same | ⟨requesting, rfl⟩
    · right
      have told : w.requestStop.stopRequested = w.stopRequested := by
        simp [World.requestStop, launch, going]
      apply signalLeft_same <;> first | rfl | exact told | exact same.symm
    · left
      simp [signalLeft, World.requestStop, silent, launch, requesting]
  | running =>
    cases stop : w.stopRequested with
    | false => exact Or.inl (stop_lowers h stop launch silent)
    | true =>
      right
      have told : w.requestStop = w := by
        rw [World.requestStop, stop, Bool.true_or, ← stop]
      rw [told]
      rcases before with same | ⟨requesting, rfl⟩
      · apply signalLeft_same <;> first | rfl | exact same.symm
      · exact owner_steps_aside h (by simp [launch]) (by simp [OwnerMoves, requesting, stop]) _

theorem replay_waits (h : Closing S w) (silent : w.shutdown = 0) (running : w.downstream = .running)
    (unfinished : w.heart.thread.phase ≠ .finished) {expired : Bool} {w' : World n} (after : w' = { w with
      heart := MoldHeartbeat.step S w.heart (.downstream ⟨w.stopRequested, expired⟩)
      stored := false }) :
    signalLeft S w' < signalLeft S w ∨
      (signalLeft S w' ≤ signalLeft S w ∧ ∀ i, Helps w i → Helps w' i) := by
  subst after
  by_cases stop : w.stopRequested = true
  · by_cases free : Joining w.heart
    · -- it waits for its heartbeat, with nothing stored
      have same : MoldHeartbeat.step S w.heart (.downstream ⟨w.stopRequested, expired⟩) =
          w.heart := if_pos free
      have whole : w.stored = false := by
        by_contra stored
        obtain ⟨_, _, phase, _⟩ := pushes_building (h.half (by simpa using stored))
        exact absurd (free.1.symm.trans phase) (by simp)
      right
      rw [same]
      apply signalLeft_same <;> first | rfl | exact whole.symm
    · exact Or.inl (heart_lowers silent running stop
        (replay_lowers h.half (i := ⟨w.stopRequested, expired⟩) stop free unfinished))
  · refine Or.inr ⟨heart_counts fun told => absurd told stop, fun i helps => ?_⟩
    cases i with
    | downstream => exact absurd helps.2.2.1 stop
    | heartbeat => exact absurd helps.2.2.1 stop
    | owner => exact helps
    | feed k => exact helps

theorem beat_waits (h : Closing S w) :
    let w' := { w with heart := MoldHeartbeat.step S w.heart .heartbeat }
    signalLeft S w' < signalLeft S w ∨
      (signalLeft S w' ≤ signalLeft S w ∧ ∀ i, Helps w i → Helps w' i) := by
  intro w'
  obtain ⟨less, lower⟩ := beat_lowers (S := S) h.half h.asked
  by_cases waits : Helps w .heartbeat
  · obtain ⟨silent, running, stop, joining⟩ := waits
    exact Or.inl (heart_lowers silent running stop (lower joining))
  · refine Or.inr ⟨heart_counts fun _ => less, fun i helps => ?_⟩
    cases i with
    | heartbeat => exact absurd helps waits
    | downstream =>
      refine ⟨helps.1, helps.2.1, helps.2.2.1, fun joining => helps.2.2.2 ?_⟩
      refine ⟨(heartbeat_thread S w.heart) ▸ joining.1, ?_⟩
      by_contra still
      have ended := heartbeat_stopped S (by simpa using still)
      exact absurd (joining.2.symm.trans ended) (by simp)
    | owner => exact helps
    | feed k => exact helps

/-- No step puts off the writing of the eventfd, nor keeps a thread from bringing it closer. -/
theorem advance_signal (h : Closing S w) (advance : Advance S w w') :
    signalLeft S w' < signalLeft S w ∨
      (signalLeft S w' ≤ signalLeft S w ∧ ∀ i, Helps w i → Helps w' i) := by
  by_cases silent : w.shutdown = 0
  · have quiet (past : MoldServerLifetimes.Owner.signalled w.owner = true) : False :=
      destroying_signalled h past silent
    cases advance with
    | start free absent => exact absurd absent (ending_launched h free)
    | wait free launched =>
      exact Or.inr (owner_steps_aside h launched (by simp [OwnerMoves, free]) _)
    | destroy free =>
      exact Or.inr (owner_steps_aside h (ending_launched h free) (by simp [OwnerMoves, free]) _)
    | waited waiting ended =>
      have launched : w.downstream ≠ .absent := by
        rcases h.ending with stop | destroying
        · exact h.orderly.launched stop
        · simp [waiting, Owner.destroying] at destroying
      exact absurd (silent_not_running silent h ended) launched
    | stop using_ => exact requestStop_waits h silent (Or.inl rfl)
    | requestStop at_ => exact requestStop_waits h silent (Or.inr ⟨at_, rfl⟩)
    | joined at_ ended =>
      have absent := silent_not_running silent h ended
      left
      simp [signalLeft, silent, absent, at_]
    | signal at_ =>
      rw [signalled_none (w := { w with shutdown := w.shutdown + 1, owner := .releasingPointers })
        (Nat.succ_ne_zero _)]
      exact Or.inl (signalLeft_positive silent)
    | releasePointers at_ => exact (quiet (by rw [at_]; rfl)).elim
    | joinedFeed at_ inside ended => exact (quiet (by rw [at_]; rfl)).elim
    | joinedAll at_ all => exact (quiet (by rw [at_]; rfl)).elim
    | release at_ => exact (quiet (by rw [at_]; rfl)).elim
    | finish at_ => exact (quiet (by rw [at_]; rfl)).elim
    | signalled running finished =>
      rw [signalled_none (w := { w with shutdown := w.shutdown + 1, downstream := .exited })
        (Nat.succ_ne_zero _)]
      exact Or.inl (signalLeft_positive silent)
    | storeRecord running pushes fresh =>
      by_cases stop : w.stopRequested = true
      · exact Or.inl (heart_lowers silent running stop
          (store_lowers pushes fresh))
      · refine Or.inr ⟨heart_counts fun told => absurd told stop,
          fun i helps => ?_⟩
        cases i with
        | downstream => exact helps
        | heartbeat => exact helps
        | owner => exact helps
        | feed k => exact helps
    | replay running unfinished ready expired =>
      exact replay_waits h silent running unfinished rfl
    | beat => exact beat_waits h
    | _ => exact Or.inr (signalLeft_same rfl rfl rfl rfl rfl rfl)
  · rw [signalled_none (advance_shutdown advance silent)]
    refine Or.inr ⟨Nat.zero_le _, fun i helps => ?_⟩
    cases i with
    | feed k => exact helps
    | owner => exact absurd helps.1 silent
    | downstream => exact absurd helps.1 silent
    | heartbeat => exact absurd helps.1 silent

theorem advance_ending (ending : Ending w) (advance : Advance S w w') : Ending w' := by
  cases advance <;> simp_all [Ending, Owner.destroying, World.requestStop, World.setFeed]

theorem advance_closing (h : Closing S w) (advance : Advance S w w') : Closing S w' :=
  ⟨advance_underway h.toUnderway advance, advance_ending h.ending advance,
    advance_halfPushed h.half advance⟩

theorem owner_lowers (h : Closing S w) (silent : w.shutdown = 0) (moves : OwnerMoves w) :
    signalLeft S w.ownerStep < signalLeft S w := by
  unfold OwnerMoves at moves
  unfold World.ownerStep
  cases at_ : w.owner with
  | requestingStop =>
    rw [at_] at moves
    cases launch : w.downstream with
    | exited => exact absurd silent (h.orderly.signalled.mpr (Or.inl launch))
    | running => exact stop_lowers h moves launch silent
    | absent => simp [signalLeft, World.requestStop, silent, launch, at_]
  | joiningDownstream =>
    rw [at_] at moves
    have absent := silent_not_running silent h moves
    simp [signalLeft, silent, absent, at_]
  | signalling =>
    rw [signalled_none (w := { w with shutdown := w.shutdown + 1, owner := .releasingPointers })
      (Nat.succ_ne_zero _)]
    exact signalLeft_positive silent
  | _ => rw [at_] at moves; exact moves.elim

theorem downstream_lowers (h : Closing S w) (silent : w.shutdown = 0)
    (running : w.downstream = .running) (stop : w.stopRequested = true) (free : ¬ Joining w.heart)
    (expired : Bool) : signalLeft S (w.downstreamStep S expired) < signalLeft S w := by
  simp only [World.downstreamStep, running]
  split
  · rw [signalled_none (w := { w with shutdown := w.shutdown + 1, downstream := .exited })
      (Nat.succ_ne_zero _)]
    exact signalLeft_positive silent
  · rename_i unfinished
    split
    · rename_i half
      simp only [Bool.and_eq_true, Bool.not_eq_true'] at half
      have lower := heart_lowers (S := S) silent running stop
        (store_lowers half.1 half.2)
      simpa only [running] using lower
    · have lower := heart_lowers (S := S) silent running stop
        (replay_lowers h.half (i := ⟨w.stopRequested, expired⟩) stop free unfinished)
      simpa only [running] using lower

theorem turn_lowers_signal (h : Closing S w) {a : Action n} {i : Agent n} (helps : Helps w i)
    (taken : turn a = some i) : signalLeft S (step S w a) < signalLeft S w := by
  cases a with
  | owner =>
    cases taken
    exact owner_lowers h helps.1 helps.2
  | downstream expired =>
    cases taken
    obtain ⟨silent, running, stop, free⟩ := helps
    exact downstream_lowers h silent running stop free expired
  | heartbeat =>
    cases taken
    obtain ⟨silent, running, stop, joining⟩ := helps
    exact heart_lowers silent running stop ((beat_lowers h.half h.asked).2 joining)
  | feed k kernel =>
    cases works : kernel.fails with
    | true => simp [turn, works] at taken
    | false =>
      simp only [turn, works, Bool.false_eq_true, if_false, Option.some.injEq] at taken
      subst taken
      exact helps.elim
  | call _ => cases taken
  | dropConfiguration => cases taken
  | arrive _ _ _ _ => cases taken

theorem joined_or_stopped (h : Closing S w) (running : w.downstream = .running) :
    w.stopRequested = true ∨ w.owner = .requestingStop := by
  rcases h.ending with stop | destroying
  · exact Or.inl stop
  · cases owner : w.owner with
    | free => simp [owner, Owner.destroying] at destroying
    | waiting => simp [owner, Owner.destroying] at destroying
    | requestingStop => exact Or.inr rfl
    | joiningDownstream => exact Or.inl (h.requested owner running)
    | _ => exact absurd running (h.orderly.joined (by rw [owner]; rfl))

theorem someone_signals (h : Closing S w) (silent : w.shutdown = 0) : ∃ i, Helps w i := by
  by_cases running : w.downstream = .running
  · by_cases stop : w.stopRequested = true
    · by_cases joining : Joining w.heart
      · exact ⟨.heartbeat, silent, running, stop, joining⟩
      · exact ⟨.downstream, silent, running, stop, joining⟩
    · have requesting := (joined_or_stopped h running).resolve_left stop
      exact ⟨.owner, silent, by simpa [OwnerMoves, requesting] using stop⟩
  · have absent := silent_not_running silent h running
    have going : w.stopRequested = false := by
      by_contra stop
      exact h.orderly.launched (by simpa using stop) absent
    have destroying : w.owner.destroying = true := h.ending.resolve_left (by simp [going])
    have early : ¬ MoldServerLifetimes.Owner.signalled w.owner = true :=
      fun past => destroying_signalled h past silent
    refine ⟨.owner, silent, ?_⟩
    cases owner : w.owner <;>
      simp_all [OwnerMoves, Owner.destroying, MoldServerLifetimes.Owner.signalled]

theorem signal_progress (S : Setup) (n : Nat) :
    Progress (step S) turn (Closing S) (fun w : World n => w.shutdown ≠ 0) (signalLeft S)
      Helps where
  keeps := fun w a h => advance_closing h (step_advances S w a)
  stays := fun w a _ signalled => advance_shutdown (step_advances S w a) signalled
  neverUp := fun w a h =>
    (advance_signal h (step_advances S w a)).elim Nat.le_of_lt fun same => same.1
  someone := fun _ h silent => someone_signals h (not_not.mp silent)
  unfinished := fun _ _ silent => signalLeft_positive (not_not.mp silent)
  lowers := fun _ _ _ h helps taken => turn_lowers_signal h helps taken
  waits := fun w a i h helps =>
    (advance_signal h (step_advances S w a)).imp_right fun same => same.2 i helps

structure Signalled (S : Setup) (w : World n) : Prop extends Closing S w where
  signalled : w.shutdown ≠ 0

theorem step_signalled (w : World n) (a : Action n) (h : Signalled S w) :
    Signalled S (step S w a) :=
  ⟨advance_closing h.toClosing (step_advances S w a),
    advance_shutdown (step_advances S w a) h.signalled⟩

theorem feed_never_up (h : Signalled S w) (advance : Advance S w w') (k : Fin n) :
    Place.left (w'.feeds k).place ≤ Place.left (w.feeds k).place := by
  have turn := advance_turns advance k
  generalize w'.feeds k = t' at turn
  cases turn with
  | aside => exact Nat.le_refl _
  | move move =>
    rcases move_left h.signalled move with lower | same
    · exact Nat.le_of_lt lower
    · rw [same]
  | arrive client datagram room =>
    rw [(arrive_same (w.feeds k) client datagram room).2.1]

theorem feed_ends {rounds : Nat} {actions : List (Action n)} (h : Signalled S w) (k : Fin n)
    (enough : 11 ≤ rounds) (fair : Rounds turn rounds actions) :
    ((run (step S) w actions).feeds k).place = .exited := by
  refine left_exited (turns_finish (fun w => Place.left (w.feeds k).place) (.feed k) step_signalled
    (fun w a h => feed_never_up h (step_advances S w a) k) ?_ h
    (Nat.le_trans (place_left_bound (h.fed k)) enough) fair)
  intro w a h some taken
  cases a with
  | feed j kernel =>
    cases works : kernel.fails with
    | true => simp [turn, works] at taken
    | false =>
      simp only [turn, works, Bool.false_eq_true, if_false, Option.some.injEq,
        Agent.feed.injEq] at taken
      subst taken
      have running : (w.feeds j).place ≠ .exited := by
        intro exited
        simp [exited, Place.left] at some
      have moved := turn_moves S w.ring h.signalled works running (h.fed j)
      have move := feed_moves S w.ring w.shutdown kernel (w.feeds j)
      rw [feed_turn]
      exact (move_left h.signalled move).resolve_right moved
  | _ => cases taken

theorem untilJoins_never_up (advance : Advance S w w')
    (destroying : w.owner.destroying = true) : untilJoins w'.owner ≤ untilJoins w.owner := by
  cases advance <;> simp_all [untilJoins, Owner.destroying, World.setFeed]

theorem destroying_stays (destroying : w.owner.destroying = true) (advance : Advance S w w') :
    w'.owner.destroying = true ∧ (w.owner = .gone → w'.owner = .gone) := by
  cases advance <;> simp_all [Owner.destroying, World.setFeed]

theorem destructor_joins {rounds : Nat} {actions : List (Action n)} (h : Signalled S w)
    (destroying : w.owner.destroying = true) (enough : 4 ≤ rounds)
    (fair : Rounds turn rounds actions) :
    untilJoins (run (step S) w actions).owner = 0 := by
  have few : untilJoins w.owner ≤ 4 := by cases w.owner <;> simp [untilJoins]
  refine turns_finish (I := fun w => Signalled S w ∧ w.owner.destroying = true)
    (fun w => untilJoins w.owner) .owner
    (fun w a h => ⟨step_signalled w a h.1, (destroying_stays h.2 (step_advances S w a)).1⟩)
    (fun w a h => untilJoins_never_up (step_advances S w a) h.2) ?_
    ⟨h, destroying⟩ (Nat.le_trans few enough) fair
  intro w a h some taken
  cases a with
  | owner =>
    have ended := signalled_joined h.1.orderly h.1.signalled
    simp only [step, World.ownerStep]
    cases owner : w.owner <;> simp_all [untilJoins]
  | feed k kernel =>
    simp only [turn] at taken
    split at taken <;> cases taken
  | _ => cases taken

theorem ended_stays (h : Closing S w) (ended : AllEnded w) (advance : Advance S w w') :
    AllEnded w' := by
  have next := advance_closing h advance
  obtain ⟨returned, _, exited⟩ := ended
  have still : w'.downstream ≠ .running := by
    cases advance with
    | start free absent => exact absurd absent (ending_launched h free)
    | signalled running finished => simp
    | _ => exact returned
  refine ⟨still, heartbeat_ended next.orderly still, fun i => ?_⟩
  have turn := advance_turns advance i
  generalize w'.feeds i = t' at turn
  cases turn with
  | aside => exact exited i
  | move move => exact move_exited move (exited i)
  | arrive client datagram room =>
    exact (arrive_same (w.feeds i) client datagram room).2.1.trans (exited i)

structure Joins (S : Setup) (w : World n) : Prop extends Closing S w where
  ended : AllEnded w
  destroying : w.owner.destroying = true
  behind : untilJoins w.owner = 0

theorem advance_joins (h : Joins S w) (advance : Advance S w w') : Joins S w' := by
  refine ⟨advance_closing h.toClosing advance, ended_stays h.toClosing h.ended advance,
    (destroying_stays h.destroying advance).1, ?_⟩
  have destroying := h.destroying
  have behind := h.behind
  cases advance <;> simp_all [untilJoins, Owner.destroying, World.setFeed]

theorem joinsLeft_bound (h : Joins S w) : joinsLeft n w.owner ≤ n + 6 := by
  cases at_ : w.owner with
  | releasing left =>
    have remaining := h.orderly.remaining
    rw [at_] at remaining
    have few := remaining.length_le
    simp only [MoldServerLifetimes.Owner.left, releaseOrder, List.length_cons,
      List.length_nil] at few
    simp only [joinsLeft]
    omega
  | joiningFeeds k => simp only [joinsLeft]; omega
  | _ => simp [joinsLeft]

theorem joinsLeft_gone (h : Joins S w) (none_ : joinsLeft n w.owner = 0) : w.owner = .gone := by
  have destroying := h.destroying
  have behind := h.behind
  cases owner : w.owner <;> simp_all [joinsLeft, untilJoins, Owner.destroying]

theorem joinsLeft_never_up (h : Joins S w) (advance : Advance S w w') :
    joinsLeft n w'.owner ≤ joinsLeft n w.owner := by
  have destroying := h.destroying
  have behind := h.behind
  cases advance with
  | joinedFeed at_ inside ended => simp only [at_, joinsLeft]; omega
  | joinedAll at_ all =>
    simp only [at_, joinsLeft, releaseOrder, List.length_cons, List.length_nil]
    omega
  | _ => simp_all [joinsLeft, untilJoins, Owner.destroying, World.setFeed]

theorem destructor_returns {rounds : Nat} {actions : List (Action n)} (h : Joins S w)
    (enough : n + 6 ≤ rounds) (fair : Rounds turn rounds actions) :
    (run (step S) w actions).owner = .gone := by
  have keeps : ∀ (w : World n) a, Joins S w → Joins S (step S w a) :=
    fun w a h => advance_joins h (step_advances S w a)
  refine joinsLeft_gone (run_always keeps actions h) ?_
  refine turns_finish (fun w => joinsLeft n w.owner) .owner keeps
    (fun w a h => joinsLeft_never_up h (step_advances S w a)) ?_ h
    (Nat.le_trans (joinsLeft_bound h) enough) fair
  intro w a h some taken
  cases a with
  | owner =>
    have exited := h.ended.2.2
    simp only [step, World.ownerStep]
    cases owner : w.owner with
    | joiningFeeds k =>
      by_cases inside : k < n
      · simp only [dif_pos inside, if_pos (exited ⟨k, inside⟩), joinsLeft]
        omega
      · simp only [dif_neg inside, joinsLeft, releaseOrder, List.length_cons, List.length_nil]
        omega
    | releasing left => cases left <;> simp [joinsLeft]
    | _ => simp [owner, joinsLeft] at some
  | feed k kernel =>
    simp only [turn] at taken
    split at taken <;> cases taken
  | _ => cases taken

theorem feeds_end {rounds : Nat} {actions : List (Action n)} (h : Signalled S w)
    (enough : n = 0 ∨ 11 ≤ rounds) (fair : Rounds turn rounds actions) :
    AllEnded (run (step S) w actions) := by
  have after : Signalled S (run (step S) w actions) := run_always step_signalled actions h
  have ended := signalled_joined after.orderly after.signalled
  refine ⟨ended, heartbeat_ended after.orderly ended, fun k => ?_⟩
  rcases enough with none_ | enough
  · exact absurd k.isLt (by omega)
  · exact feed_ends h k enough fair

/-- A server that was told to stop, by stop or by its destructor, at any point of any run:
    when every thread has had its turn often enough, no thread runs any more, and the
    destructor has returned if it was called. How often depends on the packet size and on
    the number of feeds, not on what is left of the file, nor on what clients send. -/
theorem stopped_server_ends (S : Setup) (earlier later : List (Action n))
    (told : Ending (run (step S) (initial S n) earlier))
    (fair : Rounds turn (S.config.capacity + 9 * n + 24) later) :
    AllEnded (run (step S) (initial S n) (earlier ++ later)) ∧
      ((run (step S) (initial S n) earlier).owner.destroying = true →
        (run (step S) (initial S n) (earlier ++ later)).owner = .gone) := by
  have closing : Closing S (run (step S) (initial S n) earlier) :=
    ⟨run_underway S earlier, told, run_halfPushed S earlier⟩
  -- a feed takes no more than 11 turns, and the owner, who goes on meanwhile, no more than 4
  obtain ⟨middle, few, some⟩ : ∃ middle, S.config.capacity + 14 + (middle + (n + 6)) ≤
      S.config.capacity + 9 * n + 24 ∧ 4 ≤ middle ∧ (n = 0 ∨ 11 ≤ middle) := by
    by_cases none_ : n = 0
    · exact ⟨4, by omega, Nat.le_refl 4, Or.inl none_⟩
    · exact ⟨11, by omega, by decide, Or.inr (Nat.le_refl 11)⟩
  obtain ⟨first, rest, rfl, early, late⟩ := rounds_split (rounds_fewer fair few)
  obtain ⟨second, third, rfl, during, last⟩ := rounds_split late
  rw [run_append, run_append, run_append]
  generalize run (step S) (initial S n) earlier = w at *
  have keeps : ∀ (w : World n) a, Closing S w → Closing S (step S w a) :=
    fun w a h => advance_closing h (step_advances S w a)
  have signalled : Signalled S (run (step S) w first) :=
    ⟨run_always keeps first closing,
      rounds_reach (signal_progress S n) closing (signalLeft_bound closing) early⟩
  have ended := feeds_end signalled some.2 during
  have after : Closing S (run (step S) (run (step S) w first) second) :=
    run_always keeps second signalled.toClosing
  have stays : ∀ (w : World n) a, Closing S w ∧ AllEnded w → Closing S (step S w a) ∧ AllEnded (step S w a) :=
    fun w a h => ⟨keeps w a h.1, ended_stays h.1 h.2 (step_advances S w a)⟩
  refine ⟨(run_always stays third ⟨after, ended⟩).2, fun destroying => ?_⟩
  have still : ∀ (actions : List (Action n)) (w : World n), w.owner.destroying = true →
      (run (step S) w actions).owner.destroying = true := fun actions w h =>
    run_always (I := fun w : World n => w.owner.destroying = true)
      (fun w a h => (destroying_stays h (step_advances S w a)).1) actions h
  have told := still first w destroying
  exact destructor_returns ⟨after, ended, still second _ told,
    destructor_joins signalled told some.1 during⟩ (Nat.le_refl _) last

def oneTurnEach (k : Fin 1) : List (Action 1) :=
  [.owner, .downstream false, .heartbeat, .feed k ⟨false, false⟩]

theorem stopped_replay_ends : ∃ S,
    Setup.make ⟨MoldFraming.frame (List.replicate 12 1), fun _ => 0, by decide⟩ ⟨0⟩
      { session := List.replicate 10 0x20 } 4 = .ok S ∧
    AllEnded (run (step S) (initial S 1) ([.call .start, .call .stop] ++
      (List.replicate (S.config.capacity + 9 * 1 + 24) (oneTurnEach 0)).flatten)) := by
  refine ⟨_, rfl, (stopped_server_ends _ [.call .start, .call .stop] _ (Or.inl rfl)
    (rounds_repeat ?_ _)).1⟩
  intro agent
  cases agent with
  | owner => exact ⟨.owner, by simp [oneTurnEach], rfl⟩
  | downstream => exact ⟨.downstream false, by simp [oneTurnEach], rfl⟩
  | heartbeat => exact ⟨.heartbeat, by simp [oneTurnEach], rfl⟩
  | feed k => exact ⟨.feed 0 ⟨false, false⟩, by simp [oneTurnEach], by simp [turn, Subsingleton.elim k 0]⟩

end MoldServerShutdown
