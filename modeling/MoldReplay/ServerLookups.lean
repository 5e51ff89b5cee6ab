import MoldReplay.ServerRuns
import MoldReplay.LookupInstants
import Mathlib.Data.List.GetD

/- The buffer of a server and the lookups of its feeds, as the race of one writer with so
   many readers. What holds of every race holds in a server, where numbers and positions are
   those of the replay. -/
namespace MoldServerLookups
open FixedBytes MoldWire MoldFraming MoldPacket MoldBuffer MoldDownstream MoldLedger MoldRerequest
open MoldHeartbeatLifecycle MoldServerRuns MoldLookupInstants ScheduledRuns
open MoldRetransmission (SockAddr RequestContext)

variable {n : Nat}

/-- The file positions of the records stored so far, by their numbers. -/
def World.stores (w : World n) : List Nat :=
  (pushedRecords w.heart.thread.feed.log).map MessageRecord.filePosition ++
    if w.stored then [w.heart.thread.feed.filePos] else []

def World.position (w : World n) (number : Nat) : Nat := (World.stores w).getD (number - 1) 0

/-- How far a feed's thread is in file_position_for, or what its last lookup came to. -/
def FeedThread.lookup (t : FeedThread) : MoldRacing.Lookup :=
  match t.place with
  | .comparing request _ => .inRange request.startingSequence
  | .fetching request _ => .matched request.startingSequence
  | .constructing | .waiting | .dispatching _ | .answering _ _ | .exited =>
    match t.looked.getLast? with
    | none => .idle
    | some (request, found) => .done request.startingSequence found

def World.shared (w : World n) : MoldRacing.Shared := {
  buffer := w.ring
  next := (pushedRecords w.heart.thread.feed.log).length + 1
  stored := w.stored
  readers := fun k => if inside : k < n then FeedThread.lookup (w.feeds ⟨k, inside⟩) else .idle }

/-- A record that is stored and not published is that of a message about to be added. -/
def HalfPushed (S : Setup) (w : World n) : Prop := w.stored = true → w.pushes S = true

variable {S : Setup} {w w' : World n} {position : Nat → Nat}

theorem advance_halfPushed (h : HalfPushed S w) (advance : Advance S w w') : HalfPushed S w' := by
  cases advance with
  | storeRecord running pushes fresh => exact fun _ => pushes
  | replay running unfinished ready expired => intro half; cases half
  | beat =>
    intro half
    have pushes := h half
    unfold World.pushes at pushes ⊢
    rwa [heartbeat_thread S w.heart]
  | _ => exact h

theorem run_halfPushed (S : Setup) (actions : List (Action n)) :
    HalfPushed S (run (step S) (initial S n) actions) :=
  run_always (I := HalfPushed S) (fun w a h => advance_halfPushed h (step_advances S w a)) actions
    (by intro half; cases half)

theorem pushes_building (pushes : w.pushes S = true) : ∃ timestamp next,
    w.heart.thread.phase = .building timestamp ∧
      w.heart.thread.feed.addMessage S = .again next := by
  unfold World.pushes at pushes
  split at pushes
  · rename_i timestamp phase
    split at pushes
    · rename_i next pass
      exact ⟨timestamp, next, phase, pass⟩
    · cases pushes
  · cases pushes

inductive Published (S : Setup) (f : Feed) (pushes : Bool) (g : Feed) : Prop where
  | nothing (none_ : pushes = false) (log : pushedRecords g.log = pushedRecords f.log)
      (buffer : g.retransmissionBuffer = f.retransmissionBuffer)
  | record (one : pushes = true)
      (log : pushedRecords g.log = pushedRecords f.log ++ [⟨f.sequenceNumber, f.filePos⟩])
      (buffer : g.retransmissionBuffer = f.retransmissionBuffer.push ⟨f.sequenceNumber, f.filePos⟩)

theorem move_published {t t' : Thread} (move : Move S t t')
    (other : ∀ timestamp, t.phase ≠ .building timestamp) :
    pushedRecords t'.feed.log = pushedRecords t.feed.log ∧
      t'.feed.retransmissionBuffer = t.feed.retransmissionBuffer := by
  cases move with
  | add complete fits => exact absurd rfl (other _)
  | skip _ _ => exact ⟨by simp [pushedRecords, Feed.emit], rfl⟩
  | pace => exact ⟨by simp [pushedRecords, Feed.pace, Feed.emit], rfl⟩
  | send => exact ⟨by simp [pushedRecords, Feed.transmit, Feed.emit], rfl⟩
  | announce => exact ⟨by simp [pushedRecords, Feed.emit], rfl⟩
  | _ => exact ⟨rfl, rfl⟩

theorem replay_published (S : Setup) (w : World n) (inputs : Inputs) :
    Published S w.heart.thread.feed (w.pushes S)
      (MoldHeartbeat.step S w.heart (.downstream inputs)).thread.feed := by
  by_cases building : ∃ timestamp, w.heart.thread.phase = .building timestamp
  · obtain ⟨timestamp, phase⟩ := building
    have free : ¬ (w.heart.thread.phase = .joining ∧ w.heart.beat.running) := by simp [phase]
    have stepped : (MoldHeartbeat.step S w.heart (.downstream inputs)).thread =
        w.heart.thread.step S inputs := by
      simp only [MoldHeartbeat.step, if_neg free]
    rw [stepped, World.pushes, phase]
    have addition := addMessage_addition S w.heart.thread.feed
    simp only [Thread.step, phase]
    generalize w.heart.thread.feed.addMessage S = result at addition ⊢
    cases addition with
    | closes => exact .nothing rfl rfl rfl
    | unreadable _ _ => exact .nothing rfl rfl rfl
    | adds _ _ => exact .record rfl (by simp [pushedRecords, Feed.accept, Feed.emit]) rfl
  · have other : ∀ timestamp, w.heart.thread.phase ≠ .building timestamp :=
      fun timestamp phase => building ⟨timestamp, phase⟩
    have idle : w.pushes S = false := by
      unfold World.pushes
      split
      · exact absurd ‹_› (other _)
      · rfl
    rcases replay_thread S w.heart inputs with same | stepped
    · exact .nothing idle (by rw [same]) (by rw [same])
    · obtain ⟨log, buffer⟩ := move_published (step_moves (S := S) w.heart.thread inputs) other
      exact .nothing idle (by rw [stepped]; exact log) (by rw [stepped]; exact buffer)

def Positioned (position : Nat → Nat) (w : World n) : Prop :=
  ∀ i < (World.stores w).length, position (i + 1) = (World.stores w).getD i 0

theorem position_positioned (w : World n) : Positioned (World.position w) w := by
  intro i _
  rfl

theorem positioned_earlier (positioned : Positioned position w')
    (grows : World.stores w <+: World.stores w') : Positioned position w := by
  intro i inside
  obtain ⟨more, same⟩ := grows
  have further : i < (World.stores w').length := by
    rw [← same, List.length_append]
    omega
  rw [positioned i further, ← same, List.getD_append _ _ _ _ inside]

theorem ring_whole (whole : w.stored = false) :
    w.ring = w.heart.thread.feed.retransmissionBuffer := by
  simp [World.ring, whole]

theorem ring_half (half : w.stored = true) : w.ring = w.heart.thread.feed.retransmissionBuffer.store
    ⟨w.heart.thread.feed.sequenceNumber, w.heart.thread.feed.filePos⟩ := by
  simp [World.ring, half]

theorem stores_whole (whole : w.stored = false) : World.stores w =
    (pushedRecords w.heart.thread.feed.log).map MessageRecord.filePosition := by
  simp [World.stores, whole]

theorem stores_half (half : w.stored = true) : World.stores w =
    (pushedRecords w.heart.thread.feed.log).map MessageRecord.filePosition ++
      [w.heart.thread.feed.filePos] := by
  simp [World.stores, half]

theorem replay_stored (half : HalfPushed S w) (ready : w.pushes S = true → w.stored = true) :
    w.pushes S = w.stored := by
  cases stored : w.stored with
  | true => exact half stored
  | false =>
    cases pushes : w.pushes S with
    | false => rfl
    | true => exact absurd (ready pushes) (by simp [stored])

theorem advance_stores (half : HalfPushed S w) (advance : Advance S w w') :
    World.stores w <+: World.stores w' := by
  cases advance with
  | storeRecord running pushes fresh =>
    rw [stores_whole fresh, stores_half rfl]
    exact List.prefix_append _ _
  | replay running unfinished ready expired =>
    have same := replay_stored half ready
    rw [stores_whole (w := { w with heart := _, stored := false }) rfl]
    have published := replay_published S w ⟨w.stopRequested, expired⟩
    cases published with
    | nothing none_ log buffer => simp only [stores_whole (same.symm.trans none_), log, List.prefix_rfl]
    | record one log buffer =>
      rw [stores_half (same.symm.trans one), log, List.map_append]
      exact List.prefix_rfl
  | beat =>
    have thread := heartbeat_thread S w.heart
    simp only [World.stores, thread]
    exact List.prefix_rfl
  | _ => exact List.prefix_rfl

theorem next_number (follows : Follows S w.heart.thread) :
    (pushedRecords w.heart.thread.feed.log).length + 1 < 2 ^ 64 ∧
      w.heart.thread.feed.sequenceNumber =
        UInt64.ofNat ((pushedRecords w.heart.thread.feed.log).length + 1) := by
  rw [pushed_count follows.tracks]
  exact ⟨numbers_small follows.tracks, follows.tracks.next⟩

theorem storeRecord_shared (follows : Follows S w.heart.thread) (fresh : w.stored = false)
    (positioned : Positioned position { w with stored := true }) :
    World.shared { w with stored := true } =
      MoldRacing.step position (World.shared w) .storeRecord := by
  obtain ⟨small, number⟩ := next_number follows
  have at_next : position ((pushedRecords w.heart.thread.feed.log).length + 1) =
      w.heart.thread.feed.filePos := by
    have stores := stores_half (w := { w with stored := true }) rfl
    have placed := positioned (pushedRecords w.heart.thread.feed.log).length (by simp [stores])
    rw [placed, stores, List.getD_append_right _ _ _ _ (by simp)]
    simp
  have enabled : ¬ (w.stored || decide (2 ^ 64 ≤
      (pushedRecords w.heart.thread.feed.log).length + 1)) = true := by
    rw [fresh, Bool.false_or, decide_eq_true_eq]
    omega
  have stored : World.ring { w with stored := true } = w.ring.store
      ⟨UInt64.ofNat ((pushedRecords w.heart.thread.feed.log).length + 1),
        position ((pushedRecords w.heart.thread.feed.log).length + 1)⟩ := by
    rw [ring_half (w := { w with stored := true }) rfl, ring_whole fresh, at_next, ← number]
  have stepped : MoldRacing.step position (World.shared w) .storeRecord = _ := if_neg enabled
  rw [stepped]
  simp only [World.shared, stored]

theorem replay_shared (follows : Follows S w.heart.thread) (half : HalfPushed S w)
    (ready : w.pushes S = true → w.stored = true) (inputs : Inputs) :
    ∃ more, World.shared { w with
      heart := MoldHeartbeat.step S w.heart (.downstream inputs), stored := false } =
        run (MoldRacing.step position) (World.shared w) more := by
  have same := replay_stored half ready
  have number := (next_number follows).2
  have after := ring_whole (w := { w with
    heart := MoldHeartbeat.step S w.heart (.downstream inputs), stored := false }) rfl
  cases replay_published S w inputs with
  | nothing none_ log buffer =>
    have whole : w.stored = false := same.symm.trans none_
    refine ⟨[], ?_⟩
    simp only [run, List.foldl_nil, World.shared, after, ring_whole whole, log, buffer, whole]
  | record one log buffer =>
    have stored : w.stored = true := same.symm.trans one
    refine ⟨[.publish], ?_⟩
    have pushed : w.ring.publish
        (UInt64.ofNat ((pushedRecords w.heart.thread.feed.log).length + 1)) =
          w.heart.thread.feed.retransmissionBuffer.push
            ⟨w.heart.thread.feed.sequenceNumber, w.heart.thread.feed.filePos⟩ := by
      rw [ring_half stored, ← number]
      rfl
    simp only [run, List.foldl_cons, List.foldl_nil, MoldRacing.step, World.shared, after, log,
      buffer, stored, if_true, pushed, List.length_append, List.length_singleton]

theorem shared_setFeed (w : World n) (k : Fin n) (t : FeedThread)
    (unicast : List (Fin n × SockAddr × Packet)) :
    World.shared { w.setFeed k t with unicast := unicast } =
      (World.shared w).setReader k (FeedThread.lookup t) := by
  have readers : (World.shared { w.setFeed k t with unicast := unicast }).readers =
      ((World.shared w).setReader k (FeedThread.lookup t)).readers := by
    funext i
    simp only [World.shared, MoldRacing.Shared.setReader, World.setFeed]
    by_cases inside : i < n
    · by_cases same : i = k
      · subst same
        simp
      · have apart : ¬ (⟨i, inside⟩ : Fin n) = k := fun equal => same (congrArg Fin.val equal)
        simp [inside, same, apart]
    · have apart : i ≠ k := fun equal => inside (equal ▸ k.isLt)
      simp [inside, apart]
  exact congrArg (MoldRacing.Shared.mk _ _ _) readers

theorem shared_reader (w : World n) (k : Fin n) :
    (World.shared w).readers k = FeedThread.lookup (w.feeds k) := by
  simp [World.shared]

theorem setReader_same (st : MoldRacing.Shared) (r : Nat) : st.setReader r (st.readers r) = st := by
  have readers : (st.setReader r (st.readers r)).readers = st.readers := by
    funext i
    simp only [MoldRacing.Shared.setReader]
    split
    · rename_i same
      rw [same]
    · rfl
  exact congrArg (MoldRacing.Shared.mk _ _ _) readers

theorem settle_lookup (t : FeedThread) (request : Wanted) (events : List Readable)
    (found : Option Nat) :
    FeedThread.lookup (t.settle request events found) = .done request.startingSequence found := by
  cases found <;> simp [FeedThread.settle, FeedThread.lookup]

theorem dispatching_outside {t : FeedThread} {events : List Readable}
    (place : t.place = .dispatching events) : Lookup.outside (FeedThread.lookup t) = true := by
  simp only [FeedThread.lookup, place]
  split <;> rfl

theorem move_lookup (st : MoldRacing.Shared) (r : Nat) {shutdown : Nat} {kernel : Kernel}
    {t t' : FeedThread} {response : Option (SockAddr × Packet)}
    (reader : st.readers r = FeedThread.lookup t)
    (move : FeedMove S st.buffer shutdown kernel t (t', response)) :
    ∃ more, st.setReader r (FeedThread.lookup t') = run (MoldRacing.step position) st more := by
  have aside (same : FeedThread.lookup t' = FeedThread.lookup t) :
      ∃ more, st.setReader r (FeedThread.lookup t') = run (MoldRacing.step position) st more :=
    ⟨[], by rw [same, ← reader, setReader_same]; rfl⟩
  cases move with
  | still => exact aside rfl
  | construct place => exact aside (by simp [FeedThread.lookup, place])
  | report place some => exact aside (by simp [FeedThread.lookup, place])
  | again place => exact aside (by simp [FeedThread.lookup, place])
  | leave place => exact aside (by simp [FeedThread.lookup, place])
  | lose place => exact aside (by simp [FeedThread.lookup, place])
  | answer place => exact aside (by simp [FeedThread.lookup, place])
  | miss place other =>
    rename_i request events
    refine ⟨[.compare r], ?_⟩
    have asks : st.readers r = .inRange request.startingSequence := by
      rw [reader, FeedThread.lookup, place]
    rw [settle_lookup]
    simp [run, MoldRacing.step, asks, other]
  | found place same =>
    rename_i request events
    refine ⟨[.compare r], ?_⟩
    have asks : st.readers r = .inRange request.startingSequence := by
      rw [reader, FeedThread.lookup, place]
    simp [run, MoldRacing.step, asks, same, FeedThread.lookup]
  | fetch place =>
    rename_i request events
    refine ⟨[.readPosition r], ?_⟩
    have asks : st.readers r = .matched request.startingSequence := by
      rw [reader, FeedThread.lookup, place]
    rw [settle_lookup]
    simp [run, MoldRacing.step, asks]
  | take place queued =>
    rename_i events client datagram queue
    have outside := dispatching_outside place
    have taken := take_taken st.buffer t client datagram queue events
    generalize t.take st.buffer client datagram queue events = t' at taken aside ⊢
    have begins (s : SequenceNumber) : run (MoldRacing.step position) st [.start r s] =
        st.setReader r (if st.buffer.outOfRange s then .done s none else .inRange s) := by
      simp only [run, List.foldl_cons, List.foldl_nil, MoldRacing.step, reader]
      cases at_ : FeedThread.lookup t with
      | inRange _ => simp [at_, Lookup.outside] at outside
      | matched _ => simp [at_, Lookup.outside] at outside
      | _ => rfl
    cases taken with
    | ignored unread => exact aside (by simp [FeedThread.lookup, place])
    | @turnedAway request read out =>
      refine ⟨[.start r request.startingSequence], ?_⟩
      rw [begins, if_pos out]
      simp [FeedThread.lookup]
    | @lookedUp request read inside =>
      refine ⟨[.start r request.startingSequence], ?_⟩
      rw [begins, inside]
      simp [FeedThread.lookup]

theorem advance_shared (follows : Follows S w.heart.thread) (half : HalfPushed S w)
    (positioned : Positioned position w') (advance : Advance S w w') :
    ∃ more, World.shared w' = run (MoldRacing.step position) (World.shared w) more := by
  cases advance with
  | storeRecord running pushes fresh =>
    exact ⟨[.storeRecord], storeRecord_shared follows fresh positioned⟩
  | replay running unfinished ready expired => exact replay_shared follows half ready _
  | beat =>
    refine ⟨[], ?_⟩
    have thread := heartbeat_thread S w.heart
    simp only [run, List.foldl_nil, World.shared, World.ring, thread]
  | feed k move =>
    rw [shared_setFeed]
    exact move_lookup (World.shared w) k (shared_reader w k) move
  | arrive k client datagram room =>
    obtain ⟨_, place, _, looked⟩ := arrive_same (w.feeds k) client datagram room
    have same : FeedThread.lookup ((w.feeds k).arrive client datagram room) =
        FeedThread.lookup (w.feeds k) := by
      simp only [FeedThread.lookup, place, looked]
    refine ⟨[], ?_⟩
    have set := shared_setFeed w k ((w.feeds k).arrive client datagram room) w.unicast
    rw [same, ← shared_reader w k, setReader_same] at set
    exact set
  | _ => exact ⟨[], rfl⟩

theorem initial_shared (S : Setup) (n : Nat) :
    World.shared (initial S n) = MoldRacing.initial S.emptyBuffer := by
  have readers : (World.shared (initial S n)).readers = fun _ => .idle := by
    funext i
    simp only [World.shared, initial, FeedThread.lookup]
    split <;> rfl
  exact congrArg (MoldRacing.Shared.mk _ _ _) readers

/-- The buffer and the lookups of a server are a race of one writer with n readers, and the
    multicast side is Feed::start with its heartbeat. -/
theorem run_shared (S : Setup) (actions : List (Action n))
    (positioned : Positioned position (run (step S) (initial S n) actions)) :
    ∃ accesses, World.shared (run (step S) (initial S n) actions) =
      run (MoldRacing.step position) (MoldRacing.initial S.emptyBuffer) accesses := by
  induction actions using List.reverseRecOn with
  | nil => exact ⟨[], initial_shared S n⟩
  | append_singleton actions a ih =>
    rw [run_snoc] at positioned ⊢
    have half := run_halfPushed S actions
    have advance := step_advances S (run (step S) (initial S n) actions) a
    obtain ⟨accesses, before⟩ := ih (positioned_earlier positioned (advance_stores half advance))
    obtain ⟨more, next⟩ := advance_shared (run_server_follows S actions) half positioned advance
    exact ⟨accesses ++ more, by rw [next, before, run_append]⟩

theorem shared_written (w : World n) : (World.shared w).written = (World.stores w).length := by
  cases stored : w.stored with
  | true => simp [MoldRacing.Shared.written, World.shared, stored, stores_half stored]
  | false => simp [MoldRacing.Shared.written, World.shared, stored, stores_whole stored]

theorem position_entry (follows : Follows S w.heart.thread) {number : Nat} (positive : 1 ≤ number)
    (pushed : number < (World.shared w).next) :
    ∃ e, (ledger S w.heart.thread.feed.log).entries[number - 1]? = some e ∧
      World.position w number = e.position := by
  simp only [World.shared, pushed_count follows.tracks] at pushed
  have inside : number - 1 < (ledger S w.heart.thread.feed.log).entries.length := by omega
  refine ⟨_, List.getElem?_eq_getElem inside, ?_⟩
  rw [World.position, World.stores, pushed_positions follows.tracks,
    List.getD_append _ _ _ _ (by rwa [positions_length]), positions,
    List.getD_eq_getElem?_getD, List.getElem?_map, List.getElem?_eq_getElem inside]
  rfl

theorem run_recorded (S : Setup) (actions : List (Action n)) :
    Recorded S.bufferSize.toNat (World.position (run (step S) (initial S n) actions))
      (World.shared (run (step S) (initial S n) actions)) := by
  have positioned := position_positioned (run (step S) (initial S n) actions)
  obtain ⟨accesses, same⟩ := run_shared S actions positioned
  rw [same]
  exact run_always step_recorded accesses (initial_recorded S.sized _)

/-- No file is so long that numbers come near the end of their range. -/
theorem next_bounded (follows : Follows S w.heart.thread) :
    (World.shared w).next + S.bufferSize.toNat ≤ 2 ^ 64 := by
  have span := follows.tracks.span
  have inside := follows.tracks.inside
  have small := S.file.small
  have size := (construct_size S.sized).2
  simp only [MappedFile.size, recordMaxSize] at inside size
  simp only [World.shared, pushed_count follows.tracks]
  omega

/-- The position pushed with this number, or with one that has come into its slot since. -/
def World.Lapped (S : Setup) (w : World n) (s : SequenceNumber) (p : Nat) : Prop :=
  ∃ laps, s.toNat + laps * S.bufferSize.toNat ≤ (World.stores w).length ∧
    p = World.position w (s.toNat + laps * S.bufferSize.toNat)

theorem position_later (grows : World.stores w <+: World.stores w') {number : Nat}
    (positive : 1 ≤ number) (inside : number ≤ (World.stores w).length) :
    World.position w' number = World.position w number := by
  obtain ⟨more, same⟩ := grows
  simp only [World.position, ← same]
  exact List.getD_append _ _ _ _ (by omega)

theorem lapped_stays (grows : World.stores w <+: World.stores w') {s : SequenceNumber} {p : Nat}
    (real : s ≠ 0) (lapped : World.Lapped S w s p) : World.Lapped S w' s p := by
  obtain ⟨laps, inside, same⟩ := lapped
  have positive := real_positive real
  refine ⟨laps, Nat.le_trans inside grows.length_le, ?_⟩
  rw [same, position_later grows (by omega) inside]

variable {k : Fin n} {request : Wanted} {events : List Readable}

theorem comparing_pushed (recorded : Recorded S.bufferSize.toNat position (World.shared w))
    (place : (w.feeds k).place = .comparing request events) :
    request.startingSequence.toNat < (World.shared w).next := by
  refine recorded.inRange k request.startingSequence ?_
  rw [shared_reader, FeedThread.lookup, place]

theorem fetching_pushed (recorded : Recorded S.bufferSize.toNat position (World.shared w))
    (place : (w.feeds k).place = .fetching request events) :
    request.startingSequence.toNat < (World.shared w).next := by
  refine recorded.matched k request.startingSequence ?_
  rw [shared_reader, FeedThread.lookup, place]

theorem comparing_settles (follows : Follows S w.heart.thread)
    (recorded : Recorded S.bufferSize.toNat position (World.shared w))
    (place : (w.feeds k).place = .comparing request events)
    (real : request.startingSequence ≠ 0) :
    ((w.ring.entry request.startingSequence).sequenceNumber = request.startingSequence →
      w.ring.filePositionFor request.startingSequence =
        some (position request.startingSequence.toNat)) ∧
    ((w.ring.entry request.startingSequence).sequenceNumber ≠ request.startingSequence →
      w.ring.filePositionFor request.startingSequence = none) := by
  have matching := matching_iff recorded real (comparing_pushed recorded place)
  have found := found_iff_holds recorded (next_bounded follows) real
  exact ⟨fun same => found.1 (matching.mp same), fun other => found.2 (mt matching.mpr other)⟩

theorem fetching_lapped
    (recorded : Recorded S.bufferSize.toNat (World.position w) (World.shared w))
    (place : (w.feeds k).place = .fetching request events)
    (real : request.startingSequence ≠ 0) :
    World.Lapped S w request.startingSequence
      (w.ring.entry request.startingSequence).filePosition := by
  obtain ⟨laps, inside, _, held⟩ := entry_newest recorded real (fetching_pushed recorded place)
  have size : w.ring.buffer.length = S.bufferSize.toNat := recorded.size
  have entry : w.ring.entry request.startingSequence =
      MoldRacing.numbered (World.position w)
        (request.startingSequence.toNat + laps * w.ring.buffer.length) := held
  rw [shared_written] at inside
  rw [show (World.shared w).buffer.buffer.length = S.bufferSize.toNat from size] at inside
  exact ⟨laps, inside, by rw [entry, size]; rfl⟩

def Action.starts : Action n → Bool
  | .call .start => true
  | _ => false

/-- No more than one start, which is all that the model speaks of. -/
def StartedOnce (actions : List (Action n)) : Prop := actions.countP Action.starts ≤ 1

/-- Whatever the threads of a server do in whatever order, and wherever it is stopped: what it
    multicasts is what Feed::start and its heartbeat multicast on their own, and its buffer
    and the lookups in it are those of one writer and so many readers. -/
theorem server_run_refined (S : Setup) (actions : List (Action n)) (_once : StartedOnce actions) :
    let w := run (step S) (initial S n) actions
    (∃ beats, w.heart = run (MoldHeartbeat.step S) (MoldHeartbeat.initial S) beats) ∧
    ∃ accesses, World.shared w =
      run (MoldRacing.step (World.position w)) (MoldRacing.initial S.emptyBuffer) accesses :=
  ⟨run_heart S actions, run_shared S actions (position_positioned _)⟩

/-- A request that has been compared, between the two halves of a push. -/
def halfPushed : List (Action 1) :=
  [.call .start, .feed 0 ⟨false, false⟩] ++ List.replicate 4 (.downstream false) ++
    [.arrive 0 ⟨0, 0⟩ (MoldRetransmission.request (List.replicate 10 0x20) 1 1) true] ++
    List.replicate 3 (.feed 0 ⟨false, false⟩) ++ [.downstream false]

theorem racing_server_refined : ∃ S,
    Setup.make ⟨frame (List.replicate 12 1) ++ frame (List.replicate 12 2), fun _ => 0, by decide⟩
      ⟨0⟩ { session := List.replicate 10 0x20 } 4 = .ok S ∧
    (World.shared (run (step S) (initial S 1) halfPushed)).stored = true ∧
    (World.shared (run (step S) (initial S 1) halfPushed)).readers 0 = .matched 1 ∧
    ∃ accesses, World.shared (run (step S) (initial S 1) halfPushed) =
      run (MoldRacing.step (World.position (run (step S) (initial S 1) halfPushed)))
        (MoldRacing.initial S.emptyBuffer) accesses :=
  ⟨_, rfl, by decide +kernel, by decide +kernel,
    (server_run_refined _ halfPushed (by unfold StartedOnce; decide)).2⟩

end MoldServerLookups
