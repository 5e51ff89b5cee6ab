import MoldReplay.Scan
import MoldReplay.Requests
import MoldReplay.Disclosure
import MoldReplay.BuilderHistory

/- The least message size that packet builders count on, and the messages they get from
   the file, in the downstream thread and in the workers beside it. -/
namespace MoldSizes
open FixedBytes MoldWire MoldFraming MoldPacket MoldBuffer MoldDownstream MoldLedger
open MoldGapFree MoldRerequest MoldScan MoldHistory MoldRequests MoldDisclosure ScheduledRuns
open NumberedStream (add_entries)
open MoldRetransmission (SockAddr RequestContext Ready request readRun)

/-- What try_add asserts of the messages it takes, and the constructor's reserve. -/
structure Assumed (cfg : Config) (b : PacketBuilder) : Prop where
  asserted : ∀ m, Iovec.message m ∈ b.iovecs → cfg.minMessageSize ≤ m.length
  reserved : b.iovecs.length ≤ reservedEntries cfg

def Everywhere (cfg : Config) (w : World) : Prop :=
  Assumed cfg w.thread.feed.packetBuilder ∧ ∀ k, Assumed cfg (w.workers k).feed.packetBuilder

/-- A position whose message some replay numbers. -/
def Numbered (S : Setup) (pos : Nat) : Prop :=
  Complete S.file.bytes pos ∧
    ∃ room, Reaches S (.reading pos room) ∧ (S.messageAt pos).length ≤ room

/-- A position that some request is answered from. Number 0 is answered from position 0
    as long as its slot is unwritten. -/
def AnsweredFrom (S : Setup) (pos : Nat) : Prop :=
  Numbered S pos ∨ (pos = 0 ∧ 2 ≤ S.bufferSize.toNat ∧ ∃ p, Numbered S p)

/-- Every message read for a replay or for an answer has the least size, and the reserve
    is computed without wrapping around. -/
structure LargeEnough (S : Setup) : Prop where
  numbered : ∀ pos, Numbered S pos → S.config.minMessageSize ≤ (S.messageAt pos).length
  answered : ∀ pos, AnsweredFrom S pos → ∀ m ∈ readRun S.file.bytes 65535 pos S.config.capacity,
    S.config.minMessageSize ≤ m.length
  whole : 1 + S.config.MTU / S.config.minMessageSize < 2 ^ 64

structure Grows (S : Setup) (f g : Feed) : Prop where
  taken : ∀ m, Iovec.message m ∈ g.packetBuilder.iovecs →
    Iovec.message m ∈ f.packetBuilder.iovecs ∨ ∃ pos, Numbered S pos ∧ m = S.messageAt pos
  pushed : pushedRecords g.log = pushedRecords f.log ∨
    ∃ r, pushedRecords g.log = pushedRecords f.log ++ [r] ∧ Numbered S r.filePosition

structure Scanned (S : Setup) (t : Thread) : Prop where
  place : ∃ place, Reaches S place ∧ Heads S t place
  pushed : ∀ r ∈ pushedRecords t.feed.log, Numbered S r.filePosition
  taken : ∀ m, Iovec.message m ∈ t.feed.packetBuilder.iovecs →
    ∃ pos, Numbered S pos ∧ m = S.messageAt pos

structure Bounded (S : Setup) (w : World) : Prop where
  sound : MoldDisclosure.Sound S w
  scanned : Scanned S w.thread
  pending : ∀ k ctx, (w.workers k).pending = some ctx → AnsweredFrom S ctx.filePosition
  carried : ∀ k m, Iovec.message m ∈ (w.workers k).feed.packetBuilder.iovecs →
    ∃ pos, AnsweredFrom S pos ∧ m ∈ readRun S.file.bytes 65535 pos S.config.capacity

variable {S : Setup} {f g : Feed} {t : Thread} {w : World}

theorem grows_kept (taken : g.packetBuilder.iovecs ⊆ f.packetBuilder.iovecs)
    (pushed : pushedRecords g.log = pushedRecords f.log) : Grows S f g :=
  ⟨fun _ member => Or.inl (taken member), Or.inl pushed⟩

theorem emit_grows (e : Event) (none : pushedRecords [e] = []) : Grows S f (f.emit e) := by
  refine grows_kept (List.Subset.refl _) ?_
  unfold pushedRecords at none
  simp only [Feed.emit, pushedRecords, List.filterMap_append, none, List.append_nil]

theorem accept_grows {builder : PacketBuilder} (complete : Complete S.file.bytes f.filePos)
    (reached : Reaches S (.reading f.filePos f.packetBuilder.bytesRemaining))
    (fits : f.packetBuilder.tryAdd (S.messageAt f.filePos) = (true, builder)) :
    Grows S f (f.accept builder (S.afterMessage f.filePos)) := by
  rw [messageAt_tried complete] at fits
  split at fits
  · cases fits
  · rename_i room
    cases fits
    have numbered : Numbered S f.filePos := ⟨complete, _, reached, Nat.not_lt.mp room⟩
    refine ⟨?_, Or.inr ⟨⟨f.sequenceNumber, f.filePos⟩, ?_, numbered⟩⟩
    · intro m member
      rcases List.mem_append.mp member with old | new
      · exact Or.inl old
      · exact Or.inr ⟨_, numbered, Iovec.message.inj (List.mem_singleton.mp new)⟩
    · simp [Feed.accept, Feed.emit, pushedRecords]

theorem step_grows {place : Place} (reached : Reaches S place) (heads : Heads S t place)
    (inputs : Inputs) : Grows S t.feed (t.step S inputs).feed := by
  have move := step_moves (S := S) t inputs
  generalize t.step S inputs = t' at move ⊢
  cases move with
  | turn _ _ _ => exact grows_kept (List.Subset.refl _) rfl
  | skip _ _ => exact grows_kept (List.Subset.refl _) (by simp [Feed.emit, pushedRecords])
  | skipFails _ _ _ => exact grows_kept (List.Subset.refl _) rfl
  | start _ _ => exact grows_kept (List.take_subset _ _) rfl
  | add complete fits =>
    cases heads with
    | stands there =>
      cases there with
      | reading _ _ => exact accept_grows complete reached fits
    | returns _ back => cases back
    | leaves out => cases out
  | unreadable _ _ => exact grows_kept (List.Subset.refl _) rfl
  | close => exact grows_kept (List.Subset.refl _) rfl
  | pace => exact emit_grows _ rfl
  | publish => exact grows_kept (List.Subset.refl _) rfl
  | send => exact emit_grows _ rfl
  | announce => exact emit_grows _ rfl

theorem builder_empty (S : Setup) : S.builder.iovecs = [.header] :=
  (construct_accepts S.built).2.iovecs

theorem builder_carries_nothing (S : Setup) (m : List UInt8) :
    Iovec.message m ∉ S.builder.iovecs := by
  rw [builder_empty, List.mem_singleton]
  nofun

theorem initial_scanned (S : Setup) : Scanned S S.thread := by
  obtain ⟨place, reached, heads⟩ := thread_scanned S []
  refine ⟨⟨place, reached, heads⟩, ?_, ?_⟩
  · intro r member
    cases member
  · intro m member
    exact absurd member (builder_carries_nothing S m)

theorem step_scanned_thread (scanned : Scanned S t) (inputs : Inputs) :
    Scanned S (t.step S inputs) := by
  obtain ⟨⟨place, reached, heads⟩, pushed, taken⟩ := scanned
  have grows := step_grows reached heads inputs
  obtain ⟨place', path, there⟩ := step_scanned t place inputs heads
  refine ⟨⟨place', Relation.ReflTransGen.trans reached path, there⟩, ?_, ?_⟩
  · intro r member
    rcases grows.pushed with same | ⟨new, more, numbered⟩
    · exact pushed r (same ▸ member)
    · rw [more, List.mem_append, List.mem_singleton] at member
      rcases member with old | rfl
      · exact pushed r old
      · exact numbered
  · intro m member
    rcases grows.taken m member with old | new
    · exact taken m old
    · exact new

theorem step_pushes_once (t : Thread) (inputs : Inputs) (scanned : Scanned S t) :
    pushedBy (t.step S inputs).feed ≤ pushedBy t.feed + 1 := by
  obtain ⟨place, reached, heads⟩ := scanned.place
  unfold pushedBy
  rcases (step_grows reached heads inputs).pushed with same | ⟨r, more, _⟩
  · rw [same]
    omega
  · rw [more, List.length_append, List.length_singleton]

theorem found_answered (follows : Follows S t) (scanned : Scanned S t) {s : SequenceNumber}
    {pos : Nat} (found : t.feed.retransmissionBuffer.filePositionFor s = some pos) :
    AnsweredFrom S pos := by
  have bound := pushed_bound follows
  have tracks := follows.tracks
  have records := pushed_positions tracks
  have member : ∀ e ∈ (ledger S t.feed.log).entries, Numbered S e.position := by
    intro e inside
    have pushed : e.position ∈ (pushedRecords t.feed.log).map MessageRecord.filePosition := by
      rw [records]
      exact List.mem_map_of_mem inside
    obtain ⟨r, inLog, same⟩ := List.mem_map.mp pushed
    exact same ▸ scanned.pushed r inLog
  unfold pushedBy at bound
  rw [pushed_count tracks, ← positions_length] at bound
  by_cases positive : 1 ≤ s.toNat
  · have number : UInt64.ofNat s.toNat = s := by simp
    obtain ⟨e, at_s, rfl⟩ := found_entry tracks positive s.toNat_lt (by rwa [number])
    exact Or.inl (member e (List.mem_of_getElem? at_s))
  · have zero : s = 0 := UInt64.toNat_inj.mp (Nat.le_zero.mp (Nat.not_lt.mp positive))
    rcases (found_iff (buffer_pushed tracks) bound s).mp (by rw [found]; rfl) with
      held | ⟨_, pushed, fresh⟩
    · omega
    · rw [zero, zero_found (buffer_pushed tracks) bound pushed fresh] at found
      cases found
      rw [positions_length] at pushed fresh
      exact Or.inr ⟨rfl, by omega, _, member _ (List.getElem_mem pushed)⟩

theorem answer_iovecs {f : MoldRetransmission.Feed} (ready : Ready S.config f)
    (ctx : RequestContext) : (f.answer S.file.bytes ctx).1.packetBuilder.iovecs =
      .header :: (readRun S.file.bytes ctx.msgCount.toNat ctx.filePosition
        S.config.capacity).map .message :=
  (finalize_holds (MoldRetransmission.buildPacket_holds S.file.bytes ready ctx)).iovecs

theorem initial_bounded (S : Setup) : Bounded S (initial S) where
  sound := initial_sound S
  scanned := initial_scanned S
  pending := by
    intro k ctx pending
    cases pending
  carried := by
    intro k m member
    exact absurd member (builder_carries_nothing S m)

theorem step_bounded (w : World) (a : Action) (h : Bounded S w) : Bounded S (step S w a) := by
  have sound := step_sound w a h.sound
  cases a with
  | downstream inputs =>
    exact ⟨sound, step_scanned_thread h.scanned inputs, h.pending, h.carried⟩
  | receive k client datagram =>
    cases busy : (w.workers k).pending with
    | some ctx =>
      simp only [step, busy]
      exact h
    | none =>
      simp only [step, busy] at sound ⊢
      refine ⟨sound, h.scanned, ?_, ?_⟩
      · intro i ctx pending
        simp only [World.setWorker] at pending
        split at pending
        · exact found_answered h.sound.follows h.scanned
            (MoldRetransmission.takeRequest_found pending)
        · exact h.pending i ctx pending
      · intro i m member
        simp only [World.setWorker] at member
        split at member
        · rw [taken_keeps_builder] at member
          exact h.carried k m member
        · exact h.carried i m member
  | answer k =>
    cases busy : (w.workers k).pending with
    | none =>
      simp only [step, busy]
      exact h
    | some ctx =>
      simp only [step, busy] at sound ⊢
      refine ⟨sound, h.scanned, ?_, ?_⟩
      · intro i ctx' pending
        simp only [World.setWorker] at pending
        split at pending
        · cases pending
        · exact h.pending i ctx' pending
      · intro i m member
        simp only [World.setWorker] at member
        split at member
        · rw [answer_iovecs (h.sound.ready k) ctx] at member
          rcases List.mem_cons.mp member with header | carried
          · cases header
          obtain ⟨_, read, same⟩ := List.mem_map.mp carried
          cases same
          have count : ctx.msgCount.toNat ≤ 65535 := Nat.le_of_lt_succ ctx.msgCount.toNat_lt
          exact ⟨_, h.pending k ctx busy, (MoldRetransmission.readRun_prefix count _ _).subset read⟩
        · exact h.carried i m member

theorem assumed_of_sized {b : PacketBuilder} {sq : List UInt8} {ms : List (List UInt8)}
    (holds : Holds S.config b sq ms)
    (whole : 1 + S.config.MTU / S.config.minMessageSize < 2 ^ 64)
    (sized : ∀ m, Iovec.message m ∈ b.iovecs → S.config.minMessageSize ≤ m.length) :
    Assumed S.config b := by
  refine ⟨sized, reserved_suffices holds whole fun m member => sized m ?_⟩
  rw [holds.iovecs]
  exact List.mem_cons_of_mem _ (List.mem_map_of_mem member)

theorem bounded_everywhere (h : Bounded S w) (large : LargeEnough S) :
    Everywhere S.config w := by
  obtain ⟨sq, ms, holds, _⟩ := follows_builder h.sound.follows
  constructor
  · refine assumed_of_sized holds large.whole fun m member => ?_
    obtain ⟨pos, numbered, rfl⟩ := h.scanned.taken m member
    exact large.numbered pos numbered
  · intro k
    obtain ⟨sq, ms, holds⟩ := (h.sound.ready k).builder
    refine assumed_of_sized holds large.whole fun m member => ?_
    obtain ⟨pos, answered, read⟩ := h.carried k m member
    exact large.answered pos answered m read

theorem numbered_accepted {pos : Nat} (numbered : Numbered S pos) :
    ∃ (inputs : List Inputs) (f : Feed) (builder : PacketBuilder) (timestamp : Nat),
      f.filePos = pos ∧
      f.packetBuilder.tryAdd (S.messageAt pos) = (true, builder) ∧
      S.runThread inputs = ⟨f.accept builder (S.afterMessage pos), .building timestamp⟩ := by
  obtain ⟨complete, room, reached, fits⟩ := numbered
  obtain ⟨inputs, there⟩ := scan_taken reached
  generalize at_place : S.runThread inputs = t at there
  cases there with
  | reading timestamp mtu =>
    rename_i f
    have added := (messageAt_tried complete).trans (if_neg (Nat.not_lt.mpr fits))
    refine ⟨inputs ++ [undisturbed], f, _, timestamp, rfl, added, ?_⟩
    rw [runThread_snoc, at_place]
    simp only [Thread.step, addMessage_adds complete added]

theorem numbered_taken {pos : Nat} (numbered : Numbered S pos) :
    ∃ inputs, Iovec.message (S.messageAt pos) ∈ (S.runThread inputs).feed.packetBuilder.iovecs := by
  obtain ⟨inputs, f, builder, timestamp, _, added, reached⟩ := numbered_accepted numbered
  refine ⟨inputs, ?_⟩
  rw [reached]
  rw [messageAt_tried numbered.1] at added
  split at added
  · cases added
  · cases added
    exact List.mem_append_right _ (List.mem_singleton.mpr rfl)

theorem numbered_found {pos : Nat} (numbered : Numbered S pos) :
    ∃ inputs s, (S.runThread inputs).feed.retransmissionBuffer.filePositionFor s = some pos := by
  obtain ⟨inputs, f, builder, timestamp, rfl, _, reached⟩ := numbered_accepted numbered
  have follows := run_follows S inputs
  rw [reached] at follows
  have tracks := follows.tracks
  have bound := pushed_bound follows
  have size := (construct_size S.sized).1
  have nonempty := S.emptyBuffer.nonempty
  unfold pushedBy at bound
  rw [pushed_count tracks] at bound
  rw [ledger_accept, add_entries, List.length_append, List.length_singleton] at bound
  rw [ledger_accept] at tracks
  obtain ⟨e, at_s, found⟩ := live_entry (s := (ledger S f.log).entries.length + 1) tracks
    (by rwa [add_entries, List.length_append, List.length_singleton]) (by omega)
    (by rw [add_entries, List.length_append, List.length_singleton])
    (by rw [add_entries, List.length_append, List.length_singleton]; omega)
  rw [add_entries, Nat.add_sub_cancel, List.getElem?_concat_length] at at_s
  cases at_s
  exact ⟨inputs, _, by rw [reached]; exact found⟩

theorem first_pushed {pos : Nat} (numbered : Numbered S pos) :
    ∃ inputs, pushedBy (S.runThread inputs).feed = 1 := by
  obtain ⟨inputs, f, builder, timestamp, _, _, reached⟩ := numbered_accepted numbered
  have pushed : 1 ≤ pushedBy (S.runThread inputs).feed := by
    rw [reached]
    simp [pushedBy, pushedRecords, Feed.accept, Feed.emit]
  exact run_passes (I := Scanned S) (fun t : Thread => pushedBy t.feed)
    (fun _ i scanned => step_scanned_thread scanned i) (fun t i => step_pushes_once t i)
    (initial_scanned S) (Nat.zero_le _) pushed

theorem answered_found {pos : Nat} (answered : AnsweredFrom S pos) :
    ∃ inputs s, (S.runThread inputs).feed.retransmissionBuffer.filePositionFor s = some pos := by
  rcases answered with numbered | ⟨rfl, room, _, numbered⟩
  · exact numbered_found numbered
  · obtain ⟨inputs, one⟩ := first_pushed numbered
    have follows := run_follows S inputs
    have bound := pushed_bound follows
    unfold pushedBy at bound one
    rw [pushed_count follows.tracks, ← positions_length] at bound one
    exact ⟨inputs, 0, zero_found (buffer_pushed follows.tracks) bound (by omega) (by omega)⟩

theorem downstream_alone (S : Setup) (inputs : List Inputs) :
    run (step S) (initial S) (inputs.map .downstream) =
      { initial S with thread := S.runThread inputs } := by
  induction inputs using List.reverseRecOn with
  | nil => rfl
  | append_singleton inputs i ih => rw [List.map_append, List.map_singleton, run_snoc, ih,
      runThread_snoc, step]

theorem received_step {k : Nat} {client : SockAddr} {datagram : List UInt8}
    (idle : (w.workers k).pending = none) : step S w (.receive k client datagram) =
      w.setWorker k
        ⟨((w.workers k).feed.takeRequest w.thread.feed.retransmissionBuffer client datagram).1,
        ((w.workers k).feed.takeRequest w.thread.feed.retransmissionBuffer client datagram).2⟩ := by
  simp only [step, idle]

theorem found_carried {inputs : List Inputs} {s : SequenceNumber} {pos : Nat}
    (found : (S.runThread inputs).feed.retransmissionBuffer.filePositionFor s = some pos) :
    ∃ actions, ∀ m ∈ readRun S.file.bytes 65535 pos S.config.capacity,
      Iovec.message m ∈
        ((run (step S) (initial S) actions).workers 0).feed.packetBuilder.iovecs := by
  have ready := (initial_sound S).ready 0
  have taken := MoldRetransmission.takeRequest_request ready ⟨0, 0⟩
    (by decide : 65535 < 65536) found
  have ready' := MoldRetransmission.takeRequest_ready ready
    (S.runThread inputs).feed.retransmissionBuffer ⟨0, 0⟩ (request S.config.session s.toNat 65535)
  generalize taking : ((initial S).workers 0).feed.takeRequest
    (S.runThread inputs).feed.retransmissionBuffer ⟨0, 0⟩
    (request S.config.session s.toNat 65535) = result at taken ready'
  obtain ⟨g, pending⟩ := result
  cases taken
  have carried := answer_iovecs ready' ⟨⟨0, 0⟩, s, UInt16.ofNat 65535, pos⟩
  refine ⟨inputs.map .downstream ++
    [.receive 0 ⟨0, 0⟩ (request S.config.session s.toNat 65535), .answer 0], fun m member => ?_⟩
  have received : step S { initial S with thread := S.runThread inputs }
      (.receive 0 ⟨0, 0⟩ (request S.config.session s.toNat 65535)) =
        ({ initial S with thread := S.runThread inputs } : World).setWorker 0
          ⟨g, some ⟨⟨0, 0⟩, s, UInt16.ofNat 65535, pos⟩⟩ := by
    rw [received_step rfl]
    exact congrArg (fun taken => World.setWorker _ 0 ⟨taken.1, taken.2⟩) taking
  rw [run_append, downstream_alone]
  change Iovec.message m ∈ ((step S (step S _ _) (.answer 0)).workers 0).feed.packetBuilder.iovecs
  rw [received]
  change Iovec.message m ∈ (g.answer S.file.bytes _).1.packetBuilder.iovecs
  rw [carried]
  exact List.mem_cons_of_mem _ (List.mem_map_of_mem member)

/-- Every builder gets what it was made for, whatever is replayed and requested, exactly if
    the file holds nothing shorter where it is read. -/
theorem sizes_assumed_iff (S : Setup) (size : S.config.MTU < 2 ^ 64) :
    (∀ actions, Everywhere S.config (run (step S) (initial S) actions)) ↔ LargeEnough S := by
  constructor
  · intro everywhere
    refine ⟨?_, ?_, ?_⟩
    · intro pos numbered
      obtain ⟨inputs, taken⟩ := numbered_taken numbered
      have assumed := (everywhere (inputs.map .downstream)).1
      rw [downstream_alone] at assumed
      exact assumed.asserted _ taken
    · intro pos answered m member
      obtain ⟨inputs, s, found⟩ := answered_found answered
      obtain ⟨actions, carried⟩ := found_carried found
      exact ((everywhere actions).2 0).asserted m (carried m member)
    · have reserved := (everywhere []).1.reserved
      change S.builder.iovecs.length ≤ _ at reserved
      rw [builder_empty] at reserved
      exact (reserves_iff size).mp reserved
  · intro large actions
    exact bounded_everywhere (run_always step_bounded actions (initial_bounded S)) large

theorem least_message_assumed : ∃ S,
    Setup.make ⟨frame (List.replicate 12 1), fun _ => 0, by decide⟩ ⟨0⟩
      { session := List.replicate 10 0x20 } 4 = .ok S ∧
    S.config.MTU < 2 ^ 64 ∧
    ∀ actions, Everywhere S.config (run (step S) (initial S) actions) := by
  refine ⟨_, rfl, by decide, (sizes_assumed_iff ⟨⟨frame (List.replicate 12 1), fun _ => 0,
    by decide⟩, ⟨0⟩, { session := List.replicate 10 0x20 }, 4, _, _, rfl, rfl⟩ (by decide)).mpr ?_⟩
  have alone : ∀ pos, Complete (frame (List.replicate 12 1)) pos →
      14 ≤ (messageAt (frame (List.replicate 12 1)) pos).length := by
    intro pos complete
    have small : pos < 14 := by
      have size : (frame (List.replicate 12 1)).length = 14 := rfl
      omega
    exact (by decide : ∀ pos < 14, Complete (frame (List.replicate 12 1)) pos →
      14 ≤ (messageAt (frame (List.replicate 12 1)) pos).length) pos small complete
  refine ⟨fun pos numbered => alone pos numbered.1, fun pos _ m member => ?_, by decide⟩
  obtain ⟨p, complete, rfl⟩ := MoldRetransmission.readRun_read member
  exact alone p complete

/-- A length of zero is read as a message of two bytes. -/
theorem empty_message_added : ∃ S,
    Setup.make ⟨List.replicate 14 0, fun _ => 0, by decide⟩ ⟨0⟩
      { session := List.replicate 10 0x20 } 4 = .ok S ∧
    S.config.MTU < 2 ^ 64 ∧
    ¬ Everywhere S.config (run (step S) (initial S)
      [.downstream undisturbed, .downstream undisturbed, .downstream undisturbed]) := by
  refine ⟨_, rfl, by decide, fun everywhere => ?_⟩
  have short := everywhere.1.asserted [0, 0] (by decide +kernel)
  exact absurd short (by decide)

end MoldSizes
