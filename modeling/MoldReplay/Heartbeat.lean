import MoldReplay.GapFree

/- downstream::Heartbeat and its thread, beside the thread of Feed::start that starts it
   and joins it. A step of the heartbeat is one access to what the two share: the stop
   flag, sent_sequence_number_ and the socket. -/
namespace MoldHeartbeat
open FixedBytes MoldWire MoldFraming MoldPacket MoldDownstream MoldLedger MoldGapFree
open NumberedStream ScheduledRuns

structure Heartbeat where
  packet : List UInt8
  deriving DecidableEq, Repr

def construct (session : List UInt8) : Heartbeat :=
  let packet : List UInt8 := List.replicate headerLength 0
  let packet := writeAt packet sessionOffset session
  -- the sequence number is written by every send
  ⟨writeAtBe native messageCountSize packet messageCountOffset heartbeatMsgCount.toNat⟩

def Heartbeat.send (h : Heartbeat) (seq : SequenceNumber) : Heartbeat × Packet :=
  let packet := writeAtBe native sequenceNumberSize h.packet sequenceNumberOffset seq.toNat
  (⟨packet⟩, ⟨[packet]⟩)

inductive Place where
  | absent
  | checking
  | loading
  | sending (seq : SequenceNumber)
  | sleeping
  | exited
  deriving DecidableEq, Repr

structure Beat where
  heartbeat : Heartbeat
  place : Place
  stopRequested : Bool
  deriving DecidableEq, Repr

def Beat.running (b : Beat) : Bool := b.place != .absent && b.place != .exited

inductive Datagram where
  | data (packet : Packet)
  | heartbeat (packet : Packet)
  | endOfSession (packet : Packet)
  deriving DecidableEq, Repr

/-- Both threads, and what was handed to the socket, oldest first. -/
structure World where
  thread : Thread
  beat : Beat
  wire : List Datagram

inductive Action where
  | downstream (inputs : Inputs)
  | heartbeat

def datagram : Event → Option Datagram
  | .sent p => some (.data p)
  | .endOfSession p => some (.endOfSession p)
  | _ => none

def emitted (t t' : Thread) : List Datagram :=
  (t'.feed.log.drop t.feed.log.length).filterMap datagram

/-- What the downstream thread does to the heartbeat at this place of start(). -/
def Beat.alongside (b : Beat) : Phase → Beat
  | .starting => { b with place := .checking, stopRequested := false }
  | .stopping => { b with stopRequested := true }
  | _ => b

def World.setPlace (w : World) (place : Place) : World :=
  { w with beat := { w.beat with place := place } }

def initial (S : Setup) : World := ⟨S.thread, ⟨construct S.config.session, .absent, false⟩, []⟩

def step (S : Setup) (w : World) : Action → World
  | .downstream inputs =>
    -- join returns when the heartbeat thread has returned
    if w.thread.phase = .joining ∧ w.beat.running then w
    else {
      thread := w.thread.step S inputs
      beat := w.beat.alongside w.thread.phase
      wire := w.wire ++ emitted w.thread (w.thread.step S inputs) }
  | .heartbeat =>
    match w.beat.place with
    | .absent => w
    | .checking => w.setPlace (if w.beat.stopRequested then .exited else .loading)
    | .loading => w.setPlace (.sending w.thread.feed.sentSequenceNumber)
    | .sending seq =>
      match w.beat.heartbeat.send seq with
      | (heartbeat, packet) => {
        w with
        beat := { w.beat with heartbeat := heartbeat, place := .sleeping }
        wire := w.wire ++ [.heartbeat packet] }
    | .sleeping => w.setPlace .checking
    | .exited => w

/- The wire, by kind of datagram. -/
def dataPackets (wire : List Datagram) : List Packet :=
  wire.filterMap fun | .data p => some p | _ => none
def heartbeats (wire : List Datagram) : List Packet :=
  wire.filterMap fun | .heartbeat p => some p | _ => none
def endOfSessions (wire : List Datagram) : List Packet :=
  wire.filterMap fun | .endOfSession p => some p | _ => none

variable {S : Setup} {f g : Feed} {t t' : Thread} {w : World}

inductive Emits (S : Setup) : Thread → Thread → List Datagram → Prop where
  | quiet {t t' : Thread} (move : Move S t t') (open_ : t.phase ≠ .sending)
      (sent : sentPackets t'.feed.log = sentPackets t.feed.log)
      (ends : endOfSessionPackets t'.feed.log = endOfSessionPackets t.feed.log) : Emits S t t' []
  | data (f : Feed) : Emits S ⟨f, .sending⟩ ⟨f.transmit, .replaying⟩ [.data f.packetBuilder.packet]
  | endOfSession (f : Feed) : Emits S ⟨f, .ending⟩
      ⟨f.emit (.endOfSession f.endOfSessionPacket), .ending⟩ [.endOfSession f.endOfSessionPacket]

theorem emitted_event (p p' : Phase) (same : g.log = f.log) (e : Event) :
    emitted ⟨f, p⟩ ⟨g.emit e, p'⟩ = (datagram e).toList := by
  cases found : datagram e <;> simp [emitted, Feed.emit, same, found]

theorem emit_quiet {p p' : Phase} {e : Event} (move : Move S ⟨f, p⟩ ⟨g.emit e, p'⟩)
    (open_ : p ≠ .sending) (same : g.log = f.log) (sent : sentPackets [e] = [])
    (ends : endOfSessionPackets [e] = []) (none : datagram e = none) :
    Emits S ⟨f, p⟩ ⟨g.emit e, p'⟩ (emitted ⟨f, p⟩ ⟨g.emit e, p'⟩) := by
  rw [emitted_event p p' same, none]
  refine .quiet move open_ ?_ ?_
  · unfold sentPackets at sent ⊢
    simp only [Feed.emit, List.filterMap_append, sent, List.append_nil, same]
  · unfold endOfSessionPackets at ends ⊢
    simp only [Feed.emit, List.filterMap_append, ends, List.append_nil, same]

theorem silent_quiet {p p' : Phase} (move : Move S ⟨f, p⟩ ⟨g, p'⟩) (open_ : p ≠ .sending)
    (same : g.log = f.log) : Emits S ⟨f, p⟩ ⟨g, p'⟩ (emitted ⟨f, p⟩ ⟨g, p'⟩) := by
  have nothing : emitted ⟨f, p⟩ ⟨g, p'⟩ = [] := by simp [emitted, same]
  rw [nothing]
  exact .quiet move open_ (congrArg sentPackets same) (congrArg endOfSessionPackets same)

theorem move_emits (move : Move S t t') : Emits S t t' (emitted t t') := by
  cases move with
  | send =>
    rename_i f
    have event := emitted_event .sending .replaying (rfl : f.log = f.log)
      (.sent f.packetBuilder.packet)
    exact event ▸ Emits.data f
  | announce =>
    rename_i f
    have event := emitted_event .ending .ending (rfl : f.log = f.log)
      (.endOfSession f.endOfSessionPacket)
    exact event ▸ Emits.endOfSession f
  | skip skipped complete =>
    rename_i f
    exact emit_quiet (g := { f with filePos := S.afterMessage f.filePos })
      (.skip skipped complete) (by simp) rfl rfl rfl rfl
  | add complete fits =>
    rename_i f _ _
    exact emit_quiet (e := .pushed ⟨f.sequenceNumber, f.filePos⟩) (.add complete fits) (by simp)
      rfl rfl rfl rfl
  | pace =>
    rename_i f timestamp
    exact emit_quiet (e := .delayed timestamp) .pace (by simp) rfl rfl rfl rfl
  | turn before after onward =>
    rename_i f p p'
    have open_ : p ≠ .sending := by
      rintro rfl
      cases before
    exact silent_quiet (.turn before after onward) open_ rfl
  | skipFails inside skipped incomplete =>
    exact silent_quiet (.skipFails inside skipped incomplete) (by simp) rfl
  | start timestamp kept => exact silent_quiet (.start timestamp kept) (by simp) rfl
  | unreadable inside incomplete =>
    exact silent_quiet (.unreadable inside incomplete) (by simp) rfl
  | close => exact silent_quiet .close (by simp) rfl
  | publish => exact silent_quiet .publish (by simp) rfl

def Stamped (session : List UInt8) (h : Heartbeat) : Prop :=
  ∃ sq, sq.length = 8 ∧ h.packet = session ++ sq ++ bytesBE 2 heartbeatMsgCount.toNat

def heartbeatPacket (session : List UInt8) (seq : Nat) : Packet :=
  ⟨[headerBytes session seq heartbeatMsgCount.toNat]⟩

theorem construct_stamped {session : List UInt8} (ten : session.length = 10) :
    Stamped session (construct session) := by
  refine ⟨List.replicate 8 0, by simp, ?_⟩
  simp only [construct]
  rw [write_session ten, write_count ten (by simp) (by simp)]

theorem send_stamped {session : List UInt8} (ten : session.length = 10) {h : Heartbeat}
    (stamped : Stamped session h) (seq : SequenceNumber) :
    Stamped session (h.send seq).1 ∧ (h.send seq).2 = heartbeatPacket session seq.toNat := by
  obtain ⟨sq, eight, packet⟩ := stamped
  have written := write_number ten eight (bytesBE 2 heartbeatMsgCount.toNat) seq.toNat
  rw [← packet] at written
  simp only [Heartbeat.send, written]
  exact ⟨⟨_, by simp, rfl⟩, rfl⟩

theorem heartbeatPacket_bytes (session : List UInt8) (seq : Nat) :
    (heartbeatPacket session seq).bytes =
      headerBytes session seq heartbeatMsgCount.toNat ++ [] := by
  simp [heartbeatPacket, Packet.bytes]

theorem send_number {session : List UInt8} (ten : session.length = 10) {h : Heartbeat}
    (stamped : Stamped session h) (seq : SequenceNumber) :
    (h.send seq).2.sequenceNumber = seq.toNat := by
  rw [(send_stamped ten stamped seq).2]
  exact header_sequenceNumber (heartbeatPacket_bytes _ _) ten seq.toNat_lt

/-- Everything one step of the two threads can do. -/
inductive Change (S : Setup) (w : World) : World → Prop where
  | still : Change S w w
  | downstream (inputs : Inputs) {ds : List Datagram}
      (joined : w.thread.phase = .joining → w.beat.running = false)
      (emits : Emits S w.thread (w.thread.step S inputs) ds) :
      Change S w
        ⟨w.thread.step S inputs, w.beat.alongside w.thread.phase, w.wire ++ ds⟩
  | turn {place : Place} (running : w.beat.running = true) (started : place ≠ .absent)
      (idle : ∀ seq, place ≠ .sending seq) : Change S w (w.setPlace place)
  | load (running : w.beat.running = true) :
      Change S w (w.setPlace (.sending w.thread.feed.sentSequenceNumber))
  | send {seq : SequenceNumber} (place : w.beat.place = .sending seq) :
      Change S w ⟨w.thread,
        { w.beat with heartbeat := (w.beat.heartbeat.send seq).1, place := .sleeping },
        w.wire ++ [.heartbeat (w.beat.heartbeat.send seq).2]⟩

theorem step_changes (S : Setup) (w : World) (a : Action) : Change S w (step S w a) := by
  cases a with
  | downstream inputs =>
    simp only [step]
    split
    · exact .still
    · rename_i free
      have joined : w.thread.phase = .joining → w.beat.running = false := by
        intro joining
        simpa [joining] using free
      exact .downstream inputs joined (move_emits (step_moves w.thread inputs))
  | heartbeat =>
    have running : ∀ {place}, w.beat.place = place → place ≠ .absent → place ≠ .exited →
        w.beat.running = true := by
      intro place at_place started stays
      simp [Beat.running, at_place, started, stays]
    simp only [step]
    cases place : w.beat.place with
    | absent => exact .still
    | exited => exact .still
    | checking =>
      refine .turn (running place (by simp) (by simp)) ?_ ?_
      all_goals split <;> simp
    | loading => exact .load (running place (by simp) (by simp))
    | sending seq => exact .send place
    | sleeping => exact .turn (running place (by simp) (by simp)) (by simp) (by simp)

end MoldHeartbeat
