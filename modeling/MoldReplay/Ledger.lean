import MoldReplay.Downstream
import MoldReplay.NumberedStream

/- What a downstream run has numbered and sent, as a ledger of file positions and
   messages, and the invariant that ties every state of the thread to its ledger. -/
namespace MoldLedger
open FixedBytes MoldWire MoldFraming MoldPacket MoldBuffer MoldDownstream ScheduledRuns
open NumberedStream

structure Entry where
  position : Nat
  message : List UInt8
  deriving DecidableEq

def Entry.next (e : Entry) : Nat := e.position + e.message.length

def positions (es : List Entry) : List Nat := es.map Entry.position
def messages (es : List Entry) : List (List UInt8) := es.map Entry.message

def frontier (es : List Entry) : Nat := (es.getLast?.map Entry.next).getD 0

def numberedPacket (session : List UInt8) (p : Nat × List Entry) : Packet :=
  dataPacket session p.1 (messages p.2)

def render (session : List UInt8) (packets : List (List Entry)) : List Packet :=
  (numbered 1 packets).map (numberedPacket session)

def Reads (S : Setup) (e : Entry) : Prop :=
  Complete S.file.bytes e.position ∧ e.message = S.messageAt e.position

/-- How the position can be past `e`: nothing else lies between, what lies at `e` does
    not parse, or the timestamp there was skipped. -/
def Reach (S : Setup) (e p : Nat) : Prop :=
  e ≤ p ∧ (p = e ∨ ¬ Complete S.file.bytes e ∨ S.SkippedAt e)

def Gap (S : Setup) (e p : Nat) : Prop :=
  e ≤ p ∧ (p = e ∨ ¬ Complete S.file.bytes e ∨ (S.SkippedAt e ∧ S.KeptAt p))

def Contiguous (es : List Entry) : Prop := es.IsChain fun e e' => e'.position = e.next
def Linked (S : Setup) (es : List Entry) : Prop := es.IsChain fun e e' => Gap S e.next e'.position

structure Packed (S : Setup) (es : List Entry) : Prop where
  contiguous : Contiguous es
  fits : (messages es).flatten.length ≤ S.config.capacity

structure Tracks (S : Setup) (f : Feed) (L : Ledger Entry) : Prop where
  sent : sentPackets f.log = render S.config.session L.packets
  pushed : pushedRecords f.log = records (positions L.entries)
  next : f.sequenceNumber = UInt64.ofNat (L.entries.length + 1)
  buffer : f.retransmissionBuffer = S.emptyBuffer.pushAll (positions L.entries)
  reads : ∀ e ∈ L.entries, Reads S e
  span : 2 * L.entries.length ≤ f.filePos
  inside : f.filePos ≤ S.file.size
  packets : ∀ p ∈ L.packets, Packed S p
  current : Contiguous L.current
  linked : Linked S L.entries
  reach : Reach S (frontier L.entries) f.filePos

structure Opened (S : Setup) (f : Feed) (L : Ledger Entry) : Prop where
  holds : Holds S.config f.packetBuilder (bytesBE 8 (L.sent.length + 1)) (messages L.current)
  announced : f.sentSequenceNumber = UInt64.ofNat (L.sent.length + 1)

def record (S : Setup) (L : Ledger Entry) : Event → Ledger Entry
  | .pushed r => L.add ⟨r.filePosition, S.messageAt r.filePosition⟩
  | .sent _ => L.send
  | _ => L

def ledger (S : Setup) (log : List Event) : Ledger Entry := log.foldl (record S) .empty

/-- What goes with each place in start(), besides Tracks. -/
def AtPhase (S : Setup) (t : Thread) (L : Ledger Entry) : Prop :=
  match t.phase with
  | .building _ => Opened S t.feed L ∧ (L.current = [] → S.KeptAt t.feed.filePos) ∧
      (L.current ≠ [] → t.feed.filePos = frontier L.entries)
  | .pacing _ | .publishing => Opened S t.feed L
  | .sending =>
    t.feed.packetBuilder.packet =
        dataPacket S.config.session (L.sent.length + 1) (messages L.current) ∧
      Holds S.config t.feed.packetBuilder (bytesBE 8 (L.sent.length + 1)) (messages L.current) ∧
      t.feed.sentSequenceNumber = t.feed.sequenceNumber
  | _ => L.current = [] ∧ (∃ sq ms, Holds S.config t.feed.packetBuilder sq ms) ∧
      t.feed.sentSequenceNumber = t.feed.sequenceNumber

structure Follows (S : Setup) (t : Thread) : Prop where
  tracks : Tracks S t.feed (ledger S t.feed.log)
  phase : AtPhase S t (ledger S t.feed.log)

variable {S : Setup} {f g : Feed} {L : Ledger Entry}

@[simp] theorem positions_length (es : List Entry) : (positions es).length = es.length := by
  simp [positions]

@[simp] theorem messages_length (es : List Entry) : (messages es).length = es.length := by
  simp [messages]

@[simp] theorem messages_append (es es' : List Entry) :
    messages (es ++ es') = messages es ++ messages es' := by
  simp [messages]

@[simp] theorem frontier_snoc (es : List Entry) (e : Entry) : frontier (es ++ [e]) = e.next := by
  simp [frontier]

theorem frontier_append (es es' : List Entry) (some : es' ≠ []) :
    frontier (es ++ es') = frontier es' := by
  simp [frontier, List.getLast?_append_of_ne_nil _ some]

theorem render_snoc (session : List UInt8) (packets : List (List Entry)) (p : List Entry) :
    render session (packets ++ [p]) =
      render session packets ++ [dataPacket session (packets.flatten.length + 1) (messages p)] := by
  simp [render, numbered_snoc, numberedPacket, Nat.add_comm 1]

theorem reads_length {e : Entry} (reads : Reads S e) :
    e.message.length = 2 + lengthAt S.file.bytes e.position := by
  rw [reads.2]
  exact messageAt_length reads.1

theorem reads_next {e : Entry} (reads : Reads S e) : e.next = S.afterMessage e.position := by
  unfold Entry.next
  rw [reads_length reads, Setup.afterMessage]
  omega

theorem chain_snoc {R : Entry → Entry → Prop} {es : List Entry} {e : Entry}
    (chain : es.IsChain R) (last : ∀ e' ∈ es.getLast?, R e' e) : (es ++ [e]).IsChain R :=
  List.isChain_append.mpr ⟨chain, .singleton e, by simpa using last⟩

theorem frontier_of_getLast {es : List Entry} {e : Entry} (last : e ∈ es.getLast?) :
    frontier es = e.next := by
  simp [frontier, Option.mem_def.mp last]

/-- Sequence numbers do not wrap: every message takes two bytes of the file. -/
theorem numbers_small (h : Tracks S f L) : L.entries.length + 1 < 2 ^ 64 := by
  have span := h.span
  have inside := h.inside
  have small := S.file.small
  simp only [MappedFile.size] at inside
  omega

theorem sent_le_entries (L : Ledger Entry) : L.sent.length ≤ L.entries.length := by
  simp [Ledger.entries]

theorem number_toNat (h : Tracks S f L) : f.sequenceNumber.toNat = L.entries.length + 1 := by
  rw [h.next, UInt64.toNat_ofNat_of_lt' (numbers_small h)]

theorem ledger_emit (f : Feed) (e : Event) :
    ledger S (f.emit e).log = record S (ledger S f.log) e := by
  simp [ledger, Feed.emit]

theorem ledger_accept (f : Feed) (builder : PacketBuilder) (next : Nat) :
    ledger S (f.accept builder next).log =
      (ledger S f.log).add ⟨f.filePos, S.messageAt f.filePos⟩ := ledger_emit _ _

theorem ledger_pace (f : Feed) (timestamp : Nat) :
    ledger S (f.pace timestamp).log = ledger S f.log := ledger_emit _ _

theorem ledger_transmit (f : Feed) :
    ledger S f.transmit.log = (ledger S f.log).send := ledger_emit _ _

theorem tracks_kept (h : Tracks S f L) (sent : sentPackets g.log = sentPackets f.log)
    (pushed : pushedRecords g.log = pushedRecords f.log)
    (next : g.sequenceNumber = f.sequenceNumber)
    (buffer : g.retransmissionBuffer = f.retransmissionBuffer)
    (forward : f.filePos ≤ g.filePos) (inside : g.filePos ≤ S.file.size)
    (reach : Reach S (frontier L.entries) g.filePos) : Tracks S g L where
  sent := sent.trans h.sent
  pushed := pushed.trans h.pushed
  next := next.trans h.next
  buffer := buffer.trans h.buffer
  reads := h.reads
  span := h.span.trans forward
  inside := inside
  packets := h.packets
  current := h.current
  linked := h.linked
  reach := reach

theorem reach_skip {e p : Nat} (reach : Reach S e p) (skipped : S.SkippedAt p) :
    Reach S e (S.afterMessage p) := by
  obtain ⟨before, why⟩ := reach
  refine ⟨by simp only [Setup.afterMessage]; omega, ?_⟩
  rcases why with rfl | unreadable | stepped
  · exact Or.inr (Or.inr skipped)
  · exact Or.inr (Or.inl unreadable)
  · exact Or.inr (Or.inr stepped)

theorem reach_failure {e p : Nat} (reach : Reach S e p) (inside : p < S.file.size)
    (incomplete : ¬ Complete S.file.bytes p) : Reach S e (afterFailure S.file.bytes p) := by
  obtain ⟨before, why⟩ := reach
  have bounds := afterFailure_bounds S.file.bytes p (Nat.le_of_lt inside)
  refine ⟨by omega, ?_⟩
  rcases why with rfl | unreadable | stepped
  · exact Or.inr (Or.inl incomplete)
  · exact Or.inr (Or.inl unreadable)
  · exact Or.inr (Or.inr stepped)

theorem reach_gap {e p : Nat} (reach : Reach S e p) (kept : S.KeptAt p) : Gap S e p := by
  obtain ⟨before, why⟩ := reach
  refine ⟨before, ?_⟩
  rcases why with same | unreadable | stepped
  · exact Or.inl same
  · exact Or.inr (Or.inl unreadable)
  · exact Or.inr (Or.inr ⟨stepped, kept⟩)

theorem after_inside {pos : Nat} (complete : Complete S.file.bytes pos) :
    S.afterMessage pos ≤ S.file.size := by
  simp only [Setup.afterMessage, MappedFile.size]
  omega

theorem tracks_skip (h : Tracks S f L) (skipped : S.SkippedAt f.filePos)
    (complete : Complete S.file.bytes f.filePos) :
    Tracks S ({ f with filePos := S.afterMessage f.filePos }.emit (.skipped f.filePos)) L := by
  apply tracks_kept h
  · simp [Feed.emit, sentPackets]
  · simp [Feed.emit, pushedRecords]
  · rfl
  · rfl
  · simp only [Feed.emit, Setup.afterMessage]
    omega
  · exact after_inside complete
  · exact reach_skip h.reach skipped

theorem tracks_failure (h : Tracks S f L) (inside : f.filePos < S.file.size)
    (incomplete : ¬ Complete S.file.bytes f.filePos) :
    Tracks S { f with filePos := afterFailure S.file.bytes f.filePos } L := by
  have bounds := afterFailure_bounds S.file.bytes f.filePos (Nat.le_of_lt inside)
  exact tracks_kept h rfl rfl rfl rfl bounds.1 bounds.2 (reach_failure h.reach inside incomplete)

theorem tracks_emit (h : Tracks S f L) (e : Event) (sent : sentPackets [e] = [])
    (pushed : pushedRecords [e] = []) : Tracks S (f.emit e) L := by
  refine tracks_kept h ?_ ?_ rfl rfl (Nat.le_refl _) h.inside h.reach
  · unfold sentPackets at sent
    simp only [Feed.emit, sentPackets, List.filterMap_append, sent, List.append_nil]
  · unfold pushedRecords at pushed
    simp only [Feed.emit, pushedRecords, List.filterMap_append, pushed, List.append_nil]

theorem tracks_add (h : Tracks S f L) (complete : Complete S.file.bytes f.filePos)
    (opening : L.current = [] → S.KeptAt f.filePos)
    (joining : L.current ≠ [] → f.filePos = frontier L.entries) (builder : PacketBuilder) :
    Tracks S (f.accept builder (S.afterMessage f.filePos))
      (L.add ⟨f.filePos, S.messageAt f.filePos⟩) := by
  have read : Reads S ⟨f.filePos, S.messageAt f.filePos⟩ := ⟨complete, rfl⟩
  have gap : Gap S (frontier L.entries) f.filePos := by
    by_cases first : L.current = []
    · exact reach_gap h.reach (opening first)
    · exact ⟨Nat.le_of_eq (joining first).symm, Or.inl (joining first)⟩
  refine {
    sent := ?sent
    pushed := ?pushed
    next := ?next
    buffer := ?buffer
    reads := ?reads
    span := ?span
    inside := after_inside complete
    packets := h.packets
    current := ?current
    linked := ?linked
    reach := ?reach }
  case sent => simpa [Feed.accept, Feed.emit, sentPackets, Ledger.add] using h.sent
  case pushed =>
    have pushed := h.pushed
    unfold pushedRecords at pushed
    simp [Feed.accept, Feed.emit, pushedRecords, pushed, records_snoc, positions, h.next]
  case next => simp [Feed.accept, Feed.emit, h.next]
  case buffer =>
    simp [Feed.accept, Feed.emit, h.buffer, pushAll_snoc, positions, h.next]
  case reads =>
    intro e member
    rw [add_entries, List.mem_append, List.mem_singleton] at member
    rcases member with old | rfl
    · exact h.reads e old
    · exact read
  case span =>
    have span := h.span
    simp only [add_entries, List.length_append, List.length_singleton, Feed.accept, Feed.emit,
      Setup.afterMessage]
    omega
  case current =>
    apply chain_snoc h.current
    intro e last
    have some : L.current ≠ [] := by
      intro none
      simp [none] at last
    rw [joining some, Ledger.entries, frontier_append _ _ some]
    exact frontier_of_getLast last
  case linked =>
    rw [add_entries]
    apply chain_snoc h.linked
    intro e last
    rw [← frontier_of_getLast last]
    exact gap
  case reach =>
    rw [add_entries, frontier_snoc, reads_next read]
    exact ⟨Nat.le_refl _, Or.inl rfl⟩

theorem tracks_send (h : Tracks S f L) (packed : Packed S L.current)
    (packet : f.packetBuilder.packet =
      dataPacket S.config.session (L.sent.length + 1) (messages L.current)) :
    Tracks S f.transmit L.send := by
  refine {
    sent := ?sent
    pushed := ?pushed
    next := ?next
    buffer := ?buffer
    reads := ?reads
    span := ?span
    inside := h.inside
    packets := ?packets
    current := .nil
    linked := ?linked
    reach := ?reach }
  case sent =>
    have sent := h.sent
    unfold sentPackets at sent
    simp [Feed.transmit, Feed.emit, sentPackets, sent, packet, Ledger.send, render_snoc,
      Ledger.sent]
  case pushed => simpa [Feed.transmit, Feed.emit, pushedRecords] using h.pushed
  case packets =>
    intro p member
    rcases List.mem_append.mp member with old | new
    · exact h.packets p old
    · rw [List.mem_singleton.mp new]
      exact packed
  all_goals rw [send_entries]
  case next => exact h.next
  case buffer => exact h.buffer
  case reads => exact h.reads
  case span => exact h.span
  case linked => exact h.linked
  case reach => exact h.reach

theorem initial_follows (S : Setup) : Follows S S.thread where
  tracks := {
    sent := rfl
    pushed := rfl
    next := rfl
    buffer := rfl
    reads := by simp [Setup.thread, Setup.initial, ledger]
    span := Nat.zero_le _
    inside := Nat.zero_le _
    packets := by simp [Setup.thread, Setup.initial, ledger, Ledger.empty]
    current := .nil
    linked := .nil
    reach := ⟨Nat.le_refl _, Or.inl rfl⟩ }
  phase := ⟨rfl, ⟨_, _, (construct_accepts S.built).2⟩, rfl⟩

theorem between_phase {p : Phase} (between : p.between = true) :
    AtPhase S ⟨f, p⟩ L ↔ (L.current = [] ∧ (∃ sq ms, Holds S.config f.packetBuilder sq ms) ∧
      f.sentSequenceNumber = f.sequenceNumber) := by
  cases p <;> first | rfl | cases between

theorem start_opened (h : Tracks S f L) (closed : L.current = [])
    (holds : ∃ sq ms, Holds S.config f.packetBuilder sq ms)
    (published : f.sentSequenceNumber = f.sequenceNumber) : Opened S f.startPacket L := by
  obtain ⟨sq, ms, holds⟩ := holds
  have total : L.entries = L.sent := by simp [Ledger.entries, closed]
  have reset := reset_holds holds f.sequenceNumber
  rw [number_toNat h, total] at reset
  constructor
  · rw [closed]
    exact reset
  · rw [← total, ← h.next]
    exact published

theorem add_opened (h : Opened S f L) {builder : PacketBuilder}
    (complete : Complete S.file.bytes f.filePos)
    (fits : f.packetBuilder.tryAdd (S.messageAt f.filePos) = (true, builder)) :
    Opened S (f.accept builder (S.afterMessage f.filePos))
      (L.add ⟨f.filePos, S.messageAt f.filePos⟩) := by
  refine ⟨?_, h.announced⟩
  by_cases room : (messages L.current).flatten.length + (S.messageAt f.filePos).length ≤
      S.config.capacity
  · obtain ⟨b, added, holds⟩ :=
      tryAdd_accepts (m := S.messageAt f.filePos) h.holds (messageAt_ne_nil complete) room
    rw [added] at fits
    cases fits
    rw [add_sent]
    simpa [Feed.accept, Feed.emit, Ledger.add, messages] using holds
  · rw [tryAdd_rejects h.holds (by omega)] at fits
    cases fits

theorem move_follows {t t' : Thread} (h : Follows S t) (move : Move S t t') : Follows S t' := by
  obtain ⟨tracks, phase⟩ := h
  cases move with
  | turn before after onward =>
    exact ⟨tracks, (between_phase after).mpr ((between_phase before).mp phase)⟩
  | skip skipped complete =>
    constructor
    all_goals rw [ledger_emit]
    · exact tracks_skip tracks skipped complete
    · exact phase
  | skipFails inside skipped incomplete => exact ⟨tracks_failure tracks inside incomplete, phase⟩
  | start timestamp kept =>
    obtain ⟨closed, holds, published⟩ := phase
    exact ⟨tracks_kept tracks rfl rfl rfl rfl (Nat.le_refl _) tracks.inside tracks.reach,
      start_opened tracks closed holds published, fun _ => kept, fun some => absurd closed some⟩
  | add complete fits =>
    obtain ⟨opened, opening, joining⟩ := phase
    constructor
    all_goals rw [ledger_accept]
    · exact tracks_add tracks complete opening joining _
    · refine ⟨add_opened opened complete fits, ?_, ?_⟩
      · simp [Ledger.add]
      · intro _
        rw [add_entries, frontier_snoc, reads_next ⟨complete, rfl⟩]
        rfl
  | unreadable inside incomplete =>
    exact ⟨tracks_failure tracks inside incomplete, phase.1.holds, phase.1.announced⟩
  | close => exact ⟨tracks, phase.1⟩
  | pace =>
    constructor
    all_goals rw [ledger_pace]
    · exact tracks_emit tracks _ rfl rfl
    · exact ⟨phase.holds, phase.announced⟩
  | publish =>
    refine ⟨?_, finalize_packet phase.holds, finalize_holds phase.holds, rfl⟩
    exact tracks_kept tracks rfl rfl rfl rfl (Nat.le_refl _) tracks.inside tracks.reach
  | send =>
    obtain ⟨packet, holds, published⟩ := phase
    constructor
    all_goals rw [ledger_transmit]
    · exact tracks_send tracks ⟨tracks.current, holds_within_capacity holds⟩ packet
    · exact ⟨rfl, ⟨_, _, holds⟩, published⟩
  | announce =>
    constructor
    all_goals rw [ledger_emit]
    · exact tracks_emit tracks _ rfl rfl
    · exact phase

theorem run_follows (S : Setup) (inputs : List Inputs) : Follows S (S.runThread inputs) :=
  run_always (I := Follows S) (fun t i h => move_follows h (step_moves t i)) inputs
    (initial_follows S)

theorem follows_builder {t : Thread} (h : Follows S t) :
    ∃ sq ms, Holds S.config t.feed.packetBuilder sq ms ∧
      ((ledger S t.feed.log).current = [] ∨ ms = messages (ledger S t.feed.log).current) := by
  obtain ⟨f, phase⟩ := t
  obtain ⟨_, at_phase⟩ := h
  cases phase with
  | building timestamp => exact ⟨_, _, at_phase.1.holds, Or.inr rfl⟩
  | pacing timestamp => exact ⟨_, _, at_phase.holds, Or.inr rfl⟩
  | publishing => exact ⟨_, _, at_phase.holds, Or.inr rfl⟩
  | sending => exact ⟨_, _, at_phase.2.1, Or.inr rfl⟩
  | _ =>
    obtain ⟨closed, ⟨sq, ms, holds⟩, _⟩ := at_phase
    exact ⟨sq, ms, holds, Or.inl closed⟩

theorem visited_follows (visits : LoopBody.Visits (Feed.replayPass S) S.initial f) :
    Follows S ⟨f, .replaying⟩ := by
  obtain ⟨inputs, reached⟩ := visited_reachable visits
  rw [← reached]
  exact run_follows S inputs

end MoldLedger
