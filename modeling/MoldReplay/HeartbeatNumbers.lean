import MoldReplay.Heartbeat

/- The numbers that heartbeats announce, against the data packets that have gone out and
   the end of session packets, in every interleaving of the two threads. -/
namespace MoldHeartbeatNumbers
open FixedBytes MoldWire MoldFraming MoldPacket MoldDownstream MoldLedger MoldGapFree
open MoldHeartbeat NumberedStream ScheduledRuns

/-- The data packets whose building is complete: those sent, and one about to be. -/
def builtPackets (t : Thread) : List Packet :=
  sentPackets t.feed.log ++ if t.phase = .sending then [t.feed.packetBuilder.packet] else []

def EndsPacket (t : Thread) (n : Nat) : Prop :=
  n = 1 ∨ ∃ p ∈ builtPackets t, n = p.sequenceNumber + p.messages.length

/-- A value sent_sequence_number_ has, or has had. -/
structure Released (t : Thread) (n : Nat) : Prop where
  least : n ≤ t.feed.sentSequenceNumber.toNat
  boundary : EndsPacket t n

def IsEnd : Datagram → Prop
  | .endOfSession _ => True
  | _ => False

structure Together (S : Setup) (w : World) : Prop where
  follows : Follows S w.thread
  announced : Announced S w.thread
  data : dataPackets w.wire = sentPackets w.thread.feed.log
  ends : endOfSessions w.wire = endOfSessionPackets w.thread.feed.log
  started : w.thread.phase = .starting ∨ w.beat.place ≠ .absent
  joined : w.thread.phase.ended = true → w.beat.running = false
  stamped : Stamped S.config.session w.beat.heartbeat
  published : Released w.thread w.thread.feed.sentSequenceNumber.toNat
  loaded : ∀ seq, w.beat.place = .sending seq → Released w.thread seq.toNat ∧
    ∀ h ∈ heartbeats w.wire, h.sequenceNumber ≤ seq.toNat
  beats : ∀ h ∈ heartbeats w.wire, Released w.thread h.sequenceNumber
  ordered : ((heartbeats w.wire).map Packet.sequenceNumber).Pairwise (· ≤ ·)
  final : w.wire.Pairwise fun d d' => IsEnd d → IsEnd d'

variable {S : Setup} {f : Feed} {t t' : Thread} {w w' : World} {ds : List Datagram}

theorem emits_move (emits : Emits S t t' ds) : Move S t t' := by
  cases emits with
  | quiet move _ _ _ => exact move
  | data f => exact .send
  | endOfSession f => exact .announce

theorem sending_number (follows : Follows S ⟨f, .sending⟩) :
    f.packetBuilder.packet.sequenceNumber = (ledger S f.log).sent.length + 1 ∧
      f.packetBuilder.packet.messages.length = (ledger S f.log).current.length ∧
      f.packetBuilder.iovecs.length = (ledger S f.log).current.length + 1 ∧
      f.sentSequenceNumber.toNat =
        (ledger S f.log).sent.length + (ledger S f.log).current.length + 1 := by
  obtain ⟨tracks, packet, holds, published⟩ := follows
  change Tracks S f (ledger S f.log) at tracks
  change f.packetBuilder.packet = dataPacket S.config.session ((ledger S f.log).sent.length + 1)
    (messages (ledger S f.log).current) at packet
  change f.sentSequenceNumber = _ at published
  have small := numbers_small tracks
  have number := number_toNat tracks
  simp only [Ledger.entries, List.length_append] at small number
  refine ⟨?_, ?_, ?_, ?_⟩
  · rw [packet, dataPacket_sequenceNumber (accepted S).session (by omega)]
  · rw [packet, dataPacket_messages, messages_length]
  · have iovecs : f.packetBuilder.iovecs = _ := holds.iovecs
    simp [iovecs]
  · rw [published, number]

theorem move_published (move : Move S t t') :
    t'.feed.sentSequenceNumber = t.feed.sentSequenceNumber ∨
      ∃ f, t = ⟨f, .publishing⟩ ∧ t' = ⟨f.publishSequence, .sending⟩ := by
  cases move with
  | publish => exact Or.inr ⟨_, rfl, rfl⟩
  | _ => exact Or.inl rfl

theorem emits_built (emits : Emits S t t' ds) : ∀ p ∈ builtPackets t, p ∈ builtPackets t' := by
  intro p member
  cases emits with
  | quiet _ open_ sent _ =>
    rw [builtPackets, if_neg open_, List.append_nil, ← sent] at member
    exact List.mem_append_left _ member
  | data f => simpa [builtPackets, Feed.transmit, Feed.emit, sentPackets] using member
  | endOfSession f => simpa [builtPackets, Feed.emit, sentPackets] using member

theorem boundary_grows (emits : Emits S t t' ds) {n : Nat} (ends : EndsPacket t n) :
    EndsPacket t' n := by
  rcases ends with first | ⟨p, built, number⟩
  · exact Or.inl first
  · exact Or.inr ⟨p, emits_built emits p built, number⟩

theorem published_grows (follows : Follows S t) (move : Move S t t') :
    t.feed.sentSequenceNumber.toNat ≤ t'.feed.sentSequenceNumber.toNat := by
  rcases move_published move with same | ⟨f, rfl, rfl⟩
  · rw [same]
  · have tracks : Tracks S f (ledger S f.log) := follows.tracks
    have small := numbers_small tracks
    have total := sent_le_entries (ledger S f.log)
    have before : f.sentSequenceNumber.toNat = (ledger S f.log).sent.length + 1 := by
      have announced : f.sentSequenceNumber = _ := follows.phase.announced
      rw [announced]
      exact UInt64.toNat_ofNat_of_lt' (Nat.lt_of_le_of_lt (Nat.add_le_add_right total 1) small)
    change f.sentSequenceNumber.toNat ≤ f.sequenceNumber.toNat
    rw [before, number_toNat tracks]
    omega

theorem released_grows (follows : Follows S t) (emits : Emits S t t' ds) {n : Nat}
    (released : Released t n) : Released t' n :=
  ⟨Nat.le_trans released.least (published_grows follows (emits_move emits)),
    boundary_grows emits released.boundary⟩

theorem published_released (follows : Follows S t) (emits : Emits S t t' ds)
    (released : Released t t.feed.sentSequenceNumber.toNat) :
    Released t' t'.feed.sentSequenceNumber.toNat := by
  have move := emits_move emits
  have follows' := move_follows follows move
  refine ⟨Nat.le_refl _, ?_⟩
  rcases move_published move with same | ⟨f, rfl, rfl⟩
  · rw [same]
    exact boundary_grows emits released.boundary
  · obtain ⟨number, count, _, published⟩ := sending_number follows'
    refine Or.inr ⟨f.publishSequence.packetBuilder.packet, by simp [builtPackets], ?_⟩
    change f.publishSequence.sentSequenceNumber.toNat = _
    omega

theorem alongside_heartbeat (b : Beat) (p : Phase) :
    (b.alongside p).heartbeat = b.heartbeat := by
  cases p <;> rfl

theorem alongside_place (b : Beat) {p : Phase} (later : p ≠ .starting) :
    (b.alongside p).place = b.place := by
  cases p <;> first | rfl | exact absurd rfl later

theorem alongside_started (b : Beat) : (b.alongside .starting).place = .checking := rfl

theorem step_ended (t : Thread) (inputs : Inputs)
    (ended : (t.step S inputs).phase.ended = true) :
    t.phase.ended = true ∨ t.phase = .joining := by
  obtain ⟨f, phase⟩ := t
  cases phase with
  | joining => exact Or.inr rfl
  | ending => exact Or.inl rfl
  | finished => exact Or.inl rfl
  | replaying =>
    simp only [Thread.step] at ended
    split at ended <;> cases ended
  | building timestamp =>
    simp only [Thread.step] at ended
    split at ended <;> cases ended
  | _ => cases ended

theorem early_wire (h : Together S w) (early : w.thread.phase.ended = false) :
    ∀ d ∈ w.wire, ¬ IsEnd d := by
  have silent := early_silent h.announced early
  rw [← h.ends] at silent
  intro d member ends
  cases d with
  | endOfSession p =>
    have listed : p ∈ endOfSessions w.wire := List.mem_filterMap.mpr ⟨_, member, rfl⟩
    rw [silent] at listed
    cases listed
  | _ => exact ends

theorem wire_snoc {wire : List Datagram} {d : Datagram} {R : Datagram → Datagram → Prop}
    (ordered : wire.Pairwise R) (last : ∀ d' ∈ wire, R d' d) : (wire ++ [d]).Pairwise R := by
  rw [List.pairwise_append]
  exact ⟨ordered, List.pairwise_singleton R d, fun d' member _ only =>
    List.mem_singleton.mp only ▸ last d' member⟩

theorem initial_together (S : Setup) : Together S (initial S) where
  follows := initial_follows S
  announced := silent_announced rfl
  data := rfl
  ends := rfl
  started := Or.inl rfl
  joined := by intro ended; cases ended
  stamped := construct_stamped (accepted S).session
  published := ⟨Nat.le_refl _, Or.inl rfl⟩
  loaded := by intro seq place; cases place
  beats := by simp [initial, heartbeats]
  ordered := .nil
  final := .nil

theorem place_together (h : Together S w) {place : Place} (running : w.beat.running = true)
    (started : place ≠ .absent)
    (loaded : ∀ seq, place = .sending seq → seq = w.thread.feed.sentSequenceNumber) :
    Together S (w.setPlace place) where
  follows := h.follows
  announced := h.announced
  data := h.data
  ends := h.ends
  started := Or.inr started
  joined := by
    intro ended
    rw [h.joined ended] at running
    cases running
  stamped := h.stamped
  published := h.published
  loaded := by
    intro seq at_place
    rw [loaded seq at_place]
    exact ⟨h.published, fun beat member => (h.beats beat member).least⟩
  beats := h.beats
  ordered := h.ordered
  final := h.final

theorem send_together (h : Together S w) {seq : SequenceNumber}
    (place : w.beat.place = .sending seq) :
    Together S ⟨w.thread,
      { w.beat with heartbeat := (w.beat.heartbeat.send seq).1, place := .sleeping },
      w.wire ++ [.heartbeat (w.beat.heartbeat.send seq).2]⟩ := by
  have stamped := (send_stamped (accepted S).session h.stamped seq).1
  have number := send_number (accepted S).session h.stamped seq
  obtain ⟨released, latest⟩ := h.loaded seq place
  have early : w.thread.phase.ended = false := by
    by_contra ended
    have stopped := h.joined (Bool.not_eq_false _ ▸ ended)
    simp [Beat.running, place] at stopped
  have beats : heartbeats (w.wire ++ [.heartbeat (w.beat.heartbeat.send seq).2]) =
      heartbeats w.wire ++ [(w.beat.heartbeat.send seq).2] := by simp [heartbeats]
  refine {
    follows := h.follows
    announced := h.announced
    data := ?data
    ends := ?ends
    started := Or.inr (by simp)
    joined := ?joined
    stamped := stamped
    published := h.published
    loaded := by intro seq' place'; cases place'
    beats := ?beats
    ordered := ?ordered
    final := wire_snoc h.final fun d member ends => absurd ends (early_wire h early d member) }
  case data => simpa [dataPackets] using h.data
  case ends => simpa [endOfSessions] using h.ends
  case joined =>
    intro ended
    rw [early] at ended
    cases ended
  case beats =>
    intro beat member
    rw [beats, List.mem_append, List.mem_singleton] at member
    rcases member with old | rfl
    · exact h.beats beat old
    · rw [number]
      exact released
  case ordered =>
    rw [beats, List.map_append, List.pairwise_append]
    refine ⟨h.ordered, List.pairwise_singleton _ _, ?_⟩
    intro n earlier m last
    obtain ⟨beat, member, rfl⟩ := List.mem_map.mp earlier
    rw [List.map_singleton, List.mem_singleton] at last
    rw [last, number]
    exact latest beat member

theorem emits_heartbeats (emits : Emits S t t' ds) (wire : List Datagram) :
    heartbeats (wire ++ ds) = heartbeats wire := by
  cases emits <;> simp [heartbeats]

theorem emits_data (emits : Emits S t t' ds) {wire : List Datagram}
    (data : dataPackets wire = sentPackets t.feed.log) :
    dataPackets (wire ++ ds) = sentPackets t'.feed.log := by
  unfold dataPackets sentPackets at data
  cases emits with
  | quiet _ _ sent _ =>
    rw [sent, List.append_nil]
    exact data
  | data f => simp [dataPackets, sentPackets, Feed.transmit, Feed.emit, data]
  | endOfSession f => simp [dataPackets, sentPackets, Feed.emit, data]

theorem emits_ends (emits : Emits S t t' ds) {wire : List Datagram}
    (ends : endOfSessions wire = endOfSessionPackets t.feed.log) :
    endOfSessions (wire ++ ds) = endOfSessionPackets t'.feed.log := by
  unfold endOfSessions endOfSessionPackets at ends
  cases emits with
  | quiet _ _ _ same =>
    rw [same, List.append_nil]
    exact ends
  | data f => simp [endOfSessions, endOfSessionPackets, Feed.transmit, Feed.emit, ends]
  | endOfSession f => simp [endOfSessions, endOfSessionPackets, Feed.emit, ends]

theorem emits_final (emits : Emits S t t' ds) {wire : List Datagram}
    (early : t.phase.ended = false → ∀ d ∈ wire, ¬ IsEnd d)
    (final : wire.Pairwise fun d d' => IsEnd d → IsEnd d') :
    (wire ++ ds).Pairwise fun d d' => IsEnd d → IsEnd d' := by
  cases emits with
  | quiet _ _ _ _ => simpa using final
  | data f => exact wire_snoc final fun d member ends => absurd ends (early rfl d member)
  | endOfSession f => exact wire_snoc final fun _ _ _ => trivial

theorem downstream_together (h : Together S w) (inputs : Inputs)
    (joined : w.thread.phase = .joining → w.beat.running = false)
    (emits : Emits S w.thread (w.thread.step S inputs) ds) :
    Together S ⟨w.thread.step S inputs, w.beat.alongside w.thread.phase, w.wire ++ ds⟩ := by
  have move := emits_move emits
  have beats := emits_heartbeats emits w.wire
  refine {
    follows := move_follows h.follows move
    announced := move_announced h.follows h.announced move
    data := emits_data emits h.data
    ends := emits_ends emits h.ends
    started := Or.inr ?started
    joined := ?joined
    stamped := by rw [alongside_heartbeat]; exact h.stamped
    published := published_released h.follows emits h.published
    loaded := ?loaded
    beats := by
      rw [beats]
      exact fun beat member => released_grows h.follows emits (h.beats beat member)
    ordered := by rw [beats]; exact h.ordered
    final := emits_final emits (early_wire h) h.final }
  case started =>
    by_cases first : w.thread.phase = .starting
    · rw [first, alongside_started]
      simp
    · rw [alongside_place _ first]
      exact h.started.resolve_left first
  case joined =>
    intro ended
    have before := step_ended w.thread inputs ended
    have later : w.thread.phase ≠ .starting := by
      intro first
      rw [first] at before
      rcases before with ended | joining
      · cases ended
      · cases joining
    rw [Beat.running, alongside_place _ later]
    exact before.elim h.joined joined
  case loaded =>
    intro seq place
    by_cases first : w.thread.phase = .starting
    · rw [first, alongside_started] at place
      cases place
    · rw [alongside_place _ first] at place
      obtain ⟨released, latest⟩ := h.loaded seq place
      rw [beats]
      exact ⟨released_grows h.follows emits released, latest⟩

theorem change_together (h : Together S w) (change : Change S w w') : Together S w' := by
  cases change with
  | still => exact h
  | downstream inputs joined emits => exact downstream_together h inputs joined emits
  | turn running started idle =>
    exact place_together h running started fun seq at_place => absurd at_place (idle seq)
  | load running =>
    exact place_together h running (by simp) fun seq at_place => (Place.sending.inj at_place).symm
  | send place => exact send_together h place

theorem run_together (S : Setup) (actions : List Action) :
    Together S (run (step S) (initial S) actions) :=
  run_always (fun w a h => change_together h (step_changes S w a)) actions (initial_together S)

theorem sent_end (tracks : Tracks S f (ledger S f.log)) {p : Packet}
    (sent : p ∈ sentPackets f.log) :
    1 ≤ p.sequenceNumber ∧
      p.sequenceNumber + p.messages.length ≤ (ledger S f.log).sent.length + 1 := by
  rw [tracks.sent, render, List.mem_map] at sent
  obtain ⟨q, member, rfl⟩ := sent
  obtain ⟨before, after, stream, first⟩ := numbered_split member
  have bound := number_bound tracks member
  have sizes := congrArg List.length stream
  simp only [List.length_append] at sizes
  change (ledger S f.log).sent.length = _ at sizes
  rw [packet_number (by omega)]
  simp only [numberedPacket, dataPacket_messages, messages_length]
  omega

theorem released_ahead_iff (follows : Follows S t) {n : Nat} (released : Released t n) :
    n ≤ 1 + messagesSent t.feed.log ↔
      ¬ (t.phase = .sending ∧ n = t.feed.sentSequenceNumber.toNat ∧
        1 < t.feed.packetBuilder.iovecs.length) := by
  obtain ⟨f, phase⟩ := t
  have tracks : Tracks S f (ledger S f.log) := follows.tracks
  have total := sent_le_entries (ledger S f.log)
  have small := numbers_small tracks
  change n ≤ 1 + messagesSent f.log ↔ ¬ (phase = .sending ∧ n = f.sentSequenceNumber.toNat ∧
    1 < f.packetBuilder.iovecs.length)
  rw [rendered_total tracks]
  by_cases sending : phase = .sending
  · subst sending
    obtain ⟨number, count, iovecs, published⟩ := sending_number follows
    have where_ : n ≤ (ledger S f.log).sent.length + 1 ∨ n = f.sentSequenceNumber.toNat := by
      rcases released.boundary with first | ⟨p, built, ends⟩
      · exact Or.inl (by omega)
      · simp only [builtPackets, ↓reduceIte, List.mem_append, List.mem_singleton] at built
        rcases built with sent | rfl
        · have := sent_end tracks sent
          exact Or.inl (by omega)
        · exact Or.inr (by omega)
    simp only [true_and]
    omega
  · have announced := published_number follows sending
    have fits := Nat.lt_of_le_of_lt (Nat.add_le_add_right total 1) small
    have least := released.least
    rw [announced, UInt64.toNat_ofNat_of_lt' fits] at least
    have behind : n ≤ 1 + (ledger S f.log).sent.length := by
      change n ≤ (ledger S f.log).sent.length + 1 at least
      omega
    exact ⟨fun _ ahead => sending ahead.1, fun _ => behind⟩

theorem released_outside (follows : Follows S t) {n : Nat} (released : Released t n) {p : Packet}
    (sent : p ∈ sentPackets t.feed.log) :
    n ≤ p.sequenceNumber ∨ p.sequenceNumber + p.messages.length ≤ n := by
  obtain ⟨f, phase⟩ := t
  have tracks : Tracks S f (ledger S f.log) := follows.tracks
  have bounds := sent_end tracks sent
  rcases released.boundary with first | ⟨q, built, ends⟩
  · exact Or.inl (by omega)
  rcases List.mem_append.mp built with sent' | pending
  · change p ∈ sentPackets f.log at sent
    change q ∈ sentPackets f.log at sent'
    rw [tracks.sent, render, List.mem_map] at sent sent'
    obtain ⟨p, member, rfl⟩ := sent
    obtain ⟨q, member', rfl⟩ := sent'
    have bound := number_bound tracks member
    have bound' := number_bound tracks member'
    rw [packet_number (by omega)] at ends ⊢
    simp only [numberedPacket, dataPacket_messages, messages_length] at ends ⊢
    have apart := numbered_ends member' member
    omega
  · by_cases sending : phase = .sending
    · subst sending
      obtain ⟨number, count, _, published⟩ := sending_number follows
      simp only [↓reduceIte, List.mem_singleton] at pending
      subst pending
      exact Or.inr (by omega)
    · rw [if_neg sending] at pending
      cases pending

theorem ended_published (follows : Follows S t) (ended : t.phase.ended = true) :
    t.feed.sentSequenceNumber = t.feed.sequenceNumber := by
  obtain ⟨f, phase⟩ := t
  obtain ⟨_, at_phase⟩ := follows
  cases phase <;> first | exact at_phase.2.2 | cases ended

/-- Nothing follows the end of session packets; heartbeat numbers never fall back, always
    end a packet that is built, and never pass the end of session. -/
theorem heartbeats_respect_session (S : Setup) (actions : List Action) :
    (run (step S) (initial S) actions).wire.Pairwise (fun d d' => IsEnd d → IsEnd d') ∧
    ((heartbeats (run (step S) (initial S) actions).wire).map Packet.sequenceNumber).Pairwise
      (· ≤ ·) ∧
    ∀ h ∈ heartbeats (run (step S) (initial S) actions).wire,
      (h.sequenceNumber = 1 ∨ ∃ p ∈ builtPackets (run (step S) (initial S) actions).thread,
        h.sequenceNumber = p.sequenceNumber + p.messages.length) ∧
      (∀ p ∈ dataPackets (run (step S) (initial S) actions).wire,
        ¬ (p.sequenceNumber < h.sequenceNumber ∧
          h.sequenceNumber < p.sequenceNumber + p.messages.length)) ∧
      ∀ e ∈ endOfSessions (run (step S) (initial S) actions).wire,
        h.sequenceNumber ≤ e.sequenceNumber := by
  have together := run_together S actions
  refine ⟨together.final, together.ordered, ?_⟩
  intro h beat
  have released := together.beats h beat
  refine ⟨released.boundary, ?_, ?_⟩
  · intro p data inside
    rw [together.data] at data
    have outside := released_outside together.follows released data
    omega
  · intro e final
    rw [together.ends] at final
    obtain ⟨ended, same⟩ := together.announced e final
    have number := header_sequenceNumber (eosPacket_bytes S.config.session
      (run (step S) (initial S) actions).thread.feed.sequenceNumber.toNat)
      (accepted S).session (UInt64.toNat_lt _)
    rw [same, number, ← ended_published together.follows ended]
    exact released.least

def messagesIn (wire : List Datagram) : Nat :=
  ((dataPackets wire).map fun p => p.messages.length).sum

/-- No heartbeat announces more than had been handed to the socket before it. -/
def NoneAhead (wire : List Datagram) : Prop :=
  ∀ i h, wire[i]? = some (.heartbeat h) → h.sequenceNumber ≤ 1 + messagesIn (wire.take i)

/-- The number about to be sent was not loaded between the store of it and the sendmsg of
    the packet it belongs to, or that packet is out by now, or carries no message. -/
def Behind (w : World) : Action → Prop
  | .downstream _ => True
  | .heartbeat => ∀ seq, w.beat.place = .sending seq →
      ¬ (w.thread.phase = .sending ∧ seq = w.thread.feed.sentSequenceNumber ∧
        1 < w.thread.feed.packetBuilder.iovecs.length)

theorem noneAhead_snoc {wire : List Datagram} {d : Datagram} :
    NoneAhead (wire ++ [d]) ↔
      NoneAhead wire ∧ ∀ h, d = .heartbeat h → h.sequenceNumber ≤ 1 + messagesIn wire := by
  constructor
  · intro none
    refine ⟨?_, ?_⟩
    · intro i h at_i
      have inside : i < wire.length := (List.getElem?_eq_some_iff.mp at_i).1
      have early := none i h (by rw [List.getElem?_append_left inside, at_i])
      rwa [List.take_append_of_le_length (Nat.le_of_lt inside)] at early
    · rintro h rfl
      have last := none wire.length h (by simp)
      rwa [List.take_left] at last
  · rintro ⟨none, last⟩ i h at_i
    by_cases inside : i < wire.length
    · rw [List.getElem?_append_left inside] at at_i
      rw [List.take_append_of_le_length (Nat.le_of_lt inside)]
      exact none i h at_i
    · have only : i = wire.length := by
        have := (List.getElem?_eq_some_iff.mp at_i).1
        rw [List.length_append, List.length_singleton] at this
        omega
      subst only
      rw [List.take_left]
      simp only [List.getElem?_concat_length, Option.some.injEq] at at_i
      exact last h at_i

theorem emits_ahead (emits : Emits S t t' ds) (wire : List Datagram) :
    NoneAhead (wire ++ ds) ↔ NoneAhead wire := by
  cases emits with
  | quiet _ _ _ _ => rw [List.append_nil]
  | _ => simp [noneAhead_snoc]

theorem step_ahead_iff (w : World) (a : Action) (h : Together S w) :
    NoneAhead (step S w a).wire ↔ NoneAhead w.wire ∧ Behind w a := by
  cases a with
  | downstream inputs =>
    have same : NoneAhead (step S w (.downstream inputs)).wire ↔ NoneAhead w.wire := by
      simp only [step]
      split
      · rfl
      · exact emits_ahead (move_emits (step_moves w.thread inputs)) w.wire
    simp [same, Behind]
  | heartbeat =>
    cases place : w.beat.place with
    | sending seq =>
      obtain ⟨released, _⟩ := h.loaded seq place
      have number := send_number (accepted S).session h.stamped seq
      have ahead := released_ahead_iff h.follows released
      have total : messagesIn w.wire = messagesSent w.thread.feed.log := by
        rw [messagesIn, h.data, messagesSent]
      rw [UInt64.toNat_inj, ← total, ← number] at ahead
      simp only [step, place, noneAhead_snoc, Behind, Place.sending.injEq, Datagram.heartbeat.injEq,
        forall_eq']
      rw [ahead]
    | _ => simp [step, place, Behind, World.setPlace]

/-- In a run no heartbeat is ahead exactly if none goes out with a number loaded while the
    packet it announces waits between store and sendmsg, and still waits. -/
theorem never_ahead_iff (S : Setup) (actions : List Action) :
    NoneAhead (run (step S) (initial S) actions).wire ↔
      Throughout (step S) Behind (initial S) actions := by
  have keeps : ∀ w a, Together S w → Together S (step S w a) :=
    fun w a h => change_together h (step_changes S w a)
  rw [run_exactly (P := fun w => NoneAhead w.wire) keeps step_ahead_iff actions
    (initial_together S)]
  simp [NoneAhead, initial]

/-- The heartbeat fires between the store of the number and the first sendmsg. -/
theorem unsent_message_announced : ∃ S,
    Setup.make ⟨frame (List.replicate 12 1), fun _ => 0, by decide⟩ ⟨0⟩
      { session := List.replicate 10 0x20 } 4 = .ok S ∧
    ¬ NoneAhead (run (step S) (initial S)
      [.downstream undisturbed, .heartbeat, .downstream undisturbed, .downstream undisturbed,
        .downstream undisturbed, .downstream undisturbed, .downstream undisturbed, .heartbeat,
        .heartbeat]).wire := by
  refine ⟨_, rfl, fun none => ?_⟩
  exact absurd (none 0 (heartbeatPacket (List.replicate 10 0x20) 2) rfl) (by decide)

end MoldHeartbeatNumbers
