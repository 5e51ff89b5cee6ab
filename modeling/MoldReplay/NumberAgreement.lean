import MoldReplay.GapRecovery
import MoldReplay.ServedRequests

/- Where nothing is skipped, a number means one message, whoever sends it and whenever: the
   multicast feed, or a response to any request, of numbers not sent yet as well. -/
namespace MoldNumberAgreement
open FixedBytes MoldWire MoldFraming MoldPacket MoldBuffer MoldDownstream MoldLedger
open MoldGapFree MoldRerequest MoldGapRecovery MoldHeartbeatLifecycle MoldServerRuns
open MoldServerLookups MoldLookupInstants MoldServedRequests NumberedStream ScheduledRuns
open MoldRetransmission (SockAddr RequestContext readRun)

def Carries (p : Packet) (number : Nat) (message : List UInt8) : Prop :=
  ∃ i, number = p.sequenceNumber + i ∧ p.messages[i]? = some message

def dataDatagrams {n : Nat} (w : World n) : List Packet :=
  MoldHeartbeat.dataPackets w.heart.wire ++ w.unicast.map fun r => r.2.2

/-- No two of them carry different messages under one number. Number 0 is no message's. -/
def OneMessage {n : Nat} (w : World n) : Prop :=
  ∀ p ∈ dataDatagrams w, ∀ p' ∈ dataDatagrams w, 1 ≤ p.sequenceNumber → 1 ≤ p'.sequenceNumber →
    ∀ number m m', Carries p number m → Carries p' number m' → m = m'

/-- Where the q-th message is, counted from zero. Messages that are not numbered yet lie one
    behind the other from the last one on. -/
def positionOf (S : Setup) (es : List Entry) (q : Nat) : Nat :=
  match es[q]? with
  | some e => e.position
  | none => S.afterMessage^[q - es.length] (frontier es)

def Grounded (S : Setup) (es : List Entry) (number pos : Nat) : Prop :=
  1 ≤ number → number ≤ es.length ∧ pos = positionOf S es (number - 1)

def FromEntries (S : Setup) (es : List Entry) (p : Packet) : Prop :=
  ∃ (start : SequenceNumber) (count pos : Nat),
    p = dataPacket S.config.session start.toNat
      (readRun S.file.bytes count pos S.config.capacity) ∧ Grounded S es start.toNat pos

def Place.fetched : Place → Option SequenceNumber
  | .fetching request _ => some request.startingSequence
  | .constructing | .waiting | .dispatching _ | .comparing _ _ | .answering _ _ | .exited => none

/-- The next record does not go into the slot of a number whose position a feed is about to
    read. -/
def Undisturbed {n : Nat} (S : Setup) (w : World n) (a : Action n) : Prop :=
  w.stored = false → (step S w a).stored = true → ∀ k, ∀ s ∈ Place.fetched (w.feeds k).place,
    w.ring.indexFor s ≠ w.ring.indexFor w.heart.thread.feed.sequenceNumber

instance {n : Nat} (S : Setup) (w : World n) (a : Action n) : Decidable (Undisturbed S w a) :=
  -- by the place of the feed, and not by all 64-bit numbers
  have (k : Fin n) : Decidable (∀ s ∈ Place.fetched (w.feeds k).place,
      w.ring.indexFor s ≠ w.ring.indexFor w.heart.thread.feed.sequenceNumber) :=
    Option.decidableForallMem _
  inferInstanceAs (Decidable (_ → _ → ∀ k, ∀ s ∈ Place.fetched (w.feeds k).place,
    w.ring.indexFor s ≠ w.ring.indexFor w.heart.thread.feed.sequenceNumber))

def numbered {n : Nat} (S : Setup) (w : World n) : List Entry :=
  (ledger S w.heart.thread.feed.log).entries

structure Numbering {n : Nat} (S : Setup) (w : World n) : Prop where
  fetching : ∀ k request events, (w.feeds k).place = .fetching request events →
    Grounded S (numbered S w) request.startingSequence.toNat
      (w.ring.entry request.startingSequence).filePosition
  answering : ∀ k ctx events, (w.feeds k).place = .answering ctx events →
    Grounded S (numbered S w) ctx.startingSequence.toNat ctx.filePosition
  answers : ∀ r ∈ w.unicast, FromEntries S (numbered S w) r.2.2

variable {n : Nat} {S : Setup} {es es' : List Entry} {w w' : World n}

theorem positionOf_held {q : Nat} {e : Entry} (held : es[q]? = some e) :
    positionOf S es q = e.position := by
  rw [positionOf, held]

theorem positionOf_next (reads : ∀ e ∈ es, Reads S e) (unskipped : Unskipped S es) (q : Nat)
    (inside : q < es.length) (more : Complete S.file.bytes (S.afterMessage (positionOf S es q))) :
    positionOf S es (q + 1) = S.afterMessage (positionOf S es q) := by
  obtain ⟨e, held⟩ : ∃ e, es[q]? = some e := ⟨_, List.getElem?_eq_getElem inside⟩
  have next : e.next = S.afterMessage e.position := reads_next (reads e (List.mem_of_getElem? held))
  rw [positionOf_held held] at more ⊢
  cases held' : es[q + 1]? with
  | some e' =>
    rw [positionOf_held held']
    obtain ⟨there, rfl⟩ := List.getElem?_eq_some_iff.mp held
    obtain ⟨there', rfl⟩ := List.getElem?_eq_some_iff.mp held'
    have chain := List.isChain_iff_getElem.mp unskipped q there'
    rw [← next] at more ⊢
    exact chain more
  | none =>
    have last : q + 1 = es.length :=
      Nat.le_antisymm inside (List.getElem?_eq_none_iff.mp held')
    rw [positionOf, held', last, Nat.sub_self, Function.iterate_zero, id_eq, ← next]
    apply frontier_of_getLast
    rw [Option.mem_def, List.getLast?_eq_getElem?, ← last, Nat.add_sub_cancel, held]

theorem positionOf_beyond {q : Nat} (outside : es.length ≤ q) :
    positionOf S es (q + 1) = S.afterMessage (positionOf S es q) := by
  have past : es[q]? = none := List.getElem?_eq_none outside
  have past' : es[q + 1]? = none := List.getElem?_eq_none (Nat.le_succ_of_le outside)
  rw [positionOf, positionOf, past, past', Nat.succ_sub outside, Function.iterate_succ_apply']

theorem readRun_numbers (reads : ∀ e ∈ es, Reads S e) (unskipped : Unskipped S es) (count : Nat) :
    ∀ (q room i : Nat) (m : List UInt8),
      (readRun S.file.bytes count (positionOf S es q) room)[i]? = some m →
        m = S.messageAt (positionOf S es (q + i)) := by
  induction count with
  | zero => intro q room i m at_i; simp [readRun] at at_i
  | succ count ih =>
    intro q room i m at_i
    by_cases whole : Complete S.file.bytes (positionOf S es q) ∧
        (MoldFraming.messageAt S.file.bytes (positionOf S es q)).length ≤ room
    · rw [MoldRetransmission.readRun_more whole.1 whole.2] at at_i
      cases i with
      | zero => exact (Option.some.inj at_i).symm
      | succ i =>
        rw [List.getElem?_cons_succ] at at_i
        have length : positionOf S es q +
            (MoldFraming.messageAt S.file.bytes (positionOf S es q)).length =
              S.afterMessage (positionOf S es q) := by
          rw [messageAt_length whole.1, Setup.afterMessage, Nat.add_assoc]
        rw [length] at at_i
        have next : positionOf S es (q + 1) = S.afterMessage (positionOf S es q) := by
          by_cases inside : q < es.length
          · apply positionOf_next reads unskipped q inside
            rcases run : readRun S.file.bytes count (S.afterMessage (positionOf S es q))
                (room - (MoldFraming.messageAt S.file.bytes (positionOf S es q)).length) with
              _ | ⟨head, tail⟩
            · rw [run] at at_i
              cases at_i
            · exact (MoldRetransmission.readRun_head run).1
          · exact positionOf_beyond (Nat.not_lt.mp inside)
        rw [← next] at at_i
        rw [ih (q + 1) _ i m at_i, Nat.add_right_comm, Nat.add_assoc]
    · rw [MoldRetransmission.readRun_stops whole] at at_i
      cases at_i

theorem positionOf_grows (grown : es <+: es') {q : Nat} (inside : q < es.length) :
    positionOf S es' q = positionOf S es q := by
  obtain ⟨more, rfl⟩ := grown
  have held := List.getElem?_eq_getElem inside
  rw [positionOf_held held, positionOf_held ((List.getElem?_append_left inside).trans held)]

theorem grounded_grows (grown : es <+: es') {number pos : Nat} (h : Grounded S es number pos) :
    Grounded S es' number pos := by
  intro positive
  obtain ⟨numbered, at_pos⟩ := h positive
  refine ⟨Nat.le_trans numbered grown.length_le, ?_⟩
  rw [positionOf_grows grown (by omega), at_pos]

theorem fromEntries_grows (grown : es <+: es') {p : Packet} (h : FromEntries S es p) :
    FromEntries S es' p := by
  obtain ⟨start, count, pos, packet, grounded⟩ := h
  exact ⟨start, count, pos, packet, grounded_grows grown grounded⟩

theorem move_entries {t t' : Thread} (move : Move S t t') :
    (ledger S t.feed.log).entries <+: (ledger S t'.feed.log).entries := by
  cases move with
  | skip skipped complete => rw [ledger_emit]; exact List.prefix_rfl
  | add complete fits => rw [ledger_accept, add_entries]; exact List.prefix_append _ _
  | pace => simp only [ledger_pace, List.prefix_rfl]
  | send => simp only [ledger_transmit, send_entries, List.prefix_rfl]
  | announce => rw [ledger_emit]; exact List.prefix_rfl
  | _ => exact List.prefix_rfl

theorem position_numbered (follows : Follows S w.heart.thread) {number : Nat}
    (positive : 1 ≤ number) (pushed : number < (World.shared w).next) :
    number ≤ (numbered S w).length ∧
      World.position w number = positionOf S (numbered S w) (number - 1) := by
  obtain ⟨e, held, position⟩ := position_entry follows positive pushed
  have inside := (List.getElem?_eq_some_iff.mp held).1
  exact ⟨by simp only [numbered]; omega, position.trans (positionOf_held held).symm⟩

theorem found_grounded (sound : Sound S w) {k : Fin n} {request : Wanted} {events : List Readable}
    (place : (w.feeds k).place = .comparing request events)
    (same : (w.ring.entry request.startingSequence).sequenceNumber = request.startingSequence) :
    Grounded S (numbered S w) request.startingSequence.toNat
      (w.ring.entry request.startingSequence).filePosition := by
  intro positive
  have real : request.startingSequence ≠ 0 := by
    intro zero
    simp [zero] at positive
  have pushed := comparing_pushed sound.recorded place
  obtain ⟨inside, position⟩ := position_numbered sound.follows positive pushed
  have held : w.ring.entry request.startingSequence =
      MoldRacing.numbered (World.position w) request.startingSequence.toNat :=
    held_entry sound.recorded real ((matching_iff sound.recorded real pushed).mp same)
  exact ⟨inside, by rw [held, ← position]; rfl⟩

theorem replay_entries (S : Setup) (h : MoldHeartbeat.World) (a : MoldHeartbeat.Action) :
    (ledger S h.thread.feed.log).entries <+:
      (ledger S (MoldHeartbeat.step S h a).thread.feed.log).entries := by
  cases a with
  | heartbeat => exact (heartbeat_thread S h).symm ▸ List.prefix_rfl
  | downstream inputs =>
    rcases replay_thread S h inputs with same | stepped
    · exact same.symm ▸ List.prefix_rfl
    · rw [stepped]
      exact move_entries (step_moves (S := S) h.thread inputs)

theorem aside_numbering (h : Numbering S w) (feeds : w'.feeds = w.feeds)
    (unicast : w'.unicast = w.unicast) (grown : numbered S w <+: numbered S w')
    (entry : ∀ k request events, (w.feeds k).place = .fetching request events →
      (w'.ring.entry request.startingSequence).filePosition =
        (w.ring.entry request.startingSequence).filePosition) : Numbering S w' := by
  refine ⟨fun k request events place => ?_, fun k ctx events place => ?_, fun r member => ?_⟩
  · rw [feeds] at place
    rw [entry k request events place]
    exact grounded_grows grown (h.fetching k request events place)
  · rw [feeds] at place
    exact grounded_grows grown (h.answering k ctx events place)
  · rw [unicast] at member
    exact fromEntries_grows grown (h.answers r member)

theorem setFeed_numbering (h : Numbering S w) (k : Fin n) (t : FeedThread)
    (response : Option (SockAddr × Packet))
    (fetching : ∀ request events, t.place = .fetching request events →
      Grounded S (numbered S w) request.startingSequence.toNat
        (w.ring.entry request.startingSequence).filePosition)
    (answering : ∀ ctx events, t.place = .answering ctx events →
      Grounded S (numbered S w) ctx.startingSequence.toNat ctx.filePosition)
    (answers : ∀ r ∈ response, FromEntries S (numbered S w) r.2) :
    Numbering S { w.setFeed k t with
      unicast := w.unicast ++ response.toList.map fun r => (k, r) } := by
  refine ⟨fun j request events place => ?_, fun j ctx events place => ?_, fun r member => ?_⟩
  · simp only [World.setFeed] at place
    split at place
    · exact fetching request events place
    · exact h.fetching j request events place
  · simp only [World.setFeed] at place
    split at place
    · exact answering ctx events place
    · exact h.answering j ctx events place
  · rcases List.mem_append.mp member with old | new
    · exact h.answers r old
    · obtain ⟨sent, now, rfl⟩ := List.mem_map.mp new
      exact answers sent (Option.mem_toList.mp now)

theorem move_numbering (sound : Sound S w) (h : Numbering S w) (k : Fin n) {kernel : Kernel}
    {t : FeedThread} {response : Option (SockAddr × Packet)}
    (move : FeedMove S w.ring w.shutdown kernel (w.feeds k) (t, response)) :
    Numbering S { w.setFeed k t with
      unicast := w.unicast ++ response.toList.map fun r => (k, r) } := by
  cases move with
  | still => exact setFeed_numbering h k _ _ (h.fetching k) (h.answering k) (by simp)
  | construct place => exact setFeed_numbering h k _ _ (by simp) (by simp) (by simp)
  | report place some => exact setFeed_numbering h k _ _ (by simp) (by simp) (by simp)
  | again place => exact setFeed_numbering h k _ _ (by simp) (by simp) (by simp)
  | leave place => exact setFeed_numbering h k _ _ (by simp) (by simp) (by simp)
  | lose place => exact setFeed_numbering h k _ _ (by simp) (by simp) (by simp)
  | miss place other =>
    exact setFeed_numbering h k _ _ (by simp [FeedThread.settle]) (by simp [FeedThread.settle])
      (by simp)
  | take place queued =>
    rename_i events client datagram queue
    have at_ := taken_place (take_taken w.ring (w.feeds k) client datagram queue events)
    refine setFeed_numbering h k _ _ ?_ ?_ (by simp)
    all_goals
      intro _ _ elsewhere
      rcases at_ with place' | ⟨_, place'⟩ <;> rw [place'] at elsewhere <;> cases elsewhere
  | found place same =>
    refine setFeed_numbering h k _ _ ?_ (by simp) (by simp)
    intro request events fetching
    cases fetching
    exact found_grounded sound place same
  | fetch place =>
    refine setFeed_numbering h k _ _ (by simp [FeedThread.settle]) ?_ (by simp)
    intro ctx events answering
    cases answering
    exact h.fetching k _ _ place
  | answer place =>
    rename_i ctx events
    refine setFeed_numbering h k _ _ (by simp) (by simp) ?_
    intro r sent
    cases sent
    exact ⟨ctx.startingSequence, ctx.msgCount.toNat, ctx.filePosition,
      MoldRetransmission.answer_packet S.file.bytes (sound.ready k) ctx, h.answering k _ _ place⟩

theorem advance_numbering (sound : Sound S w) (h : Numbering S w) (advance : Advance S w w')
    (quiet : w.stored = false → w'.stored = true →
      ∀ k, ∀ s ∈ Place.fetched (w.feeds k).place,
        w.ring.indexFor s ≠ w.ring.indexFor w.heart.thread.feed.sequenceNumber) :
    Numbering S w' := by
  cases advance with
  | storeRecord running pushes fresh =>
    refine aside_numbering h rfl rfl List.prefix_rfl fun k request events place => ?_
    have apart := quiet fresh rfl k request.startingSequence (by rw [place]; rfl)
    rw [ring_whole fresh] at apart ⊢
    rw [ring_half (w := { w with stored := true }) rfl, MoldRacing.store_entry, if_neg apart]
  | replay running unfinished ready expired =>
    refine aside_numbering h rfl rfl (replay_entries S _ _) fun k request events place => ?_
    have same := replay_stored sound.half ready
    rw [ring_whole (w := { w with heart := _, stored := false }) rfl]
    cases replay_published S w ⟨w.stopRequested, expired⟩ with
    | nothing none_ log buffer => rw [buffer, ring_whole (same.symm.trans none_)]
    | record one log buffer =>
      rw [buffer, ring_half (same.symm.trans one)]
      rfl
  | beat =>
    refine aside_numbering h rfl rfl (replay_entries S _ _) fun k request events place => ?_
    simp only [World.ring, heartbeat_thread S w.heart]
  | feed k move => exact move_numbering sound h k move
  | arrive k client datagram room =>
    obtain ⟨_, place, _, _⟩ := arrive_same (w.feeds k) client datagram room
    have still := setFeed_numbering h k ((w.feeds k).arrive client datagram room) none
      (by rw [place]; exact h.fetching k) (by rw [place]; exact h.answering k) (by simp)
    rw [Option.toList_none, List.map_nil, List.append_nil] at still
    exact still
  | _ => exact aside_numbering h rfl rfl List.prefix_rfl fun _ _ _ _ => rfl

theorem run_numbering {actions : List (Action n)}
    (quiet : Throughout (step S) (Undisturbed S) (initial S n) actions) :
    Numbering S (run (step S) (initial S n) actions) :=
  run_beside (run_sound S)
    (fun w a sound h quiet => advance_numbering sound h (step_advances S w a) quiet)
    ⟨by simp [initial], by simp [initial], by simp [initial]⟩ quiet

theorem response_numbers (reads : ∀ e ∈ es, Reads S e) (unskipped : Unskipped S es) {p : Packet}
    (h : FromEntries S es p) (positive : 1 ≤ p.sequenceNumber) {number : Nat} {m : List UInt8}
    (carries : Carries p number m) : m = S.messageAt (positionOf S es (number - 1)) := by
  obtain ⟨start, count, pos, rfl, grounded⟩ := h
  rw [dataPacket_sequenceNumber (accepted S).session start.toNat_lt] at positive
  obtain ⟨i, rfl, carried⟩ := carries
  rw [dataPacket_messages, (grounded positive).2] at carried
  have read := readRun_numbers reads unskipped count _ _ i m carried
  rw [read, dataPacket_sequenceNumber (accepted S).session start.toNat_lt]
  congr 2
  omega

theorem sent_numbers {f : Feed} {L : Ledger Entry} (tracks : Tracks S f L) {p : Packet}
    (sent : p ∈ sentPackets f.log) {number : Nat} {m : List UInt8} (carries : Carries p number m) :
    m = S.messageAt (positionOf S L.entries (number - 1)) := by
  rw [tracks.sent, render, List.mem_map] at sent
  obtain ⟨q, member, rfl⟩ := sent
  have bound := number_bound tracks member
  obtain ⟨before, after, stream, first⟩ := numbered_split member
  obtain ⟨i, rfl, carried⟩ := carries
  rw [packet_number (by omega)]
  change (messages q.2)[i]? = some m at carried
  rw [messages, List.getElem?_map, Option.map_eq_some_iff] at carried
  obtain ⟨e, held, rfl⟩ := carried
  have inside := (List.getElem?_eq_some_iff.mp held).1
  have layout : L.entries = before ++ (q.2 ++ (after ++ L.current)) := by
    unfold Ledger.entries
    rw [Ledger.sent, stream]
    simp
  have at_q : L.entries[q.1 + i - 1]? = some e := by
    rw [layout, List.getElem?_append_right (by omega), List.getElem?_append_left (by omega), ← held]
    congr 1
    omega
  rw [positionOf_held at_q]
  exact (tracks.reads e (List.mem_of_getElem? at_q)).2

/-- With nothing skipped, in any run of a server over any file in which no compared slot is
    written before it is read, two packets never carry different messages under one number:
    not two of the multicast feed, not a response and a packet that was multicast before or
    after it, not two responses. -/
theorem one_number_one_message {n : Nat} (S : Setup) (never : S.pacer.skipBefore = 0)
    (actions : List (Action n)) (_once : StartedOnce actions)
    (quiet : Throughout (step S) (Undisturbed S) (initial S n) actions) :
    OneMessage (run (step S) (initial S n) actions) := by
  obtain ⟨beats, heart⟩ := run_heart S actions
  have numbering := run_numbering quiet
  have data := (MoldHeartbeatNumbers.run_together S beats).data
  rw [← heart] at data
  have tracks := (run_server_follows S actions).tracks
  generalize run (step S) (initial S n) actions = w at *
  have unskipped := linked_unskipped never tracks.linked
  have meant : ∀ p ∈ dataDatagrams w, 1 ≤ p.sequenceNumber → ∀ number m, Carries p number m →
      m = S.messageAt (positionOf S (numbered S w) (number - 1)) := by
    intro p sent positive number m carries
    rcases List.mem_append.mp sent with multicast | response
    · rw [data] at multicast
      exact sent_numbers tracks multicast carries
    · obtain ⟨r, answered, rfl⟩ := List.mem_map.mp response
      exact response_numbers tracks.reads unskipped (numbering.answers r answered) positive carries
  intro p sent p' sent' positive positive' number m m' carries carries'
  rw [meant p sent positive number m carries, meant p' sent' positive' number m' carries']

/-- A message is asked for before it is multicast, and its position read when the next record
    is already stored. -/
def earlyRequest (k : Fin 1) : List (Action 1) :=
  [.call .start, .feed k ⟨false, false⟩] ++ List.replicate 4 (.downstream false) ++
    [.arrive k ⟨0, 0⟩ (MoldRetransmission.request (List.replicate 10 0x20) 1 1) true] ++
    List.replicate 3 (.feed k ⟨false, false⟩) ++ [.downstream false] ++
    List.replicate 2 (.feed k ⟨false, false⟩) ++ List.replicate 5 (.downstream false)

theorem early_response_agrees : ∃ S,
    Setup.make ⟨frame (List.replicate 12 1) ++ frame (List.replicate 12 2), fun _ => 0, by decide⟩
      ⟨0⟩ { session := List.replicate 10 0x20 } 4 = .ok S ∧
    (dataDatagrams (run (step S) (initial S 1) (earlyRequest 0))).length = 2 ∧
    OneMessage (run (step S) (initial S 1) (earlyRequest 0)) :=
  ⟨_, rfl, by decide +kernel,
    one_number_one_message _ rfl _ (by unfold StartedOnce; decide) (by decide +kernel)⟩

end MoldNumberAgreement
