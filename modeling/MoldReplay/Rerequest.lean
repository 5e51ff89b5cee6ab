import MoldReplay.GapFree
import MoldReplay.Retransmission

/- Requests against the buffer a downstream run has filled. What a response carries is
   compared with the ledger of the run from the requested number on. -/
namespace MoldRerequest
open FixedBytes MoldWire MoldFraming MoldPacket MoldBuffer MoldDownstream MoldLedger
open MoldGapFree NumberedStream
open MoldRetransmission (SockAddr request readRun)

structure Arrival where
  buffer : RetransmissionBuffer
  client : SockAddr
  datagram : List UInt8

def served (S : Setup) (past : List Arrival) : MoldRetransmission.Feed :=
  past.foldl (fun f a => (f.handleRequest S.file.bytes a.buffer a.client a.datagram).1)
    ⟨List.replicate headerLength 0, S.builder⟩

def respond (S : Setup) (past : List Arrival) (buffer : RetransmissionBuffer) (client : SockAddr)
    (datagram : List UInt8) : Option (SockAddr × Packet) :=
  ((served S past).handleRequest S.file.bytes buffer client datagram).2

def assigned (S : Setup) (log : List Event) : List (List UInt8) :=
  (pushedRecords log).map fun r => S.messageAt r.filePosition

variable {S : Setup} {f : Feed} {L : Ledger Entry} {es : List Entry}

theorem fresh_constructed (S : Setup) : MoldRetransmission.construct S.config =
    .ok ⟨List.replicate headerLength 0, S.builder⟩ := by
  simp [MoldRetransmission.construct, S.built]

theorem served_ready (S : Setup) (past : List Arrival) :
    MoldRetransmission.Ready S.config (served S past) := by
  have fresh := MoldRetransmission.construct_ready (fresh_constructed S)
  unfold served
  generalize (⟨List.replicate headerLength 0, S.builder⟩ : MoldRetransmission.Feed) = g at fresh ⊢
  induction past generalizing g with
  | nil => exact fresh
  | cons a rest ih =>
    exact ih _ (MoldRetransmission.handleRequest_ready _ fresh a.buffer a.client a.datagram)

theorem respond_eq (S : Setup) (past : List Arrival) (buffer : RetransmissionBuffer)
    (client : SockAddr) {seq count : Nat} (seqBound : seq < 2 ^ 64) (countBound : count < 65536) :
    respond S past buffer client (request S.config.session seq count) =
      (buffer.filePositionFor (UInt64.ofNat seq)).map fun pos =>
        (client, dataPacket S.config.session seq
          (readRun S.file.bytes count pos S.config.capacity)) :=
  MoldRetransmission.handleRequest_eq _ (served_ready S past) _ _ seqBound countBound buffer client

theorem records_length (ps : List Nat) : (records ps).length = ps.length := by simp [records]

theorem pushed_count (h : Tracks S f L) : (pushedRecords f.log).length = L.entries.length := by
  rw [h.pushed, records_length, positions_length]

theorem pushed_positions (h : Tracks S f L) :
    (pushedRecords f.log).map MessageRecord.filePosition = positions L.entries := by
  rw [h.pushed]
  apply List.ext_getElem?
  intro i
  simp [records, Function.comp_def]

theorem assigned_eq (h : Tracks S f L) : assigned S f.log = messages L.entries := by
  have same : assigned S f.log =
      ((pushedRecords f.log).map MessageRecord.filePosition).map S.messageAt := by
    simp [assigned]
  rw [same, pushed_positions h, positions, messages, List.map_map]
  apply List.map_congr_left
  intro e member
  exact (h.reads e member).2.symm

theorem buffer_pushed (h : Tracks S f L) :
    Pushed S.bufferSize.toNat f.retransmissionBuffer (positions L.entries) := by
  have small := numbers_small h
  rw [h.buffer]
  exact pushAll_pushed S.sized (by rw [positions_length]; omega)

theorem live_entry (h : Tracks S f L)
    (bound : L.entries.length + S.bufferSize.toNat < 2 ^ 64) {s : Nat} (positive : 1 ≤ s)
    (pushed : s ≤ L.entries.length) (live : L.entries.length < s + S.bufferSize.toNat) :
    ∃ e, L.entries[s - 1]? = some e ∧
      f.retransmissionBuffer.filePositionFor (UInt64.ofNat s) = some e.position := by
  have small : s < 2 ^ 64 := by omega
  have number : (UInt64.ofNat s).toNat = s := UInt64.toNat_ofNat_of_lt' small
  obtain ⟨p, held, found⟩ := live_found (s := UInt64.ofNat s) (buffer_pushed h)
    (by simpa using bound) (by omega) (by simpa [number] using pushed)
    (by simpa [number] using live)
  rw [number, positions, List.getElem?_map, Option.map_eq_some_iff] at held
  obtain ⟨e, at_s, rfl⟩ := held
  exact ⟨e, at_s, found⟩

theorem found_entry (h : Tracks S f L) {s pos : Nat} (positive : 1 ≤ s) (bound : s < 2 ^ 64)
    (found : f.retransmissionBuffer.filePositionFor (UInt64.ofNat s) = some pos) :
    ∃ e, L.entries[s - 1]? = some e ∧ e.position = pos := by
  have number : (UInt64.ofNat s).toNat = s := UInt64.toNat_ofNat_of_lt' bound
  have small := numbers_small h
  obtain ⟨_, held⟩ := found_was_pushed (s := UInt64.ofNat s) (buffer_pushed h)
    (by rw [positions_length]; omega) (by omega) found
  rwa [number, positions, List.getElem?_map, Option.map_eq_some_iff] at held

theorem readRun_contiguous {pos room : Nat} (reads : ∀ e ∈ es, Reads S e)
    (contiguous : Contiguous es) (fits : (messages es).flatten.length ≤ room)
    (start : ∀ e ∈ es.head?, e.position = pos) :
    readRun S.file.bytes es.length pos room = messages es := by
  induction es generalizing pos room with
  | nil => rfl
  | cons e rest ih =>
    have at_pos : e.position = pos := start e rfl
    obtain ⟨complete, message⟩ := reads e List.mem_cons_self
    rw [at_pos] at complete message
    rw [Contiguous, List.isChain_cons] at contiguous
    simp only [messages, List.map_cons, List.flatten_cons, List.length_append] at fits
    rw [message] at fits
    unfold Setup.messageAt at message fits
    rw [List.length_cons, MoldRetransmission.readRun_more complete (by omega), ih]
    · rw [messages, messages, List.map_cons, message]
    · exact fun e' member => reads e' (List.mem_cons_of_mem _ member)
    · exact contiguous.2
    · unfold messages
      omega
    · intro e' next
      rw [contiguous.1 e' next, Entry.next, at_pos, message]

/-- A packet that was sent is sent again to whoever asks for its number and count while
    its first message is among the last ones in the buffer. -/
theorem multicast_packet_rerequested (S : Setup) (mtu : S.config.MTU ≤ 65507)
    (inputs : List Inputs) (past : List Arrival) (client : SockAddr) (p : Packet)
    (bound : (pushedRecords (S.runThread inputs).feed.log).length + S.bufferSize.toNat < 2 ^ 64)
    (sent : p ∈ sentPackets (S.runThread inputs).feed.log) (carries : 1 ≤ p.messageCount)
    (live : (pushedRecords (S.runThread inputs).feed.log).length <
      p.sequenceNumber + S.bufferSize.toNat) :
    ∃ response, respond S past (S.runThread inputs).feed.retransmissionBuffer client
        (request S.config.session p.sequenceNumber p.messageCount) = some (client, response) ∧
      response.bytes = p.bytes := by
  have tracks := (run_follows S inputs).tracks
  rw [pushed_count tracks] at bound live
  rw [tracks.sent, render, List.mem_map] at sent
  obtain ⟨q, member, rfl⟩ := sent
  have few := packet_few mtu tracks member
  have numberBound := number_bound tracks member
  have number : (numberedPacket S.config.session q).sequenceNumber = q.1 :=
    packet_number (by omega)
  have count : (numberedPacket S.config.session q).messageCount = q.2.length := packet_count few
  rw [count] at carries
  rw [number] at live
  obtain ⟨before, after, stream, first⟩ := numbered_split member
  have inside := numbered_packet member
  generalize ledger S (S.runThread inputs).feed.log = L at *
  have layout : L.entries = before ++ (q.2 ++ (after ++ L.current)) := by
    unfold Ledger.entries
    rw [Ledger.sent, stream]
    simp
  have total : L.entries.length = before.length + (q.2.length + (after ++ L.current).length) := by
    rw [layout, List.length_append, List.length_append]
  obtain ⟨e, held, found⟩ := live_entry tracks bound (s := q.1) (by omega) (by omega) live
  have start : ∀ e' ∈ q.2.head?, e'.position = e.position := by
    intro e' head
    rw [layout, List.getElem?_append_right (by omega), first, Nat.add_sub_cancel_left,
      Nat.sub_self, ← List.head?_eq_getElem?, List.head?_append, Option.mem_def.mp head] at held
    cases held
    rfl
  have packed := tracks.packets _ inside
  refine ⟨_, ?_, rfl⟩
  rw [number, count, respond_eq S past _ client (by omega) few, found, Option.map_some,
    readRun_contiguous (packet_reads tracks inside) packed.contiguous packed.fits start]
  rfl

def fourMessages : List UInt8 :=
  ([1, 2, 3, 4].map fun b => frame (List.replicate 12 b)).flatten

theorem wrapped_packet_rerequested : ∃ S response,
    Setup.make ⟨fourMessages, fun _ => 0, by decide⟩ ⟨0⟩
      { session := List.replicate 10 0x20, MTU := 48 } 3 = .ok S ∧
    respond S [] (S.runThread (List.replicate 15 undisturbed)).feed.retransmissionBuffer ⟨0, 0⟩
      (request S.config.session 3 2) = some (⟨0, 0⟩, response) ∧
    response.bytes = (dataPacket (List.replicate 10 0x20) 3
      [frame (List.replicate 12 3), frame (List.replicate 12 4)]).bytes := by
  refine (multicast_packet_rerequested
    ⟨⟨fourMessages, fun _ => 0, by decide⟩, ⟨0⟩,
      { session := List.replicate 10 0x20, MTU := 48 }, 3, _, _, rfl, rfl⟩ ?_
    (List.replicate 15 undisturbed) [] ⟨0, 0⟩ (dataPacket (List.replicate 10 0x20) 3
      [frame (List.replicate 12 3), frame (List.replicate 12 4)])
    ?_ ?_ ?_ ?_).elim fun response answer => ⟨_, response, rfl, answer⟩
  all_goals decide +kernel

end MoldRerequest
