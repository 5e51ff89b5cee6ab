import MoldReplay.Rerequest

/- A receiver that lost the messages a..b asks for them, again and again, from where the
   last response ended. -/
namespace MoldGapRecovery
open FixedBytes MoldWire MoldFraming MoldPacket MoldBuffer MoldDownstream MoldLedger
open MoldGapFree MoldRerequest NumberedStream
open MoldRetransmission (SockAddr request readRun)

/-- `budget` requests at most, until the number after `b` is reached. -/
def recover (bytes session : List UInt8) (buffer : RetransmissionBuffer) (client : SockAddr)
    (b : Nat) : Nat → MoldRetransmission.Feed → Nat → Option (List Packet)
  | budget, f, s =>
    if s = b + 1 then some []
    else
      match budget with
      | 0 => none
      | budget + 1 =>
        match f.handleRequest bytes buffer client
            (request session s (min (b - s + 1) 65535)) with
        | (_, none) => none
        | (f, some (_, response)) =>
          (recover bytes session buffer client b budget f (s + response.messageCount)).map
            (response :: ·)

def Unskipped (S : Setup) (es : List Entry) : Prop :=
  es.IsChain fun e e' => Complete S.file.bytes e.next → e'.position = e.next

variable {S : Setup} {f : Feed} {L : Ledger Entry} {es : List Entry}

theorem nothing_skipped (never : S.pacer.skipBefore = 0) (pos : Nat) : ¬ S.SkippedAt pos := by
  rintro ⟨timestamp, _, skips⟩
  simp only [Pacer.shouldSkip, never, decide_eq_true_eq] at skips
  omega

theorem linked_unskipped (never : S.pacer.skipBefore = 0) (linked : Linked S es) :
    Unskipped S es := by
  apply List.IsChain.imp _ linked
  intro e e' gap complete
  rcases gap.2 with same | unreadable | ⟨skipped, _⟩
  · exact same
  · exact absurd complete unreadable
  · exact absurd skipped (nothing_skipped never _)

theorem entries_fit {t : Thread} (h : Follows S t) :
    ∀ e ∈ (ledger S t.feed.log).entries, e.message.length ≤ S.config.capacity := by
  have part : ∀ {es : List Entry}, (messages es).flatten.length ≤ S.config.capacity →
      ∀ e ∈ es, e.message.length ≤ S.config.capacity := by
    intro es fits e member
    have inside : e.message ∈ messages es := List.mem_map_of_mem member
    exact Nat.le_trans (List.sublist_flatten_of_mem inside).length_le fits
  have current : (messages (ledger S t.feed.log).current).flatten.length ≤ S.config.capacity := by
    obtain ⟨sq, ms, holds, closed | rfl⟩ := follows_builder h
    · rw [closed]
      exact Nat.zero_le _
    · exact holds_within_capacity holds
  intro e member
  rcases List.mem_append.mp member with sent | opened
  · obtain ⟨p, inside, member⟩ := List.mem_flatten.mp sent
    exact part (h.tracks.packets p inside).fits e member
  · exact part current e opened

theorem readRun_prefix (count pos room : Nat) (reads : ∀ e ∈ es, Reads S e)
    (unskipped : Unskipped S es) (start : ∀ e ∈ es.head?, e.position = pos)
    (within : count ≤ es.length) :
    readRun S.file.bytes count pos room =
      messages (es.take (readRun S.file.bytes count pos room).length) := by
  induction count generalizing es pos room with
  | zero => simp [readRun, messages]
  | succ count ih =>
    cases es with
    | nil => simp at within
    | cons e rest =>
      have at_pos : e.position = pos := start e rfl
      obtain ⟨complete, message⟩ := reads e List.mem_cons_self
      rw [at_pos] at complete message
      unfold Setup.messageAt at message
      by_cases fits : (messageAt S.file.bytes pos).length ≤ room
      · rw [Unskipped, List.isChain_cons] at unskipped
        have next : e.next = pos + (messageAt S.file.bytes pos).length := by
          unfold Entry.next
          rw [at_pos, message]
        rw [MoldRetransmission.readRun_more complete fits, List.length_cons, List.take_succ_cons]
        simp only [messages, List.map_cons, message, List.cons.injEq, true_and]
        by_cases more : Complete S.file.bytes (pos + (messageAt S.file.bytes pos).length)
        · apply ih _ _ (fun e' member => reads e' (List.mem_cons_of_mem _ member)) unskipped.2
          · intro e' head
            rw [← next] at more ⊢
            exact unskipped.1 e' head more
          · simpa using within
        · rw [MoldRetransmission.readRun_stops fun whole => more whole.1]
          simp
      · rw [MoldRetransmission.readRun_stops fun whole => fits whole.2]
        simp [messages]

theorem run_carries {t : Thread} (never : S.pacer.skipBefore = 0) (h : Follows S t) {s : Nat}
    (count : Nat) (positive : 1 ≤ s) (some_ : 1 ≤ count)
    (pushed : s + count ≤ (ledger S t.feed.log).entries.length + 1) {e : Entry}
    (held : (ledger S t.feed.log).entries[s - 1]? = some e) :
    let ms := readRun S.file.bytes count e.position S.config.capacity
    1 ≤ ms.length ∧ ms.length ≤ count ∧ (∀ m ∈ ms, IsFrame m) ∧
      ms = ((messages (ledger S t.feed.log).entries).drop (s - 1)).take ms.length := by
  intro ms
  have tracks := h.tracks
  have fit := entries_fit h
  generalize ledger S t.feed.log = L at *
  have suffix : L.entries.drop (s - 1) = e :: L.entries.drop s := by
    have inside : s - 1 < L.entries.length := by omega
    rw [List.drop_eq_getElem_cons inside]
    rw [List.getElem?_eq_getElem inside] at held
    rw [Option.some.inj held, Nat.sub_add_cancel positive]
  have reads : ∀ e' ∈ L.entries.drop (s - 1), Reads S e' :=
    fun e' member => tracks.reads e' (List.mem_of_mem_drop member)
  have first : Reads S e := reads e (by rw [suffix]; exact List.mem_cons_self)
  have room : (messageAt S.file.bytes e.position).length ≤ S.config.capacity := by
    have inside : e ∈ L.entries := List.mem_of_getElem? held
    have fits := fit e inside
    rwa [first.2] at fits
  have run : ms = messages ((L.entries.drop (s - 1)).take ms.length) :=
    readRun_prefix count e.position S.config.capacity reads
      (linked_unskipped never (tracks.linked.drop (s - 1)))
      (by rw [suffix]; intro e' head; cases head; rfl) (by rw [List.length_drop]; omega)
  have atLeast : 1 ≤ ms.length := by
    obtain ⟨fewer, rfl⟩ := Nat.exists_eq_add_of_le' some_
    simp only [ms]
    rw [MoldRetransmission.readRun_more first.1 room]
    simp
  refine ⟨atLeast,
    MoldRetransmission.readRun_length S.file.bytes count e.position S.config.capacity, ?_, ?_⟩
  · rw [run]
    exact messages_framed fun e' member => reads e' (List.mem_of_mem_take member)
  · unfold messages at run ⊢
    rw [← List.map_drop, ← List.map_take]
    exact run

theorem response_carries {t : Thread} (never : S.pacer.skipBefore = 0) (h : Follows S t)
    (bound : (ledger S t.feed.log).entries.length + S.bufferSize.toNat < 2 ^ 64)
    {s b : Nat} (positive : 1 ≤ s) (order : s ≤ b)
    (pushed : b ≤ (ledger S t.feed.log).entries.length)
    (live : (ledger S t.feed.log).entries.length < s + S.bufferSize.toNat)
    {g : MoldRetransmission.Feed} (ready : MoldRetransmission.Ready S.config g)
    (client : SockAddr) :
    ∃ ms, 1 ≤ ms.length ∧ ms.length ≤ min (b - s + 1) 65535 ∧ (∀ m ∈ ms, IsFrame m) ∧
      ms = ((messages (ledger S t.feed.log).entries).drop (s - 1)).take ms.length ∧
      (g.handleRequest S.file.bytes t.feed.retransmissionBuffer client
        (request S.config.session s (min (b - s + 1) 65535))).2 =
          some (client, dataPacket S.config.session s ms) := by
  obtain ⟨e, held, found⟩ := live_entry h.tracks bound positive (by omega) live
  have readable := MoldRetransmission.handleRequest_eq S.file.bytes ready s (min (b - s + 1) 65535)
    (by omega) (by omega) t.feed.retransmissionBuffer client
  rw [found, Option.map_some] at readable
  obtain ⟨some_, few, framed, carried⟩ := run_carries never h (min (b - s + 1) 65535) positive
    (by omega) (by omega) held
  exact ⟨_, some_, few, framed, carried, readable⟩

theorem rounds_recover {t : Thread} (never : S.pacer.skipBefore = 0) (h : Follows S t)
    (bound : (ledger S t.feed.log).entries.length + S.bufferSize.toNat < 2 ^ 64) {b : Nat}
    (pushed : b ≤ (ledger S t.feed.log).entries.length) (client : SockAddr) (budget : Nat) :
    ∀ (s : Nat) (g : MoldRetransmission.Feed), MoldRetransmission.Ready S.config g → 1 ≤ s →
      s ≤ b + 1 → (ledger S t.feed.log).entries.length < s + S.bufferSize.toNat →
      b + 1 - s ≤ budget →
      ∃ responses, recover S.file.bytes S.config.session t.feed.retransmissionBuffer client b
          budget g s = some responses ∧ responses.length ≤ b + 1 - s ∧
        (∀ p ∈ responses, 1 ≤ p.messageCount ∧ WellCounted p) ∧
        (responses.map Packet.messages).flatten =
          ((messages (ledger S t.feed.log).entries).drop (s - 1)).take (b + 1 - s) := by
  induction budget with
  | zero =>
    intro s g ready positive upper live enough
    have last : s = b + 1 := by omega
    exact ⟨[], by rw [recover, if_pos last], by simp, by simp, by simp [last]⟩
  | succ budget ih =>
    intro s g ready positive upper live enough
    by_cases last : s = b + 1
    · exact ⟨[], by rw [recover, if_pos last], by simp, by simp, by simp [last]⟩
    · obtain ⟨ms, some, atMost, framed, carried, answer⟩ :=
        response_carries never h bound positive (by omega) pushed live ready client
      have ready' := MoldRetransmission.handleRequest_ready S.file.bytes ready
        t.feed.retransmissionBuffer client (request S.config.session s (min (b - s + 1) 65535))
      rcases handled : g.handleRequest S.file.bytes t.feed.retransmissionBuffer client
          (request S.config.session s (min (b - s + 1) 65535)) with ⟨g', result⟩
      rw [handled] at answer ready'
      have ten := (accepted S).session
      have count : (dataPacket S.config.session s ms).messageCount = ms.length := by
        rw [dataPacket_messageCount ten]
        exact Nat.mod_eq_of_lt (by omega)
      obtain ⟨rest, recovered, few, sound, whole⟩ :=
        ih (s + ms.length) g' ready' (by omega) (by omega) (by omega) (by omega)
      refine ⟨dataPacket S.config.session s ms :: rest, ?_, ?_, ?_, ?_⟩
      · unfold recover
        rw [if_neg last, handled]
        simp only at answer
        simp only [answer, count, recovered, Option.map_some]
      · rw [List.length_cons]
        omega
      · intro p member
        rcases List.mem_cons.mp member with rfl | later
        · exact ⟨by omega, dataPacket_block ten s ms, framed, count⟩
        · exact sound p later
      · have parts : b + 1 - s = ms.length + (b + 1 - (s + ms.length)) := by omega
        have onward : s + ms.length - 1 = s - 1 + ms.length := by omega
        rw [List.map_cons, List.flatten_cons, whole, dataPacket_messages, parts, List.take_add,
          ← carried, List.drop_drop, onward]

/-- Whatever was lost of the last N messages is recovered completely, in order and
    without repeats, with a message at least in every response. -/
theorem gap_recovered (S : Setup) (never : S.pacer.skipBefore = 0) (inputs : List Inputs)
    (past : List Arrival) (client : SockAddr) (a b : Nat)
    (bound : (pushedRecords (S.runThread inputs).feed.log).length + S.bufferSize.toNat < 2 ^ 64)
    (recent : max 1
      ((pushedRecords (S.runThread inputs).feed.log).length + 1 - S.bufferSize.toNat) ≤ a)
    (order : a ≤ b) (pushed : b ≤ (pushedRecords (S.runThread inputs).feed.log).length) :
    ∃ responses, recover S.file.bytes S.config.session
        (S.runThread inputs).feed.retransmissionBuffer client b (b - a + 1) (served S past) a =
          some responses ∧
      responses.length ≤ b - a + 1 ∧ (∀ p ∈ responses, 1 ≤ p.messageCount ∧ WellCounted p) ∧
      (responses.map Packet.messages).flatten =
        ((assigned S (S.runThread inputs).feed.log).drop (a - 1)).take (b - a + 1) := by
  have follows := run_follows S inputs
  rw [pushed_count follows.tracks] at bound recent pushed
  rw [assigned_eq follows.tracks, show b - a + 1 = b + 1 - a by omega]
  exact rounds_recover never follows bound pushed client _ a (served S past) (served_ready S past)
    (by omega) (by omega) (by omega) (by omega)

theorem lost_pair_recovered : ∃ S responses,
    Setup.make ⟨frame (List.replicate 12 1) ++ frame (List.replicate 12 2), fun _ => 0, by decide⟩
      ⟨0⟩ { session := List.replicate 10 0x20, MTU := 40 } 4 = .ok S ∧
    recover S.file.bytes S.config.session
      (S.runThread (List.replicate 9 undisturbed)).feed.retransmissionBuffer ⟨0, 0⟩ 2 2
      (served S []) 1 = some responses ∧
    (responses.map Packet.messages).flatten =
      ((assigned S (S.runThread (List.replicate 9 undisturbed)).feed.log).drop 0).take 2 := by
  have recovered := gap_recovered
    ⟨⟨frame (List.replicate 12 1) ++ frame (List.replicate 12 2), fun _ => 0, by decide⟩, ⟨0⟩,
      { session := List.replicate 10 0x20, MTU := 40 }, 4, _, _, rfl, rfl⟩ rfl
    (List.replicate 9 undisturbed) [] ⟨0, 0⟩ 1 2 (by decide +kernel) (by decide +kernel)
    (by decide) (by decide +kernel)
  obtain ⟨responses, answers, _, _, whole⟩ := recovered
  exact ⟨_, responses, rfl, answers, whole⟩

end MoldGapRecovery
