import MoldReplay.Rerequest

/- What a sequence number means, for the multicast feed and for retransmissions, on files
   of framed messages with any timestamps. A response takes consecutive messages from the
   file; it agrees with the numbering as long as no message in between was skipped. -/
namespace MoldAgreement
open FixedBytes MoldWire MoldFraming MoldPacket MoldBuffer MoldDownstream MoldLedger
open MoldGapFree MoldRerequest NumberedStream ScheduledRuns
open MoldRetransmission (SockAddr request readRun Fits)

def assignedPositions (log : List Event) : List Nat :=
  (pushedRecords log).map MessageRecord.filePosition

/-- Where a message of the file ends and the next one, if any, begins. -/
def Boundary (ms : List (List UInt8)) (pos : Nat) : Prop :=
  ∃ done rest, ms = done ++ rest ∧ pos = done.flatten.length

structure Framed (S : Setup) (ms : List (List UInt8)) : Prop where
  file : S.file.bytes = ms.flatten
  framed : ∀ m ∈ ms, IsFrame m
  timed : ∀ m ∈ ms, 13 ≤ m.length

structure AtBoundaries (ms : List (List UInt8)) (t : Thread) : Prop where
  position : Boundary ms t.feed.filePos
  pushed : ∀ r ∈ pushedRecords t.feed.log, Boundary ms r.filePosition

/-- A message that was passed over is not the one numbered instead. -/
def Distinct (S : Setup) (es : List Entry) : Prop :=
  es.IsChain fun e e' => Complete S.file.bytes e.next → e'.position ≠ e.next →
    S.messageAt e.next ≠ e'.message

def Agrees (run : List (List UInt8)) (es : List Entry) : Prop :=
  ∀ (i : Nat) (m : List UInt8) (e : Entry), run[i]? = some m → es[i]? = some e → m = e.message

/-- Among the first `n`, each message starts where the one before ends. -/
def Aligned (n : Nat) (es : List Entry) : Prop :=
  ∀ (i : Nat) (e e' : Entry), i + 1 < n → es[i]? = some e → es[i + 1]? = some e' →
    e'.position = e.next

variable {S : Setup} {ms : List (List UInt8)} {pos : Nat}

theorem boundary_message (framed : Framed S ms) (boundary : Boundary ms pos)
    (complete : Complete S.file.bytes pos) :
    S.messageAt pos ∈ ms ∧ Boundary ms (S.afterMessage pos) := by
  obtain ⟨done, rest, whole, rfl⟩ := boundary
  cases rest with
  | nil =>
    rw [framed.file, whole, List.append_nil] at complete
    simp only [Complete] at complete
    omega
  | cons m rest =>
    have layout : S.file.bytes = done.flatten ++ m ++ rest.flatten := by
      rw [framed.file, whole]
      simp
    have member : m ∈ ms := by simp [whole]
    have read : S.messageAt done.flatten.length = m := by
      unfold Setup.messageAt
      rw [layout]
      exact (frame_in_place (framed.framed m member)).2
    refine ⟨by rwa [read], done ++ [m], rest, by simp [whole], ?_⟩
    have length := messageAt_length complete
    rw [show messageAt S.file.bytes done.flatten.length = m from read] at length
    simp only [Setup.afterMessage, List.flatten_append, List.length_append, List.flatten_singleton]
    omega

theorem boundary_end (framed : Framed S ms) (boundary : Boundary ms pos)
    (incomplete : ¬ Complete S.file.bytes pos) : pos = S.file.size := by
  obtain ⟨done, rest, whole, rfl⟩ := boundary
  cases rest with
  | nil => rw [MappedFile.size, framed.file, whole, List.append_nil]
  | cons m rest =>
    have layout : S.file.bytes = done.flatten ++ m ++ rest.flatten := by
      rw [framed.file, whole]
      simp
    have member : m ∈ ms := by simp [whole]
    rw [layout] at incomplete
    exact absurd (frame_in_place (framed.framed m member)).1 incomplete

theorem boundary_unreadable (framed : Framed S ms) (boundary : Boundary ms pos)
    (incomplete : ¬ Complete S.file.bytes pos) : Boundary ms (afterFailure S.file.bytes pos) := by
  have last := boundary_end framed boundary incomplete
  simp only [MappedFile.size] at last
  have stays : afterFailure S.file.bytes pos = pos := by
    rw [afterFailure, if_neg (by omega)]
  rw [stays]
  exact boundary

theorem boundary_timestamp (framed : Framed S ms) (boundary : Boundary ms pos)
    (complete : Complete S.file.bytes pos) :
    peekTimestamp S.file pos = some (timestampOf (S.messageAt pos)) :=
  peekTimestamp_message complete (framed.timed _ (boundary_message framed boundary complete).1)

theorem move_boundaries {t t' : Thread} (framed : Framed S ms) (h : AtBoundaries ms t)
    (move : Move S t t') : AtBoundaries ms t' := by
  obtain ⟨position, pushed⟩ := h
  have kept : ∀ {g : Feed} {phase : Phase}, Boundary ms g.filePos →
      pushedRecords g.log = pushedRecords t.feed.log → AtBoundaries ms ⟨g, phase⟩ := by
    intro g phase at_g same
    exact ⟨at_g, by rw [same]; exact pushed⟩
  cases move with
  | turn _ _ _ => exact kept position rfl
  | skip _ complete =>
    exact kept (boundary_message framed position complete).2 (by simp [Feed.emit, pushedRecords])
  | skipFails _ _ incomplete => exact kept (boundary_unreadable framed position incomplete) rfl
  | start _ _ => exact kept position rfl
  | add complete _ =>
    refine ⟨(boundary_message framed position complete).2, ?_⟩
    intro r member
    simp only [Feed.accept, Feed.emit, pushedRecords, List.filterMap_append, List.mem_append]
      at member
    rcases member with old | new
    · exact pushed r old
    · rw [List.mem_singleton.mp (show r ∈ [_] from new)]
      exact position
  | unreadable _ incomplete => exact kept (boundary_unreadable framed position incomplete) rfl
  | close => exact kept position rfl
  | pace => exact kept position (by simp [Feed.pace, Feed.emit, pushedRecords])
  | publish => exact kept position rfl
  | send => exact kept position (by simp [Feed.transmit, Feed.emit, pushedRecords])
  | announce => exact kept position (by simp [Feed.emit, pushedRecords])

theorem run_boundaries (framed : Framed S ms) (inputs : List Inputs) :
    AtBoundaries ms (S.runThread inputs) :=
  run_always (I := AtBoundaries ms) (fun t i h => move_boundaries framed h (step_moves t i)) inputs
    ⟨⟨[], ms, rfl, rfl⟩, by simp [Setup.thread, Setup.initial, pushedRecords]⟩

theorem entry_boundary {t : Thread} (follows : Follows S t) (h : AtBoundaries ms t) {e : Entry}
    (member : e ∈ (ledger S t.feed.log).entries) : Boundary ms e.position := by
  have inside : e.position ∈ positions (ledger S t.feed.log).entries :=
    List.mem_map_of_mem member
  rw [← pushed_positions follows.tracks] at inside
  obtain ⟨r, pushed, same⟩ := List.mem_map.mp inside
  rw [← same]
  exact h.pushed r pushed

theorem entries_distinct {t : Thread} (framed : Framed S ms) (follows : Follows S t)
    (h : AtBoundaries ms t) : Distinct S (ledger S t.feed.log).entries := by
  apply List.IsChain.imp_of_mem_imp _ follows.tracks.linked
  intro e e' member member' gap complete apart same
  have read := follows.tracks.reads e member
  have read' := follows.tracks.reads e' member'
  rcases gap.2 with contiguous | unreadable | ⟨skipped, kept⟩
  · exact apart contiguous
  · exact unreadable complete
  · have before := boundary_message framed (entry_boundary follows h member) read.1
    rw [← reads_next read] at before
    have below := boundary_timestamp framed before.2 complete
    have above := boundary_timestamp framed (entry_boundary follows h member') read'.1
    rw [same, read'.2] at below
    obtain ⟨low, peekedLow, skips⟩ := skipped
    obtain ⟨high, peekedHigh, keeps⟩ := kept
    rw [below] at peekedLow
    rw [above] at peekedHigh
    rw [← Option.some.inj peekedLow] at skips
    rw [← Option.some.inj peekedHigh, skips] at keeps
    cases keeps

theorem agrees_cons {m : List UInt8} {run : List (List UInt8)} {e : Entry} {es : List Entry} :
    Agrees (m :: run) (e :: es) ↔ m = e.message ∧ Agrees run es := by
  constructor
  · intro agrees
    exact ⟨agrees 0 m e rfl rfl, fun i m' e' at_run at_es => agrees (i + 1) m' e' at_run at_es⟩
  · rintro ⟨first, others⟩ i m' e' at_run at_es
    cases i with
    | zero =>
      cases at_run
      cases at_es
      exact first
    | succ i => exact others i m' e' at_run at_es

theorem aligned_cons {n : Nat} {e e' : Entry} {es : List Entry} :
    Aligned (n + 1) (e :: e' :: es) ↔ (0 < n → e'.position = e.next) ∧ Aligned n (e' :: es) := by
  constructor
  · intro aligned
    exact ⟨fun more => aligned 0 e e' (by omega) rfl rfl, fun i a a' inside at_i at_next =>
      aligned (i + 1) a a' (by omega) at_i at_next⟩
  · rintro ⟨first, others⟩ i a a' inside at_i at_next
    cases i with
    | zero =>
      cases at_i
      cases at_next
      exact first (by omega)
    | succ i => exact others i a a' (by omega) at_i at_next

theorem aligned_short (n : Nat) {es : List Entry} (short : es.length ≤ 1) : Aligned n es := by
  intro i e e' _ _ at_next
  have inside := (List.getElem?_eq_some_iff.mp at_next).1
  omega

/-- A run read from the file agrees with the numbered messages exactly as long as each of
    them starts where the one before ends. -/
theorem run_agrees_iff (count : Nat) : ∀ (pos room : Nat) {es : List Entry},
    (∀ e ∈ es, Reads S e) → Distinct S es → (∀ e ∈ es.head?, e.position = pos) →
    (Agrees (readRun S.file.bytes count pos room) es ↔
      Aligned (readRun S.file.bytes count pos room).length es) := by
  induction count with
  | zero =>
    intro pos room es _ _ _
    simp [readRun, Agrees, Aligned]
  | succ count ih =>
    intro pos room es reads distinct start
    by_cases whole : Complete S.file.bytes pos ∧ (messageAt S.file.bytes pos).length ≤ room
    · rw [MoldRetransmission.readRun_more whole.1 whole.2, List.length_cons]
      cases es with
      | nil => simp [Agrees, Aligned]
      | cons e rest =>
        have at_pos : e.position = pos := start e rfl
        have message : e.message = messageAt S.file.bytes pos := by
          rw [(reads e List.mem_cons_self).2, at_pos, Setup.messageAt]
        have next : e.next = pos + (messageAt S.file.bytes pos).length := by
          unfold Entry.next
          rw [at_pos, message]
        rw [agrees_cons, ← next, ← message]
        cases rest with
        | nil => simp [Agrees, aligned_short]
        | cons e' rest =>
          rw [Distinct, List.isChain_cons_cons] at distinct
          have ih := ih e.next (room - e.message.length)
            (fun a member => reads a (List.mem_cons_of_mem _ member)) distinct.2
          rw [aligned_cons]
          by_cases contiguous : e'.position = e.next
          · -- the file goes on with the message that is numbered next
            rw [ih (by simpa using contiguous)]
            simp [contiguous]
          · -- it goes on with a message that was skipped, or does not go on
            rcases run : readRun S.file.bytes count e.next (room - e.message.length) with
              _ | ⟨m, tail⟩
            · simp [Agrees, Aligned]
            · obtain ⟨more, read⟩ := MoldRetransmission.readRun_head run
              have other : m ≠ e'.message := read ▸ distinct.1 more contiguous
              rw [agrees_cons]
              simp [other, contiguous]
    · rw [MoldRetransmission.readRun_stops whole]
      simp [Agrees, Aligned]

theorem agrees_from {run : List (List UInt8)} {es : List Entry} {k : Nat} :
    (∀ i m m', run[i]? = some m → (messages es)[k + i]? = some m' → m = m') ↔
      Agrees run (es.drop k) := by
  constructor
  · intro same i m e at_run at_es
    rw [List.getElem?_drop] at at_es
    exact same i m e.message at_run (by rw [messages, List.getElem?_map, at_es]; rfl)
  · intro agrees i m m' at_run at_es
    rw [messages, List.getElem?_map, Option.map_eq_some_iff] at at_es
    obtain ⟨e, held, rfl⟩ := at_es
    exact agrees i m e at_run (by rw [List.getElem?_drop, held])

theorem aligned_from {es : List Entry} {k n : Nat} (reads : ∀ e ∈ es, Reads S e) :
    Aligned n (es.drop k) ↔ ∀ i p p', i + 1 < n → (positions es)[k + i]? = some p →
      (positions es)[k + (i + 1)]? = some p' → p' = S.afterMessage p := by
  constructor
  · intro aligned i p p' inside at_i at_next
    rw [positions, List.getElem?_map, Option.map_eq_some_iff] at at_i at_next
    obtain ⟨e, held, rfl⟩ := at_i
    obtain ⟨e', held', rfl⟩ := at_next
    rw [← reads_next (reads e (List.mem_of_getElem? held))]
    exact aligned i e e' inside (by rw [List.getElem?_drop, held])
      (by rw [List.getElem?_drop, held'])
  · intro steps i e e' inside at_i at_next
    rw [List.getElem?_drop] at at_i at_next
    rw [reads_next (reads e (List.mem_of_getElem? at_i))]
    apply steps i e.position e'.position inside
    · unfold positions
      rw [List.getElem?_map, at_i]
      rfl
    · unfold positions
      rw [List.getElem?_map, at_next]
      rfl

/-- A response agrees with the numbering exactly if no message was skipped between two
    numbered ones that it carries. -/
theorem retransmission_agrees_iff (S : Setup) (ms : List (List UInt8))
    (file : S.file.bytes = ms.flatten) (framed : ∀ m ∈ ms, IsFrame m ∧ 13 ≤ m.length)
    (inputs : List Inputs) (past : List Arrival) (client : SockAddr) (s count : Nat)
    (positive : 1 ≤ s) (seqBound : s < 2 ^ 64) (countBound : count < 65536) (response : Packet)
    (answered : respond S past (S.runThread inputs).feed.retransmissionBuffer client
      (request S.config.session s count) = some (client, response)) :
    ((∀ i m m', response.messages[i]? = some m →
        (assigned S (S.runThread inputs).feed.log)[s - 1 + i]? = some m' → m = m') ∧
      response.messages.length ≤ count ∧ response.bytes.length ≤ S.config.MTU) ↔
    ∀ i first p p', i + 1 < count →
      (assignedPositions (S.runThread inputs).feed.log)[s - 1]? = some first →
      (assignedPositions (S.runThread inputs).feed.log)[s - 1 + i]? = some p →
      (assignedPositions (S.runThread inputs).feed.log)[s + i]? = some p' →
      Fits S.file.bytes (i + 2) first S.config.capacity → p' = S.afterMessage p := by
  have follows := run_follows S inputs
  have tracks := follows.tracks
  have laid : Framed S ms := ⟨file, fun m member => (framed m member).1,
    fun m member => (framed m member).2⟩
  have distinct := entries_distinct laid follows (run_boundaries laid inputs)
  rw [respond_eq S past _ client seqBound countBound, Option.map_eq_some_iff] at answered
  obtain ⟨first, found, same⟩ := answered
  obtain ⟨e, held, rfl⟩ := found_entry tracks positive seqBound found
  cases (Prod.mk.inj same).2
  rw [assignedPositions, pushed_positions tracks, assigned_eq tracks, dataPacket_messages,
    dataPacket_size (accepted S).session]
  generalize ledger S (S.runThread inputs).feed.log = L at *
  have reads : ∀ e' ∈ L.entries.drop (s - 1), Reads S e' :=
    fun e' member => tracks.reads e' (List.mem_of_mem_drop member)
  have start : ∀ e' ∈ (L.entries.drop (s - 1)).head?, e'.position = e.position := by
    intro e' head
    rw [List.head?_drop, held] at head
    cases head
    rfl
  have atMost := MoldRetransmission.readRun_length S.file.bytes count e.position S.config.capacity
  have room := MoldRetransmission.readRun_room S.file.bytes count e.position S.config.capacity
  have capacity : 20 + S.config.capacity ≤ S.config.MTU := by
    have := (accepted S).mtu
    simp only [Config.capacity]
    omega
  have agrees := run_agrees_iff count e.position S.config.capacity reads (distinct.drop (s - 1))
    start
  rw [agrees_from, agrees, aligned_from tracks.reads]
  have from_s : ∀ i, s - 1 + (i + 1) = s + i := by omega
  have at_s : (positions L.entries)[s - 1]? = some e.position := by
    unfold positions
    rw [List.getElem?_map, held]
    rfl
  simp only [from_s, ← Nat.succ_le_iff, MoldRetransmission.readRun_reaches]
  constructor
  · rintro ⟨steps, _⟩ i first p p' inside at_first at_i at_next fits
    cases Option.some.inj (at_s.symm.trans at_first)
    exact steps i p p' ⟨inside, fits⟩ at_i at_next
  · intro steps
    refine ⟨?_, atMost, by omega⟩
    rintro i p p' ⟨inside, fits⟩ at_i at_next
    exact steps i e.position p p' inside at_s at_i at_next fits

theorem packet_mates_agree : ∃ S response,
    Setup.make ⟨([frame (List.replicate 12 2), frame (List.replicate 12 2)]).flatten, fun _ => 0,
      by decide⟩ ⟨0x020202020202⟩ { session := List.replicate 10 0x20, MTU := 48 } 4 = .ok S ∧
    respond S [] (S.runThread (List.replicate 8 undisturbed)).feed.retransmissionBuffer ⟨0, 0⟩
      (request S.config.session 1 2) = some (⟨0, 0⟩, response) ∧
    ∀ i m m', response.messages[i]? = some m →
      (assigned S (S.runThread (List.replicate 8 undisturbed)).feed.log)[1 - 1 + i]? = some m' →
        m = m' := by
  refine ⟨_, _, rfl, rfl, ((retransmission_agrees_iff _
    [frame (List.replicate 12 2), frame (List.replicate 12 2)] ?_ ?_ (List.replicate 8 undisturbed)
    [] ⟨0, 0⟩ 1 2 (by decide) (by decide) (by decide) _ rfl).mpr ?_).1⟩
  · rfl
  · have framed := frame_isFrame (List.replicate 12 2) (by decide)
    simpa using ⟨framed, by decide⟩
  · intro i first p p' inside _ at_p at_p' _
    have only : i = 0 := by omega
    subst only
    cases Option.some.inj (show some 0 = some p from at_p)
    cases Option.some.inj (show some 14 = some p' from at_p')
    decide +kernel

/-- Two messages fill a packet, the third is skipped, the fourth gets number 3: a request
    for numbers 2 and 3 is answered with the third. -/
theorem skipped_message_retransmitted : ∃ S response,
    Setup.make ⟨([frame (List.replicate 12 2), frame (List.replicate 12 2),
      frame (List.replicate 12 1), frame (List.replicate 12 2)]).flatten, fun _ => 0, by decide⟩
      ⟨0x020202020202⟩ { session := List.replicate 10 0x20, MTU := 48 } 4 = .ok S ∧
    respond S [] (S.runThread (List.replicate 11 undisturbed)).feed.retransmissionBuffer ⟨0, 0⟩
      (request S.config.session 2 2) = some (⟨0, 0⟩, response) ∧
    ¬ ∀ i m m', response.messages[i]? = some m →
      (assigned S (S.runThread (List.replicate 11 undisturbed)).feed.log)[2 - 1 + i]? = some m' →
        m = m' := by
  refine ⟨_, _, rfl, rfl, fun same => ?_⟩
  exact absurd (same 1 (frame (List.replicate 12 1)) (frame (List.replicate 12 2)) rfl rfl)
    (by decide)

end MoldAgreement
