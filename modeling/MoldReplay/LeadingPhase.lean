import MoldReplay.Agreement
import MoldReplay.WholeFile

/- A replay that skips a leading phase, beside a replay of the file without that phase.
   The first one passes the phase message by message; from there on both do the same,
   at file positions that lie the phase's length apart. -/
namespace MoldLeadingPhase
open FixedBytes MoldWire MoldFraming MoldPacket MoldBuffer MoldDownstream MoldLedger
open MoldWellFormed MoldWholeFile MoldRerequest MoldAgreement LoopBody ScheduledRuns
open MoldRetransmission (SockAddr requestedSequence requestedCount)

/-- S replays A and then B with a threshold between the two, S' replays B alone. -/
structure LeadingPhase (S S' : Setup) (A B : List (List UInt8)) : Prop where
  file : S.file.bytes = (A ++ B).flatten
  remainder : S'.file.bytes = B.flatten
  config : S'.config = S.config
  bufferSize : S'.bufferSize = S.bufferSize
  unskipped : S'.pacer.skipBefore = 0
  framed : ∀ m ∈ A ++ B, IsFrame m ∧ max 13 S.config.minMessageSize ≤ m.length ∧
    m.length ≤ S.config.MTU - 20
  below : ∀ m ∈ A, (timestampOf m : Int) < S.pacer.skipBefore
  above : ∀ m ∈ B, S.pacer.skipBefore ≤ timestampOf m

def movedRecord (d : Nat) (r : MessageRecord) : MessageRecord :=
  ⟨r.sequenceNumber, d + r.filePosition⟩

def moved (d : Nat) : Event → Event
  | .skipped filePos => .skipped (d + filePos)
  | .pushed record => .pushed (movedRecord d record)
  | e => e

/-- Feeds that differ in their positions alone, and in what the first one has skipped. -/
structure Alike (d : Nat) (f f' : Feed) : Prop where
  number : f.sequenceNumber = f'.sequenceNumber
  published : f.sentSequenceNumber = f'.sentSequenceNumber
  buffer : Apart d f.retransmissionBuffer f'.retransmissionBuffer
  builder : f.packetBuilder = f'.packetBuilder
  log : ∃ passed : List Nat, f.log = passed.map .skipped ++ f'.log.map (moved d)

structure Level (d : Nat) (f f' : Feed) : Prop where
  position : f.filePos = d + f'.filePos
  alike : Alike d f f'

def passed (S : Setup) (done : List (List UInt8)) : Feed :=
  { S.initial with
    filePos := done.flatten.length
    log := (positions (located 0 done)).map .skipped }

def reading : Phase → Bool
  | .stopping | .joining | .ending | .finished => false
  | _ => true

structure InStep (d : Nat) (t t' : Thread) : Prop where
  phase : t.phase = t'.phase
  alike : Alike d t.feed t'.feed
  position : reading t.phase = true → t.feed.filePos = d + t'.feed.filePos

/-- The steps of a thread without those that pass a message of the phase: at most one
    each, and none after a stop request. -/
def withoutPassing : Nat → List Inputs → List Inputs
  | _, [] => []
  | 0, inputs => inputs
  | left + 1, i :: rest => if i.stopRequested then i :: rest else withoutPassing left rest

/-- What comes out of two replays: packets, delays, records, the end of session and the
    responses to whatever asks for a number from 1 on. -/
structure Same (S S' : Setup) (d : Nat) (t t' : Thread) : Prop where
  phase : t.phase = t'.phase
  packets : sentPackets t.feed.log = sentPackets t'.feed.log
  delays : delayedTimestamps t.feed.log = delayedTimestamps t'.feed.log
  pushes : pushedRecords t.feed.log = (pushedRecords t'.feed.log).map (movedRecord d)
  ends : endOfSessionPackets t.feed.log = endOfSessionPackets t'.feed.log
  endOfSession : t.feed.endOfSessionPacket = t'.feed.endOfSessionPacket
  responses : ∀ past past' client datagram, 1 ≤ (requestedSequence datagram).toNat →
    respond S past t.feed.retransmissionBuffer client datagram =
      respond S' past' t'.feed.retransmissionBuffer client datagram

variable {S S' : Setup} {A B done rest : List (List UInt8)} {m : List UInt8} {d : Nat}
variable {f f' : Feed} {t t' : Thread}

theorem phase_regular (phase : LeadingPhase S S' A B) : ∀ m ∈ A ++ B, Regular S m :=
  framed_regular phase.framed

theorem phase_bytes (phase : LeadingPhase S S' A B) :
    S.file.bytes = A.flatten ++ S'.file.bytes := by
  rw [phase.file, phase.remainder, List.flatten_append]

theorem phase_size (phase : LeadingPhase S S' A B) :
    S.file.size = A.flatten.length + S'.file.size := by
  simp only [MappedFile.size, phase_bytes phase, List.length_append]

theorem remainder_framed (phase : LeadingPhase S S' A B) : Framed S' B where
  file := phase.remainder
  framed m member := (phase_regular phase m (List.mem_append_right A member)).framed
  timed m member := (phase_regular phase m (List.mem_append_right A member)).timed

theorem initial_alike (phase : LeadingPhase S S' A B) (d : Nat) :
    Alike d (passed S done) S'.initial := by
  have builders := S'.built
  rw [phase.config, S.built] at builders
  have buffers := S'.sized
  rw [phase.bufferSize, S.sized] at buffers
  refine ⟨rfl, rfl, ?_, Except.ok.inj builders, _, (List.append_nil _).symm⟩
  change Apart d S.emptyBuffer S'.emptyBuffer
  rw [← Except.ok.inj buffers]
  exact construct_apart d S.sized

theorem alike_emit (alike : Alike d f f') (e : Event) :
    Alike d (f.emit (moved d e)) (f'.emit e) := by
  obtain ⟨skipped, log⟩ := alike.log
  exact ⟨alike.number, alike.published, alike.buffer, alike.builder, skipped, by
    simp [Feed.emit, log]⟩

theorem alike_start (alike : Alike d f f') : Alike d f.startPacket f'.startPacket := by
  refine ⟨alike.number, alike.published, alike.buffer, ?_, alike.log⟩
  simp only [Feed.startPacket, alike.number, alike.builder]

theorem alike_publish (alike : Alike d f f') :
    Alike d f.publishSequence f'.publishSequence := by
  refine ⟨alike.number, alike.number, alike.buffer, ?_, alike.log⟩
  simp only [Feed.publishSequence, alike.builder]

theorem alike_transmit (alike : Alike d f f') : Alike d f.transmit f'.transmit := by
  unfold Feed.transmit
  rw [alike.builder]
  exact alike_emit alike (.sent f'.packetBuilder.packet)

theorem alike_ends (alike : Alike d f f') : f.endOfSessionPacket = f'.endOfSessionPacket := by
  simp only [Feed.endOfSessionPacket, alike.number, alike.builder]

theorem level_accept (level : Level d f f') (builder : PacketBuilder) (next : Nat) :
    Level d (f.accept builder (d + next)) (f'.accept builder next) := by
  obtain ⟨position, alike⟩ := level
  obtain ⟨skipped, log⟩ := alike.log
  refine ⟨rfl, ?_, alike.published, ?_, rfl, skipped, ?_⟩
  · simp only [Feed.accept, Feed.emit, alike.number]
  · simp only [Feed.accept, Feed.emit, alike.number, position]
    exact push_apart alike.buffer f'.sequenceNumber f'.filePos
  · simp [Feed.accept, Feed.emit, log, moved, movedRecord, alike.number, position]

theorem level_add (phase : LeadingPhase S S' A B) (level : Level A.flatten.length f f') :
    Both (Level A.flatten.length) (Level A.flatten.length) (f.addMessage S)
      (f'.addMessage S') := by
  have position := level.position
  have size := phase_size phase
  by_cases inside : f'.filePos < S'.file.size
  · have inside_ : f.filePos < S.file.size := by omega
    have same := complete_behind A.flatten S'.file.bytes f'.filePos
    rw [← phase_bytes phase, ← position] at same
    by_cases complete : Complete S'.file.bytes f'.filePos
    · have read : S.messageAt f.filePos = S'.messageAt f'.filePos := by
        unfold Setup.messageAt
        rw [phase_bytes phase, position]
        exact messageAt_behind _ _ _
      have after : S.afterMessage f.filePos = A.flatten.length + S'.afterMessage f'.filePos := by
        unfold Setup.afterMessage
        rw [phase_bytes phase, position, lengthAt_behind]
        omega
      rw [addMessage_readable complete, addMessage_readable (same.mpr complete), read,
        level.alike.builder]
      rcases f'.packetBuilder.tryAdd (S'.messageAt f'.filePos) with ⟨_ | _, builder⟩
      · obtain ⟨number, published, buffer, _, log⟩ := level.alike
        exact .leave ⟨position, number, published, buffer, rfl, log⟩
      · simp only [after]
        exact .again (level_accept level builder _)
    · rw [addMessage_unreadable inside complete,
        addMessage_unreadable inside_ fun whole => complete (same.mp whole)]
      obtain ⟨number, published, buffer, builder, log⟩ := level.alike
      refine .leave ⟨?_, number, published, buffer, builder, log⟩
      rw [phase_bytes phase, position]
      exact afterFailure_behind _ _ _
  · rw [addMessage_eof (by omega), addMessage_eof (by omega)]
    exact .leave level

theorem level_build (phase : LeadingPhase S S' A B) (level : Level A.flatten.length f f') :
    Level A.flatten.length (f.buildPacket S) (f'.buildPacket S') := by
  have started : Level A.flatten.length f.startPacket f'.startPacket :=
    ⟨level.position, alike_start level.alike⟩
  obtain ⟨g, leaves, related⟩ := leaves_lockstep (R := Level A.flatten.length)
    (Q := Level A.flatten.length) (fun _ _ h => level_add phase h) started
    (buildPacket_leaves S' f')
  rwa [leaves_unique (buildPacket_leaves S f) leaves]

theorem level_head (phase : LeadingPhase S S' A B) (level : Level A.flatten.length f f')
    (boundary : Boundary B f'.filePos) (stopRequested : Bool) :
    (f.atHead S stopRequested = .leave f ∧ f'.atHead S' stopRequested = .leave f') ∨
    ∃ timestamp, f.atHead S stopRequested = .build timestamp ∧
      f'.atHead S' stopRequested = .build timestamp := by
  have framed := remainder_framed phase
  have position := level.position
  cases stopRequested with
  | true => exact Or.inl ⟨atHead_stopped, atHead_stopped⟩
  | false =>
    by_cases complete : Complete S'.file.bytes f'.filePos
    · obtain ⟨member, _⟩ := boundary_message framed boundary complete
      have peeked' := boundary_timestamp framed boundary complete
      have timed := framed.timed _ member
      have same := complete_behind A.flatten S'.file.bytes f'.filePos
      have read := messageAt_behind A.flatten S'.file.bytes f'.filePos
      rw [← phase_bytes phase, ← position] at same read
      have peeked := peekTimestamp_message (same.mpr complete) (by rw [read]; exact timed)
      rw [read] at peeked
      have above := phase.above _ member
      have kept : S.pacer.shouldSkip (timestampOf (S'.messageAt f'.filePos)) = false := by
        simpa [Pacer.shouldSkip] using above
      have kept' : S'.pacer.shouldSkip (timestampOf (S'.messageAt f'.filePos)) = false := by
        simp [Pacer.shouldSkip, phase.unskipped]
      exact Or.inr ⟨_, atHead_build peeked kept, atHead_build peeked' kept'⟩
    · have last := boundary_end framed boundary complete
      have size := phase_size phase
      have out : ¬ f.filePos < S.file.size := by omega
      have out' : ¬ f'.filePos < S'.file.size := by omega
      exact Or.inl ⟨by simp [Feed.atHead, out], by simp [Feed.atHead, out']⟩

theorem level_pass (phase : LeadingPhase S S' A B) (level : Level A.flatten.length f f')
    (boundary : Boundary B f'.filePos) :
    Both (Level A.flatten.length) (Level A.flatten.length) (f.replayPass S)
      (f'.replayPass S') := by
  unfold Feed.replayPass
  rcases level_head phase level boundary false with ⟨head, head'⟩ | ⟨timestamp, head, head'⟩
  · rw [head, head']
    exact .leave level
  · rw [head, head']
    obtain ⟨position, alike⟩ := level_build phase level
    exact .again ⟨position, alike_transmit (alike_publish (alike_emit alike (.delayed timestamp)))⟩

theorem passed_head (phase : LeadingPhase S S' A B) (whole : A = done ++ m :: rest) :
    (passed S done).atHead S false = .skipped (passed S (done ++ [m])) := by
  have begins := whole_begins (phase_regular phase) phase.file
  have next : A ++ B = done ++ m :: (rest ++ B) := by
    rw [whole, List.append_assoc, List.cons_append]
  obtain ⟨complete, _⟩ := next_message begins next
  have peeked := next_timestamp begins next
  have below := phase.below m (by simp [whole])
  have skips : S.pacer.shouldSkip (timestampOf m) = true := by
    simpa [Pacer.shouldSkip] using below
  have head := atHead_skip (f := passed S done) ⟨_, peeked, skips⟩ complete
  rw [head]
  have after := after_next begins next
  simp only [passed, after, Feed.emit, located_snoc, positions, List.map_append, List.map_cons,
    List.map_nil, Nat.zero_add]

theorem passed_visits (phase : LeadingPhase S S' A B) : ∀ {rest}, A = done ++ rest →
    Visits (Feed.replayPass S) S.initial (passed S done) := by
  induction done using List.reverseRecOn with
  | nil => exact fun _ => .refl
  | append_singleton done m ih =>
    intro rest whole
    have next : A = done ++ m :: rest := by rw [whole, List.append_assoc, List.singleton_append]
    refine (ih next).tail ?_
    unfold Again Feed.replayPass
    rw [passed_head phase next]

theorem phase_passed (phase : LeadingPhase S S' A B) :
    Level A.flatten.length (passed S A) S'.initial :=
  ⟨rfl, initial_alike phase A.flatten.length⟩

theorem inStep_head (phase : LeadingPhase S S' A B) (level : Level A.flatten.length f f')
    (boundary : Boundary B f'.filePos) (i : Inputs) :
    InStep A.flatten.length (Thread.step S ⟨f, .replaying⟩ i)
      (Thread.step S' ⟨f', .replaying⟩ i) := by
  simp only [Thread.step]
  rcases level_head phase level boundary i.stopRequested with ⟨head, head'⟩ | ⟨_, head, head'⟩
  · rw [head, head']
    exact ⟨rfl, level.alike, fun _ => level.position⟩
  · rw [head, head']
    exact ⟨rfl, alike_start level.alike, fun _ => level.position⟩

theorem inStep_building (phase : LeadingPhase S S' A B) (level : Level A.flatten.length f f')
    (timestamp : Nat) (i : Inputs) :
    InStep A.flatten.length (Thread.step S ⟨f, .building timestamp⟩ i)
      (Thread.step S' ⟨f', .building timestamp⟩ i) := by
  have both := level_add phase level
  simp only [Thread.step]
  generalize f.addMessage S = result at both ⊢
  generalize f'.addMessage S' = result' at both ⊢
  cases both with
  | again rel => exact ⟨rfl, rel.alike, fun _ => rel.position⟩
  | leave rel => exact ⟨rfl, rel.alike, fun _ => rel.position⟩

theorem inStep_step (phase : LeadingPhase S S' A B) (same : InStep A.flatten.length t t')
    (boundary : Boundary B t'.feed.filePos) (i : Inputs) :
    InStep A.flatten.length (t.step S i) (t'.step S' i) := by
  obtain ⟨f, p⟩ := t
  obtain ⟨f', p'⟩ := t'
  obtain ⟨samePhase, alike, position⟩ := same
  simp only at samePhase alike position boundary
  subst samePhase
  cases p with
  | starting => exact ⟨rfl, alike, position⟩
  | replaying => exact inStep_head phase ⟨position rfl, alike⟩ boundary i
  | building timestamp => exact inStep_building phase ⟨position rfl, alike⟩ timestamp i
  | pacing timestamp => exact ⟨rfl, alike_emit alike (.delayed timestamp), position⟩
  | publishing => exact ⟨rfl, alike_publish alike, position⟩
  | sending => exact ⟨rfl, alike_transmit alike, position⟩
  | stopping => exact ⟨rfl, alike, position⟩
  | joining => exact ⟨rfl, alike, position⟩
  | ending =>
    simp only [Thread.step]
    split
    · rw [alike_ends alike]
      exact ⟨rfl, alike_emit alike (.endOfSession f'.endOfSessionPacket), position⟩
    · exact ⟨rfl, alike, fun reads => absurd reads (by simp [reading])⟩
  | finished => exact ⟨rfl, alike, position⟩

theorem inStep_run (phase : LeadingPhase S S' A B) (same : InStep A.flatten.length t t')
    (boundaries : AtBoundaries B t') (inputs : List Inputs) :
    InStep A.flatten.length (ScheduledRuns.run (Thread.step S) t inputs)
      (ScheduledRuns.run (Thread.step S') t' inputs) := by
  have framed := remainder_framed phase
  have keeps : ∀ t t' i, InStep A.flatten.length t t' ∧ AtBoundaries B t' →
      InStep A.flatten.length (t.step S i) (t'.step S' i) ∧ AtBoundaries B (t'.step S' i) := by
    intro t t' i h
    exact ⟨inStep_step phase h.1 h.2.position i, move_boundaries framed h.2 (step_moves t' i)⟩
  have both := run_lockstep (R := fun t t' => InStep A.flatten.length t t' ∧ AtBoundaries B t')
    keeps inputs ⟨same, boundaries⟩
  exact both.1

theorem passing_alike (phase : LeadingPhase S S' A B) (rest : List (List UInt8)) :
    ∀ {done : List (List UInt8)} (inputs : List Inputs), A = done ++ rest →
      (ScheduledRuns.run (Thread.step S) ⟨passed S done, .replaying⟩ inputs).phase =
          (ScheduledRuns.run (Thread.step S') ⟨S'.initial, .replaying⟩
            (withoutPassing rest.length inputs)).phase ∧
        Alike A.flatten.length
          (ScheduledRuns.run (Thread.step S) ⟨passed S done, .replaying⟩ inputs).feed
          (ScheduledRuns.run (Thread.step S') ⟨S'.initial, .replaying⟩
            (withoutPassing rest.length inputs)).feed := by
  have fresh : ∀ p, AtBoundaries B ⟨S'.initial, p⟩ :=
    fun _ => ⟨⟨[], B, rfl, rfl⟩, by simp [Setup.initial, pushedRecords]⟩
  induction rest with
  | nil =>
    intro done inputs whole
    rw [List.append_nil] at whole
    subst whole
    have level := phase_passed phase
    have started : InStep A.flatten.length ⟨passed S A, .replaying⟩ ⟨S'.initial, .replaying⟩ :=
      ⟨rfl, level.alike, fun _ => level.position⟩
    have same := inStep_run phase started (fresh .replaying) inputs
    have kept : withoutPassing ([] : List (List UInt8)).length inputs = inputs := by
      cases inputs <;> rfl
    rw [kept]
    exact ⟨same.phase, same.alike⟩
  | cons m rest ih =>
    intro done inputs whole
    cases inputs with
    | nil => exact ⟨rfl, initial_alike phase _⟩
    | cons i inputs =>
      by_cases stops : i.stopRequested = true
      · have stopped : ∀ (S : Setup) (f : Feed),
            Thread.step S ⟨f, .replaying⟩ i = ⟨f, .stopping⟩ := by
          intro S f
          simp only [Thread.step, stops, atHead_stopped]
        have left : InStep A.flatten.length ⟨passed S done, .stopping⟩ ⟨S'.initial, .stopping⟩ :=
          ⟨rfl, initial_alike phase _, by simp [reading]⟩
        have same := inStep_run phase left (fresh .stopping) inputs
        rw [List.length_cons, withoutPassing, if_pos stops]
        change (ScheduledRuns.run _ (Thread.step S _ i) _).phase =
          (ScheduledRuns.run _ (Thread.step S' _ i) _).phase ∧
          Alike _ (ScheduledRuns.run _ (Thread.step S _ i) _).feed
            (ScheduledRuns.run _ (Thread.step S' _ i) _).feed
        rw [stopped, stopped]
        exact ⟨same.phase, same.alike⟩
      · have onward : Thread.step S ⟨passed S done, .replaying⟩ i =
            ⟨passed S (done ++ [m]), .replaying⟩ := by
          rw [Bool.not_eq_true] at stops
          simp only [Thread.step, stops, passed_head phase whole]
        rw [List.length_cons, withoutPassing, if_neg stops]
        have regrouped : A = (done ++ [m]) ++ rest := by
          rw [whole, List.append_assoc, List.singleton_append]
        have same := ih inputs regrouped
        rw [← onward] at same
        exact same

theorem alike_responses (phase : LeadingPhase S S' A B) (alike : Alike A.flatten.length f f')
    (past past' : List Arrival) (client : SockAddr) (datagram : List UInt8)
    (positive : 1 ≤ (requestedSequence datagram).toNat) :
    respond S past f.retransmissionBuffer client datagram =
      respond S' past' f'.retransmissionBuffer client datagram := by
  have numbered : requestedSequence datagram ≠ 0 := by
    intro zero
    rw [zero] at positive
    exact absurd positive (by decide)
  have ready' := served_ready S' past'
  rw [phase.config] at ready'
  unfold respond
  rw [MoldRetransmission.handleRequest_any _ (served_ready S past),
    MoldRetransmission.handleRequest_any _ ready', found_apart alike.buffer numbered,
    phase_bytes phase]
  simp only [Option.map_map, Function.comp_def, MoldRetransmission.readRun_behind]

theorem alike_calls {α : Type} {g g' : Event → Option α} (alike : Alike d f f')
    (silent : ∀ pos, g (.skipped pos) = none) (same : ∀ e, g (moved d e) = g' e) :
    f.log.filterMap g = f'.log.filterMap g' := by
  obtain ⟨skipped, log⟩ := alike.log
  have nothing : (skipped.map Event.skipped).filterMap g = [] := by
    simp [List.filterMap_map, silent]
  have others : g ∘ moved d = g' := funext same
  rw [log, List.filterMap_append, nothing, List.nil_append, List.filterMap_map, others]

theorem alike_same (phase : LeadingPhase S S' A B) (phases : t.phase = t'.phase)
    (alike : Alike A.flatten.length t.feed t'.feed) : Same S S' A.flatten.length t t' where
  phase := phases
  packets := alike_calls alike (fun _ => rfl) fun e => by cases e <;> rfl
  delays := alike_calls alike (fun _ => rfl) fun e => by cases e <;> rfl
  pushes := by
    unfold pushedRecords
    rw [List.map_filterMap]
    exact alike_calls alike (fun _ => rfl) fun e => by cases e <;> rfl
  ends := alike_calls alike (fun _ => rfl) fun e => by cases e <;> rfl
  endOfSession := alike_ends alike
  responses past past' client datagram := alike_responses phase alike past past' client datagram

/-- Every run of the remainder is what is left of a run that passes the whole phase. -/
theorem withoutPassing_onto (left : Nat) (inputs : List Inputs) :
    withoutPassing left (List.replicate left undisturbed ++ inputs) = inputs := by
  induction left with
  | zero => cases inputs <;> rfl
  | succ left ih =>
    rw [List.replicate_succ, List.cons_append, withoutPassing, if_neg (by decide), ih]

theorem run_same (phase : LeadingPhase S S' A B) (first : Inputs) (inputs : List Inputs) :
    Same S S' A.flatten.length (S.runThread (first :: inputs))
      (S'.runThread (first :: withoutPassing A.length inputs)) := by
  obtain ⟨phases, alike⟩ := passing_alike phase A inputs (List.nil_append A).symm
  exact alike_same phase phases alike

theorem visited_pass (phase : LeadingPhase S S' A B)
    (h : Level A.flatten.length f f' ∧ Visits (Feed.replayPass S') S'.initial f') :
    Both (fun g g' => Level A.flatten.length g g' ∧ Visits (Feed.replayPass S') S'.initial g')
      (Level A.flatten.length) (f.replayPass S) (f'.replayPass S') := by
  obtain ⟨level, visits⟩ := h
  obtain ⟨inputs, reached⟩ := visited_reachable visits
  have boundaries := run_boundaries (remainder_framed phase) inputs
  rw [reached] at boundaries
  have both := level_pass phase level boundaries.position
  generalize f.replayPass S = result at both ⊢
  cases pass : f'.replayPass S' with
  | leave last =>
    rw [pass] at both
    cases both with
    | leave rel => exact .leave rel
  | again next =>
    rw [pass] at both
    cases both with
    | again rel => exact .again ⟨rel, visits.tail pass⟩

theorem replay_same (phase : LeadingPhase S S' A B) :
    ∃ g g', Leaves (Feed.replayPass S) S.initial g ∧ Leaves (Feed.replayPass S') S'.initial g' ∧
      Same S S' A.flatten.length ⟨g, .stopping⟩ ⟨g', .stopping⟩ := by
  have regular : ∀ m ∈ B, Regular S' m := fun m member =>
    regular_same phase.config (phase_regular phase m (List.mem_append_right A member))
  obtain ⟨g', arrived⟩ := messages_replayed (whole_begins regular phase.remainder)
  have leaves' := (arrived_leaves arrived phase.remainder).1
  obtain ⟨g, leaves, level⟩ := leaves_lockstep (fun _ _ h => visited_pass phase h)
    ⟨phase_passed phase, .refl⟩ leaves'
  refine ⟨g, g', visits_leaves (passed_visits phase (List.append_nil A).symm) leaves, leaves', ?_⟩
  exact alike_same phase rfl level.alike

/-- Skipping a leading phase comes to the same as cutting it out of the file: over the
    whole replay, and at any point of any run, with the steps that pass the phase taken
    out. -/
theorem leading_phase_cut (S S' : Setup) (A B : List (List UInt8))
    (phase : LeadingPhase S S' A B) :
    (∃ g g', Leaves (Feed.replayPass S) S.initial g ∧
      Leaves (Feed.replayPass S') S'.initial g' ∧
      Same S S' A.flatten.length ⟨g, .stopping⟩ ⟨g', .stopping⟩) ∧
    (∀ first inputs, Same S S' A.flatten.length (S.runThread (first :: inputs))
      (S'.runThread (first :: withoutPassing A.length inputs))) ∧
    ∀ first inputs, ∃ longer, withoutPassing A.length longer = inputs ∧
      Same S S' A.flatten.length (S.runThread (first :: longer))
        (S'.runThread (first :: inputs)) := by
  refine ⟨replay_same phase, run_same phase, ?_⟩
  intro first inputs
  have onto := withoutPassing_onto A.length inputs
  refine ⟨_, onto, ?_⟩
  have same := run_same phase first (List.replicate A.length undisturbed ++ inputs)
  rwa [onto] at same

theorem one_message_cut : ∃ S S' g g',
    Setup.make ⟨[frame (List.replicate 12 1), frame (List.replicate 12 2)].flatten, fun _ => 0,
      by decide⟩ ⟨0x020202020202⟩ { session := List.replicate 10 0x20 } 4 = .ok S ∧
    Setup.make ⟨[frame (List.replicate 12 2)].flatten, fun _ => 0, by decide⟩ ⟨0⟩
      { session := List.replicate 10 0x20 } 4 = .ok S' ∧
    Leaves (Feed.replayPass S) S.initial g ∧ Leaves (Feed.replayPass S') S'.initial g' ∧
    Same S S' 14 ⟨g, .stopping⟩ ⟨g', .stopping⟩ := by
  have framed : ∀ byte : UInt8, IsFrame (frame (List.replicate 12 byte)) :=
    fun byte => frame_isFrame _ (by simp)
  obtain ⟨⟨g, g', leaves, leaves', same⟩, _⟩ := leading_phase_cut
    ⟨⟨[frame (List.replicate 12 1), frame (List.replicate 12 2)].flatten, fun _ => 0,
      by decide⟩, ⟨0x020202020202⟩, { session := List.replicate 10 0x20 }, 4, _, _, rfl, rfl⟩
    ⟨⟨[frame (List.replicate 12 2)].flatten, fun _ => 0, by decide⟩, ⟨0⟩,
      { session := List.replicate 10 0x20 }, 4, _, _, rfl, rfl⟩
    [frame (List.replicate 12 1)] [frame (List.replicate 12 2)] {
      file := rfl
      remainder := rfl
      config := rfl
      bufferSize := rfl
      unskipped := rfl
      framed := by simpa using ⟨⟨framed 1, by decide, by decide⟩, framed 2, by decide, by decide⟩
      below := by simpa using by decide
      above := by simpa using by decide }
  exact ⟨_, _, g, g', rfl, rfl, leaves, leaves', same⟩

end MoldLeadingPhase
