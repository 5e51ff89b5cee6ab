import MoldReplay.RetransmissionBuffer
import MoldReplay.LoopBody
import MoldReplay.ScheduledRuns

/- downstream::Feed. The thread that runs start() is given twice: pass by pass of the
   replay loop, as the source nests its loops, and step by step, for interleavings and
   for runs cut off anywhere. Calls out of the thread are recorded in a log, oldest
   first. The pacer's delay decides when the thread goes on, never what it does next. -/
namespace MoldDownstream
open FixedBytes MoldWire MoldFraming MoldPacket MoldBuffer LoopBody ScheduledRuns

structure Pacer where
  skipBefore : Int := 0
  deriving DecidableEq, Repr

def Pacer.shouldSkip (pacer : Pacer) (packetTimestamp : Nat) : Bool :=
  decide ((packetTimestamp : Int) < pacer.skipBefore)

inductive Event where
  | skipped (filePos : Nat)
  | pushed (record : MessageRecord)
  | delayed (timestamp : Nat)
  | sent (packet : Packet)
  | endOfSession (packet : Packet)
  deriving DecidableEq, Repr

structure Feed where
  filePos : Nat
  sequenceNumber : SequenceNumber
  sentSequenceNumber : SequenceNumber
  retransmissionBuffer : RetransmissionBuffer
  packetBuilder : PacketBuilder
  log : List Event
  deriving DecidableEq

/-- A file, and a configuration that every constructor has accepted. -/
structure Setup where
  file : MappedFile
  pacer : Pacer
  config : Config
  bufferSize : UInt64
  builder : PacketBuilder
  emptyBuffer : RetransmissionBuffer
  built : MoldPacket.construct config = .ok builder
  sized : MoldBuffer.construct bufferSize = .ok emptyBuffer

/-- The constructors as Server runs them. -/
def Setup.make (file : MappedFile) (pacer : Pacer) (config : Config) (bufferSize : UInt64) :
    Except Failure Setup :=
  match sized : MoldBuffer.construct bufferSize with
  | .error failure => .error failure
  | .ok emptyBuffer =>
    match built : MoldPacket.construct config with
    | .error failure => .error failure
    | .ok builder => .ok ⟨file, pacer, config, bufferSize, builder, emptyBuffer, built, sized⟩

def Setup.initial (S : Setup) : Feed := {
  filePos := 0
  sequenceNumber := 1
  sentSequenceNumber := 1
  retransmissionBuffer := S.emptyBuffer
  packetBuilder := S.builder
  log := [] }

def Feed.emit (f : Feed) (e : Event) : Feed := { f with log := f.log ++ [e] }

inductive Head where
  | leave (f : Feed)
  | skipped (f : Feed)
  | build (timestamp : Nat)

def Feed.atHead (S : Setup) (stopRequested : Bool) (f : Feed) : Head :=
  if f.filePos < S.file.size && !stopRequested then
    match peekTimestamp S.file f.filePos with
    | none => .leave f
    | some timestamp =>
      if S.pacer.shouldSkip timestamp then
        match skipMessage S.file.bytes f.filePos with
        | (true, next) => .skipped ({ f with filePos := next }.emit (.skipped f.filePos))
        | (false, next) => .leave { f with filePos := next }
      else .build timestamp
  else .leave f

def Feed.startPacket (f : Feed) : Feed :=
  { f with packetBuilder := f.packetBuilder.reset f.sequenceNumber }

def Feed.accept (f : Feed) (builder : PacketBuilder) (next : Nat) : Feed :=
  let record : MessageRecord := ⟨f.sequenceNumber, f.filePos⟩
  { f with
    filePos := next
    sequenceNumber := f.sequenceNumber + 1
    packetBuilder := builder
    retransmissionBuffer := f.retransmissionBuffer.push record }.emit (.pushed record)

/-- One pass of the loop in build_packet. -/
def Feed.addMessage (S : Setup) (f : Feed) : Flow Feed :=
  if f.filePos < S.file.size then
    match readMessage S.file.bytes f.filePos with
    | (msg, next) =>
      if msg.isEmpty then .leave { f with filePos := next }
      else
        match f.packetBuilder.tryAdd msg with
        -- full: file_pos_ goes back to the message that did not fit
        | (false, builder) => .leave { f with packetBuilder := builder }
        | (true, builder) => .again (f.accept builder next)
  else .leave f

/-- The number of passes allowed is never used up: buildPacket_leaves. -/
def Feed.buildPacket (S : Setup) (f : Feed) : Feed :=
  (LoopBody.run (Feed.addMessage S) (S.file.size + 1) f.startPacket).getD f.startPacket

def Feed.pace (timestamp : Nat) (f : Feed) : Feed := f.emit (.delayed timestamp)

/-- The two halves of send_packet: the header and sent_sequence_number_, then sendmsg. -/
def Feed.publishSequence (f : Feed) : Feed :=
  { f with
    packetBuilder := f.packetBuilder.finalize
    sentSequenceNumber := f.sequenceNumber }

/- A packet counts as sent when it is handed to sendmsg, which takes no more than 1024 iovecs
   and no more than 65507 bytes. -/
def Feed.transmit (f : Feed) : Feed := f.emit (.sent f.packetBuilder.packet)
def Feed.sendPacket (f : Feed) : Feed := f.publishSequence.transmit

/-- One pass of the loop in start, with no stop request. -/
def Feed.replayPass (S : Setup) (f : Feed) : Flow Feed :=
  match f.atHead S false with
  | .leave g => .leave g
  | .skipped g => .again g
  | .build timestamp => .again ((f.buildPacket S).pace timestamp).sendPacket

def Feed.endOfSessionPacket (f : Feed) : Packet :=
  let eosPacket : List UInt8 := List.replicate headerLength 0
  let eosPacket := writeAt eosPacket sessionOffset f.packetBuilder.session
  let eosPacket :=
    writeAtBe native sequenceNumberSize eosPacket sequenceNumberOffset f.sequenceNumber.toNat
  ⟨[writeAtBe native messageCountSize eosPacket messageCountOffset endOfSessionMsgCount.toNat]⟩

inductive Phase where
  | starting
  | replaying
  | building (timestamp : Nat)
  | pacing (timestamp : Nat)
  | publishing
  | sending
  | stopping
  | joining
  | ending
  | finished
  deriving DecidableEq, Repr

structure Thread where
  feed : Feed
  phase : Phase
  deriving DecidableEq

/-- What the surroundings answer during a step: a stop request, and whether the time
    for end of session packets has run out. -/
structure Inputs where
  stopRequested : Bool
  expired : Bool

def undisturbed : Inputs := ⟨false, false⟩

def Setup.thread (S : Setup) : Thread := ⟨S.initial, .starting⟩

def Thread.step (S : Setup) (t : Thread) (inputs : Inputs) : Thread :=
  match t.phase with
  | .starting => { t with phase := .replaying }
  | .replaying =>
    match t.feed.atHead S inputs.stopRequested with
    | .leave f => ⟨f, .stopping⟩
    | .skipped f => ⟨f, .replaying⟩
    | .build timestamp => ⟨t.feed.startPacket, .building timestamp⟩
  | .building timestamp =>
    match t.feed.addMessage S with
    | .again f => ⟨f, .building timestamp⟩
    | .leave f => ⟨f, .pacing timestamp⟩
  | .pacing timestamp => ⟨t.feed.pace timestamp, .publishing⟩
  | .publishing => ⟨t.feed.publishSequence, .sending⟩
  | .sending => ⟨t.feed.transmit, .replaying⟩
  | .stopping => { t with phase := .joining }
  | .joining => { t with phase := .ending }
  | .ending =>
    if !inputs.stopRequested && !inputs.expired then
      ⟨t.feed.emit (.endOfSession t.feed.endOfSessionPacket), .ending⟩
    else { t with phase := .finished }
  | .finished => t

def Setup.runThread (S : Setup) (inputs : List Inputs) : Thread :=
  ScheduledRuns.run (Thread.step S) S.thread inputs

/- The log, by kind of call. -/
def sentPackets (log : List Event) : List Packet :=
  log.filterMap fun | .sent p => some p | _ => none
def pushedRecords (log : List Event) : List MessageRecord :=
  log.filterMap fun | .pushed r => some r | _ => none
def skippedPositions (log : List Event) : List Nat :=
  log.filterMap fun | .skipped pos => some pos | _ => none
def delayedTimestamps (log : List Event) : List Nat :=
  log.filterMap fun | .delayed timestamp => some timestamp | _ => none
def endOfSessionPackets (log : List Event) : List Packet :=
  log.filterMap fun | .endOfSession p => some p | _ => none

variable {S : Setup} {f g : Feed}

def Setup.messageAt (S : Setup) (pos : Nat) : List UInt8 := MoldFraming.messageAt S.file.bytes pos
def Setup.afterMessage (S : Setup) (pos : Nat) : Nat := pos + 2 + lengthAt S.file.bytes pos

def Setup.SkippedAt (S : Setup) (pos : Nat) : Prop :=
  ∃ timestamp, peekTimestamp S.file pos = some timestamp ∧ S.pacer.shouldSkip timestamp = true
def Setup.KeptAt (S : Setup) (pos : Nat) : Prop :=
  ∃ timestamp, peekTimestamp S.file pos = some timestamp ∧ S.pacer.shouldSkip timestamp = false

theorem peeked_inside {pos timestamp : Nat}
    (peeked : peekTimestamp S.file pos = some timestamp) : pos < S.file.size := by
  by_contra outside
  have short := peekTimestamp_none.mpr (by omega : S.file.size - pos < 8)
  rw [short] at peeked
  cases peeked

theorem atHead_skip (skipped : S.SkippedAt f.filePos) (complete : Complete S.file.bytes f.filePos) :
    f.atHead S false =
      .skipped ({ f with filePos := S.afterMessage f.filePos }.emit (.skipped f.filePos)) := by
  obtain ⟨timestamp, peeked, skips⟩ := skipped
  have inside := peeked_inside peeked
  simp [Feed.atHead, inside, peeked, skips, skipMessage_complete complete, Setup.afterMessage]

theorem atHead_skipFails (skipped : S.SkippedAt f.filePos)
    (incomplete : ¬ Complete S.file.bytes f.filePos) :
    f.atHead S false = .leave { f with filePos := afterFailure S.file.bytes f.filePos } := by
  obtain ⟨timestamp, peeked, skips⟩ := skipped
  have inside := peeked_inside peeked
  simp [Feed.atHead, inside, peeked, skips, skipMessage_incomplete incomplete]

theorem atHead_build {timestamp : Nat} (peeked : peekTimestamp S.file f.filePos = some timestamp)
    (keeps : S.pacer.shouldSkip timestamp = false) : f.atHead S false = .build timestamp := by
  have inside := peeked_inside peeked
  simp [Feed.atHead, inside, peeked, keeps]

theorem atHead_short (peeked : peekTimestamp S.file f.filePos = none) (stopRequested : Bool) :
    f.atHead S stopRequested = .leave f := by
  simp [Feed.atHead, peeked]

theorem atHead_stopped : f.atHead S true = .leave f := by
  simp [Feed.atHead]

inductive Choice (S : Setup) (f : Feed) : Head → Prop where
  | short (peeked : peekTimestamp S.file f.filePos = none) : Choice S f (.leave f)
  | skipFails (skipped : S.SkippedAt f.filePos)
      (incomplete : ¬ Complete S.file.bytes f.filePos) :
      Choice S f (.leave { f with filePos := afterFailure S.file.bytes f.filePos })
  | skip (skipped : S.SkippedAt f.filePos) (complete : Complete S.file.bytes f.filePos) :
      Choice S f
        (.skipped ({ f with filePos := S.afterMessage f.filePos }.emit (.skipped f.filePos)))
  | build {timestamp : Nat} (peeked : peekTimestamp S.file f.filePos = some timestamp)
      (keeps : S.pacer.shouldSkip timestamp = false) : Choice S f (.build timestamp)

theorem atHead_choice (S : Setup) (f : Feed) : Choice S f (f.atHead S false) := by
  cases peeked : peekTimestamp S.file f.filePos with
  | none => rw [atHead_short peeked]; exact .short peeked
  | some timestamp =>
    cases skips : S.pacer.shouldSkip timestamp with
    | false => rw [atHead_build peeked skips]; exact .build peeked skips
    | true =>
      have skipped : S.SkippedAt f.filePos := ⟨timestamp, peeked, skips⟩
      by_cases complete : Complete S.file.bytes f.filePos
      · rw [atHead_skip skipped complete]; exact .skip skipped complete
      · rw [atHead_skipFails skipped complete]; exact .skipFails skipped complete

theorem addMessage_eof (eof : S.file.size ≤ f.filePos) : f.addMessage S = .leave f := by
  rw [Feed.addMessage, if_neg (by omega)]

theorem addMessage_unreadable (inside : f.filePos < S.file.size)
    (incomplete : ¬ Complete S.file.bytes f.filePos) :
    f.addMessage S = .leave { f with filePos := afterFailure S.file.bytes f.filePos } := by
  unfold Feed.addMessage
  rw [if_pos inside, readMessage_incomplete incomplete]
  rfl

theorem complete_inside (complete : Complete S.file.bytes f.filePos) :
    f.filePos < S.file.size := by
  simp only [MappedFile.size]
  omega

theorem addMessage_readable (complete : Complete S.file.bytes f.filePos) :
    f.addMessage S =
      match f.packetBuilder.tryAdd (S.messageAt f.filePos) with
      | (false, builder) => .leave { f with packetBuilder := builder }
      | (true, builder) => .again (f.accept builder (S.afterMessage f.filePos)) := by
  have nonempty : ¬ (S.messageAt f.filePos).isEmpty = true := by
    rw [List.isEmpty_iff]
    exact messageAt_ne_nil complete
  unfold Feed.addMessage
  rw [if_pos (complete_inside complete), readMessage_complete complete]
  exact if_neg nonempty

theorem addMessage_adds {builder : PacketBuilder} (complete : Complete S.file.bytes f.filePos)
    (added : f.packetBuilder.tryAdd (S.messageAt f.filePos) = (true, builder)) :
    f.addMessage S = .again (f.accept builder (S.afterMessage f.filePos)) := by
  rw [addMessage_readable complete, added]

theorem addMessage_full {builder : PacketBuilder} (complete : Complete S.file.bytes f.filePos)
    (refused : f.packetBuilder.tryAdd (S.messageAt f.filePos) = (false, builder)) :
    f.addMessage S = .leave { f with packetBuilder := builder } := by
  rw [addMessage_readable complete, refused]

inductive Addition (S : Setup) (f : Feed) : Flow Feed → Prop where
  | closes : Addition S f (.leave f)
  | unreadable (inside : f.filePos < S.file.size)
      (incomplete : ¬ Complete S.file.bytes f.filePos) :
      Addition S f (.leave { f with filePos := afterFailure S.file.bytes f.filePos })
  | adds {builder : PacketBuilder} (complete : Complete S.file.bytes f.filePos)
      (fits : f.packetBuilder.tryAdd (S.messageAt f.filePos) = (true, builder)) :
      Addition S f (.again (f.accept builder (S.afterMessage f.filePos)))

theorem addMessage_addition (S : Setup) (f : Feed) : Addition S f (f.addMessage S) := by
  by_cases inside : f.filePos < S.file.size
  · by_cases complete : Complete S.file.bytes f.filePos
    · rcases added : f.packetBuilder.tryAdd (S.messageAt f.filePos) with ⟨_ | _, builder⟩
      · rw [addMessage_full complete added, tryAdd_refused added]
        exact .closes
      · rw [addMessage_adds complete added]
        exact .adds complete added
    · rw [addMessage_unreadable inside complete]
      exact .unreadable inside complete
  · rw [addMessage_eof (Nat.not_lt.mp inside)]
    exact .closes

theorem addMessage_again (pass : f.addMessage S = .again g) :
    f.filePos < S.file.size ∧ f.filePos < g.filePos := by
  have addition := addMessage_addition S f
  rw [pass] at addition
  cases addition with
  | adds complete fits =>
    refine ⟨complete_inside complete, ?_⟩
    simp only [Feed.accept, Feed.emit, Setup.afterMessage]
    omega

/-- The loop in build_packet ends, and buildPacket is what it ends with. -/
theorem buildPacket_leaves (S : Setup) (f : Feed) :
    Leaves (Feed.addMessage S) f.startPacket (f.buildPacket S) := by
  have decreases : ∀ s next : Feed, True → s.addMessage S = .again next →
      True ∧ S.file.size - next.filePos < S.file.size - s.filePos := by
    intro s next _ pass
    have := addMessage_again pass
    exact ⟨trivial, by omega⟩
  obtain ⟨g, result⟩ := run_of_variant (fun s : Feed => S.file.size - s.filePos) decreases
    (S.file.size + 1) (s := f.startPacket) trivial (by omega)
  have same : f.buildPacket S = g := by simp [Feed.buildPacket, result]
  rw [same]
  exact leaves_of_run result

theorem runThread_snoc (S : Setup) (inputs : List Inputs) (i : Inputs) :
    S.runThread (inputs ++ [i]) = (S.runThread inputs).step S i :=
  run_snoc S.thread inputs i

theorem steps_through_build (timestamp : Nat) (leaves : Leaves (Feed.addMessage S) f g) :
    ∃ inputs, ScheduledRuns.run (Thread.step S) ⟨f, .building timestamp⟩ inputs =
      ⟨g, .pacing timestamp⟩ := by
  induction leaves with
  | leave last => exact ⟨[undisturbed], by simp [ScheduledRuns.run, Thread.step, last]⟩
  | again pass _ ih =>
    obtain ⟨inputs, reached⟩ := ih
    refine ⟨undisturbed :: inputs, ?_⟩
    simpa [ScheduledRuns.run, Thread.step, pass] using reached

theorem steps_through_pass (pass : f.replayPass S = .again g) :
    ∃ inputs, ScheduledRuns.run (Thread.step S) ⟨f, .replaying⟩ inputs = ⟨g, .replaying⟩ := by
  simp only [Feed.replayPass] at pass
  split at pass
  · cases pass
  · rename_i skipped head
    cases pass
    exact ⟨[undisturbed], by simp [ScheduledRuns.run, Thread.step, undisturbed, head]⟩
  · rename_i timestamp head
    cases pass
    obtain ⟨inputs, built⟩ :=
      steps_through_build timestamp (buildPacket_leaves S f)
    refine ⟨undisturbed :: (inputs ++ [undisturbed, undisturbed, undisturbed]), ?_⟩
    have opened : Thread.step S ⟨f, .replaying⟩ undisturbed = ⟨f.startPacket, .building timestamp⟩ := by
      simp [Thread.step, undisturbed, head]
    change ScheduledRuns.run (Thread.step S) (Thread.step S ⟨f, .replaying⟩ undisturbed) _ = _
    rw [opened, run_append, built]
    rfl

theorem visited_reachable (visits : Visits (Feed.replayPass S) S.initial f) :
    ∃ inputs, S.runThread inputs = ⟨f, .replaying⟩ := by
  induction visits with
  | refl => exact ⟨[undisturbed], rfl⟩
  | tail _ pass ih =>
    obtain ⟨inputs, reached⟩ := ih
    obtain ⟨more, there⟩ := steps_through_pass pass
    refine ⟨inputs ++ more, ?_⟩
    unfold Setup.runThread
    rw [run_append]
    unfold Setup.runThread at reached
    rw [reached, there]

def Phase.between : Phase → Bool
  | .building _ | .pacing _ | .publishing | .sending => false
  | _ => true

def Phase.ended : Phase → Bool
  | .ending | .finished => true
  | _ => false

/-- Everything one step of the thread can do. -/
inductive Move (S : Setup) : Thread → Thread → Prop where
  | turn {f : Feed} {p p' : Phase} (before : p.between = true) (after : p'.between = true)
      (onward : p.ended = true → p'.ended = true) : Move S ⟨f, p⟩ ⟨f, p'⟩
  | skip {f : Feed} (skipped : S.SkippedAt f.filePos)
      (complete : Complete S.file.bytes f.filePos) :
      Move S ⟨f, .replaying⟩
        ⟨{ f with filePos := S.afterMessage f.filePos }.emit (.skipped f.filePos), .replaying⟩
  | skipFails {f : Feed} (inside : f.filePos < S.file.size) (skipped : S.SkippedAt f.filePos)
      (incomplete : ¬ Complete S.file.bytes f.filePos) :
      Move S ⟨f, .replaying⟩
        ⟨{ f with filePos := afterFailure S.file.bytes f.filePos }, .stopping⟩
  | start {f : Feed} (timestamp : Nat) (kept : S.KeptAt f.filePos) :
      Move S ⟨f, .replaying⟩ ⟨f.startPacket, .building timestamp⟩
  | add {f : Feed} {timestamp : Nat} {builder : PacketBuilder}
      (complete : Complete S.file.bytes f.filePos)
      (fits : f.packetBuilder.tryAdd (S.messageAt f.filePos) = (true, builder)) :
      Move S ⟨f, .building timestamp⟩
        ⟨f.accept builder (S.afterMessage f.filePos), .building timestamp⟩
  | unreadable {f : Feed} {timestamp : Nat} (inside : f.filePos < S.file.size)
      (incomplete : ¬ Complete S.file.bytes f.filePos) :
      Move S ⟨f, .building timestamp⟩
        ⟨{ f with filePos := afterFailure S.file.bytes f.filePos }, .pacing timestamp⟩
  | close {f : Feed} {timestamp : Nat} : Move S ⟨f, .building timestamp⟩ ⟨f, .pacing timestamp⟩
  | pace {f : Feed} {timestamp : Nat} :
      Move S ⟨f, .pacing timestamp⟩ ⟨f.pace timestamp, .publishing⟩
  | publish {f : Feed} : Move S ⟨f, .publishing⟩ ⟨f.publishSequence, .sending⟩
  | send {f : Feed} : Move S ⟨f, .sending⟩ ⟨f.transmit, .replaying⟩
  | announce {f : Feed} :
      Move S ⟨f, .ending⟩ ⟨f.emit (.endOfSession f.endOfSessionPacket), .ending⟩

theorem move_log {t t' : Thread} (move : Move S t t') : t.feed.log <+: t'.feed.log := by
  cases move with
  | skip _ _ => exact List.prefix_append _ _
  | add _ _ => exact List.prefix_append _ _
  | pace => exact List.prefix_append _ _
  | send => exact List.prefix_append _ _
  | announce => exact List.prefix_append _ _
  | _ => exact List.prefix_rfl

theorem addMessage_moves (f : Feed) (timestamp : Nat) (inputs : Inputs) :
    Move S ⟨f, .building timestamp⟩ (Thread.step S ⟨f, .building timestamp⟩ inputs) := by
  simp only [Thread.step]
  have addition := addMessage_addition S f
  generalize f.addMessage S = result at addition ⊢
  cases addition with
  | closes => exact .close
  | unreadable inside incomplete => exact .unreadable inside incomplete
  | adds complete fits => exact .add complete fits

theorem atHead_moves (f : Feed) (inputs : Inputs) :
    Move S ⟨f, .replaying⟩ (Thread.step S ⟨f, .replaying⟩ inputs) := by
  have leaves : Move S ⟨f, .replaying⟩ ⟨f, .stopping⟩ := .turn rfl rfl (by simp [Phase.ended])
  simp only [Thread.step]
  cases inputs.stopRequested with
  | true => rw [atHead_stopped]; exact leaves
  | false =>
    have choice := atHead_choice S f
    generalize f.atHead S false = head at choice ⊢
    cases choice with
    | short _ => exact leaves
    | skipFails skipped incomplete =>
      obtain ⟨timestamp, peeked, _⟩ := skipped
      exact .skipFails (peeked_inside peeked) ⟨timestamp, peeked, ‹_›⟩ incomplete
    | skip skipped complete => exact .skip skipped complete
    | build peeked keeps => exact .start _ ⟨_, peeked, keeps⟩

theorem step_moves (t : Thread) (inputs : Inputs) : Move S t (t.step S inputs) := by
  obtain ⟨f, phase⟩ := t
  cases phase with
  | replaying => exact atHead_moves f inputs
  | building timestamp => exact addMessage_moves f timestamp inputs
  | pacing timestamp => exact .pace
  | publishing => exact .publish
  | sending => exact .send
  | ending =>
    simp only [Thread.step]
    split
    · exact .announce
    · exact .turn rfl rfl (by simp [Phase.ended])
  | _ => exact .turn rfl rfl (by simp [Phase.ended])

end MoldDownstream
