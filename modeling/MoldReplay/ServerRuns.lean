import MoldReplay.HeartbeatNumbers
import MoldReplay.HeartbeatLifecycle
import MoldReplay.Rerequest

/- A Server in use: its owner's thread, the downstream thread with its heartbeat and the
   threads of the FeedPool, a step of one of them at a time. push and file_position_for are
   taken apart into their accesses to the buffer. All constructors on the owner's side have
   succeeded, those of the feeds run in their own threads and succeed, and start is called
   once: what a second call would do is not modelled. -/
namespace MoldServerRuns
open FixedBytes MoldWire MoldFraming MoldPacket MoldBuffer MoldDownstream MoldLedger
open MoldRerequest MoldHeartbeatLifecycle ScheduledRuns
open MoldRetransmission (SockAddr RequestContext)

inductive Readable where
  | socket
  | shutdownFd
  deriving DecidableEq, Repr

structure Wanted where
  clientAddress : SockAddr
  startingSequence : SequenceNumber
  msgCount : MessageCount
  deriving DecidableEq, Repr

def Wanted.context (r : Wanted) (filePosition : Nat) : RequestContext :=
  ⟨r.clientAddress, r.startingSequence, r.msgCount, filePosition⟩

/-- handle_request up to the lookup. -/
def readRequest (f : MoldRetransmission.Feed) (client : SockAddr) (datagram : List UInt8) :
    MoldRetransmission.Feed × Option Wanted :=
  match f.receive datagram with
  | (f, bytesRecv) =>
    if bytesRecv ≠ headerLength then (f, none)
    else if f.recvBuffer.take sessionSize ≠ f.packetBuilder.session then (f, none)
    else (f, some {
      clientAddress := client
      startingSequence :=
        UInt64.ofNat (readAtBe native sequenceNumberSize f.recvBuffer sequenceNumberOffset)
      msgCount := UInt16.ofNat (readAtBe native messageCountSize f.recvBuffer messageCountOffset) })

/- Where a retransmission thread is. -/
inductive Place where
  -- in Feed's constructor
  | constructing
  -- in epoll_wait
  | waiting
  | dispatching (events : List Readable)
  -- in file_position_for, before the comparison and before the second read
  | comparing (request : Wanted) (events : List Readable)
  | fetching (request : Wanted) (events : List Readable)
  -- between a lookup and the response to it
  | answering (ctx : RequestContext) (events : List Readable)
  | exited
  deriving DecidableEq, Repr

/-- What the kernel answers to a retransmission thread. -/
structure Kernel where
  -- epoll_wait is interrupted, or recvfrom fails for any reason
  fails : Bool
  -- of two events, the one of the eventfd is the first
  shutdownFirst : Bool

structure FeedThread where
  feed : MoldRetransmission.Feed
  place : Place
  -- the datagrams in its socket, those it has taken, and its lookups that have ended
  queue : List (SockAddr × List UInt8)
  taken : List (SockAddr × List UInt8)
  looked : List (Wanted × Option Nat)

def FeedThread.ready (t : FeedThread) (shutdown : Nat) (kernel : Kernel) : List Readable :=
  -- level-triggered: what is ready is reported again and again
  let requests := if t.queue.isEmpty then [] else [Readable.socket]
  let stop := if shutdown = 0 then [] else [Readable.shutdownFd]
  if kernel.shutdownFirst then stop ++ requests else requests ++ stop

def FeedThread.settle (t : FeedThread) (request : Wanted) (events : List Readable)
    (found : Option Nat) : FeedThread :=
  { t with
    looked := t.looked ++ [(request, found)]
    place :=
      match found with
      | none => .dispatching events
      | some filePosition => .answering (request.context filePosition) events }

/-- recvfrom, and handle_request up to the range tests of file_position_for. Only the last of
    this, the reading of write_seq_, touches what other threads write. -/
def FeedThread.take (buffer : RetransmissionBuffer) (t : FeedThread) (client : SockAddr)
    (datagram : List UInt8) (queue : List (SockAddr × List UInt8)) (events : List Readable) :
    FeedThread :=
  match readRequest t.feed client datagram with
  | (feed, wanted) =>
    let t := { t with feed := feed, queue := queue, taken := t.taken ++ [(client, datagram)] }
    match wanted with
    | none => { t with place := .dispatching events }
    | some request =>
      if buffer.outOfRange request.startingSequence then t.settle request events none
      else { t with place := .comparing request events }

def FeedThread.step (S : Setup) (buffer : RetransmissionBuffer) (shutdown : Nat) (kernel : Kernel)
    (t : FeedThread) : FeedThread × Option (SockAddr × Packet) :=
  match t.place with
  | .constructing => ({ t with place := .waiting }, none)
  | .waiting =>
    if kernel.fails then (t, none)
    else
      match t.ready shutdown kernel with
      -- epoll_wait blocks
      | [] => (t, none)
      | events => ({ t with place := .dispatching events }, none)
  | .dispatching [] => ({ t with place := .waiting }, none)
  | .dispatching (.shutdownFd :: _) => ({ t with place := .exited }, none)
  | .dispatching (.socket :: events) =>
    if kernel.fails then ({ t with place := .dispatching events }, none)
    else
      match t.queue with
      | [] => (t, none)
      | (client, datagram) :: queue => (t.take buffer client datagram queue events, none)
  | .comparing request events =>
    if (buffer.entry request.startingSequence).sequenceNumber ≠ request.startingSequence then
      (t.settle request events none, none)
    else ({ t with place := .fetching request events }, none)
  | .fetching request events =>
    (t.settle request events (some (buffer.entry request.startingSequence).filePosition), none)
  | .answering ctx events =>
    match t.feed.answer S.file.bytes ctx with
    | (feed, packet) =>
      ({ t with feed := feed, place := .dispatching events }, some (ctx.clientAddress, packet))
  | .exited => (t, none)

def FeedThread.arrive (t : FeedThread) (client : SockAddr) (datagram : List UInt8) (room : Bool) :
    FeedThread :=
  match t.place with
  -- the socket is not open yet, or not any more
  | .constructing | .exited => t
  -- without room in its receive buffer the kernel drops the datagram
  | _ => if room then { t with queue := t.queue ++ [(client, datagram)] } else t

/-- downstream_thread_ -/
inductive Launch where
  | absent
  | running
  | exited
  deriving DecidableEq, Repr

/-- What a thread of the server uses and does not own. The pool's two configurations are
    pointers to parts of the caller's. -/
inductive Resource where
  | configuration
  | packetBuilderCfg
  | feedCfg
  | shutdownFd
  | downstreamFeed
  | retransmissionBuffer
  | mappedItchFile
  deriving DecidableEq, Repr

/- Where the owner's thread is. -/
inductive Owner where
  | free
  -- in wait_for_downstream
  | waiting
  -- in the body of the destructor
  | requestingStop
  | joiningDownstream
  | signalling
  -- behind it: the pool's two pointers, the join of its k-th thread, the other members
  | releasingPointers
  | joiningFeeds (k : Nat)
  | releasing (left : List Resource)
  | gone
  deriving DecidableEq, Repr

def Owner.destroying : Owner → Bool
  | .free | .waiting => false
  | _ => true

/- The members that threads use, in the order in which the destructor releases them: those
   declared behind feeds_ before it joins them, the others after that. -/
def releasedFirst : List Resource := [.packetBuilderCfg, .feedCfg]
def releaseOrder : List Resource :=
  [.shutdownFd, .downstreamFeed, .retransmissionBuffer, .mappedItchFile]

/-- The server, and what its feeds have handed to sendmsg, oldest first. -/
structure World (n : Nat) where
  heart : MoldHeartbeat.World
  -- push has stored the record of the message being added, and not raised write_seq_ yet
  stored : Bool
  downstream : Launch
  stopRequested : Bool
  -- the counter of the eventfd
  shutdown : Nat
  feeds : Fin n → FeedThread
  unicast : List (Fin n × SockAddr × Packet)
  owner : Owner
  released : List Resource

inductive Call where
  | start
  | waitForDownstream
  | stop
  | destroy
  deriving DecidableEq, Repr

inductive Action (n : Nat) where
  | call (call : Call)
  | owner
  -- the caller's Server::Config ends
  | dropConfiguration
  | downstream (expired : Bool)
  | heartbeat
  | feed (k : Fin n) (kernel : Kernel)
  | arrive (k : Fin n) (client : SockAddr) (datagram : List UInt8) (room : Bool)

/-- Behind Server's constructor, the threads of the pool at the very beginning. -/
def initial (S : Setup) (n : Nat) : World n := {
  heart := MoldHeartbeat.initial S
  stored := false
  downstream := .absent
  stopRequested := false
  shutdown := 0
  feeds := fun _ => ⟨served S [], .constructing, [], [], []⟩
  unicast := []
  owner := .free
  released := [] }

variable {n : Nat}

def World.setFeed (w : World n) (k : Fin n) (t : FeedThread) : World n :=
  { w with feeds := fun i => if i = k then t else w.feeds i }

def World.requestStop (w : World n) : World n :=
  -- a jthread without a thread has no stop state
  { w with stopRequested := w.stopRequested || w.downstream != .absent }

def World.ring (w : World n) : RetransmissionBuffer :=
  let f := w.heart.thread.feed
  if w.stored then f.retransmissionBuffer.store ⟨f.sequenceNumber, f.filePos⟩
  else f.retransmissionBuffer

def World.pushes (S : Setup) (w : World n) : Bool :=
  match w.heart.thread.phase with
  | .building _ =>
    match w.heart.thread.feed.addMessage S with
    | .again _ => true
    | .leave _ => false
  | _ => false

def World.call (w : World n) : Call → World n
  | .start =>
    if w.owner = .free ∧ w.downstream = .absent then { w with downstream := .running } else w
  | .waitForDownstream =>
    if w.owner = .free ∧ w.downstream ≠ .absent then { w with owner := .waiting } else w
  -- also while the owner's thread waits, by another one
  | .stop => if w.owner.destroying then w else w.requestStop
  | .destroy => if w.owner = .free then { w with owner := .requestingStop } else w

def World.ownerStep (w : World n) : World n :=
  match w.owner with
  | .free | .gone => w
  | .waiting => if w.downstream = .running then w else { w with owner := .free }
  | .requestingStop => { w.requestStop with owner := .joiningDownstream }
  | .joiningDownstream => if w.downstream = .running then w else { w with owner := .signalling }
  | .signalling => { w with shutdown := w.shutdown + 1, owner := .releasingPointers }
  | .releasingPointers =>
    { w with owner := .joiningFeeds 0, released := w.released ++ releasedFirst }
  | .joiningFeeds k =>
    if inside : k < n then
      if (w.feeds ⟨k, inside⟩).place = .exited then { w with owner := .joiningFeeds (k + 1) }
      else w
    else { w with owner := .releasing releaseOrder }
  | .releasing [] => { w with owner := .gone }
  | .releasing (member :: left) =>
    { w with owner := .releasing left, released := w.released ++ [member] }

/-- The lambda of Server::start: Feed::start, then FeedPool::stop. A message is added in two
    steps, of which the first ends with the record in its slot. -/
def World.downstreamStep (S : Setup) (w : World n) (expired : Bool) : World n :=
  match w.downstream with
  | .running =>
    if w.heart.thread.phase = .finished then
      { w with shutdown := w.shutdown + 1, downstream := .exited }
    else if w.pushes S && !w.stored then { w with stored := true }
    else { w with
      heart := MoldHeartbeat.step S w.heart (.downstream ⟨w.stopRequested, expired⟩)
      stored := false }
  | _ => w

def step (S : Setup) (w : World n) : Action n → World n
  | .call call => w.call call
  | .owner => w.ownerStep
  | .dropConfiguration => { w with released := w.released ++ [.configuration] }
  | .downstream expired => w.downstreamStep S expired
  | .heartbeat => { w with heart := MoldHeartbeat.step S w.heart .heartbeat }
  | .feed k kernel =>
    match (w.feeds k).step S w.ring w.shutdown kernel with
    | (t, response) =>
      { w.setFeed k t with unicast := w.unicast ++ response.toList.map fun r => (k, r) }
  | .arrive k client datagram room => w.setFeed k ((w.feeds k).arrive client datagram room)

def World.responses (w : World n) (k : Fin n) : List (SockAddr × Packet) :=
  (w.unicast.filter fun r => r.1 = k).map Prod.snd

variable {S : Setup} {w : World n}

theorem outOfRange_none {b : RetransmissionBuffer} {s : SequenceNumber}
    (out : b.outOfRange s = true) : b.filePositionFor s = none := by
  rw [RetransmissionBuffer.filePositionFor, if_pos out]

theorem takeRequest_parts (f : MoldRetransmission.Feed) (buffer : RetransmissionBuffer)
    (client : SockAddr) (datagram : List UInt8) :
    f.takeRequest buffer client datagram =
      ((readRequest f client datagram).1, (readRequest f client datagram).2.bind fun r =>
        (buffer.filePositionFor r.startingSequence).map r.context) := by
  simp only [MoldRetransmission.Feed.takeRequest, readRequest,
    MoldRetransmission.Feed.parseRequest]
  split
  · rfl
  · split
    · rfl
    · cases found : buffer.filePositionFor _ <;> simp [found, Wanted.context]

/-- Everything one step of a retransmission thread can do. -/
inductive FeedMove (S : Setup) (buffer : RetransmissionBuffer) (shutdown : Nat) (kernel : Kernel)
    (t : FeedThread) : FeedThread × Option (SockAddr × Packet) → Prop where
  | still : FeedMove S buffer shutdown kernel t (t, none)
  | construct (place : t.place = .constructing) :
      FeedMove S buffer shutdown kernel t ({ t with place := .waiting }, none)
  | report (place : t.place = .waiting) (some : t.ready shutdown kernel ≠ []) :
      FeedMove S buffer shutdown kernel t
        ({ t with place := .dispatching (t.ready shutdown kernel) }, none)
  | again (place : t.place = .dispatching []) :
      FeedMove S buffer shutdown kernel t ({ t with place := .waiting }, none)
  | leave {events : List Readable} (place : t.place = .dispatching (.shutdownFd :: events)) :
      FeedMove S buffer shutdown kernel t ({ t with place := .exited }, none)
  | lose {events : List Readable} (place : t.place = .dispatching (.socket :: events)) :
      FeedMove S buffer shutdown kernel t ({ t with place := .dispatching events }, none)
  | take {events : List Readable} {client : SockAddr} {datagram : List UInt8}
      {queue : List (SockAddr × List UInt8)}
      (place : t.place = .dispatching (.socket :: events))
      (queued : t.queue = (client, datagram) :: queue) :
      FeedMove S buffer shutdown kernel t (t.take buffer client datagram queue events, none)
  | miss {request : Wanted} {events : List Readable} (place : t.place = .comparing request events)
      (other : (buffer.entry request.startingSequence).sequenceNumber ≠ request.startingSequence) :
      FeedMove S buffer shutdown kernel t (t.settle request events none, none)
  | found {request : Wanted} {events : List Readable} (place : t.place = .comparing request events)
      (same : (buffer.entry request.startingSequence).sequenceNumber = request.startingSequence) :
      FeedMove S buffer shutdown kernel t ({ t with place := .fetching request events }, none)
  | fetch {request : Wanted} {events : List Readable} (place : t.place = .fetching request events) :
      FeedMove S buffer shutdown kernel t
        (t.settle request events (some (buffer.entry request.startingSequence).filePosition), none)
  | answer {ctx : RequestContext} {events : List Readable} (place : t.place = .answering ctx events) :
      FeedMove S buffer shutdown kernel t
        ({ t with feed := (t.feed.answer S.file.bytes ctx).1, place := .dispatching events },
          some (ctx.clientAddress, (t.feed.answer S.file.bytes ctx).2))

theorem feed_moves (S : Setup) (buffer : RetransmissionBuffer) (shutdown : Nat) (kernel : Kernel)
    (t : FeedThread) : FeedMove S buffer shutdown kernel t (t.step S buffer shutdown kernel) := by
  unfold FeedThread.step
  split
  · exact .construct ‹_›
  · split
    · exact .still
    · split
      · exact .still
      · rename_i some
        exact .report ‹_› some
  · exact .again ‹_›
  · exact .leave ‹_›
  · split
    · exact .lose ‹_›
    · split
      · exact .still
      · exact .take ‹_› ‹_›
  · split
    · exact .miss ‹_› ‹_›
    · rename_i same
      exact .found ‹_› (not_not.mp same)
  · exact .fetch ‹_›
  · exact .answer ‹_›
  · exact .still

inductive Taken (buffer : RetransmissionBuffer) (t : FeedThread) (client : SockAddr)
    (datagram : List UInt8) (queue : List (SockAddr × List UInt8)) (events : List Readable) :
    FeedThread → Prop where
  | ignored (unread : (readRequest t.feed client datagram).2 = none) :
      Taken buffer t client datagram queue events
        ⟨(readRequest t.feed client datagram).1, .dispatching events, queue,
          t.taken ++ [(client, datagram)], t.looked⟩
  | turnedAway {request : Wanted} (read : (readRequest t.feed client datagram).2 = some request)
      (out : buffer.outOfRange request.startingSequence = true) :
      Taken buffer t client datagram queue events
        ⟨(readRequest t.feed client datagram).1, .dispatching events, queue,
          t.taken ++ [(client, datagram)], t.looked ++ [(request, none)]⟩
  | lookedUp {request : Wanted} (read : (readRequest t.feed client datagram).2 = some request)
      (inside : buffer.outOfRange request.startingSequence = false) :
      Taken buffer t client datagram queue events
        ⟨(readRequest t.feed client datagram).1, .comparing request events, queue,
          t.taken ++ [(client, datagram)], t.looked⟩

theorem take_taken (buffer : RetransmissionBuffer) (t : FeedThread) (client : SockAddr)
    (datagram : List UInt8) (queue : List (SockAddr × List UInt8)) (events : List Readable) :
    Taken buffer t client datagram queue events (t.take buffer client datagram queue events) := by
  simp only [FeedThread.take]
  cases read : (readRequest t.feed client datagram).2 with
  | none => exact .ignored read
  | some request =>
    cases out : buffer.outOfRange request.startingSequence with
    | true => simpa [out, FeedThread.settle] using Taken.turnedAway read out
    | false => simpa [out] using Taken.lookedUp read out

theorem taken_place {buffer : RetransmissionBuffer} {t t' : FeedThread} {client : SockAddr}
    {datagram : List UInt8} {queue : List (SockAddr × List UInt8)} {events : List Readable}
    (taken : Taken buffer t client datagram queue events t') :
    t'.place = .dispatching events ∨ ∃ request, t'.place = .comparing request events := by
  cases taken with
  | ignored unread => exact Or.inl rfl
  | turnedAway read out => exact Or.inl rfl
  | lookedUp read inside => exact Or.inr ⟨_, rfl⟩

/-- Everything one step of the server can do. -/
inductive Advance (S : Setup) (w : World n) : World n → Prop where
  | still : Advance S w w
  | start (free : w.owner = .free) (absent : w.downstream = .absent) :
      Advance S w { w with downstream := .running }
  | wait (free : w.owner = .free) (launched : w.downstream ≠ .absent) :
      Advance S w { w with owner := .waiting }
  | stop (using_ : w.owner.destroying = false) : Advance S w w.requestStop
  | destroy (free : w.owner = .free) : Advance S w { w with owner := .requestingStop }
  | waited (waiting : w.owner = .waiting) (ended : w.downstream ≠ .running) :
      Advance S w { w with owner := .free }
  | requestStop (at_ : w.owner = .requestingStop) :
      Advance S w { w.requestStop with owner := .joiningDownstream }
  | joined (at_ : w.owner = .joiningDownstream) (ended : w.downstream ≠ .running) :
      Advance S w { w with owner := .signalling }
  | signal (at_ : w.owner = .signalling) :
      Advance S w { w with shutdown := w.shutdown + 1, owner := .releasingPointers }
  | releasePointers (at_ : w.owner = .releasingPointers) :
      Advance S w { w with owner := .joiningFeeds 0, released := w.released ++ releasedFirst }
  | joinedFeed {k : Nat} (at_ : w.owner = .joiningFeeds k) (inside : k < n)
      (ended : (w.feeds ⟨k, inside⟩).place = .exited) :
      Advance S w { w with owner := .joiningFeeds (k + 1) }
  | joinedAll {k : Nat} (at_ : w.owner = .joiningFeeds k) (all : n ≤ k) :
      Advance S w { w with owner := .releasing releaseOrder }
  | release {member : Resource} {left : List Resource} (at_ : w.owner = .releasing (member :: left)) :
      Advance S w { w with owner := .releasing left, released := w.released ++ [member] }
  | finish (at_ : w.owner = .releasing []) : Advance S w { w with owner := .gone }
  | dropConfiguration : Advance S w { w with released := w.released ++ [.configuration] }
  | signalled (running : w.downstream = .running) (finished : w.heart.thread.phase = .finished) :
      Advance S w { w with shutdown := w.shutdown + 1, downstream := .exited }
  | storeRecord (running : w.downstream = .running) (pushes : w.pushes S = true)
      (fresh : w.stored = false) : Advance S w { w with stored := true }
  | replay (running : w.downstream = .running) (unfinished : w.heart.thread.phase ≠ .finished)
      (ready : w.pushes S = true → w.stored = true) (expired : Bool) : Advance S w { w with
        heart := MoldHeartbeat.step S w.heart (.downstream ⟨w.stopRequested, expired⟩)
        stored := false }
  | beat : Advance S w { w with heart := MoldHeartbeat.step S w.heart .heartbeat }
  | feed (k : Fin n) {kernel : Kernel} {t : FeedThread} {response : Option (SockAddr × Packet)}
      (move : FeedMove S w.ring w.shutdown kernel (w.feeds k) (t, response)) :
      Advance S w
        { w.setFeed k t with unicast := w.unicast ++ response.toList.map fun r => (k, r) }
  | arrive (k : Fin n) (client : SockAddr) (datagram : List UInt8) (room : Bool) :
      Advance S w (w.setFeed k ((w.feeds k).arrive client datagram room))

theorem call_advances (S : Setup) (w : World n) (call : Call) : Advance S w (w.call call) := by
  cases call with
  | start =>
    simp only [World.call]
    split
    · rename_i fresh
      exact .start fresh.1 fresh.2
    · exact .still
  | waitForDownstream =>
    simp only [World.call]
    split
    · rename_i launched
      exact .wait launched.1 launched.2
    · exact .still
  | stop =>
    simp only [World.call]
    split
    · exact .still
    · rename_i using_
      exact .stop (by simpa using using_)
  | destroy =>
    simp only [World.call]
    split
    · exact .destroy ‹_›
    · exact .still

theorem owner_advances (S : Setup) (w : World n) : Advance S w w.ownerStep := by
  unfold World.ownerStep
  split
  · exact .still
  · exact .still
  · split
    · exact .still
    · exact .waited ‹_› ‹_›
  · exact .requestStop ‹_›
  · split
    · exact .still
    · exact .joined ‹_› ‹_›
  · exact .signal ‹_›
  · exact .releasePointers ‹_›
  · split
    · split
      · exact .joinedFeed ‹_› _ ‹_›
      · exact .still
    · exact .joinedAll ‹_› (Nat.not_lt.mp ‹_›)
  · exact .finish ‹_›
  · exact .release ‹_›

theorem step_advances (S : Setup) (w : World n) (a : Action n) : Advance S w (step S w a) := by
  cases a with
  | call call => exact call_advances S w call
  | owner => exact owner_advances S w
  | dropConfiguration => exact .dropConfiguration
  | downstream expired =>
    simp only [step, World.downstreamStep]
    split
    · split
      · exact .signalled ‹_› ‹_›
      · split
        · rename_i half
          simp only [Bool.and_eq_true, Bool.not_eq_true'] at half
          exact .storeRecord ‹_› half.1 half.2
        · rename_i unfinished whole
          refine .replay ‹_› unfinished (fun pushes => ?_) expired
          simpa [pushes] using whole
    · exact .still
  | heartbeat => exact .beat
  | feed k kernel => exact .feed k (feed_moves S w.ring w.shutdown kernel (w.feeds k))
  | arrive k client datagram room => exact .arrive k client datagram room

inductive FeedTurn (S : Setup) (w : World n) (k : Fin n) : FeedThread → Prop where
  | aside : FeedTurn S w k (w.feeds k)
  | move {kernel : Kernel} {t : FeedThread} {response : Option (SockAddr × Packet)}
      (move : FeedMove S w.ring w.shutdown kernel (w.feeds k) (t, response)) : FeedTurn S w k t
  | arrive (client : SockAddr) (datagram : List UInt8) (room : Bool) :
      FeedTurn S w k ((w.feeds k).arrive client datagram room)

theorem advance_turns {w' : World n} (advance : Advance S w w') (k : Fin n) :
    FeedTurn S w k (w'.feeds k) := by
  cases advance with
  | feed j move =>
    simp only [World.setFeed]
    split
    · rename_i same
      subst same
      exact .move move
    · exact .aside
  | arrive j client datagram room =>
    simp only [World.setFeed]
    split
    · rename_i same
      subst same
      exact .arrive client datagram room
    · exact .aside
  | _ => exact .aside

theorem feed_turn (w : World n) (k : Fin n) (kernel : Kernel) :
    (step S w (.feed k kernel)).feeds k = ((w.feeds k).step S w.ring w.shutdown kernel).1 :=
  if_pos rfl

theorem replay_thread (S : Setup) (h : MoldHeartbeat.World) (inputs : Inputs) :
    (MoldHeartbeat.step S h (.downstream inputs)).thread = h.thread ∨
      (MoldHeartbeat.step S h (.downstream inputs)).thread = h.thread.step S inputs := by
  simp only [MoldHeartbeat.step]
  split
  · exact Or.inl rfl
  · exact Or.inr rfl

theorem responses_sent (w : World n) (j k : Fin n) (t : FeedThread)
    (response : Option (SockAddr × Packet)) :
    World.responses { w.setFeed j t with
      unicast := w.unicast ++ response.toList.map fun r => (j, r) } k =
        w.responses k ++ if k = j then response.toList else [] := by
  simp only [World.responses, List.filter_append, List.map_append]
  congr 1
  cases response with
  | none => simp
  | some r =>
    by_cases same : k = j
    · simp [same]
    · simp [same, Ne.symm same]

theorem arrive_same (t : FeedThread) (client : SockAddr) (datagram : List UInt8) (room : Bool) :
    (t.arrive client datagram room).feed = t.feed ∧
      (t.arrive client datagram room).place = t.place ∧
      (t.arrive client datagram room).taken = t.taken ∧
      (t.arrive client datagram room).looked = t.looked := by
  unfold FeedThread.arrive
  repeat' split
  all_goals exact ⟨rfl, rfl, rfl, rfl⟩

theorem advance_heart {w' : World n} {h : MoldHeartbeat.World} (same : w.heart = h)
    (advance : Advance S w w') : ∃ more, w'.heart = run (MoldHeartbeat.step S) h more := by
  subst same
  cases advance with
  | replay running unfinished ready expired => exact ⟨[.downstream ⟨w.stopRequested, expired⟩], rfl⟩
  | beat => exact ⟨[.heartbeat], rfl⟩
  | _ => exact ⟨[], rfl⟩

theorem run_heart (S : Setup) (actions : List (Action n)) : ∃ beats,
    (run (step S) (initial S n) actions).heart =
      run (MoldHeartbeat.step S) (MoldHeartbeat.initial S) beats :=
  run_refined (R := fun (w : World n) h => w.heart = h)
    (fun w _ a same => advance_heart same (step_advances S w a)) actions rfl

theorem run_server_follows (S : Setup) (actions : List (Action n)) :
    Follows S (run (step S) (initial S n) actions).heart.thread := by
  obtain ⟨beats, same⟩ := run_heart S actions
  rw [same]
  exact (MoldHeartbeatNumbers.run_together S beats).follows

end MoldServerRuns
