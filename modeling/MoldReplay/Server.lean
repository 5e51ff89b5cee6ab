import MoldReplay.RetransmissionBuffer

/- Server's constructor, make_server and the Feed constructors of the retransmission
   threads. What the system calls answer is a parameter, and so are the texts that the
   compiler and the C library supply. A call answers with an errno or succeeds; a descriptor
   that no test looks at is not kept. Memory is always there. -/
namespace MoldServer
open MoldWire MoldPacket MoldBuffer

inductive Kind where
  | invalidArgument
  | lengthError
  | systemError
  deriving DecidableEq, Repr

structure Exception where
  kind : Kind
  what : String
  deriving DecidableEq, Repr

/-- How a constructor ends without an object. A division by zero cannot be caught. -/
inductive Fault where
  | thrown (exception : Exception)
  | divisionByZero
  deriving DecidableEq, Repr

abbrev Call := Except Nat Unit

/-- Functions whose function_name() is part of a message. -/
inductive Function where
  | fileDescriptorPath
  | fileDescriptorCall
  | memoryMappedFile
  | downstreamConfigureSocket
  | retransmissionFeed
  | retransmissionConfigureSocket
  deriving DecidableEq, Repr

inductive FilesystemCall where
  | exists
  | isDirectory
  | fileSize
  deriving DecidableEq, Repr

/-- inet_pton returns 1, 0 or -1. -/
inductive InetPton where
  | parsed
  | malformed
  | failed (errno : Nat)
  deriving DecidableEq, Repr

structure Platform where
  functionName : Function → String
  /-- std::system_category().message -/
  message : Nat → String
  /-- what() of a std::filesystem::filesystem_error -/
  filesystemWhat : FilesystemCall → String → Nat → String
  inetPton : String → InetPton

structure FileCalls where
  fileExists : Except Nat Bool
  isDirectory : Except Nat Bool
  openFile : Call
  fileSize : Call
  mmap : Call
  madvise : Call

structure MulticastCalls where
  socket : Call
  reuseAddress : Call
  multicastTtl : Call
  multicastLoop : Call
  multicastInterface : Call

structure WorkerCalls where
  socket : Call
  epollCreate : Call
  reuseAddress : Call
  reusePort : Call
  bind : Call
  addSocket : Call
  addShutdown : Call

/-- What the calls answer; those of the k-th retransmission thread are its own. -/
structure Calls where
  file : FileCalls
  multicast : MulticastCalls
  eventfd : Except Nat Nat
  createThread : Nat → Call
  worker : Nat → WorkerCalls

structure FileConfig where
  path : String
  madviseFlags : Int := 0

structure DownstreamConfig where
  mcastGroup : String
  loopback : Bool := false

structure RetransmissionConfig where
  address : String

structure Config where
  mappedItchFileCfg : FileConfig
  packetBuilderCfg : MoldPacket.Config
  downstreamFeedConfig : DownstreamConfig
  retransmissionBufferSize : UInt64 := 4194304
  retransmissionFeedConfig : RetransmissionConfig
  numRetransmissionFeeds : UInt64

def invalidArgument (what : String) : Exception := ⟨.invalidArgument, what⟩

def systemError (P : Platform) (what : String) (errno : Nat) : Exception :=
  ⟨.systemError, what ++ ": " ++ P.message errno⟩
def bareSystemError (P : Platform) (errno : Nat) : Exception := ⟨.systemError, P.message errno⟩
def filesystemError (P : Platform) (call : FilesystemCall) (path : String) (errno : Nat) :
    Exception := ⟨.systemError, P.filesystemWhat call path errno⟩

def check {α : Type} (call : Except Nat α) (failed : Nat → Exception) : Except Exception α :=
  call.mapError failed

def parseAddress (P : Platform) (address : String) (malformed : Exception)
    (failed : Nat → Exception) : Except Exception Unit :=
  match P.inetPton address with
  | .parsed => .ok ()
  | .malformed => .error malformed
  | .failed errno => .error (failed errno)

/- FileDescriptor(path) and FileDescriptor(callable) -/
def notAFile (P : Platform) (calls : FileCalls) (path : String) : Except Exception Bool := do
  let found ← check calls.fileExists (filesystemError P .exists path)
  if found then check calls.isDirectory (filesystemError P .isDirectory path) else .ok true

def openPath (P : Platform) (calls : FileCalls) (path : String) : Except Exception Unit := do
  let wrong ← notAFile P calls path
  if wrong then
    .error (invalidArgument (P.functionName .fileDescriptorPath ++ " path is not a file " ++ path))
  else
    check calls.openFile
      (systemError P (P.functionName .fileDescriptorPath ++ " failed to open file"))

def openCall {α : Type} (P : Platform) (call : Except Nat α) : Except Exception α :=
  check call (systemError P (P.functionName .fileDescriptorCall))

def constructFile (P : Platform) (cfg : FileConfig) (calls : FileCalls) :
    Except Exception Unit := do
  openPath P calls cfg.path
  check calls.fileSize (filesystemError P .fileSize cfg.path)
  check calls.mmap (systemError P (P.functionName .memoryMappedFile))
  if cfg.madviseFlags = 0 then .ok ()
  else check calls.madvise (systemError P (P.functionName .memoryMappedFile))

def raised : Failure → Fault
  | .invalidArgument what => .thrown ⟨.invalidArgument, what⟩
  | .lengthError what => .thrown ⟨.lengthError, what⟩
  | .divisionByZero => .divisionByZero

def constructBuffer (bufferSize : UInt64) : Except Fault Unit :=
  ((MoldBuffer.construct bufferSize).map fun _ => ()).mapError raised

def constructBuilder (cfg : MoldPacket.Config) : Except Fault Unit :=
  ((MoldPacket.construct cfg).map fun _ => ()).mapError raised

/-- downstream::Feed::configure_socket, behind the socket it is for. -/
def configureMulticast (P : Platform) (cfg : DownstreamConfig) (calls : MulticastCalls) :
    Except Exception Unit := do
  let failed := systemError P (P.functionName .downstreamConfigureSocket)
  openCall P calls.socket
  check calls.reuseAddress failed
  check calls.multicastTtl failed
  parseAddress P cfg.mcastGroup
    (invalidArgument ("invalid ip format for downstream group " ++ cfg.mcastGroup))
    (bareSystemError P)
  if cfg.loopback then check calls.multicastLoop failed else .ok ()
  check calls.multicastInterface failed

def constructDownstream (P : Platform) (cfg : DownstreamConfig) (builder : MoldPacket.Config)
    (calls : MulticastCalls) : Except Fault Unit := do
  (configureMulticast P cfg calls).mapError .thrown
  constructBuilder builder

/-- retransmission::Feed::configure_socket -/
def configureUnicast (P : Platform) (cfg : RetransmissionConfig) (calls : WorkerCalls) :
    Except Exception Unit := do
  let name := P.functionName .retransmissionConfigureSocket
  check calls.reuseAddress (bareSystemError P)
  check calls.reusePort (bareSystemError P)
  parseAddress P cfg.address
    (invalidArgument (name ++ " Feed::Config::address invalid ip format"))
    (systemError P (name ++ " inet_pton"))
  check calls.bind (systemError P (name ++ " bind"))
  check calls.addSocket (bareSystemError P)
  check calls.addShutdown (bareSystemError P)

/-- retransmission::Feed::Feed, run by the thread that is to serve it. -/
def constructRetransmission (P : Platform) (cfg : RetransmissionConfig)
    (builder : MoldPacket.Config) (calls : WorkerCalls) (shutdownFd : Nat) :
    Except Fault Unit := do
  (openCall P calls.socket).mapError .thrown
  (openCall P calls.epollCreate).mapError .thrown
  constructBuilder builder
  -- 0 is stdin so will EPERM w/ epoll
  if shutdownFd = 0 then
    .error (.thrown (invalidArgument
      (P.functionName .retransmissionFeed ++ " invalid shutdown_fd " ++ toString shutdownFd)))
  else (configureUnicast P cfg calls).mapError .thrown

/-- The loop of FeedPool's constructor from thread `i` on: what the constructors in the
    threads it starts come to, and how it ends itself. -/
def startFeeds (P : Platform) (createThread : Nat → Call) (worker : Nat → Except Fault Unit) :
    Nat → Nat → List (Except Fault Unit) × Except Exception Unit
  | 0, _ => ([], .ok ())
  | left + 1, i =>
    match createThread i with
    | .error errno => ([], .error (bareSystemError P errno))
    | .ok () =>
      match startFeeds P createThread worker left (i + 1) with
      | (workers, result) => (worker i :: workers, result)

/-- vector<jthread>::max_size(): a jthread is 16 bytes. -/
def jthreadMaxSize : Nat := (2 ^ 63 - 1) / 16

def constructPool (P : Platform) (cfg : Config) (calls : Calls) :
    List (Except Fault Unit) × Except Exception Unit :=
  match openCall P calls.eventfd with
  | .error exception => ([], .error exception)
  | .ok shutdownFd =>
    if jthreadMaxSize < cfg.numRetransmissionFeeds.toNat then
      ([], .error ⟨.lengthError, "vector::reserve"⟩)
    else
      startFeeds P calls.createThread
        (fun k => constructRetransmission P cfg.retransmissionFeedConfig cfg.packetBuilderCfg
          (calls.worker k) shutdownFd) cfg.numRetransmissionFeeds.toNat 0

/-- The constructors that ran: Server's members, the last of which may have failed, and
    the Feed of each thread that was started. -/
structure Construction where
  members : List (Except Fault Unit)
  workers : List (Except Fault Unit)

def construct (P : Platform) (cfg : Config) (calls : Calls) : Construction :=
  match (constructFile P cfg.mappedItchFileCfg calls.file).mapError .thrown with
  | .error fault => ⟨[.error fault], []⟩
  | .ok _ =>
    match constructBuffer cfg.retransmissionBufferSize with
    | .error fault => ⟨[.ok (), .error fault], []⟩
    | .ok _ =>
      match constructDownstream P cfg.downstreamFeedConfig cfg.packetBuilderCfg calls.multicast with
      | .error fault => ⟨[.ok (), .ok (), .error fault], []⟩
      | .ok _ =>
        match constructPool P cfg calls with
        | (workers, result) => ⟨[.ok (), .ok (), .ok (), result.mapError .thrown], workers⟩

inductive Outcome where
  | returned (result : Except String Unit)
  -- the pool's threads are joined, and nothing tells them to stop
  | blocked
  | divided
  deriving DecidableEq, Repr

def Construction.failed (c : Construction) : Option Fault :=
  c.members.findSome? fun | .error fault => some fault | .ok _ => none

def Construction.outcome (c : Construction) : Outcome :=
  match c.failed with
  | none => .returned (.ok ())
  | some .divisionByZero => .divided
  | some (.thrown exception) =>
    -- leaving the constructor destroys feeds_, whose threads are in epoll_wait by then
    if c.workers.isEmpty then .returned (.error exception.what) else .blocked

def makeServer (P : Platform) (cfg : Config) (calls : Calls) : Outcome :=
  (construct P cfg calls).outcome

/-- What a call of make_server is to come to, whatever its configuration and the calls:
    a server if all the constructors succeed, the exception if one throws, and no exception
    that leaves a thread and no division by zero. -/
structure Reports (c : Construction) (outcome : Outcome) : Prop where
  server : (∀ r ∈ c.members ++ c.workers, r = .ok ()) → outcome = .returned (.ok ())
  unexpected : (∃ r ∈ c.members ++ c.workers, r ≠ .ok ()) → ∃ exception,
    .error (.thrown exception) ∈ c.members ++ c.workers ∧
      outcome = .returned (.error exception.what)
  contained : ∀ w ∈ c.workers, w = .ok ()
  undivided : outcome ≠ .divided

/- What each constructor needs of its configuration and of its calls. -/
def FileOpens (cfg : FileConfig) (calls : FileCalls) : Prop :=
  calls.fileExists = .ok true ∧ calls.isDirectory = .ok false ∧ calls.openFile = .ok () ∧
    calls.fileSize = .ok () ∧ calls.mmap = .ok () ∧
    (cfg.madviseFlags = 0 ∨ calls.madvise = .ok ())

def BufferSized (bufferSize : UInt64) : Prop :=
  bufferSize ≠ 0 ∧ bufferSize.toNat ≤ recordMaxSize

def MulticastReady (P : Platform) (cfg : DownstreamConfig) (calls : MulticastCalls) : Prop :=
  calls.socket = .ok () ∧ calls.reuseAddress = .ok () ∧ calls.multicastTtl = .ok () ∧
    P.inetPton cfg.mcastGroup = .parsed ∧
    (cfg.loopback = false ∨ calls.multicastLoop = .ok ()) ∧ calls.multicastInterface = .ok ()

def Divisible (cfg : MoldPacket.Config) : Prop := 20 ≤ cfg.MTU ∧ cfg.session.length = 10

def BuilderAccepted (cfg : MoldPacket.Config) : Prop :=
  Divisible cfg ∧ cfg.minMessageSize ≠ 0 ∧
    (1 + cfg.MTU / cfg.minMessageSize) % 2 ^ 64 ≤ iovecMaxSize

def WorkerReady (P : Platform) (cfg : RetransmissionConfig) (calls : WorkerCalls)
    (shutdownFd : Nat) : Prop :=
  calls.socket = .ok () ∧ calls.epollCreate = .ok () ∧ shutdownFd ≠ 0 ∧
    calls.reuseAddress = .ok () ∧ calls.reusePort = .ok () ∧ P.inetPton cfg.address = .parsed ∧
    calls.bind = .ok () ∧ calls.addSocket = .ok () ∧ calls.addShutdown = .ok ()

def Prepared (P : Platform) (cfg : Config) (calls : Calls) : Prop :=
  FileOpens cfg.mappedItchFileCfg calls.file ∧ BufferSized cfg.retransmissionBufferSize ∧
    MulticastReady P cfg.downstreamFeedConfig calls.multicast

structure Covered (P : Platform) (cfg : Config) (calls : Calls) : Prop where
  divides : Prepared P cfg calls → Divisible cfg.packetBuilderCfg →
    cfg.packetBuilderCfg.minMessageSize ≠ 0
  threads : Prepared P cfg calls → BuilderAccepted cfg.packetBuilderCfg →
    ∀ shutdownFd, calls.eventfd = .ok shutdownFd →
      cfg.numRetransmissionFeeds.toNat ≤ jthreadMaxSize →
      -- for every thread that is started: it can serve, and the next one is started too
      ∀ k < cfg.numRetransmissionFeeds.toNat, (∀ j ≤ k, calls.createThread j = .ok ()) →
        WorkerReady P cfg.retransmissionFeedConfig (calls.worker k) shutdownFd ∧
          (k + 1 < cfg.numRetransmissionFeeds.toNat → calls.createThread (k + 1) = .ok ())

variable {P : Platform} {ε ε' α β : Type}

theorem bind_ok_iff {x : Except ε α} {f : α → Except ε β} {b : β} :
    (x >>= f) = .ok b ↔ ∃ a, x = .ok a ∧ f a = .ok b := by
  cases x <;> simp [bind, Except.bind]

theorem then_ok_iff {x : Except ε Unit} {f : Unit → Except ε β} {b : β} :
    (x >>= f) = .ok b ↔ x = .ok () ∧ f () = .ok b := by
  cases x <;> simp [bind, Except.bind]

theorem mapError_ok_iff {x : Except ε α} {f : ε → ε'} {a : α} :
    x.mapError f = .ok a ↔ x = .ok a := by
  cases x <;> simp [Except.mapError]

theorem check_ok_iff {call : Except Nat α} {failed : Nat → Exception} {a : α} :
    check call failed = .ok a ↔ call = .ok a := mapError_ok_iff

theorem parseAddress_ok_iff {address : String} {malformed : Exception}
    {failed : Nat → Exception} :
    parseAddress P address malformed failed = .ok () ↔ P.inetPton address = .parsed := by
  unfold parseAddress
  split <;> simp [*]

theorem notAFile_ok_iff {calls : FileCalls} {path : String} :
    notAFile P calls path = .ok false ↔
      calls.fileExists = .ok true ∧ calls.isDirectory = .ok false := by
  unfold notAFile
  rw [bind_ok_iff]
  simp only [check_ok_iff]
  constructor
  · rintro ⟨_ | _, found, directory⟩
    · cases directory
    · exact ⟨found, check_ok_iff.mp directory⟩
  · rintro ⟨found, directory⟩
    exact ⟨true, found, check_ok_iff.mpr directory⟩

theorem openPath_ok_iff {calls : FileCalls} {path : String} :
    openPath P calls path = .ok () ↔
      (calls.fileExists = .ok true ∧ calls.isDirectory = .ok false) ∧ calls.openFile = .ok () := by
  unfold openPath
  rw [bind_ok_iff, ← notAFile_ok_iff]
  constructor
  · rintro ⟨_ | _, file, opened⟩
    · exact ⟨file, check_ok_iff.mp opened⟩
    · cases opened
  · rintro ⟨file, opened⟩
    exact ⟨false, file, check_ok_iff.mpr opened⟩

theorem file_ok_iff {cfg : FileConfig} {calls : FileCalls} :
    constructFile P cfg calls = .ok () ↔ FileOpens cfg calls := by
  unfold constructFile FileOpens
  simp only [then_ok_iff, check_ok_iff, openPath_ok_iff, and_assoc]
  by_cases advice : cfg.madviseFlags = 0 <;> simp [advice, check_ok_iff]

theorem buffer_ok_iff {bufferSize : UInt64} :
    constructBuffer bufferSize = .ok () ↔ BufferSized bufferSize := by
  simp only [constructBuffer, mapError_ok_iff, BufferSized, MoldBuffer.construct]
  split
  · rename_i empty
    simp [Except.map, empty]
  · rename_i some
    split
    · simp [Except.map]
      omega
    · simp [Except.map, some]
      omega

theorem buffer_undivided {bufferSize : UInt64} :
    constructBuffer bufferSize ≠ .error .divisionByZero := by
  simp only [constructBuffer, MoldBuffer.construct]
  split
  · simp [Except.map, Except.mapError, raised]
  · split <;> simp [Except.map, Except.mapError, raised]

theorem builder_ok_iff {cfg : MoldPacket.Config} :
    constructBuilder cfg = .ok () ↔ BuilderAccepted cfg := by
  simp only [constructBuilder, mapError_ok_iff, BuilderAccepted, Divisible, MoldPacket.construct]
  split
  · rename_i short
    have short : cfg.MTU < 20 := short
    simp only [Except.map, reduceCtorEq, false_iff]
    omega
  · rename_i long
    have long : ¬ cfg.MTU < 20 := long
    split
    · rename_i wrong
      simp [Except.map, wrong]
    · rename_i ten
      have ten : cfg.session.length = 10 := not_not.mp ten
      split
      · rename_i zero
        simp [Except.map, zero]
      · rename_i positive
        split
        · simp only [Except.map, reduceCtorEq, false_iff]
          omega
        · simp only [Except.map, true_iff]
          exact ⟨⟨by omega, ten⟩, positive, by omega⟩

theorem builder_divides_iff {cfg : MoldPacket.Config} :
    constructBuilder cfg = .error .divisionByZero ↔ Divisible cfg ∧ cfg.minMessageSize = 0 := by
  simp only [constructBuilder, Divisible, MoldPacket.construct]
  split
  · rename_i short
    have short : cfg.MTU < 20 := short
    simp only [Except.map, Except.mapError, raised, Except.error.injEq, reduceCtorEq, false_iff]
    omega
  · rename_i long
    have long : ¬ cfg.MTU < 20 := long
    split
    · rename_i wrong
      simp [Except.map, Except.mapError, raised, wrong]
    · rename_i ten
      have ten : cfg.session.length = 10 := not_not.mp ten
      split
      · rename_i zero
        simp only [Except.map, Except.mapError, raised, true_iff]
        exact ⟨⟨by omega, ten⟩, zero⟩
      · rename_i positive
        split <;> simp [Except.map, Except.mapError, raised, positive]

theorem multicast_ok_iff {cfg : DownstreamConfig} {calls : MulticastCalls} :
    configureMulticast P cfg calls = .ok () ↔ MulticastReady P cfg calls := by
  unfold configureMulticast MulticastReady openCall
  simp only [then_ok_iff, check_ok_iff, parseAddress_ok_iff]
  cases cfg.loopback <;> simp [then_ok_iff, check_ok_iff]

theorem downstream_ok_iff {cfg : DownstreamConfig} {builder : MoldPacket.Config}
    {calls : MulticastCalls} :
    constructDownstream P cfg builder calls = .ok () ↔
      MulticastReady P cfg calls ∧ BuilderAccepted builder := by
  unfold constructDownstream
  rw [then_ok_iff, mapError_ok_iff, multicast_ok_iff, builder_ok_iff]

theorem downstream_divides_iff {cfg : DownstreamConfig} {builder : MoldPacket.Config}
    {calls : MulticastCalls} :
    constructDownstream P cfg builder calls = .error .divisionByZero ↔
      MulticastReady P cfg calls ∧ Divisible builder ∧ builder.minMessageSize = 0 := by
  unfold constructDownstream
  rw [← multicast_ok_iff, ← builder_divides_iff]
  cases configureMulticast P cfg calls <;> simp [Except.mapError, bind, Except.bind]

theorem retransmission_ok_iff {cfg : RetransmissionConfig} {builder : MoldPacket.Config}
    {calls : WorkerCalls} {shutdownFd : Nat} (accepted : BuilderAccepted builder) :
    constructRetransmission P cfg builder calls shutdownFd = .ok () ↔
      WorkerReady P cfg calls shutdownFd := by
  unfold constructRetransmission WorkerReady openCall
  simp only [then_ok_iff, mapError_ok_iff, check_ok_iff, builder_ok_iff.mpr accepted, true_and]
  by_cases zero : shutdownFd = 0
  · simp [zero]
  · rw [if_neg zero, mapError_ok_iff, configureUnicast]
    simp only [then_ok_iff, check_ok_iff, parseAddress_ok_iff, ne_eq, zero, not_false_eq_true,
      true_and]

def Served (createThread : Nat → Call) (worker : Nat → Except Fault Unit) (left i : Nat) : Prop :=
  ∀ k < left, (∀ j ≤ k, createThread (i + j) = .ok ()) →
    worker (i + k) = .ok () ∧ (k + 1 < left → createThread (i + (k + 1)) = .ok ())

variable {createThread : Nat → Call} {worker : Nat → Except Fault Unit}

theorem served_first {errno : Nat} (worker : Nat → Except Fault Unit) (left i : Nat)
    (failed : createThread i = .error errno) :
    Served createThread worker left i := by
  intro k _ earlier
  have first := earlier 0 (Nat.zero_le k)
  rw [Nat.add_zero, failed] at first
  cases first

theorem served_succ {left i : Nat} (created : createThread i = .ok ()) :
    Served createThread worker (left + 1) i ↔
      worker i = .ok () ∧ (0 < left → createThread (i + 1) = .ok ()) ∧
        Served createThread worker left (i + 1) := by
  have shift : ∀ j, i + 1 + j = i + (j + 1) := fun j => by omega
  simp only [Served, shift]
  constructor
  · intro served
    have only : ∀ j ≤ 0, createThread (i + j) = .ok () := by
      intro j bound
      rw [Nat.le_zero.mp bound]
      exact created
    obtain ⟨first, next⟩ := served 0 (Nat.succ_pos left) only
    refine ⟨first, fun some => next (Nat.succ_lt_succ some), ?_⟩
    intro k bound earlier
    have all : ∀ j ≤ k + 1, createThread (i + j) = .ok () := by
      intro j upper
      cases j with
      | zero => exact created
      | succ j => exact earlier j (Nat.le_of_succ_le_succ upper)
    obtain ⟨serves, more⟩ := served (k + 1) (Nat.succ_lt_succ bound) all
    exact ⟨serves, fun upper => more (Nat.succ_lt_succ upper)⟩
  · rintro ⟨first, next, served⟩ k bound earlier
    cases k with
    | zero => exact ⟨first, fun upper => next (Nat.lt_of_succ_lt_succ upper)⟩
    | succ k =>
      obtain ⟨serves, more⟩ := served k (Nat.lt_of_succ_lt_succ bound)
        fun j upper => earlier (j + 1) (Nat.succ_le_succ upper)
      exact ⟨serves, fun upper => more (Nat.lt_of_succ_lt_succ upper)⟩

theorem startFeeds_first (P : Platform) (createThread : Nat → Call)
    (worker : Nat → Except Fault Unit) (left i : Nat) :
    (startFeeds P createThread worker left i).2 = .ok () ↔
      (0 < left → createThread i = .ok ()) ∧
        ((startFeeds P createThread worker left i).2 = .ok () ∨
          (startFeeds P createThread worker left i).1 = []) := by
  cases left with
  | zero => simp [startFeeds]
  | succ left =>
    unfold startFeeds
    cases created : createThread i <;> simp

theorem startFeeds_sound_iff (left i : Nat) :
    ((startFeeds P createThread worker left i).2 = .ok () ∨
        (startFeeds P createThread worker left i).1 = []) ∧
      (∀ w ∈ (startFeeds P createThread worker left i).1, w = .ok ()) ↔
    Served createThread worker left i := by
  induction left generalizing i with
  | zero => simp [startFeeds, Served]
  | succ left ih =>
    cases created : createThread i with
    | error errno =>
      have served := served_first worker (left + 1) i created
      simp [startFeeds, created, served]
    | ok _ =>
      have first := startFeeds_first P createThread worker left (i + 1)
      rw [served_succ created, ← ih (i + 1)]
      simp only [startFeeds, created, List.mem_cons, forall_eq_or_imp, reduceCtorEq, or_false]
      constructor
      · rintro ⟨ended, serves, others⟩
        obtain ⟨next, sound⟩ := first.mp ended
        exact ⟨serves, next, sound, others⟩
      · rintro ⟨serves, next, sound, others⟩
        exact ⟨first.mpr ⟨next, sound⟩, serves, others⟩

theorem failed_last {before : List (Except Fault Unit)} (built : ∀ r ∈ before, r = .ok ())
    (last : Except Fault Unit) (workers : List (Except Fault Unit)) :
    Construction.failed ⟨before ++ [last], workers⟩ =
      match last with | .error fault => some fault | .ok _ => none := by
  have quiet : before.findSome? (fun | .error fault => some fault | .ok _ => none) =
      (none : Option Fault) := by
    rw [List.findSome?_eq_none_iff]
    intro r member
    rw [built r member]
  unfold Construction.failed
  rw [List.findSome?_append, quiet]
  cases last <;> rfl

theorem constructed_iff {before : List (Except Fault Unit)} (built : ∀ r ∈ before, r = .ok ())
    (last : Except Fault Unit) (workers : List (Except Fault Unit)) :
    (∀ r ∈ (before ++ [last]) ++ workers, r = .ok ()) ↔
      last = .ok () ∧ ∀ w ∈ workers, w = .ok () := by
  constructor
  · intro whole
    exact ⟨whole last (by simp), fun w member => whole w (by simp [member])⟩
  · rintro ⟨final, serving⟩ r member
    simp only [List.mem_append, List.mem_singleton] at member
    rcases member with (member | rfl) | member
    · exact built r member
    · exact final
    · exact serving r member

theorem outcome_reports_iff {before : List (Except Fault Unit)} (built : ∀ r ∈ before, r = .ok ())
    (last : Except Fault Unit) (workers : List (Except Fault Unit)) :
    Reports ⟨before ++ [last], workers⟩ (Construction.outcome ⟨before ++ [last], workers⟩) ↔
      last ≠ .error .divisionByZero ∧ (last = .ok () ∨ workers = []) ∧
        ∀ w ∈ workers, w = .ok () := by
  have all := constructed_iff built last workers
  unfold Construction.outcome
  rw [failed_last built]
  rcases last with (exception | _) | _
  · constructor
    · intro reports
      refine ⟨by simp, ?_, reports.contained⟩
      obtain ⟨_, _, outcome⟩ := reports.unexpected ⟨.error (.thrown exception), by simp, by simp⟩
      by_contra started
      simp only [reduceCtorEq, false_or] at started
      simp [started] at outcome
    · rintro ⟨_, started, contained⟩
      have alone : workers = [] := by simpa using started
      subst alone
      refine ⟨fun whole => ?_, fun _ => ⟨exception, by simp, by simp⟩, contained, by simp⟩
      exact absurd (all.mp whole).1 (by simp)
  · constructor
    · intro reports
      exact absurd rfl reports.undivided
    · rintro ⟨undivided, _⟩
      exact absurd rfl undivided
  · constructor
    · intro reports
      exact ⟨by simp, Or.inl rfl, reports.contained⟩
    · rintro ⟨_, _, contained⟩
      refine ⟨fun _ => rfl, ?_, contained, by simp⟩
      rintro ⟨r, member, failed⟩
      exact absurd (all.mpr ⟨rfl, contained⟩ r member) failed

theorem thrown_reports (before : List (Except Fault Unit)) (built : ∀ r ∈ before, r = .ok ())
    (fault : Fault) :
    Reports ⟨before ++ [.error fault], []⟩ (Construction.outcome ⟨before ++ [.error fault], []⟩) ↔
      fault ≠ .divisionByZero := by
  rw [outcome_reports_iff built]
  simp

theorem unprepared_covered {cfg : Config} {calls : Calls} (unprepared : ¬ Prepared P cfg calls) :
    Covered P cfg calls :=
  ⟨fun prepared => absurd prepared unprepared, fun prepared => absurd prepared unprepared⟩

theorem pool_reports_iff {cfg : Config} (calls : Calls) (before : List (Except Fault Unit))
    (built : ∀ r ∈ before, r = .ok ()) (accepted : BuilderAccepted cfg.packetBuilderCfg) :
    Reports ⟨before ++ [(constructPool P cfg calls).2.mapError .thrown],
        (constructPool P cfg calls).1⟩
      (Construction.outcome ⟨before ++ [(constructPool P cfg calls).2.mapError .thrown],
        (constructPool P cfg calls).1⟩) ↔
    ∀ shutdownFd, calls.eventfd = .ok shutdownFd →
      cfg.numRetransmissionFeeds.toNat ≤ jthreadMaxSize →
      ∀ k < cfg.numRetransmissionFeeds.toNat, (∀ j ≤ k, calls.createThread j = .ok ()) →
        WorkerReady P cfg.retransmissionFeedConfig (calls.worker k) shutdownFd ∧
          (k + 1 < cfg.numRetransmissionFeeds.toNat → calls.createThread (k + 1) = .ok ()) := by
  have undivided : ∀ result : Except Exception Unit,
      result.mapError Fault.thrown ≠ .error .divisionByZero := by
    intro result
    cases result <;> simp [Except.mapError]
  rw [outcome_reports_iff built, mapError_ok_iff]
  simp only [undivided, ne_eq, not_false_eq_true, true_and]
  unfold constructPool openCall check
  cases calls.eventfd with
  | error errno => simp [Except.mapError]
  | ok shutdownFd =>
    simp only [Except.mapError, Except.ok.injEq, forall_eq']
    by_cases many : jthreadMaxSize < cfg.numRetransmissionFeeds.toNat
    · simp [many, Nat.not_le.mpr many]
    · rw [if_neg many, startFeeds_sound_iff]
      simp only [Served, Nat.zero_add, retransmission_ok_iff accepted, Nat.not_lt.mp many,
        true_implies]

/-- make_server keeps its promise exactly if no PacketBuilder gets to divide by zero, every
    thread that is started can construct its Feed, and no thread fails to start after
    another one has. -/
theorem make_server_reports_iff (P : Platform) (cfg : Config) (calls : Calls) :
    Reports (construct P cfg calls) (makeServer P cfg calls) ↔ Covered P cfg calls := by
  unfold makeServer construct
  cases file : constructFile P cfg.mappedItchFileCfg calls.file with
  | error exception =>
    have unprepared : ¬ Prepared P cfg calls := by
      rintro ⟨opens, _⟩
      rw [file_ok_iff.mpr opens] at file
      cases file
    have reports := (thrown_reports [] (by simp) (.thrown exception)).mpr (by simp)
    exact iff_of_true reports (unprepared_covered unprepared)
  | ok _ =>
    have opens := file_ok_iff.mp file
    cases buffer : constructBuffer cfg.retransmissionBufferSize with
    | error fault =>
      have unprepared : ¬ Prepared P cfg calls := by
        rintro ⟨_, sized, _⟩
        rw [buffer_ok_iff.mpr sized] at buffer
        cases buffer
      have undivided : fault ≠ .divisionByZero := by
        rintro rfl
        exact buffer_undivided buffer
      have reports := (thrown_reports [.ok ()] (by simp) fault).mpr undivided
      exact iff_of_true reports (unprepared_covered unprepared)
    | ok _ =>
      have sized := buffer_ok_iff.mp buffer
      cases downstream : constructDownstream P cfg.downstreamFeedConfig cfg.packetBuilderCfg
        calls.multicast with
      | error fault =>
        have reports := thrown_reports [.ok (), .ok ()] (by simp) fault
        refine reports.trans ?_
        constructor
        · intro undivided
          refine ⟨?_, ?_⟩
          · rintro ⟨_, _, ready⟩ divisible zero
            rw [downstream_divides_iff.mpr ⟨ready, divisible, zero⟩] at downstream
            exact undivided (Except.error.inj downstream).symm
          · rintro ⟨_, _, ready⟩ accepted
            rw [downstream_ok_iff.mpr ⟨ready, accepted⟩] at downstream
            cases downstream
        · rintro covered rfl
          obtain ⟨ready, divisible, zero⟩ := downstream_divides_iff.mp downstream
          exact covered.divides ⟨opens, sized, ready⟩ divisible zero
      | ok _ =>
        obtain ⟨ready, accepted⟩ := downstream_ok_iff.mp downstream
        have prepared : Prepared P cfg calls := ⟨opens, sized, ready⟩
        have reports := pool_reports_iff (P := P) calls [.ok (), .ok (), .ok ()] (by simp) accepted
        refine reports.trans ?_
        constructor
        · intro threads
          exact ⟨fun _ _ => accepted.2.1, fun _ _ => threads⟩
        · intro covered
          exact covered.threads prepared accepted

/-- Every call succeeds, and one retransmission address is not an address: the server is
    returned, and the exception leaves the thread that was to serve there. -/
theorem bad_address_escapes :
    let P : Platform := {
      functionName := fun _ => "Feed"
      message := fun _ => "Resource temporarily unavailable"
      filesystemWhat := fun _ path _ => path
      inetPton := fun address => if address = "badip" then .malformed else .parsed }
    let cfg : Config := {
      mappedItchFileCfg := { path := "FILE.NASDAQ_ITCH50" }
      packetBuilderCfg := { session := List.replicate 10 0x20 }
      downstreamFeedConfig := { mcastGroup := "239.0.0.1" }
      retransmissionBufferSize := 4
      retransmissionFeedConfig := { address := "badip" }
      numRetransmissionFeeds := 1 }
    let calls : Calls := {
      file := ⟨.ok true, .ok false, .ok (), .ok (), .ok (), .ok ()⟩
      multicast := ⟨.ok (), .ok (), .ok (), .ok (), .ok ()⟩
      eventfd := .ok 3
      createThread := fun _ => .ok ()
      worker := fun _ => ⟨.ok (), .ok (), .ok (), .ok (), .ok (), .ok (), .ok ()⟩ }
    makeServer P cfg calls = .returned (.ok ()) ∧
      (construct P cfg calls).workers = [.error (.thrown (invalidArgument
        "Feed Feed::Config::address invalid ip format"))] ∧
      ¬ Reports (construct P cfg calls) (makeServer P cfg calls) := by
  intro P cfg calls
  have escaped : (construct P cfg calls).workers = [.error (.thrown (invalidArgument
      "Feed Feed::Config::address invalid ip format"))] := by decide +kernel
  refine ⟨by decide +kernel, escaped, fun reports => ?_⟩
  have contained := reports.contained
  rw [escaped] at contained
  exact absurd (contained _ List.mem_cons_self) (by simp)

end MoldServer
