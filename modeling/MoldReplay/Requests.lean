import MoldReplay.Rerequest

/- Which datagrams a retransmission feed answers, and that an answer depends on nothing
   but the request, the file and the buffer. The feed only reads the buffer. -/
namespace MoldRequests
open FixedBytes MoldWire MoldFraming MoldPacket MoldBuffer MoldDownstream MoldLedger
open MoldGapFree MoldRerequest ScheduledRuns
open MoldRetransmission (SockAddr Ready request requestedSequence requestedCount readRun)

def Held (size pushed s : Nat) : Prop := max 1 (pushed + 1 - size) ≤ s ∧ s ≤ pushed

def numberOf (datagram : List UInt8) : Nat := natBE ((datagram.drop 10).take 8)

def pushedBy (f : Feed) : Nat := (pushedRecords f.log).length

structure Valid (S : Setup) (f : Feed) (datagram : List UInt8) : Prop where
  length : datagram.length = 20
  session : datagram.take 10 = S.config.session
  held : Held S.bufferSize.toNat (pushedBy f) (numberOf datagram)

structure Answered (S : Setup) (past : List Arrival) (f : Feed) (client : SockAddr)
    (datagram : List UInt8) : Prop where
  responds : (respond S past f.retransmissionBuffer client datagram).isSome = true ↔
    Valid S f datagram
  ignores : ¬ Valid S f datagram →
    respond S past f.retransmissionBuffer client datagram = none ∧
      ((served S past).handleRequest S.file.bytes f.retransmissionBuffer client
        datagram).1.packetBuilder = (served S past).packetBuilder

structure Dispatch (n : Nat) where
  feed : Fin n
  client : SockAddr
  datagram : List UInt8

structure Pool (n : Nat) where
  feeds : Fin n → MoldRetransmission.Feed
  responses : List (SockAddr × Packet)

def Pool.take {n : Nat} (bytes : List UInt8) (buffer : RetransmissionBuffer) (pool : Pool n)
    (d : Dispatch n) : Pool n :=
  match (pool.feeds d.feed).handleRequest bytes buffer d.client d.datagram with
  | (feed, response) =>
    { feeds := fun k => if k = d.feed then feed else pool.feeds k
      responses := pool.responses ++ response.toList }

/-- What a pool whose feeds have these pasts responds to requests against one buffer. -/
def poolResponses {n : Nat} (S : Setup) (pasts : Fin n → List Arrival)
    (buffer : RetransmissionBuffer) (requests : List (Dispatch n)) : List (SockAddr × Packet) :=
  (run (Pool.take S.file.bytes buffer) ⟨fun k => served S (pasts k), []⟩ requests).responses

def Dispatch.request {n : Nat} (d : Dispatch n) : SockAddr × List UInt8 := (d.client, d.datagram)

variable {S : Setup} {f : Feed} {datagram : List UInt8}

theorem requested_number (long : 20 ≤ datagram.length) :
    (requestedSequence datagram).toNat = numberOf datagram := by
  have inside : 10 + 8 ≤ (datagram.take headerLength).length := by
    simp only [List.length_take, headerLength, sessionSize, sequenceNumberSize, messageCountSize]
    omega
  have field : ((datagram.take headerLength).drop 10).take 8 = (datagram.drop 10).take 8 := by
    rw [List.drop_take, List.take_take]
    rfl
  have eight : ((datagram.drop 10).take 8).length = 8 := by
    simp only [List.length_take, List.length_drop]
    omega
  have bound := natBE_lt ((datagram.drop 10).take 8)
  rw [eight] at bound
  unfold requestedSequence numberOf
  rw [readAtBe_eq native inside, field]
  exact UInt64.toNat_ofNat_of_lt' bound

theorem pushed_bound {t : Thread} (follows : Follows S t) :
    pushedBy t.feed + S.bufferSize.toNat < 2 ^ 64 := by
  have tracks := follows.tracks
  have span := tracks.span
  have inside := tracks.inside
  have small := S.file.small
  have fits := (construct_size S.sized).2
  unfold pushedBy
  rw [pushed_count tracks]
  simp only [MappedFile.size, recordMaxSize] at inside fits
  omega

theorem run_found_iff (S : Setup) (inputs : List Inputs) (s : SequenceNumber) :
    ((S.runThread inputs).feed.retransmissionBuffer.filePositionFor s).isSome = true ↔
      Held S.bufferSize.toNat (pushedBy (S.runThread inputs).feed) s.toNat ∨
        (s.toNat = 0 ∧ 1 ≤ pushedBy (S.runThread inputs).feed ∧
          pushedBy (S.runThread inputs).feed < S.bufferSize.toNat) := by
  have tracks := (run_follows S inputs).tracks
  have bound := pushed_bound (run_follows S inputs)
  have zero : s = 0 ↔ s.toNat = 0 := UInt64.toNat_inj.symm
  unfold pushedBy at bound ⊢
  rw [pushed_count tracks, ← positions_length] at bound ⊢
  rw [found_iff (buffer_pushed tracks) bound s, zero]
  rfl

theorem responds_iff (S : Setup) (past : List Arrival) (buffer : RetransmissionBuffer)
    (client : SockAddr) (datagram : List UInt8) :
    (respond S past buffer client datagram).isSome = true ↔
      20 ≤ datagram.length ∧ datagram.take 10 = S.config.session ∧
        (buffer.filePositionFor (requestedSequence datagram)).isSome = true := by
  unfold respond
  rw [MoldRetransmission.handleRequest_any S.file.bytes (served_ready S past), ← and_assoc]
  split
  · rename_i named
    rw [Option.isSome_map]
    exact (and_iff_right named).symm
  · rename_i unnamed
    simp [unnamed]

theorem taken_keeps_builder (g : MoldRetransmission.Feed) (buffer : RetransmissionBuffer)
    (client : SockAddr) (datagram : List UInt8) :
    (g.takeRequest buffer client datagram).1.packetBuilder = g.packetBuilder := by
  simp only [MoldRetransmission.Feed.takeRequest]
  split <;> rfl

theorem refused_keeps_builder (g : MoldRetransmission.Feed) (bytes : List UInt8)
    (buffer : RetransmissionBuffer) (client : SockAddr) (datagram : List UInt8)
    (refused : (g.handleRequest bytes buffer client datagram).2 = none) :
    (g.handleRequest bytes buffer client datagram).1.packetBuilder = g.packetBuilder := by
  have taken := taken_keeps_builder g buffer client datagram
  unfold MoldRetransmission.Feed.handleRequest at refused ⊢
  generalize g.takeRequest buffer client datagram = result at taken refused ⊢
  obtain ⟨h, _ | ctx⟩ := result
  · exact taken
  · cases refused

/-- The feed answers what it should and nothing else, unless a datagram that is too long
    starts with a valid request, or asks for number 0 while its slot is still unwritten. -/
theorem valid_requests_answered_iff (S : Setup) (inputs : List Inputs) (past : List Arrival)
    (client : SockAddr) (datagram : List UInt8) :
    Answered S past (S.runThread inputs).feed client datagram ↔
      (20 ≤ datagram.length → datagram.take 10 = S.config.session →
        (Held S.bufferSize.toNat (pushedBy (S.runThread inputs).feed) (numberOf datagram) →
          datagram.length = 20) ∧
        ¬ (numberOf datagram = 0 ∧ 1 ≤ pushedBy (S.runThread inputs).feed ∧
          pushedBy (S.runThread inputs).feed < S.bufferSize.toNat)) := by
  have responds := responds_iff S past (S.runThread inputs).feed.retransmissionBuffer client datagram
  rw [run_found_iff] at responds
  constructor
  · intro answered long named
    have exactly := responds.symm.trans answered.responds
    rw [requested_number long] at exactly
    constructor
    · intro held
      exact (exactly.mp ⟨long, named, Or.inl held⟩).length
    · intro zero
      have held := (exactly.mp ⟨long, named, Or.inr zero⟩).held
      unfold Held at held
      omega
  · intro allowed
    have exactly : (respond S past (S.runThread inputs).feed.retransmissionBuffer client
        datagram).isSome = true ↔ Valid S (S.runThread inputs).feed datagram := by
      rw [responds]
      constructor
      · rintro ⟨long, named, found⟩
        rw [requested_number long] at found
        obtain ⟨whole, numbered⟩ := allowed long named
        have held := found.resolve_right numbered
        exact ⟨whole held, named, held⟩
      · intro valid
        have long : 20 ≤ datagram.length := Nat.le_of_eq valid.length.symm
        rw [requested_number long]
        exact ⟨long, valid.session, Or.inl valid.held⟩
    refine ⟨exactly, fun invalid => ?_⟩
    have refused : respond S past (S.runThread inputs).feed.retransmissionBuffer client datagram =
        none := by
      rw [← exactly, Bool.not_eq_true, Option.isSome_eq_false_iff] at invalid
      exact Option.isNone_iff_eq_none.mp invalid
    exact ⟨refused, refused_keeps_builder _ _ _ _ _ refused⟩

/-- A valid request with one more byte behind it gets its response. -/
theorem long_datagram_answered : ∃ S datagram,
    Setup.make ⟨frame (List.replicate 12 1), fun _ => 0, by decide⟩ ⟨0⟩
      { session := List.replicate 10 0x20 } 4 = .ok S ∧
    datagram = request S.config.session 1 1 ++ [0] ∧
    ¬ Answered S [] (S.runThread (List.replicate 7 undisturbed)).feed ⟨0, 0⟩ datagram := by
  refine ⟨_, _, rfl, rfl, fun answered => ?_⟩
  have valid := answered.responds.mp (by decide +kernel)
  exact absurd valid.length (by decide)

theorem ready_alike {g g' : MoldRetransmission.Feed} (ready : Ready S.config g)
    (ready' : Ready S.config g') (buffer : RetransmissionBuffer) (client : SockAddr)
    (datagram : List UInt8) :
    (g.handleRequest S.file.bytes buffer client datagram).2 =
      (g'.handleRequest S.file.bytes buffer client datagram).2 := by
  rw [MoldRetransmission.handleRequest_any S.file.bytes ready,
    MoldRetransmission.handleRequest_any S.file.bytes ready']

theorem pool_responds {n : Nat} (S : Setup) (buffer : RetransmissionBuffer)
    (requests : List (Dispatch n)) {pool : Pool n}
    (ready : ∀ k, Ready S.config (pool.feeds k)) :
    (run (Pool.take S.file.bytes buffer) pool requests).responses =
      pool.responses ++ requests.filterMap fun d => respond S [] buffer d.client d.datagram := by
  induction requests generalizing pool with
  | nil => simp [run]
  | cons d rest ih =>
    have response : ((pool.feeds d.feed).handleRequest S.file.bytes buffer d.client d.datagram).2 =
        respond S [] buffer d.client d.datagram :=
      ready_alike (ready d.feed) (served_ready S []) buffer d.client d.datagram
    have kept : ∀ k, Ready S.config ((pool.take S.file.bytes buffer d).feeds k) := by
      intro k
      simp only [Pool.take]
      split
      · exact MoldRetransmission.handleRequest_ready S.file.bytes (ready d.feed) buffer d.client
          d.datagram
      · exact ready k
    have sent : (pool.take S.file.bytes buffer d).responses =
        pool.responses ++ (respond S [] buffer d.client d.datagram).toList := by
      rw [← response]
      rfl
    change (run (Pool.take S.file.bytes buffer) (pool.take S.file.bytes buffer d) rest).responses = _
    rw [ih kept, sent, List.append_assoc, List.filterMap_cons]
    cases respond S [] buffer d.client d.datagram <;> rfl

/-- A response depends on the request, the file and the buffer alone; so it does not matter
    in which order requests come, nor which feeds of how large a pool take them. -/
theorem responses_independent (S : Setup) :
    (∀ fresh, MoldRetransmission.construct S.config = .ok fresh →
      ∀ past buffer client datagram, respond S past buffer client datagram =
        (fresh.handleRequest S.file.bytes buffer client datagram).2) ∧
    ∀ (buffer : RetransmissionBuffer) (n n' : Nat) (pasts : Fin n → List Arrival)
      (pasts' : Fin n' → List Arrival) (requests : List (Dispatch n))
      (requests' : List (Dispatch n')),
      (requests.map Dispatch.request).Perm (requests'.map Dispatch.request) →
      (poolResponses S pasts buffer requests).Perm (poolResponses S pasts' buffer requests') := by
  refine ⟨fun fresh built past => ready_alike (served_ready S past)
    (MoldRetransmission.construct_ready built), ?_⟩
  intro buffer n n' pasts pasts' requests requests' same
  have collected : ∀ {k : Nat} (pasts : Fin k → List Arrival) (requests : List (Dispatch k)),
      poolResponses S pasts buffer requests =
        (requests.map Dispatch.request).filterMap fun r => respond S [] buffer r.1 r.2 := by
    intro k pasts requests
    rw [poolResponses, pool_responds S buffer requests fun k => served_ready S (pasts k),
      List.nil_append, List.filterMap_map]
    rfl
  rw [collected, collected]
  exact same.filterMap _

end MoldRequests
