import MoldReplay.Rerequest

/- The downstream thread beside any number of retransmission workers, in any order of
   steps. A worker looks a request up in one step and answers it in a later one. Every
   answer is kept with the data packets that had gone out before it. -/
namespace MoldDisclosure
open FixedBytes MoldWire MoldFraming MoldPacket MoldBuffer MoldDownstream MoldLedger
open MoldGapFree MoldRerequest NumberedStream ScheduledRuns
open MoldRetransmission (SockAddr RequestContext request readRun Fits)

structure Answer where
  response : Packet
  sentBefore : List Packet

structure Worker where
  feed : MoldRetransmission.Feed
  pending : Option RequestContext

structure World where
  thread : Thread
  workers : Nat → Worker
  answers : List Answer

inductive Action where
  | downstream (inputs : Inputs)
  | receive (k : Nat) (client : SockAddr) (datagram : List UInt8)
  | answer (k : Nat)

def initial (S : Setup) : World :=
  ⟨S.thread, fun _ => ⟨served S [], none⟩, []⟩

def World.setWorker (w : World) (k : Nat) (worker : Worker) : World :=
  { w with workers := fun i => if i = k then worker else w.workers i }

def step (S : Setup) (w : World) : Action → World
  | .downstream inputs => { w with thread := w.thread.step S inputs }
  | .receive k client datagram =>
    match (w.workers k).pending with
    | some _ => w
    | none =>
      match (w.workers k).feed.takeRequest w.thread.feed.retransmissionBuffer client datagram with
      | (feed, pending) => w.setWorker k ⟨feed, pending⟩
  | .answer k =>
    match (w.workers k).pending with
    | none => w
    | some ctx =>
      match (w.workers k).feed.answer S.file.bytes ctx with
      | (feed, response) =>
        { w.setWorker k ⟨feed, none⟩ with
          answers := w.answers ++ [⟨response, sentPackets w.thread.feed.log⟩] }

/-- The number was in a data packet that had gone out before the answer. -/
def Answer.Sent (a : Answer) (q : Nat) : Prop :=
  ∃ p ∈ a.sentBefore, p.sequenceNumber ≤ q ∧ q < p.sequenceNumber + p.messages.length

/-- No answer so far carries a message before the multicast feed has sent it. -/
def NothingEarly (w : World) : Prop :=
  ∀ a ∈ w.answers, ∀ i < a.response.messages.length, a.Sent (a.response.sequenceNumber + i)

def sentFrom (log : List Event) (s : Nat) : Nat := if s = 0 then 0 else messagesSent log + 1 - s

/-- A request that is answered asks for no more than has been sent, or the file does not
    hold more that fits. -/
def Covered (S : Setup) (w : World) : Action → Prop
  | .answer k => ∀ ctx, (w.workers k).pending = some ctx →
      ctx.msgCount.toNat ≤ sentFrom w.thread.feed.log ctx.startingSequence.toNat ∨
      ¬ Fits S.file.bytes (sentFrom w.thread.feed.log ctx.startingSequence.toNat + 1)
        ctx.filePosition S.config.capacity
  | _ => True

structure Sound (S : Setup) (w : World) : Prop where
  follows : Follows S w.thread
  ready : ∀ k, MoldRetransmission.Ready S.config (w.workers k).feed

variable {S : Setup} {f : Feed} {w : World}

theorem sent_iff {L : Ledger Entry} (h : Tracks S f L) (response : Packet) (q : Nat) :
    (⟨response, sentPackets f.log⟩ : Answer).Sent q ↔ 1 ≤ q ∧ q ≤ messagesSent f.log := by
  have covers := numbered_covers 1 q L.packets
  rw [rendered_total h]
  change _ ↔ 1 ≤ q ∧ q ≤ L.packets.flatten.length
  rw [show q ≤ L.packets.flatten.length ↔ q < 1 + L.packets.flatten.length by omega, ← covers]
  simp only [Answer.Sent, h.sent, render, List.mem_map]
  have fields : ∀ p ∈ numbered 1 L.packets,
      (numberedPacket S.config.session p).sequenceNumber = p.1 ∧
        (numberedPacket S.config.session p).messages.length = p.2.length := by
    intro p member
    have bound := number_bound h member
    exact ⟨packet_number (by omega), by simp [numberedPacket]⟩
  constructor
  · rintro ⟨_, ⟨p, member, rfl⟩, inside⟩
    rw [(fields p member).1, (fields p member).2] at inside
    exact ⟨p, member, inside⟩
  · rintro ⟨p, member, inside⟩
    rw [← (fields p member).1, ← (fields p member).2] at inside
    exact ⟨_, ⟨p, member, rfl⟩, inside⟩

theorem setWorker_ready (ready : ∀ k, MoldRetransmission.Ready S.config (w.workers k).feed)
    (k : Nat) {worker : Worker} (fresh : MoldRetransmission.Ready S.config worker.feed) :
    ∀ i, MoldRetransmission.Ready S.config ((w.setWorker k worker).workers i).feed := by
  intro i
  simp only [World.setWorker]
  split
  · exact fresh
  · exact ready i

theorem initial_sound (S : Setup) : Sound S (initial S) :=
  ⟨initial_follows S, fun _ => served_ready S []⟩

theorem step_sound (w : World) (a : Action) (h : Sound S w) : Sound S (step S w a) := by
  cases a with
  | downstream inputs => exact ⟨move_follows h.follows (step_moves w.thread inputs), h.ready⟩
  | receive k client datagram =>
    have taken := MoldRetransmission.takeRequest_ready (h.ready k)
      w.thread.feed.retransmissionBuffer client datagram
    simp only [step]
    split
    · exact h
    · exact ⟨h.follows, setWorker_ready h.ready k taken⟩
  | answer k =>
    simp only [step]
    split
    · exact h
    · rename_i ctx _
      have answered := MoldRetransmission.answer_ready S.file.bytes (h.ready k) ctx
      exact ⟨h.follows, setWorker_ready h.ready k answered⟩

theorem answer_early_iff (h : Sound S w) (k : Nat) (ctx : RequestContext) :
    (∀ i < (((w.workers k).feed.answer S.file.bytes ctx).2).messages.length,
      (⟨((w.workers k).feed.answer S.file.bytes ctx).2, sentPackets w.thread.feed.log⟩ : Answer).Sent
        ((((w.workers k).feed.answer S.file.bytes ctx).2).sequenceNumber + i)) ↔
    (ctx.msgCount.toNat ≤ sentFrom w.thread.feed.log ctx.startingSequence.toNat ∨
      ¬ Fits S.file.bytes (sentFrom w.thread.feed.log ctx.startingSequence.toNat + 1)
        ctx.filePosition S.config.capacity) := by
  have number := dataPacket_sequenceNumber (accepted S).session ctx.startingSequence.toNat_lt
  have reaches := MoldRetransmission.readRun_reaches S.file.bytes
    (sentFrom w.thread.feed.log ctx.startingSequence.toNat + 1) ctx.msgCount.toNat
    ctx.filePosition S.config.capacity
  rw [MoldRetransmission.answer_packet S.file.bytes (h.ready k) ctx, number, dataPacket_messages]
  simp only [sent_iff h.follows.tracks]
  generalize (readRun S.file.bytes ctx.msgCount.toNat ctx.filePosition
    S.config.capacity).length = carried at *
  have limit : (ctx.msgCount.toNat ≤ sentFrom w.thread.feed.log ctx.startingSequence.toNat ∨
      ¬ Fits S.file.bytes (sentFrom w.thread.feed.log ctx.startingSequence.toNat + 1)
        ctx.filePosition S.config.capacity) ↔
      carried ≤ sentFrom w.thread.feed.log ctx.startingSequence.toNat := by
    rw [← not_iff_not, not_or, not_not, not_le, not_le]
    exact reaches.symm
  rw [limit, sentFrom]
  constructor
  · intro sent
    by_contra more
    have first := sent 0 (by split at more <;> omega)
    have last := sent (carried - 1) (by split at more <;> omega)
    split at more <;> omega
  · intro within i inside
    split at within <;> omega

theorem step_early_iff (w : World) (a : Action) (h : Sound S w) :
    NothingEarly (step S w a) ↔ NothingEarly w ∧ Covered S w a := by
  cases a with
  | downstream inputs => simp [step, NothingEarly, Covered]
  | receive k client datagram =>
    have same : NothingEarly (step S w (.receive k client datagram)) ↔ NothingEarly w := by
      simp only [step]
      split <;> rfl
    simp [same, Covered]
  | answer k =>
    cases pending : (w.workers k).pending with
    | none => simp [step, pending, Covered]
    | some ctx =>
      have early := answer_early_iff h k ctx
      simp only [step, pending, NothingEarly, Covered, List.mem_append, List.mem_singleton]
      constructor
      · intro all
        refine ⟨fun a member => all a (Or.inl member), ?_⟩
        intro ctx' same
        cases same
        exact early.mp (all _ (Or.inr rfl))
      · rintro ⟨old, covered⟩ a (member | rfl)
        · exact old a member
        · exact early.mpr (covered ctx rfl)

/-- A run discloses nothing early exactly if every request it answers is covered by what
    has been sent by then. -/
theorem nothing_early_iff (S : Setup) (actions : List Action) :
    NothingEarly (run (step S) (initial S) actions) ↔
      Throughout (step S) (Covered S) (initial S) actions := by
  rw [run_exactly step_sound step_early_iff actions (initial_sound S)]
  simp [NothingEarly, initial]

/-- A message asked for while the thread paces, between its push and its packet. -/
theorem paced_message_disclosed : ∃ S,
    Setup.make ⟨frame (List.replicate 12 1), fun _ => 0, by decide⟩ ⟨0⟩
      { session := List.replicate 10 0x20 } 4 = .ok S ∧
    ¬ NothingEarly (run (step S) (initial S)
      [.downstream undisturbed, .downstream undisturbed, .downstream undisturbed,
        .downstream undisturbed, .receive 0 ⟨0, 0⟩ (request S.config.session 1 1),
        .answer 0]) := by
  refine ⟨_, rfl, fun nothing => ?_⟩
  obtain ⟨p, member, _⟩ := nothing ⟨dataPacket (List.replicate 10 0x20) 1
    [frame (List.replicate 12 1)], []⟩ (List.mem_singleton.mpr rfl) 0 (by decide)
  cases member

end MoldDisclosure
