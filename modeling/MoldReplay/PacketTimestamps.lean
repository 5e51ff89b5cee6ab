import MoldReplay.GapFree
import Mathlib.Data.List.Forall2

/- The timestamp that a packet is delayed with, against the packet. -/
namespace MoldTimestamps
open FixedBytes MoldFraming MoldPacket MoldDownstream MoldLedger MoldGapFree
open NumberedStream ScheduledRuns

def FirstAt (S : Setup) (es : List Entry) (timestamp : Nat) : Prop :=
  ∀ e ∈ es.head?, peekTimestamp S.file e.position = some timestamp

def peekedTimestamp : Phase → List Nat
  | .building timestamp | .pacing timestamp => [timestamp]
  | _ => []

def timestamps (t : Thread) : List Nat :=
  delayedTimestamps t.feed.log ++ peekedTimestamp t.phase

def packetsStarted (S : Setup) (t : Thread) : List (List Entry) :=
  (ledger S t.feed.log).packets ++
    if t.phase.between then [] else [(ledger S t.feed.log).current]

structure Dated (S : Setup) (t : Thread) : Prop where
  dated : List.Forall₂ (FirstAt S) (packetsStarted S t) (timestamps t)
  -- no message has been read since the timestamp was
  peeked : ∀ timestamp, t.phase = .building timestamp → (ledger S t.feed.log).current = [] →
    peekTimestamp S.file t.feed.filePos = some timestamp

variable {S : Setup} {f : Feed} {t t' : Thread}

theorem forall₂_snoc {α β : Type*} {R : α → β → Prop} {as : List α} {bs : List β} {a : α} {b : β} :
    List.Forall₂ R (as ++ [a]) (bs ++ [b]) ↔ List.Forall₂ R as bs ∧ R a b := by
  constructor
  · intro all
    have same := all.length_eq
    simp only [List.length_append, List.length_singleton, Nat.add_right_cancel_iff] at same
    have first := List.forall₂_take as.length all
    have last := List.forall₂_drop as.length all
    rw [List.take_left' rfl, List.take_left' same.symm] at first
    rw [List.drop_left' rfl, List.drop_left' same.symm] at last
    exact ⟨first, (List.forall₂_cons.mp last).1⟩
  · rintro ⟨first, last⟩
    exact List.rel_append first (.cons last .nil)

theorem dated_kept (h : Dated S t) (packets : packetsStarted S t' = packetsStarted S t)
    (same : timestamps t' = timestamps t) (built : ∀ timestamp, t'.phase ≠ .building timestamp) :
    Dated S t' where
  dated := by
    rw [packets, same]
    exact h.dated
  peeked timestamp building := absurd building (built timestamp)

theorem between_packets {p : Phase} (between : p.between = true) :
    packetsStarted S ⟨f, p⟩ = (ledger S f.log).packets := by
  simp [packetsStarted, between]

theorem between_timestamps {p : Phase} (between : p.between = true) :
    timestamps ⟨f, p⟩ = delayedTimestamps f.log := by
  cases p <;> first | exact List.append_nil _ | cases between

theorem head_dated (follows : Follows S ⟨f, .replaying⟩) (h : Dated S ⟨f, .replaying⟩)
    {timestamp : Nat} (peeked : peekTimestamp S.file f.filePos = some timestamp) :
    Dated S ⟨f.startPacket, .building timestamp⟩ := by
  have closed : (ledger S f.log).current = [] := follows.phase.1
  have dated := h.dated
  rw [between_packets rfl, between_timestamps rfl] at dated
  refine ⟨?_, ?_⟩
  · change List.Forall₂ (FirstAt S) ((ledger S f.log).packets ++ [(ledger S f.log).current])
      (delayedTimestamps f.log ++ [timestamp])
    rw [forall₂_snoc, closed]
    exact ⟨dated, fun e first => by cases first⟩
  · intro _ building _
    cases building
    exact peeked

theorem add_dated (h : Dated S ⟨f, .building timestamp⟩) (builder : PacketBuilder) (next : Nat) :
    Dated S ⟨f.accept builder next, .building timestamp⟩ := by
  have dated : List.Forall₂ (FirstAt S) ((ledger S f.log).packets ++ [(ledger S f.log).current])
    (delayedTimestamps f.log ++ [timestamp]) := h.dated
  obtain ⟨before, opened⟩ := forall₂_snoc.mp dated
  have delayed : delayedTimestamps (f.accept builder next).log = delayedTimestamps f.log := by
    simp [delayedTimestamps, Feed.accept, Feed.emit]
  refine ⟨?_, ?_⟩
  · change List.Forall₂ (FirstAt S) ((ledger S (f.accept builder next).log).packets ++
      [(ledger S (f.accept builder next).log).current])
      (delayedTimestamps (f.accept builder next).log ++ [timestamp])
    rw [delayed, ledger_accept, forall₂_snoc]
    refine ⟨before, ?_⟩
    intro e first
    rcases empty : (ledger S f.log).current with _ | ⟨e', rest⟩
    · rw [Ledger.add, empty, List.nil_append, List.head?_cons, Option.mem_some] at first
      rw [← first]
      exact h.peeked timestamp rfl empty
    · rw [Ledger.add, empty, List.cons_append, List.head?_cons, Option.mem_some] at first
      rw [← first]
      exact opened e' (by rw [empty]; rfl)
  · intro _ _ closed
    rw [ledger_accept] at closed
    simp [Ledger.add] at closed

theorem between_dated (h : Dated S t) {p' : Phase} {g : Feed} (before : t.phase.between = true)
    (after : p'.between = true) (packets : (ledger S g.log).packets = (ledger S t.feed.log).packets)
    (delayed : delayedTimestamps g.log = delayedTimestamps t.feed.log) : Dated S ⟨g, p'⟩ := by
  obtain ⟨f, p⟩ := t
  refine dated_kept h ?_ ?_ ?_
  · rw [between_packets before, between_packets after]
    exact packets
  · rw [between_timestamps before, between_timestamps after]
    exact delayed
  · intro timestamp building
    change p' = .building timestamp at building
    rw [building] at after
    cases after

theorem replaying_dated (follows : Follows S ⟨f, .replaying⟩) (h : Dated S ⟨f, .replaying⟩)
    (inputs : Inputs) : Dated S (Thread.step S ⟨f, .replaying⟩ inputs) := by
  simp only [Thread.step]
  cases inputs.stopRequested with
  | true =>
    rw [atHead_stopped]
    exact between_dated h rfl rfl rfl rfl
  | false =>
    have choice := atHead_choice S f
    generalize f.atHead S false = head at choice ⊢
    cases choice with
    | short peeked => exact between_dated h rfl rfl rfl rfl
    | skipFails skipped incomplete => exact between_dated h rfl rfl rfl rfl
    | skip skipped complete =>
      refine between_dated h rfl rfl ?_ ?_
      · rw [ledger_emit]
        rfl
      · simp [delayedTimestamps, Feed.emit]
    | build peeked keeps => exact head_dated follows h peeked

theorem building_dated {timestamp : Nat} (h : Dated S ⟨f, .building timestamp⟩) (inputs : Inputs) :
    Dated S (Thread.step S ⟨f, .building timestamp⟩ inputs) := by
  simp only [Thread.step]
  have addition := addMessage_addition S f
  generalize f.addMessage S = result at addition ⊢
  cases addition with
  | closes => exact dated_kept h rfl rfl (by simp)
  | unreadable inside incomplete => exact dated_kept h rfl rfl (by simp)
  | adds complete fits => exact add_dated h _ _

theorem step_dated (follows : Follows S t) (h : Dated S t) (inputs : Inputs) :
    Dated S (t.step S inputs) := by
  obtain ⟨f, phase⟩ := t
  cases phase with
  | replaying => exact replaying_dated follows h inputs
  | building timestamp => exact building_dated h inputs
  | pacing timestamp =>
    refine dated_kept h ?_ ?_ (by simp [Thread.step])
    · change (ledger S (f.pace timestamp).log).packets ++
        [(ledger S (f.pace timestamp).log).current] = _
      rw [ledger_pace]
      rfl
    · simp [timestamps, Thread.step, peekedTimestamp, delayedTimestamps, Feed.pace, Feed.emit]
  | publishing => exact dated_kept h rfl rfl (by simp [Thread.step])
  | sending =>
    refine dated_kept h ?_ ?_ (by simp [Thread.step])
    · change (ledger S f.transmit.log).packets ++ [] = _
      rw [ledger_transmit, List.append_nil]
      rfl
    · simp [timestamps, Thread.step, peekedTimestamp, delayedTimestamps, Feed.transmit, Feed.emit]
  | ending =>
    simp only [Thread.step]
    split
    · refine between_dated h rfl rfl ?_ ?_
      · rw [ledger_emit]
        rfl
      · simp [delayedTimestamps, Feed.emit]
    · exact between_dated h rfl rfl rfl rfl
  | finished => exact h
  | _ => exact between_dated h rfl rfl rfl rfl

theorem initial_dated (S : Setup) : Dated S S.thread :=
  ⟨.nil, fun _ building => by cases building⟩

/-- A packet, and what it was delayed with: as far as its first message has room for one, the
    timestamp of that message. -/
def DatedBy (p : Packet) (timestamp : Nat) : Prop :=
  ∀ message ∈ p.messages.head?, 13 ≤ message.length → timestamp = timestampOf message

theorem entries_stamped {es : List Entry} {timestamp n : Nat} (reads : ∀ e ∈ es, Reads S e)
    (first : FirstAt S es timestamp) :
    DatedBy (numberedPacket S.config.session (n, es)) timestamp := by
  intro message member long
  cases es with
  | nil => cases member
  | cons e rest =>
    have head : (numberedPacket S.config.session (n, e :: rest)).messages.head? =
        some e.message := rfl
    rw [head, Option.mem_some] at member
    obtain ⟨complete, content⟩ := reads e List.mem_cons_self
    rw [← member, content] at long ⊢
    have peeked := first e rfl
    rw [peekTimestamp_message complete long] at peeked
    exact (Option.some.inj peeked).symm

theorem packets_stamped {packets : List (List Entry)} {timestamps : List Nat}
    (reads : ∀ es ∈ packets, ∀ e ∈ es, Reads S e)
    (dated : List.Forall₂ (FirstAt S) packets timestamps) (n : Nat) :
    List.Forall₂ DatedBy ((numbered n packets).map (numberedPacket S.config.session))
      timestamps := by
  induction dated generalizing n with
  | nil => exact .nil
  | @cons es timestamp packets timestamps first rest ih =>
    exact .cons (entries_stamped (reads es List.mem_cons_self) first)
      (ih (fun es' later => reads es' (List.mem_cons_of_mem _ later)) _)

theorem sent_count (follows : Follows S t) :
    (sentPackets t.feed.log).length = (ledger S t.feed.log).packets.length := by
  rw [follows.tracks.sent, render, List.length_map, numbered_length]

def awaited : Phase → Nat
  | .publishing | .sending => 1
  | _ => 0

theorem delays_count (follows : Follows S t) (h : Dated S t) :
    (delayedTimestamps t.feed.log).length = (sentPackets t.feed.log).length + awaited t.phase := by
  have total := h.dated.length_eq
  obtain ⟨f, phase⟩ := t
  have count : (sentPackets f.log).length = (ledger S f.log).packets.length := sent_count follows
  simp only [packetsStarted, timestamps, List.length_append] at total
  change (delayedTimestamps f.log).length = (sentPackets f.log).length + awaited phase
  cases phase <;> simp [peekedTimestamp, Phase.between] at total <;> simp [awaited] <;> omega

theorem delays_stamped (follows : Follows S t) (h : Dated S t) :
    List.Forall₂ DatedBy (sentPackets t.feed.log)
      ((delayedTimestamps t.feed.log).take (sentPackets t.feed.log).length) := by
  have enough : (sentPackets t.feed.log).length ≤ (delayedTimestamps t.feed.log).length := by
    rw [delays_count follows h]
    exact Nat.le_add_right _ _
  have dated := List.forall₂_take (ledger S t.feed.log).packets.length h.dated
  rw [packetsStarted, timestamps, List.take_left' rfl, ← sent_count follows,
    List.take_append_of_le_length enough] at dated
  have stamped := packets_stamped (fun es => packet_reads follows.tracks) dated 1
  rw [← render, ← follows.tracks.sent] at stamped
  exact stamped

end MoldTimestamps
