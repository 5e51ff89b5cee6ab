import MoldReplay.GapFree

/- What the thread of downstream::Feed::start still does once it has been told to stop. The
   request may come behind the check of a step that is under way, so that this one step goes
   on as if there were none. -/
namespace MoldStopping
open FixedBytes MoldFraming MoldPacket MoldDownstream MoldLedger MoldGapFree ScheduledRuns

/- How many steps a stopped thread takes at most, and how many data packets it still hands
   to sendmsg: the one that is not sent yet, if there is one. -/
def stepsLeft (t : Thread) : Nat :=
  match t.phase with
  | .building _ => t.feed.packetBuilder.bytesRemaining + 8
  | .pacing _ => 7
  | .publishing => 6
  | .sending => 5
  | .starting => 5
  | .replaying => 4
  | .stopping => 3
  | .joining => 2
  | .ending => 1
  | .finished => 0

def packetsLeft (t : Thread) : Nat := if t.phase.between then 0 else 1

variable {S : Setup} {t : Thread} {i : Inputs}

theorem tryAdd_room {b builder : PacketBuilder} {m : List UInt8}
    (added : b.tryAdd m = (true, builder)) :
    builder.bytesRemaining + m.length = b.bytesRemaining ∧ m ≠ [] := by
  simp only [PacketBuilder.tryAdd] at added
  split at added
  · exact absurd (Prod.mk.inj added).1 (by decide)
  · rename_i fits
    simp only [gt_iff_lt, Bool.or_eq_true, decide_eq_true_eq, List.isEmpty_iff, not_or,
      Nat.not_lt] at fits
    rw [← (Prod.mk.inj added).2]
    exact ⟨Nat.sub_add_cancel fits.1, fits.2⟩

theorem stopped_step_lowers (stop : i.stopRequested = true) (unfinished : t.phase ≠ .finished) :
    stepsLeft (t.step S i) < stepsLeft t := by
  obtain ⟨f, phase⟩ := t
  cases phase with
  | building timestamp =>
    have addition := addMessage_addition S f
    simp only [Thread.step]
    generalize f.addMessage S = result at addition ⊢
    cases addition with
    | closes => simp only [stepsLeft]; omega
    | unreadable _ _ => simp only [stepsLeft]; omega
    | adds _ fits =>
      obtain ⟨room, some⟩ := tryAdd_room fits
      have length := List.length_pos_iff.mpr some
      simp only [stepsLeft, Feed.accept, Feed.emit]
      omega
  | replaying => simp [Thread.step, stop, atHead_stopped, stepsLeft]
  | ending => simp [Thread.step, stop, stepsLeft]
  | finished => exact absurd rfl unfinished
  | _ => simp [Thread.step, stepsLeft]

theorem stopped_step_sends (stop : i.stopRequested = true) :
    endOfSessionPackets (t.step S i).feed.log = endOfSessionPackets t.feed.log ∧
    ∃ last, sentPackets (t.step S i).feed.log = sentPackets t.feed.log ++ last ∧
      packetsLeft t = last.length + packetsLeft (t.step S i) := by
  obtain ⟨f, phase⟩ := t
  cases phase with
  | building timestamp =>
    have addition := addMessage_addition S f
    simp only [Thread.step]
    generalize f.addMessage S = result at addition ⊢
    cases addition with
    | closes => exact ⟨rfl, [], by simp, rfl⟩
    | unreadable _ _ => exact ⟨rfl, [], by simp, rfl⟩
    | adds _ _ =>
      exact ⟨by simp [Feed.accept, Feed.emit, endOfSessionPackets], [],
        by simp [Feed.accept, Feed.emit, sentPackets], rfl⟩
  | pacing timestamp =>
    exact ⟨by simp [Thread.step, Feed.pace, Feed.emit, endOfSessionPackets], [],
      by simp [Thread.step, Feed.pace, Feed.emit, sentPackets], rfl⟩
  | sending =>
    exact ⟨by simp [Thread.step, Feed.transmit, Feed.emit, endOfSessionPackets],
      [f.packetBuilder.packet], by simp [Thread.step, Feed.transmit, Feed.emit, sentPackets], rfl⟩
  | replaying =>
    refine ⟨?_, [], ?_, ?_⟩ <;> simp [Thread.step, stop, atHead_stopped, packetsLeft,
      Phase.between]
  | ending =>
    refine ⟨?_, [], ?_, ?_⟩ <;> simp [Thread.step, stop, packetsLeft, Phase.between]
  | publishing => exact ⟨rfl, [], by simp [Thread.step, Feed.publishSequence], rfl⟩
  | _ => exact ⟨rfl, [], by simp [Thread.step], rfl⟩

theorem stopped_run_sends {stops : List Inputs} (stopped : ∀ i ∈ stops, i.stopRequested = true) :
    endOfSessionPackets (run (Thread.step S) t stops).feed.log = endOfSessionPackets t.feed.log ∧
    ∃ last, sentPackets (run (Thread.step S) t stops).feed.log = sentPackets t.feed.log ++ last ∧
      packetsLeft t = last.length + packetsLeft (run (Thread.step S) t stops) := by
  induction stops generalizing t with
  | nil => exact ⟨rfl, [], by simp [run], by simp [run]⟩
  | cons i rest ih =>
    obtain ⟨ends, last, sent, left⟩ := stopped_step_sends (S := S) (t := t)
      (stopped i List.mem_cons_self)
    obtain ⟨ends', last', sent', left'⟩ := ih (t := t.step S i)
      fun j member => stopped j (List.mem_cons_of_mem _ member)
    refine ⟨ends'.trans ends, last ++ last', ?_, ?_⟩
    · change sentPackets (run (Thread.step S) (t.step S i) rest).feed.log = _
      rw [sent', sent, List.append_assoc]
    · change _ = _ + packetsLeft (run (Thread.step S) (t.step S i) rest)
      rw [left, left', List.length_append, Nat.add_assoc]

theorem stopped_run_finishes {stops : List Inputs}
    (stopped : ∀ i ∈ stops, i.stopRequested = true) (enough : stepsLeft t ≤ stops.length) :
    (run (Thread.step S) t stops).phase = .finished := by
  induction stops generalizing t with
  | nil =>
    by_contra unfinished
    have lower := stopped_step_lowers (S := S) (i := ⟨true, true⟩) rfl unfinished
    simp only [run, List.foldl_nil, List.length_nil] at lower enough
    omega
  | cons i rest ih =>
    apply ih (t := t.step S i) fun j member => stopped j (List.mem_cons_of_mem _ member)
    by_cases finished : t.phase = .finished
    · simp [Thread.step, finished, stepsLeft]
    · have lower := stopped_step_lowers (S := S) (stopped i List.mem_cons_self) finished
      rw [List.length_cons] at enough
      omega

theorem steps_left_bound (follows : Follows S t) : stepsLeft t ≤ S.config.capacity + 8 := by
  obtain ⟨sq, ms, holds, _⟩ := follows_builder follows
  have room := holds.room
  unfold stepsLeft
  split <;> omega

theorem step_ends (t : Thread) (i : Inputs) :
    ∃ late, endOfSessionPackets (t.step S i).feed.log = endOfSessionPackets t.feed.log ++ late ∧
      late.length ≤ if t.phase = .ending then 1 else 0 := by
  have move := step_moves (S := S) t i
  generalize t.step S i = t' at move ⊢
  cases move with
  | announce =>
    exact ⟨[_], by simp only [Feed.emit, endOfSessionPackets, List.filterMap_append]; rfl, by simp⟩
  | skip _ _ => exact ⟨[], by simp [Feed.emit, endOfSessionPackets], by simp⟩
  | add _ _ => exact ⟨[], by simp [Feed.accept, Feed.emit, endOfSessionPackets], by simp⟩
  | pace => exact ⟨[], by simp [Feed.pace, Feed.emit, endOfSessionPackets], by simp⟩
  | send => exact ⟨[], by simp [Feed.transmit, Feed.emit, endOfSessionPackets], by simp⟩
  | publish => exact ⟨[], by simp [Feed.publishSequence], by simp⟩
  | _ => exact ⟨[], (List.append_nil _).symm, by simp⟩

theorem step_sends (t : Thread) (i : Inputs) :
    ∃ last, sentPackets (t.step S i).feed.log = sentPackets t.feed.log ++ last ∧
      last.length + packetsLeft (t.step S i) =
        max (packetsLeft t) (packetsLeft (t.step S i)) := by
  have move := step_moves (S := S) t i
  generalize t.step S i = t' at move ⊢
  cases move with
  | turn before after _ => exact ⟨[], by simp, by simp [packetsLeft, before, after]⟩
  | send =>
    exact ⟨[_], by simp only [Feed.transmit, Feed.emit, sentPackets, List.filterMap_append]; rfl,
      rfl⟩
  | skip _ _ => exact ⟨[], by simp [Feed.emit, sentPackets], rfl⟩
  | add _ _ => exact ⟨[], by simp [Feed.accept, Feed.emit, sentPackets], rfl⟩
  | pace => exact ⟨[], by simp [Feed.pace, Feed.emit, sentPackets], rfl⟩
  | announce => exact ⟨[], by simp [Feed.emit, sentPackets], rfl⟩
  | publish => exact ⟨[], by simp [Feed.publishSequence], rfl⟩
  | _ => exact ⟨[], (List.append_nil _).symm, rfl⟩

/-- A stop is requested while the step `i` is taken, at any point of any run and whether or not
    the check of that step has passed. From there the thread hands at most one data packet to
    sendmsg, the one it has started or whose check had passed, and at most one end of session
    packet to sendto, if it was sending these already; it finishes within a number of steps that
    depends on nothing but the packet size, with every numbered message sent. -/
theorem stop_ends_replay (S : Setup) (inputs : List Inputs) (i : Inputs) (expired : List Bool) :
    let before := S.runThread inputs
    let after := S.runThread (inputs ++ i :: expired.map (Inputs.mk true))
    (∃ late, endOfSessionPackets after.feed.log = endOfSessionPackets before.feed.log ++ late ∧
      late.length ≤ if before.phase = .ending then 1 else 0) ∧
    (∃ last, sentPackets after.feed.log = sentPackets before.feed.log ++ last ∧
      last.length + packetsLeft after =
        max (packetsLeft before) (packetsLeft (before.step S i))) ∧
    (S.config.capacity + 8 ≤ expired.length →
      after.phase = .finished ∧
        messagesSent after.feed.log = (pushedRecords after.feed.log).length) := by
  intro before after
  have stopped : ∀ j ∈ expired.map (Inputs.mk true), j.stopRequested = true := by
    intro j member
    obtain ⟨_, _, rfl⟩ := List.mem_map.mp member
    rfl
  have follows : Follows S after := run_follows S _
  have parts : after = run (Thread.step S) (before.step S i) (expired.map (Inputs.mk true)) :=
    run_append S.thread inputs _
  obtain ⟨late, begun, few⟩ := step_ends (S := S) before i
  obtain ⟨first, handed, due⟩ := step_sends (S := S) before i
  obtain ⟨ends, last, sent, left⟩ := stopped_run_sends (S := S) (t := before.step S i) stopped
  rw [← parts] at ends sent left
  refine ⟨⟨late, ends.trans begun, few⟩, ⟨first ++ last, ?_, ?_⟩, fun enough => ?_⟩
  · rw [sent, handed, List.append_assoc]
  · rw [List.length_append, ← due]
    omega
  have onward : Follows S (before.step S i) := by
    have reached := run_follows S (inputs ++ [i])
    rwa [runThread_snoc] at reached
  have bound := steps_left_bound onward
  have finished : after.phase = .finished := by
    rw [parts]
    apply stopped_run_finishes stopped
    rw [List.length_map]
    exact Nat.le_trans bound enough
  refine ⟨finished, ?_⟩
  have complete := ended_complete follows (by rw [finished]; rfl)
  rw [number_toNat follows.tracks] at complete
  rw [rendered_total follows.tracks, follows.tracks.pushed]
  simp only [MoldBuffer.records, List.length_mapIdx, positions_length]
  omega

end MoldStopping
