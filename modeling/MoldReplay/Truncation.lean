import MoldReplay.WholeFile

/- A file whose last message is cut off. The replay of the whole messages is the same as
   without the rest; what comes then depends on where the failed read left the position
   and on what the bytes there look like. -/
namespace MoldTruncation
open FixedBytes MoldWire MoldFraming MoldPacket MoldBuffer MoldDownstream MoldLedger
open MoldGapFree MoldTermination MoldWellFormed MoldWholeFile LoopBody NumberedStream GreedyPacking

/-- From `pos` on the replay loop steps over everything and builds no packet. -/
inductive PassesOver (S : Setup) : Nat → Prop where
  | short {pos : Nat} (peeked : peekTimestamp S.file pos = none) : PassesOver S pos
  | skipFails {pos : Nat} (skipped : S.SkippedAt pos)
      (incomplete : ¬ Complete S.file.bytes pos) : PassesOver S pos
  | skip {pos : Nat} (skipped : S.SkippedAt pos) (complete : Complete S.file.bytes pos)
      (tail : PassesOver S (S.afterMessage pos)) : PassesOver S pos

def SameReplay (S S' : Setup) : Prop :=
  ∃ g g', Leaves (Feed.replayPass S) S.initial g ∧ Leaves (Feed.replayPass S') S'.initial g' ∧
    sentPackets g'.log = sentPackets g.log ∧ pushedRecords g'.log = pushedRecords g.log ∧
    g'.endOfSessionPacket = g.endOfSessionPacket

variable {S S' : Setup} {f g : Feed} {ms : List (List UInt8)} {T rest : List UInt8}

theorem addition_silent (pass : f.addMessage S = .again g ∨ f.addMessage S = .leave g) :
    sentPackets g.log = sentPackets f.log := by
  have addition := addMessage_addition S f
  rcases pass with pass | pass
  all_goals
    rw [pass] at addition
    cases addition
  · simp [Feed.accept, Feed.emit, sentPackets]
  · rfl
  · rfl

theorem build_silent (leaves : Leaves (Feed.addMessage S) f g) :
    sentPackets g.log = sentPackets f.log := by
  induction leaves with
  | leave last => exact addition_silent (Or.inr last)
  | again pass _ ih => exact ih.trans (addition_silent (Or.inl pass))

theorem build_sends (S : Setup) (f : Feed) (timestamp : Nat) :
    (sentPackets ((f.buildPacket S).pace timestamp).sendPacket.log).length =
      (sentPackets f.log).length + 1 := by
  have silent := build_silent (buildPacket_leaves S f)
  have same : sentPackets f.startPacket.log = sentPackets f.log := rfl
  rw [same] at silent
  rw [← silent]
  simp [Feed.sendPacket, Feed.transmit, Feed.publishSequence, Feed.pace, Feed.emit, sentPackets]

theorem leaves_quietly (leaves : Leaves (Feed.replayPass S) f g) :
    (sentPackets f.log).length ≤ (sentPackets g.log).length ∧
      ((sentPackets g.log).length = (sentPackets f.log).length → PassesOver S f.filePos) := by
  induction leaves with
  | leave last =>
    rename_i f g
    have choice := atHead_choice S f
    unfold Feed.replayPass at last
    generalize f.atHead S false = head at choice last
    cases choice with
    | short peeked =>
      cases last
      exact ⟨Nat.le_refl _, fun _ => .short peeked⟩
    | skipFails skipped incomplete =>
      cases last
      exact ⟨Nat.le_refl _, fun _ => .skipFails skipped incomplete⟩
    | skip _ _ => cases last
    | build _ _ => cases last
  | again pass tail ih =>
    rename_i f next g
    obtain ⟨grows, quiet⟩ := ih
    have choice := atHead_choice S f
    unfold Feed.replayPass at pass
    generalize f.atHead S false = head at choice pass
    cases choice with
    | short _ => cases pass
    | skipFails _ _ => cases pass
    | skip skipped complete =>
      cases pass
      have same : sentPackets ({ f with filePos := S.afterMessage f.filePos }.emit
          (.skipped f.filePos)).log = sentPackets f.log := by
        simp [Feed.emit, sentPackets]
      rw [same] at grows quiet
      exact ⟨grows, fun equal => .skip skipped complete (quiet equal)⟩
    | build peeked keeps =>
      cases pass
      rw [build_sends] at grows
      exact ⟨by omega, fun equal => by omega⟩

theorem passes_over {pos : Nat} (passed : PassesOver S pos) : ∀ f : Feed, f.filePos = pos →
    ∃ g, Leaves (Feed.replayPass S) f g ∧ sentPackets g.log = sentPackets f.log ∧
      pushedRecords g.log = pushedRecords f.log ∧ g.endOfSessionPacket = f.endOfSessionPacket := by
  induction passed with
  | short peeked =>
    rintro f rfl
    have pass : f.replayPass S = .leave f := by rw [Feed.replayPass, atHead_short peeked]
    exact ⟨f, .leave pass, rfl, rfl, rfl⟩
  | skipFails skipped incomplete =>
    rintro f rfl
    have pass : f.replayPass S =
        .leave { f with filePos := afterFailure S.file.bytes f.filePos } := by
      unfold Feed.replayPass
      rw [atHead_skipFails skipped incomplete]
    exact ⟨_, .leave pass, rfl, rfl, rfl⟩
  | skip skipped complete _ ih =>
    rintro f rfl
    have pass : f.replayPass S =
        .again ({ f with filePos := S.afterMessage f.filePos }.emit (.skipped f.filePos)) := by
      unfold Feed.replayPass
      rw [atHead_skip skipped complete]
    obtain ⟨g, leaves, sent, pushed, eos⟩ :=
      ih ({ f with filePos := S.afterMessage f.filePos }.emit (.skipped f.filePos)) rfl
    refine ⟨g, .again pass leaves, sent.trans ?_, pushed.trans ?_, eos⟩
    · simp [Feed.emit, sentPackets]
    · simp [Feed.emit, pushedRecords]

theorem prefix_incomplete {before : List UInt8} (framed : IsFrame (T ++ rest))
    (proper : rest ≠ []) : ¬ Complete (before ++ T) before.length := by
  have more := List.length_pos_iff.mpr proper
  have size := framed.2
  simp only [Complete, List.length_append] at size ⊢
  by_cases prefixed : 2 ≤ T.length
  · have length : lengthAt (before ++ T) before.length = natBE ((T ++ rest).take 2) := by
      unfold lengthAt
      rw [List.drop_left, List.take_append_of_le_length prefixed]
    rw [length]
    omega
  · omega

theorem plan_same (config : S'.config = S.config) (pacer : S'.pacer = S.pacer) :
    plan S' ms = plan S ms := by
  have same : rule S' = rule S := by simp only [rule, config, pacer]
  rw [plan, plan, same]

theorem arrived_same (config : S'.config = S.config) (pacer : S'.pacer = S.pacer)
    (h : Arrived S ms ms [] f) (h' : Arrived S' ms ms [] g) :
    sentPackets g.log = sentPackets f.log ∧ pushedRecords g.log = pushedRecords f.log ∧
      g.endOfSessionPacket = f.endOfSessionPacket := by
  have follows := visited_follows h.visits
  have follows' := visited_follows h'.visits
  have packets : (ledger S' g.log).packets = (ledger S f.log).packets := by
    rw [h'.packets, h.packets, plan_same config pacer]
  have entries : (ledger S' g.log).entries = (ledger S f.log).entries := by
    rw [Ledger.entries, Ledger.entries, Ledger.sent, Ledger.sent, packets, follows.phase.1,
      follows'.phase.1]
  obtain ⟨_, _, holds⟩ := visited_ready h.visits
  obtain ⟨_, _, holds'⟩ := visited_ready h'.visits
  refine ⟨?_, ?_, ?_⟩
  · rw [follows.tracks.sent, follows'.tracks.sent, packets, config]
  · rw [follows.tracks.pushed, follows'.tracks.pushed, entries]
  · rw [eos_eq holds, eos_eq holds', config, follows.tracks.next, follows'.tracks.next, entries]

/-- Where the replay of the whole messages leaves the position: past a length prefix if
    the last packet ran into it. -/
def resumeAt (S : Setup) (ms : List (List UInt8)) : Nat :=
  if (plan S ms).current = [] then ms.flatten.length
  else afterFailure S.file.bytes ms.flatten.length

/-- The cut-off message changes nothing exactly if the replay loop passes over the bytes
    from where the last whole message left it. -/
theorem truncated_replay_iff (S S' : Setup) (ms : List (List UInt8)) (T rest : List UInt8)
    (config : S'.config = S.config) (pacer : S'.pacer = S.pacer)
    (file : S.file.bytes = ms.flatten) (file' : S'.file.bytes = ms.flatten ++ T)
    (framed : ∀ m ∈ ms, IsFrame m ∧ max 13 S.config.minMessageSize ≤ m.length ∧
      m.length ≤ S.config.MTU - 20)
    (cut : IsFrame (T ++ rest)) (proper : rest ≠ []) :
    SameReplay S S' ↔ PassesOver S' (resumeAt S' ms) := by
  have regular := framed_regular framed
  have begins' : Begins S' ms := {
    bytes := ⟨T, file'⟩
    regular := fun m member => regular_same config (regular m member)
    ends := by
      rw [file']
      exact prefix_incomplete cut proper }
  obtain ⟨f, arrived⟩ := messages_replayed (whole_begins regular file)
  obtain ⟨f', arrived'⟩ := messages_replayed begins'
  obtain ⟨leaves, _⟩ := arrived_leaves arrived file
  obtain ⟨sent, pushed, eos⟩ := arrived_same config pacer arrived arrived'
  have position : f'.filePos = resumeAt S' ms := by
    rw [arrived'.position, resumeAt, stopped, if_pos rfl]
  constructor
  · rintro ⟨g, g', left, left', same, _, _⟩
    cases leaves_unique leaves left
    have later := leaves_from_visited arrived'.visits left'
    rw [← position]
    exact (leaves_quietly later).2 (by rw [same, sent])
  · intro passed
    obtain ⟨g', left', sent', pushed', eos'⟩ := passes_over passed f' position
    exact ⟨f, g', leaves, visits_leaves arrived'.visits left', sent'.trans sent,
      pushed'.trans pushed, eos'.trans eos⟩

theorem short_rest_ignored : ∃ S S',
    Setup.make ⟨[frame (List.replicate 12 1)].flatten, fun _ => 0, by decide⟩ ⟨0⟩
      { session := List.replicate 10 0x20 } 4 = .ok S ∧
    Setup.make ⟨[frame (List.replicate 12 1)].flatten ++ (frame (List.replicate 30 2)).take 5,
      fun _ => 0, by decide⟩ ⟨0⟩ { session := List.replicate 10 0x20 } 4 = .ok S' ∧
    SameReplay S S' := by
  refine ⟨_, _, rfl, rfl, ?_⟩
  refine (truncated_replay_iff _ _ [frame (List.replicate 12 1)]
    ((frame (List.replicate 30 2)).take 5) ((frame (List.replicate 30 2)).drop 5)
    ?_ ?_ ?_ ?_ ?_ ?_ (by decide)).mpr ?_
  · rfl
  · rfl
  · rfl
  · rfl
  · simpa using ⟨frame_isFrame (List.replicate 12 1) (by decide), by decide, by decide⟩
  · rw [List.take_append_drop]
    exact frame_isFrame _ (by decide)
  · exact .short rfl

theorem replay_of_run (passes : Nat)
    (result : LoopBody.run (Feed.replayPass S) passes S.initial = some f)
    (leaves : Leaves (Feed.replayPass S) S.initial g) : g = f :=
  leaves_unique leaves (leaves_of_run result)

/-- Twenty bytes of it: six empty packets follow the one with the first message. -/
theorem cut_message_sends_packets : ∃ S S',
    Setup.make ⟨frame (List.replicate 12 1), fun _ => 0, by decide⟩ ⟨0⟩
      { session := List.replicate 10 0x20 } 4 = .ok S ∧
    Setup.make ⟨frame (List.replicate 12 1) ++ (frame (List.replicate 30 2)).take 20,
      fun _ => 0, by decide⟩ ⟨0⟩ { session := List.replicate 10 0x20 } 4 = .ok S' ∧
    ¬ SameReplay S S' := by
  refine ⟨_, _, rfl, rfl, ?_⟩
  rintro ⟨g, g', leaves, leaves', sent, _⟩
  have counts := congrArg List.length sent
  rw [replay_of_run 2 rfl leaves, replay_of_run 8 rfl leaves'] at counts
  exact absurd counts (by decide)

end MoldTruncation
