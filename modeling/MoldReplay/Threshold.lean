import MoldReplay.Truncation

/- Which messages the threshold keeps from being sent, on files of framed messages with any
   timestamps. The threshold is tested on the first message of a packet; the others
   join it as long as they fit. -/
namespace MoldThreshold
open FixedBytes MoldWire MoldFraming MoldPacket MoldDownstream MoldLedger MoldGapFree
open MoldTermination MoldWellFormed MoldWholeFile MoldTruncation LoopBody GreedyPacking
open NumberedStream ScheduledRuns

def messageRule (S : Setup) : Rule (List UInt8) where
  size m := m.length
  capacity := S.config.capacity
  unwanted m := S.pacer.shouldSkip (timestampOf m)

/-- Where the thread is in the nest of loops that replayPass and buildPacket are. -/
def Within (S : Setup) (t : Thread) : Prop :=
  match t.phase with
  | .starting => t.feed = S.initial
  | .replaying => Visits (Feed.replayPass S) S.initial t.feed
  | .building timestamp => ∃ f, Visits (Feed.replayPass S) S.initial f ∧
      f.atHead S false = .build timestamp ∧ Visits (Feed.addMessage S) f.startPacket t.feed
  | .pacing timestamp => ∃ f, Visits (Feed.replayPass S) S.initial f ∧
      f.atHead S false = .build timestamp ∧ t.feed = f.buildPacket S
  | .publishing => ∃ f timestamp, Visits (Feed.replayPass S) S.initial f ∧
      f.atHead S false = .build timestamp ∧ t.feed = (f.buildPacket S).pace timestamp
  | .sending => ∃ f timestamp, Visits (Feed.replayPass S) S.initial f ∧
      f.atHead S false = .build timestamp ∧
      t.feed = ((f.buildPacket S).pace timestamp).publishSequence
  | _ => ∃ f, Visits (Feed.replayPass S) S.initial f ∧
      sentPackets t.feed.log = sentPackets f.log

variable {S : Setup} {f g : Feed} {t : Thread} {ms : List (List UInt8)}

theorem within_head (visits : Visits (Feed.replayPass S) S.initial f) (i : Inputs) :
    Within S (Thread.step S ⟨f, .replaying⟩ i) := by
  simp only [Thread.step]
  cases i.stopRequested with
  | true =>
    rw [atHead_stopped]
    exact ⟨f, visits, rfl⟩
  | false =>
    have choice := atHead_choice S f
    cases head : f.atHead S false with
    | leave g =>
      rw [head] at choice
      cases choice with
      | short _ => exact ⟨f, visits, rfl⟩
      | skipFails _ _ => exact ⟨f, visits, rfl⟩
    | skipped g =>
      refine visits.tail ?_
      unfold Again Feed.replayPass
      rw [head]
    | build timestamp => exact ⟨f, visits, head, .refl⟩

theorem within_building {timestamp : Nat} (visits : Visits (Feed.replayPass S) S.initial f)
    (head : f.atHead S false = .build timestamp)
    (building : Visits (Feed.addMessage S) f.startPacket g) (i : Inputs) :
    Within S (Thread.step S ⟨g, .building timestamp⟩ i) := by
  simp only [Thread.step]
  cases pass : g.addMessage S with
  | again next => exact ⟨f, visits, head, building.tail pass⟩
  | leave last =>
    have leaves := visits_leaves building (.leave pass)
    exact ⟨f, visits, head, leaves_unique leaves (buildPacket_leaves S f)⟩

theorem within_sending {timestamp : Nat} (visits : Visits (Feed.replayPass S) S.initial f)
    (head : f.atHead S false = .build timestamp) :
    Visits (Feed.replayPass S) S.initial ((f.buildPacket S).pace timestamp).sendPacket := by
  refine visits.tail ?_
  unfold Again Feed.replayPass
  rw [head]

theorem within_step (t : Thread) (i : Inputs) (h : Within S t) : Within S (t.step S i) := by
  obtain ⟨f, phase⟩ := t
  cases phase with
  | starting =>
    cases (show f = S.initial from h)
    exact .refl
  | replaying => exact within_head h i
  | building timestamp =>
    obtain ⟨_, visits, head, building⟩ := h
    exact within_building visits head building i
  | pacing timestamp =>
    obtain ⟨g, visits, head, built⟩ := h
    exact ⟨g, timestamp, visits, head, congrArg (Feed.pace timestamp) built⟩
  | publishing =>
    obtain ⟨g, timestamp, visits, head, paced⟩ := h
    exact ⟨g, timestamp, visits, head, congrArg Feed.publishSequence paced⟩
  | sending =>
    obtain ⟨g, timestamp, visits, head, published⟩ := h
    cases published
    exact within_sending visits head
  | stopping => exact h
  | joining => exact h
  | ending =>
    simp only [Thread.step]
    split
    · obtain ⟨g, visits, sent⟩ := h
      refine ⟨g, visits, ?_⟩
      simpa [Feed.emit, sentPackets] using sent
    · exact h
  | finished => exact h

theorem run_within (S : Setup) (inputs : List Inputs) : Within S (S.runThread inputs) :=
  run_always within_step inputs rfl

theorem adding_silent (visits : Visits (Feed.addMessage S) f g) :
    sentPackets g.log = sentPackets f.log := by
  induction visits with
  | refl => rfl
  | tail _ pass ih => exact (addition_silent (Or.inl pass)).trans ih

theorem within_sent (h : Within S t) : ∃ f, Visits (Feed.replayPass S) S.initial f ∧
    sentPackets t.feed.log = sentPackets f.log := by
  obtain ⟨g, phase⟩ := t
  have built : ∀ f : Feed, sentPackets (f.buildPacket S).log = sentPackets f.log := by
    intro f
    have silent := build_silent (buildPacket_leaves S f)
    exact silent
  cases phase with
  | starting =>
    cases (show g = S.initial from h)
    exact ⟨_, .refl, rfl⟩
  | replaying => exact ⟨g, h, rfl⟩
  | building timestamp =>
    obtain ⟨f, visits, _, building⟩ := h
    have silent := adding_silent building
    exact ⟨f, visits, silent⟩
  | pacing timestamp =>
    obtain ⟨f, visits, _, same⟩ := h
    cases same
    exact ⟨f, visits, built f⟩
  | publishing =>
    obtain ⟨f, timestamp, visits, _, same⟩ := h
    cases same
    exact ⟨f, visits, by simpa [Feed.pace, Feed.emit, sentPackets] using built f⟩
  | sending =>
    obtain ⟨f, timestamp, visits, _, same⟩ := h
    cases same
    exact ⟨f, visits, by
      simpa [Feed.publishSequence, Feed.pace, Feed.emit, sentPackets] using built f⟩
  | _ => exact h

theorem visited_arrived (begins : Begins S ms) (file : S.file.bytes = ms.flatten)
    (visits : Visits (Feed.replayPass S) S.initial f) : ∃ done rest, Arrived S ms done rest f := by
  induction visits with
  | refl => exact ⟨[], ms, arrived_initial S ms⟩
  | tail _ pass ih =>
    obtain ⟨done, rest, head⟩ := ih
    cases rest with
    | nil =>
      have whole : ms = done := by simpa using head.whole
      rw [← whole] at head
      have inside := pass_inside pass
      have position := (arrived_leaves head file).2
      omega
    | cons m rest =>
      obtain ⟨g, done', rest', pass', head', _⟩ := arrived_pass begins head
      cases Flow.again.inj (pass'.symm.trans pass)
      exact ⟨done', rest', head'⟩

theorem sent_packets {L : Ledger Entry} (h : Tracks S f L) :
    (sentPackets f.log).map Packet.messages = L.packets.map messages := by
  have carried : ∀ (n : Nat) (packets : List (List Entry)),
      ((numbered n packets).map (numberedPacket S.config.session)).map Packet.messages =
        packets.map messages := by
    intro n packets
    induction packets generalizing n with
    | nil => rfl
    | cons p rest ih =>
      simp only [numbered, List.map_cons, ih]
      rfl
  rw [h.sent]
  exact carried 1 L.packets

theorem located_messages (pos : Nat) (ms : List (List UInt8)) : messages (located pos ms) = ms := by
  induction ms generalizing pos with
  | nil => rfl
  | cons m rest ih =>
    change m :: messages (located (pos + m.length) rest) = _
    rw [ih]

theorem arrived_packets {done rest : List (List UInt8)} (h : Arrived S ms done rest f) :
    (sentPackets f.log).map Packet.messages = ((messageRule S).pack done).packets := by
  have tracks := (visited_follows h.visits).tracks
  have packed := pack_comap (messageRule S) Entry.message (located 0 done)
  change ((rule S).pack (located 0 done)).map Entry.message = _ at packed
  rw [show (located 0 done).map Entry.message = done from located_messages 0 done] at packed
  rw [sent_packets tracks, h.packets, ← packed, map_packets]
  rfl

theorem arrived_messages {done rest : List (List UInt8)} (h : Arrived S ms done rest f) :
    (sentPackets f.log).flatMap Packet.messages = ((messageRule S).pack done).items := by
  rw [List.flatMap_def, arrived_packets h, packets_flatten]

/-- No run sends a message below the threshold exactly if none directly follows a run of
    others, at the start of the file or behind a message below the threshold, and fits
    into what is left of the last packet these fill. -/
theorem below_threshold_unsent_iff (S : Setup) (ms : List (List UInt8))
    (file : S.file.bytes = ms.flatten)
    (framed : ∀ m ∈ ms, IsFrame m ∧ max 13 S.config.minMessageSize ≤ m.length ∧
      m.length ≤ S.config.MTU - 20) :
    (∀ inputs, ∀ p ∈ sentPackets (S.runThread inputs).feed.log, ∀ m ∈ p.messages,
      S.pacer.skipBefore ≤ timestampOf m) ↔
    ∀ before run m after, ms = before ++ run ++ m :: after → run ≠ [] →
      (∀ m' ∈ run, S.pacer.skipBefore ≤ timestampOf m') →
      (∀ m' ∈ before.getLast?, (timestampOf m' : Int) < S.pacer.skipBefore) →
      (timestampOf m : Int) < S.pacer.skipBefore →
      S.config.MTU - 20 < (messageRule S).filled run + m.length := by
  have regular := framed_regular framed
  have begins := whole_begins regular file
  have kept : ∀ m, (messageRule S).unwanted m = false ↔ S.pacer.skipBefore ≤ timestampOf m := by
    simp [messageRule, Pacer.shouldSkip]
  have skipped : ∀ m, (messageRule S).unwanted m = true ↔
      (timestampOf m : Int) < S.pacer.skipBefore := by
    simp [messageRule, Pacer.shouldSkip]
  have packed := packed_wanted_iff (messageRule S) ms
  simp only [kept, skipped] at packed
  refine Iff.trans ?_ packed
  constructor
  · intro unsent m member
    obtain ⟨f, head⟩ := messages_replayed begins
    obtain ⟨inputs, reached⟩ := visited_reachable head.visits
    have none := unsent inputs
    rw [reached] at none
    rw [← arrived_messages head, List.mem_flatMap] at member
    obtain ⟨p, sent, inside⟩ := member
    exact none p sent m inside
  · intro wanted inputs p sent m inside
    obtain ⟨f, visits, same⟩ := within_sent (run_within S inputs)
    obtain ⟨done, rest, head⟩ := visited_arrived begins file visits
    rw [same] at sent
    have member := List.mem_flatMap.mpr ⟨p, sent, inside⟩
    rw [arrived_messages head] at member
    apply wanted
    rw [head.whole]
    exact items_grow _ done rest member

theorem early_message_unsent : ∃ S,
    Setup.make ⟨[frame (List.replicate 12 1), frame (List.replicate 12 2)].flatten, fun _ => 0,
      by decide⟩ ⟨0x020202020202⟩ { session := List.replicate 10 0x20 } 4 = .ok S ∧
    ∀ inputs, ∀ p ∈ sentPackets (S.runThread inputs).feed.log, ∀ m ∈ p.messages,
      0x020202020202 ≤ (timestampOf m : Int) := by
  have framed : ∀ byte : UInt8, IsFrame (frame (List.replicate 12 byte)) :=
    fun byte => frame_isFrame _ (by simp)
  refine ⟨_, rfl, (below_threshold_unsent_iff _
    [frame (List.replicate 12 1), frame (List.replicate 12 2)] ?_ ?_).mpr ?_⟩
  · rfl
  · simpa using ⟨⟨framed 1, by decide, by decide⟩, framed 2, by decide, by decide⟩
  · intro before run m after whole some _ _ below
    have sizes := congrArg List.length whole
    have nonempty := List.length_pos_iff.mpr some
    simp only [List.length_append, List.length_cons, List.length_nil] at sizes
    have second : (before ++ run ++ m :: after)[(before ++ run).length]? = Option.some m := by
      rw [List.getElem?_append_right (Nat.le_refl _), Nat.sub_self]
      rfl
    have index : (before ++ run).length = 1 := by
      rw [List.length_append]
      omega
    rw [← whole, index] at second
    cases Option.some.inj second
    exact absurd below (by decide)

/-- Behind a message at the threshold, one below it gets into the same packet. -/
theorem packet_mate_below_threshold_sent : ∃ S,
    Setup.make ⟨[frame (List.replicate 12 2), frame (List.replicate 12 1)].flatten, fun _ => 0,
      by decide⟩ ⟨0x020202020202⟩ { session := List.replicate 10 0x20 } 4 = .ok S ∧
    (∀ m ∈ [frame (List.replicate 12 2), frame (List.replicate 12 1)], IsFrame m ∧
      max 13 S.config.minMessageSize ≤ m.length ∧ m.length ≤ S.config.MTU - 20) ∧
    ¬ ∀ inputs, ∀ p ∈ sentPackets (S.runThread inputs).feed.log, ∀ m ∈ p.messages,
      S.pacer.skipBefore ≤ timestampOf m := by
  have framed : ∀ byte : UInt8, IsFrame (frame (List.replicate 12 byte)) :=
    fun byte => frame_isFrame _ (by simp)
  refine ⟨_, rfl, ?_, fun unsent => ?_⟩
  · simpa using ⟨⟨framed 2, by decide, by decide⟩, framed 1, by decide, by decide⟩
  · exact absurd (unsent (List.replicate 8 undisturbed)) (by decide +kernel)

end MoldThreshold
