import MoldReplay.Ledger

/- When the replay loop of start() ends. A pass that builds a packet moves past the
   first message unless that message can never fit; then it sends an empty packet
   and finds itself where it was. -/
namespace MoldTermination
open FixedBytes MoldWire MoldFraming MoldPacket MoldDownstream MoldLedger LoopBody

/-- A readable message, not to be skipped, that is larger than an empty packet. -/
def Oversized (S : Setup) (pos : Nat) : Prop :=
  S.KeptAt pos ∧ Complete S.file.bytes pos ∧ S.config.capacity < (S.messageAt pos).length

variable {S : Setup} {f g : Feed}

theorem build_forward (leaves : Leaves (Feed.addMessage S) f g) : f.filePos ≤ g.filePos := by
  induction leaves with
  | leave last =>
    rename_i f g
    have addition := addMessage_addition S f
    rw [last] at addition
    cases addition with
    | closes => exact Nat.le_refl _
    | unreadable inside _ =>
      exact (afterFailure_bounds S.file.bytes f.filePos (Nat.le_of_lt inside)).1
  | again pass _ ih => exact Nat.le_trans (Nat.le_of_lt (addMessage_again pass).2) ih

def Ready (S : Setup) (f : Feed) : Prop := ∃ sq ms, Holds S.config f.packetBuilder sq ms

theorem visited_ready (visits : Visits (Feed.replayPass S) S.initial f) : Ready S f :=
  (visited_follows visits).phase.2.1

theorem startPacket_holds (ready : Ready S f) :
    Holds S.config f.startPacket.packetBuilder (bytesBE 8 f.sequenceNumber.toNat) [] := by
  obtain ⟨_, _, holds⟩ := ready
  exact reset_holds holds f.sequenceNumber

theorem build_advances (ready : Ready S f) (kept : S.KeptAt f.filePos)
    (fine : ¬ Oversized S f.filePos) : f.filePos < (f.buildPacket S).filePos := by
  obtain ⟨timestamp, peeked, _⟩ := kept
  have inside := peeked_inside peeked
  have enough : ¬ S.file.size - f.filePos < 8 := by
    intro short
    rw [peekTimestamp_none.mpr short] at peeked
    cases peeked
  have leaves := buildPacket_leaves S f
  by_cases complete : Complete S.file.bytes f.startPacket.filePos
  · have fits : (S.messageAt f.filePos).length ≤ S.config.capacity := by
      by_contra large
      exact fine ⟨⟨timestamp, peeked, ‹_›⟩, complete, by omega⟩
    obtain ⟨builder, added, _⟩ := tryAdd_accepts (m := S.messageAt f.filePos)
      (startPacket_holds ready) (messageAt_ne_nil complete) (by simpa using fits)
    have first := addMessage_adds (f := f.startPacket) complete added
    cases leaves with
    | leave last => rw [first] at last; cases last
    | again pass tail =>
      have moved := (addMessage_again pass).2
      exact Nat.lt_of_lt_of_le moved (build_forward tail)
  · have first := addMessage_unreadable (f := f.startPacket) inside complete
    cases leaves with
    | again pass _ => rw [first] at pass; cases pass
    | leave last =>
      rw [first] at last
      rw [← Flow.leave.inj last]
      have skipped : afterFailure S.file.bytes f.filePos = f.filePos + 2 := by
        simp only [MappedFile.size] at enough
        unfold afterFailure
        rw [if_pos (by omega)]
      change f.filePos < afterFailure S.file.bytes f.filePos
      omega

theorem build_stays (ready : Ready S f) (oversized : Oversized S f.filePos) :
    f.buildPacket S = f.startPacket := by
  obtain ⟨_, complete, large⟩ := oversized
  have full := tryAdd_rejects (m := S.messageAt f.filePos) (startPacket_holds ready)
    (by simpa using large)
  exact leaves_unique (buildPacket_leaves S f)
    (.leave (addMessage_full (f := f.startPacket) complete full))

theorem oversized_pass (ready : Ready S f) (oversized : Oversized S f.filePos) :
    ∃ g, f.replayPass S = .again g ∧ g.filePos = f.filePos ∧ Ready S g := by
  obtain ⟨timestamp, peeked, keeps⟩ := oversized.1
  refine ⟨((f.buildPacket S).pace timestamp).sendPacket, ?_, ?_, ?_⟩
  · unfold Feed.replayPass
    rw [atHead_build peeked keeps]
  · rw [build_stays ready oversized]
    rfl
  · rw [build_stays ready oversized]
    exact ⟨_, _, finalize_holds (startPacket_holds ready)⟩

/-- One pass either leaves, moves on, or stands before a message that cannot fit. -/
theorem pass_advances_iff (ready : Ready S f) (pass : f.replayPass S = .again g) :
    f.filePos < g.filePos ↔ ¬ Oversized S f.filePos := by
  constructor
  · intro moved oversized
    obtain ⟨g', pass', same, _⟩ := oversized_pass ready oversized
    cases Flow.again.inj (pass.symm.trans pass')
    omega
  · intro fine
    have choice := atHead_choice S f
    unfold Feed.replayPass at pass
    generalize f.atHead S false = head at choice pass
    cases choice with
    | short _ => cases pass
    | skipFails _ _ => cases pass
    | skip _ complete =>
      cases pass
      simp only [Feed.emit, Setup.afterMessage]
      omega
    | build peeked keeps =>
      cases pass
      exact build_advances ready ⟨_, peeked, keeps⟩ fine

theorem pass_inside (pass : f.replayPass S = .again g) : f.filePos < S.file.size := by
  cases peeked : peekTimestamp S.file f.filePos with
  | none =>
    rw [Feed.replayPass, atHead_short peeked] at pass
    cases pass
  | some timestamp => exact peeked_inside peeked

theorem oversized_never_leaves (visits : Visits (Feed.replayPass S) S.initial f)
    (oversized : Oversized S f.filePos) : ¬ ∃ g, Leaves (Feed.replayPass S) S.initial g := by
  rintro ⟨g, leaves⟩
  have later := leaves_from_visited visits leaves
  refine never_leaves (I := fun s => Ready S s ∧ Oversized S s.filePos) ?_
    ⟨visited_ready visits, oversized⟩ later
  rintro s ⟨ready, stuck⟩
  obtain ⟨next, pass, same, again⟩ := oversized_pass ready stuck
  exact ⟨next, pass, again, same ▸ stuck⟩

theorem leaves_unless_oversized
    (fine : ∀ f, Visits (Feed.replayPass S) S.initial f → ¬ Oversized S f.filePos) :
    ∃ g, Leaves (Feed.replayPass S) S.initial g := by
  refine leaves_of_variant (I := Visits (Feed.replayPass S) S.initial)
    (fun f : Feed => S.file.size - f.filePos) ?_ .refl
  intro s next visits pass
  have moved := (pass_advances_iff (visited_ready visits) pass).mpr (fine s visits)
  have inside := pass_inside pass
  exact ⟨visits.tail pass, by omega⟩

/-- The replay loop ends exactly if no pass starts at a message that cannot fit, and a
    pass that does not leave moves on exactly if it does not start at one. -/
theorem replay_ends_iff (S : Setup) :
    ((∃ g, Leaves (Feed.replayPass S) S.initial g) ↔
      ∀ f, Visits (Feed.replayPass S) S.initial f → ¬ Oversized S f.filePos) ∧
    ∀ f g, Visits (Feed.replayPass S) S.initial f → f.replayPass S = .again g →
      (f.filePos < g.filePos ↔ ¬ Oversized S f.filePos) := by
  refine ⟨⟨?_, leaves_unless_oversized⟩, ?_⟩
  · intro ends f visits oversized
    exact oversized_never_leaves visits oversized ends
  · intro f g visits pass
    exact pass_advances_iff (visited_ready visits) pass

theorem oversized_message_replayed_forever : ∃ S,
    Setup.make ⟨frame (List.replicate 12 1), fun _ => 0, by decide⟩ ⟨0⟩
      { session := List.replicate 10 0x20, MTU := 33 } 4 = .ok S ∧
    ¬ ∃ g, Leaves (Feed.replayPass S) S.initial g :=
  ⟨_, rfl, oversized_never_leaves .refl ⟨⟨_, rfl, rfl⟩, by decide, by decide⟩⟩

end MoldTermination
