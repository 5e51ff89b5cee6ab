import MoldReplay.Ledger
import MoldReplay.Termination
import MoldReplay.GreedyPacking

/- Files that start with whole framed messages. The replay deals with them like greedy
   packing: what it sends and skips is what packing the messages one by one gives. -/
namespace MoldWellFormed
open FixedBytes MoldWire MoldFraming MoldPacket MoldBuffer MoldDownstream MoldLedger
open MoldTermination LoopBody NumberedStream GreedyPacking

def located (pos : Nat) : List (List UInt8) → List Entry
  | [] => []
  | m :: rest => ⟨pos, m⟩ :: located (pos + m.length) rest

def rule (S : Setup) : Rule Entry where
  size e := e.message.length
  capacity := S.config.capacity
  unwanted e := S.pacer.shouldSkip (timestampOf e.message)

/-- What packing these messages gives. -/
def plan (S : Setup) (ms : List (List UInt8)) : Packing Entry := (rule S).pack (located 0 ms)

/-- A framed message with room for a timestamp that fits into a packet. -/
structure Regular (S : Setup) (m : List UInt8) : Prop where
  framed : IsFrame m
  timed : 13 ≤ m.length
  fits : m.length ≤ S.config.capacity

/-- The file starts with these messages, and no whole message follows them. -/
structure Begins (S : Setup) (ms : List (List UInt8)) : Prop where
  bytes : ∃ tail, S.file.bytes = ms.flatten ++ tail
  regular : ∀ m ∈ ms, Regular S m
  ends : ¬ Complete S.file.bytes ms.flatten.length

/-- Where reading the last packet leaves the position: a failed read at the end of the
    messages may move it. -/
def stopped (S : Setup) (done rest : List (List UInt8)) : Nat :=
  if rest = [] then afterFailure S.file.bytes done.flatten.length else done.flatten.length

structure Arrived (S : Setup) (ms done rest : List (List UInt8)) (f : Feed) : Prop where
  whole : ms = done ++ rest
  visits : Visits (Feed.replayPass S) S.initial f
  position : f.filePos =
    if (plan S done).current = [] then done.flatten.length else stopped S done rest
  packets : (ledger S f.log).packets = (plan S done).packets
  skipped : skippedPositions f.log = positions (plan S done).dropped
  full : ∀ m ∈ rest.head?, ¬ (rule S).joins (plan S done) ⟨done.flatten.length, m⟩ = true

structure Filling (S : Setup) (ms done rest : List (List UInt8)) (timestamp : Nat) (f : Feed) :
    Prop where
  whole : ms = done ++ rest
  follows : Follows S ⟨f, .building timestamp⟩
  position : f.filePos = done.flatten.length
  packets : (ledger S f.log).packets = (plan S done).closed
  current : (ledger S f.log).current = (plan S done).current
  some : (plan S done).current ≠ []
  skipped : skippedPositions f.log = positions (plan S done).dropped

structure Filled (S : Setup) (ms done rest : List (List UInt8)) (f : Feed) : Prop where
  whole : ms = done ++ rest
  position : f.filePos = stopped S done rest
  packets : (ledger S f.log).packets = (plan S done).closed
  current : (ledger S f.log).current = (plan S done).current
  some : (plan S done).current ≠ []
  skipped : skippedPositions f.log = positions (plan S done).dropped
  full : ∀ m ∈ rest.head?, ¬ (rule S).joins (plan S done) ⟨done.flatten.length, m⟩ = true

variable {S S' : Setup} {f g : Feed} {ms done rest : List (List UInt8)} {m : List UInt8}

theorem framed_regular
    (framed : ∀ m ∈ ms, IsFrame m ∧ max 13 S.config.minMessageSize ≤ m.length ∧
      m.length ≤ S.config.MTU - 20) :
    ∀ m ∈ ms, Regular S m := by
  intro m member
  obtain ⟨isFrame, least, most⟩ := framed m member
  exact ⟨isFrame, by omega, most⟩

theorem regular_same (config : S'.config = S.config) (regular : Regular S m) : Regular S' m where
  framed := regular.framed
  timed := regular.timed
  fits := by
    rw [config]
    exact regular.fits

theorem located_snoc (pos : Nat) (ms : List (List UInt8)) (m : List UInt8) :
    located pos (ms ++ [m]) = located pos ms ++ [⟨pos + ms.flatten.length, m⟩] := by
  induction ms generalizing pos with
  | nil => simp [located]
  | cons first rest ih =>
    simp only [List.cons_append, located, ih, List.flatten_cons, List.length_append, Nat.add_assoc]

theorem plan_snoc (S : Setup) (done : List (List UInt8)) (m : List UInt8) :
    plan S (done ++ [m]) = (rule S).offer (plan S done) ⟨done.flatten.length, m⟩ := by
  rw [plan, located_snoc, pack_snoc, Nat.zero_add]
  rfl

theorem rule_total (S : Setup) (es : List Entry) :
    (rule S).total es = (messages es).flatten.length := by
  induction es with
  | nil => rfl
  | cons e rest ih =>
    unfold Rule.total
    rw [ih]
    simp [messages, rule]

theorem flatten_snoc_length (done : List (List UInt8)) (m : List UInt8) :
    (done ++ [m]).flatten.length = done.flatten.length + m.length := by
  simp

theorem next_message (begins : Begins S ms) (whole : ms = done ++ m :: rest) :
    Complete S.file.bytes done.flatten.length ∧ S.messageAt done.flatten.length = m := by
  obtain ⟨tail, bytes⟩ := begins.bytes
  have layout : S.file.bytes = done.flatten ++ m ++ (rest.flatten ++ tail) := by
    rw [bytes, whole]
    simp
  have regular := begins.regular m (by simp [whole])
  unfold Setup.messageAt
  rw [layout]
  exact frame_in_place regular.framed

theorem next_timestamp (begins : Begins S ms) (whole : ms = done ++ m :: rest) :
    peekTimestamp S.file done.flatten.length = some (timestampOf m) := by
  obtain ⟨complete, read⟩ := next_message begins whole
  have regular := begins.regular m (by simp [whole])
  have peeked := peekTimestamp_message complete (by
    rw [show messageAt S.file.bytes done.flatten.length = m from read]
    exact regular.timed)
  rw [show messageAt S.file.bytes done.flatten.length = m from read] at peeked
  exact peeked

theorem after_next (begins : Begins S ms) (whole : ms = done ++ m :: rest) :
    S.afterMessage done.flatten.length = (done ++ [m]).flatten.length := by
  obtain ⟨complete, read⟩ := next_message begins whole
  have length := messageAt_length complete
  rw [show messageAt S.file.bytes done.flatten.length = m from read] at length
  rw [flatten_snoc_length, Setup.afterMessage, length, Nat.add_assoc]

theorem next_regular (begins : Begins S ms) (whole : ms = done ++ m :: rest) : Regular S m :=
  begins.regular m (by simp [whole])

theorem regroup (whole : ms = done ++ m :: rest) : ms = (done ++ [m]) ++ rest := by
  simp [whole]

theorem filling_adds {timestamp : Nat} (begins : Begins S ms)
    (h : Filling S ms done (m :: rest) timestamp f)
    (joins : (rule S).joins (plan S done) ⟨done.flatten.length, m⟩ = true) :
    ∃ g, f.addMessage S = .again g ∧ Filling S ms (done ++ [m]) rest timestamp g := by
  obtain ⟨complete, read⟩ := next_message begins h.whole
  obtain ⟨some, room⟩ := joins_iff.mp joins
  rw [← h.position] at complete read
  have holds := h.follows.phase.1.holds
  obtain ⟨builder, added, _⟩ := tryAdd_accepts (m := S.messageAt f.filePos) holds
    (messageAt_ne_nil complete) (by
      rw [h.current, ← rule_total S, read]
      exact room)
  have moved := move_follows h.follows (.add complete added)
  have offered := offer_joins some room
  rw [← plan_snoc] at offered
  refine ⟨_, addMessage_adds complete added, regroup h.whole, moved, ?_, ?_, ?_, ?_, ?_⟩
  · rw [h.position, after_next begins h.whole]
    rfl
  · rw [ledger_accept, offered]
    exact h.packets
  · rw [ledger_accept, offered, Ledger.add, h.current, read, h.position]
  · rw [offered]
    simp
  · rw [offered]
    simpa [skippedPositions, Feed.accept, Feed.emit] using h.skipped

theorem filling_full {timestamp : Nat} (begins : Begins S ms)
    (h : Filling S ms done (m :: rest) timestamp f)
    (apart : ¬ (rule S).joins (plan S done) ⟨done.flatten.length, m⟩ = true) :
    f.addMessage S = .leave f ∧ Filled S ms done (m :: rest) f := by
  obtain ⟨complete, read⟩ := next_message begins h.whole
  rw [← h.position] at complete read
  have holds := h.follows.phase.1.holds
  have large : S.config.capacity < (messages (ledger S f.log).current).flatten.length +
      (S.messageAt f.filePos).length := by
    rw [h.current, ← rule_total S, read]
    by_contra room
    exact apart (joins_iff.mpr ⟨h.some, Nat.not_lt.mp room⟩)
  refine ⟨addMessage_full complete (tryAdd_rejects holds large), h.whole, ?_, h.packets, h.current,
    h.some, h.skipped, ?_⟩
  · rw [h.position, stopped, if_neg (by simp)]
  · intro m' first
    cases first
    exact apart

theorem filling_ends {timestamp : Nat} (begins : Begins S ms)
    (h : Filling S ms done [] timestamp f) :
    ∃ g, f.addMessage S = .leave g ∧ Filled S ms done [] g := by
  have whole : ms = done := by simpa using h.whole
  have ends := begins.ends
  rw [whole, ← h.position] at ends
  have filled : ∀ pos, pos = stopped S done [] → Filled S ms done [] { f with filePos := pos } := by
    intro pos same
    exact ⟨h.whole, same, h.packets, h.current, h.some, h.skipped, by simp⟩
  by_cases inside : f.filePos < S.file.size
  · refine ⟨_, addMessage_unreadable inside ends, filled _ ?_⟩
    unfold stopped
    rw [if_pos rfl, h.position]
  · refine ⟨f, addMessage_eof (Nat.not_lt.mp inside), filled f.filePos ?_⟩
    simp only [MappedFile.size] at inside
    unfold stopped
    rw [if_pos rfl, afterFailure, if_neg (by rw [← h.position]; omega), h.position]

theorem build_fills {timestamp : Nat} (begins : Begins S ms)
    (leaves : Leaves (Feed.addMessage S) f g) :
    ∀ {done rest}, Filling S ms done rest timestamp f →
      ∃ done' rest', done.length ≤ done'.length ∧ Filled S ms done' rest' g := by
  induction leaves with
  | leave last =>
    intro done rest h
    cases rest with
    | nil =>
      obtain ⟨g', exit, filled⟩ := filling_ends begins h
      cases Flow.leave.inj (last.symm.trans exit)
      exact ⟨done, [], Nat.le_refl _, filled⟩
    | cons m rest =>
      by_cases joins : (rule S).joins (plan S done) ⟨done.flatten.length, m⟩ = true
      · obtain ⟨g', pass, _⟩ := filling_adds begins h joins
        exact absurd (last.symm.trans pass) (by simp)
      · obtain ⟨exit, filled⟩ := filling_full begins h joins
        cases Flow.leave.inj (last.symm.trans exit)
        exact ⟨done, m :: rest, Nat.le_refl _, filled⟩
  | again pass _ ih =>
    intro done rest h
    cases rest with
    | nil =>
      obtain ⟨g', exit, _⟩ := filling_ends begins h
      exact absurd (exit.symm.trans pass) (by simp)
    | cons m rest =>
      by_cases joins : (rule S).joins (plan S done) ⟨done.flatten.length, m⟩ = true
      · obtain ⟨g', pass', filling⟩ := filling_adds begins h joins
        cases Flow.again.inj (pass.symm.trans pass')
        obtain ⟨done', rest', further, filled⟩ := ih filling
        refine ⟨done', rest', ?_, filled⟩
        rw [List.length_append] at further
        omega
      · obtain ⟨exit, _⟩ := filling_full begins h joins
        exact absurd (exit.symm.trans pass) (by simp)

theorem arrived_initial (S : Setup) (ms : List (List UInt8)) : Arrived S ms [] ms S.initial where
  whole := rfl
  visits := .refl
  position := rfl
  packets := rfl
  skipped := rfl
  full := fun _ _ => by simp [plan, located, Rule.pack, Rule.joins]

theorem arrived_position (h : Arrived S ms done (m :: rest) f) : f.filePos = done.flatten.length := by
  rw [h.position]
  split
  · rfl
  · unfold stopped
    rw [if_neg (by simp)]

theorem arrived_skips (begins : Begins S ms) (h : Arrived S ms done (m :: rest) f)
    (unwanted : S.pacer.shouldSkip (timestampOf m) = true) :
    ∃ g, f.replayPass S = .again g ∧ Arrived S ms (done ++ [m]) rest g := by
  obtain ⟨complete, _⟩ := next_message begins h.whole
  have peeked := next_timestamp begins h.whole
  have position := arrived_position h
  rw [← position] at complete peeked
  have pass : f.replayPass S =
      .again ({ f with filePos := S.afterMessage f.filePos }.emit (.skipped f.filePos)) := by
    unfold Feed.replayPass
    rw [atHead_skip ⟨_, peeked, unwanted⟩ complete]
  have dropped := offer_drops (R := rule S) (h.full m rfl) unwanted
  rw [← plan_snoc] at dropped
  refine ⟨_, pass, regroup h.whole, h.visits.tail pass, ?_, ?_, ?_, ?_⟩
  · rw [dropped, if_pos rfl]
    rw [position, after_next begins h.whole]
    rfl
  · rw [ledger_emit, dropped, packets_closed rfl]
    exact h.packets
  · have skipped := h.skipped
    unfold skippedPositions at skipped
    simp [dropped, skippedPositions, Feed.emit, skipped, position, positions]
  · intro _ _
    simp [dropped, Rule.joins]

theorem arrived_opens (begins : Begins S ms) (h : Arrived S ms done (m :: rest) f)
    (wanted : S.pacer.shouldSkip (timestampOf m) = false) :
    ∃ g, f.startPacket.addMessage S = .again g ∧
      Filling S ms (done ++ [m]) rest (timestampOf m) g := by
  obtain ⟨complete, read⟩ := next_message begins h.whole
  have peeked := next_timestamp begins h.whole
  have position := arrived_position h
  rw [← position] at complete read peeked
  have follows := visited_follows h.visits
  have started := move_follows follows (.start (timestampOf m) ⟨_, peeked, wanted⟩)
  have closed : (ledger S f.log).current = [] := follows.phase.1
  obtain ⟨builder, added, _⟩ := tryAdd_accepts (m := S.messageAt f.filePos)
    started.phase.1.holds (messageAt_ne_nil complete) (by
      change (messages (ledger S f.log).current).flatten.length + _ ≤ _
      rw [closed, read]
      simpa [messages] using (next_regular begins h.whole).fits)
  have opened := offer_opens (R := rule S) (h.full m rfl) wanted
  rw [← plan_snoc] at opened
  refine ⟨_, addMessage_adds (f := f.startPacket) complete added, regroup h.whole,
    move_follows started (.add complete added), ?_, ?_, ?_, ?_, ?_⟩
  · change S.afterMessage f.filePos = _
    rw [position, after_next begins h.whole]
  · rw [ledger_accept, opened]
    exact h.packets
  · rw [ledger_accept, opened, Ledger.add]
    change (ledger S f.log).current ++ [⟨f.filePos, S.messageAt f.filePos⟩] = _
    rw [closed, read, position]
    rfl
  · rw [opened]
    simp
  · rw [opened]
    simpa [skippedPositions, Feed.startPacket, Feed.accept, Feed.emit] using h.skipped

theorem filled_arrived {timestamp : Nat} (h : Filled S ms done rest f)
    (visits : Visits (Feed.replayPass S) S.initial (f.pace timestamp).sendPacket) :
    Arrived S ms done rest (f.pace timestamp).sendPacket where
  whole := h.whole
  visits := visits
  position := by
    rw [if_neg h.some]
    exact h.position
  packets := by
    unfold Feed.sendPacket
    rw [ledger_transmit]
    change (ledger S (f.pace timestamp).log).send.packets = _
    rw [ledger_pace, Ledger.send, h.packets, h.current, packets_open h.some]
  skipped := by
    simpa [skippedPositions, Feed.sendPacket, Feed.transmit, Feed.publishSequence, Feed.pace,
      Feed.emit] using h.skipped
  full := h.full

theorem arrived_pass (begins : Begins S ms) (h : Arrived S ms done (m :: rest) f) :
    ∃ g done' rest', f.replayPass S = .again g ∧ Arrived S ms done' rest' g ∧
      done.length < done'.length := by
  cases skips : S.pacer.shouldSkip (timestampOf m) with
  | true =>
    obtain ⟨g, pass, head⟩ := arrived_skips begins h skips
    exact ⟨g, done ++ [m], rest, pass, head, by simp⟩
  | false =>
    obtain ⟨first, pass, filling⟩ := arrived_opens begins h skips
    have peeked := next_timestamp begins h.whole
    rw [← arrived_position h] at peeked
    have leaves := buildPacket_leaves S f
    cases leaves with
    | leave last => exact absurd (last.symm.trans pass) (by simp)
    | again pass' tail =>
      cases Flow.again.inj (pass.symm.trans pass')
      obtain ⟨done', rest', further, filled⟩ := build_fills begins tail filling
      have whole : f.replayPass S =
          .again ((f.buildPacket S).pace (timestampOf m)).sendPacket := by
        unfold Feed.replayPass
        rw [atHead_build peeked skips]
      refine ⟨_, done', rest', whole, filled_arrived filled (h.visits.tail whole), ?_⟩
      rw [List.length_append, List.length_singleton] at further
      omega

theorem arrived_reaches (begins : Begins S ms) {left : Nat} : ∀ {done rest f},
    Arrived S ms done rest f → rest.length ≤ left → ∃ g, Arrived S ms ms [] g := by
  induction left with
  | zero =>
    intro done rest f h short
    have none : rest = [] := List.eq_nil_of_length_eq_zero (by omega)
    subst none
    have whole : ms = done := by simpa using h.whole
    exact ⟨f, whole ▸ h⟩
  | succ left ih =>
    intro done rest f h short
    cases rest with
    | nil => exact ih h (by simp)
    | cons m rest =>
      obtain ⟨g, done', rest', _, head, further⟩ := arrived_pass begins h
      have sizes := congrArg List.length h.whole
      have sizes' := congrArg List.length head.whole
      simp only [List.length_append, List.length_cons] at sizes sizes' short
      exact ih head (by omega)

theorem messages_replayed (begins : Begins S ms) : ∃ f, Arrived S ms ms [] f :=
  arrived_reaches begins (arrived_initial S ms) (Nat.le_refl _)

end MoldWellFormed
