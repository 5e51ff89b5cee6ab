import MoldReplay.ServerLookups
import MoldReplay.Agreement
import MoldReplay.Scan

/- Two servers that replay one file, as a multicast feed and its backup do: with whatever
   buffers and feeds, however their threads run, and wherever each is stopped. What lies
   behind their mappings may differ, so no timestamp is to be read from there. -/
namespace MoldTwinServers
open MoldPacket MoldBuffer MoldDownstream MoldGapFree MoldHeartbeatNumbers
open MoldHeartbeatLifecycle MoldServerRuns MoldServerLookups
open MoldWire MoldFraming MoldScan
open MoldAgreement (Boundary Framed run_boundaries boundary_message boundary_end)
open MoldHeartbeat hiding World Action step initial Place
open ScheduledRuns (run run_always)

/-- Setups for one replay. The buffers may have different sizes. -/
structure Twins (S S' : Setup) : Prop where
  bytes : S'.file.bytes = S.file.bytes
  inside : ∀ pos, Reaches S (.head pos) → PeeksInside S.file pos
  pacer : S'.pacer = S.pacer
  config : S'.config = S.config

/-- The replay that nobody stops, after so many steps. Its session never ends. -/
def unstopped (S : Setup) (k : Nat) : Thread := S.runThread (List.replicate k undisturbed)

def Feed.withBuffer (f : Feed) (b : RetransmissionBuffer) : Feed :=
  { f with retransmissionBuffer := b }

def Alike (t t' : Thread) : Prop := ∃ b, t' = ⟨Feed.withBuffer t.feed b, t.phase⟩

variable {S S' : Setup} {ms : List (List UInt8)} {f : Feed} {t t' : Thread} {k k' n n' : Nat}

theorem unstopped_succ (S : Setup) (k : Nat) :
    unstopped S (k + 1) = (unstopped S k).step S undisturbed := by
  rw [unstopped, List.replicate_succ', runThread_snoc]
  rfl

theorem step_sent (S : Setup) (t : Thread) (inputs : Inputs) :
    sentPackets t.feed.log <+: sentPackets (t.step S inputs).feed.log :=
  (move_log (step_moves (S := S) t inputs)).filterMap _

theorem unstopped_grows (S : Setup) (earlier : k ≤ k') :
    sentPackets (unstopped S k).feed.log <+: sentPackets (unstopped S k').feed.log := by
  induction earlier with
  | refl => exact List.prefix_rfl
  | step _ ih =>
    rw [Nat.succ_eq_add_one, unstopped_succ]
    exact ih.trans (step_sent S _ undisturbed)

theorem left_silent (out : left t.phase = true) (inputs : Inputs) :
    left (t.step S inputs).phase = true ∧
      sentPackets (t.step S inputs).feed.log = sentPackets t.feed.log := by
  obtain ⟨f, phase⟩ := t
  cases phase with
  | ending =>
    simp only [Thread.step]
    split
    · exact ⟨rfl, by simp [sentPackets, Feed.emit]⟩
    · exact ⟨rfl, rfl⟩
  | stopping => exact ⟨rfl, rfl⟩
  | joining => exact ⟨rfl, rfl⟩
  | finished => exact ⟨rfl, rfl⟩
  | _ => cases out

theorem unstopped_left (out : left (unstopped S k).phase = true) (later : k ≤ k') :
    sentPackets (unstopped S k').feed.log = sentPackets (unstopped S k).feed.log := by
  have stays : left (unstopped S k').phase = true ∧
      sentPackets (unstopped S k').feed.log = sentPackets (unstopped S k).feed.log := by
    induction later with
    | refl => exact ⟨out, rfl⟩
    | step _ ih =>
      have silent := left_silent (S := S) ih.1 undisturbed
      rw [Nat.succ_eq_add_one, unstopped_succ]
      exact ⟨silent.1, silent.2.trans ih.2⟩
  exact stays.2

theorem Twins.size (twins : Twins S S') : S'.file.size = S.file.size := by
  simp only [MappedFile.size, twins.bytes]

theorem peek_inside {file file' : MappedFile} {pos : Nat} (bytes : file'.bytes = file.bytes)
    (inside : PeeksInside file pos) : peekTimestamp file' pos = peekTimestamp file pos := by
  have size : file'.size = file.size := by simp only [MappedFile.size, bytes]
  have far := (peeksInside_iff file pos).mp inside
  unfold peekTimestamp
  rw [size]
  split
  · rfl
  · rename_i enough
    simp only [lengthPrefixSize, timestampSize] at enough
    have copied : (List.range timestampSize).map
          (fun i => file'.byteAt (pos + lengthPrefixSize + (timestampOffset + i))) =
        (List.range timestampSize).map
          fun i => file.byteAt (pos + lengthPrefixSize + (timestampOffset + i)) := by
      refine List.map_congr_left fun i member => ?_
      have small : i < 6 := List.mem_range.mp member
      have read : pos + lengthPrefixSize + (timestampOffset + i) < file.bytes.length := by
        simp only [MappedFile.size, lengthPrefixSize, timestampOffset] at enough far ⊢
        omega
      simp only [MappedFile.byteAt, bytes, List.getD_eq_getElem?_getD,
        List.getElem?_eq_getElem read, Option.getD_some]
    simp only [extractTimestamp, copied]

theorem framed_inside (framed : Framed S ms) (pos : Nat) (reached : Reaches S (.head pos)) :
    PeeksInside S.file pos := by
  obtain ⟨inputs, there⟩ := scan_taken reached
  generalize at_head : S.runThread inputs = t at there
  cases there with
  | @head f _ =>
    have boundary : Boundary ms f.filePos := by
      have position := (run_boundaries framed inputs).position
      rwa [at_head] at position
    refine (peeksInside_iff _ _).mpr ?_
    by_cases complete : Complete S.file.bytes f.filePos
    · have long := framed.timed _ (boundary_message framed boundary complete).1
      rw [Setup.messageAt, messageAt_length complete] at long
      simp only [MappedFile.size]
      omega
    · have last := boundary_end framed boundary complete
      omega

theorem framed_twins (framed : Framed S ms) (bytes : S'.file.bytes = S.file.bytes)
    (pacer : S'.pacer = S.pacer) (config : S'.config = S.config) : Twins S S' :=
  ⟨bytes, framed_inside framed, pacer, config⟩

/- What the buffer is has no influence on what the thread does next. -/
theorem atHead_twin (twins : Twins S S')
    (peeks : peekTimestamp S'.file f.filePos = peekTimestamp S.file f.filePos)
    (stopRequested : Bool) (b : RetransmissionBuffer) :
    (Feed.withBuffer f b).atHead S' stopRequested =
      match f.atHead S stopRequested with
      | .leave g => .leave (Feed.withBuffer g b)
      | .skipped g => .skipped (Feed.withBuffer g b)
      | .build timestamp => .build timestamp := by
  simp only [Feed.atHead, Feed.withBuffer, peeks, twins.size, twins.bytes, twins.pacer]
  split
  · split
    · rfl
    · split
      · split <;> rfl
      · rfl
  · rfl

theorem addMessage_twin (twins : Twins S S') (b : RetransmissionBuffer) : ∃ b',
    (Feed.withBuffer f b).addMessage S' =
      match f.addMessage S with
      | .leave g => .leave (Feed.withBuffer g b)
      | .again g => .again (Feed.withBuffer g b') := by
  refine ⟨b.push ⟨f.sequenceNumber, f.filePos⟩, ?_⟩
  simp only [Feed.addMessage, Feed.withBuffer, twins.size, twins.bytes]
  split
  · split
    · rfl
    · split <;> rfl
  · rfl

theorem step_twin (twins : Twins S S') (alike : Alike t t') (inputs : Inputs)
    (peeks : t.phase = .replaying →
      peekTimestamp S'.file t.feed.filePos = peekTimestamp S.file t.feed.filePos) :
    Alike (t.step S inputs) (t'.step S' inputs) := by
  obtain ⟨b, rfl⟩ := alike
  obtain ⟨f, phase⟩ := t
  cases phase with
  | replaying =>
    simp only [Thread.step, atHead_twin twins (peeks rfl)]
    cases f.atHead S inputs.stopRequested with
    | leave g => exact ⟨b, rfl⟩
    | skipped g => exact ⟨b, rfl⟩
    | build timestamp => exact ⟨b, rfl⟩
  | building timestamp =>
    obtain ⟨b', added⟩ := addMessage_twin (f := f) twins b
    simp only [Thread.step, added]
    cases f.addMessage S with
    | leave g => exact ⟨b, rfl⟩
    | again g => exact ⟨b', rfl⟩
  | ending =>
    simp only [Thread.step]
    split <;> exact ⟨b, rfl⟩
  | _ => exact ⟨b, rfl⟩

theorem initial_twin (twins : Twins S S') : Alike S.thread S'.thread := by
  have builders := S'.built
  rw [twins.config, S.built] at builders
  have same : S'.builder = S.builder := (Except.ok.inj builders).symm
  exact ⟨S'.emptyBuffer, by simp [Setup.thread, Setup.initial, Feed.withBuffer, same]⟩

theorem unstopped_twin (twins : Twins S S') (k : Nat) :
    Alike (unstopped S k) (unstopped S' k) := by
  induction k with
  | zero => exact initial_twin twins
  | succ k ih =>
    rw [unstopped_succ, unstopped_succ]
    refine step_twin twins ih undisturbed fun replaying => ?_
    generalize there : unstopped S k = t at replaying
    obtain ⟨f, phase⟩ := t
    cases replaying
    exact peek_inside twins.bytes (twins.inside _ (head_reached there))

theorem twin_sent (twins : Twins S S') (k : Nat) :
    sentPackets (unstopped S' k).feed.log = sentPackets (unstopped S k).feed.log := by
  obtain ⟨b, same⟩ := unstopped_twin twins k
  rw [same]
  rfl

theorem step_unasked (S : Setup) (replaying : t.phase ≠ .replaying) (ending : t.phase ≠ .ending)
    (inputs : Inputs) : t.step S inputs = t.step S undisturbed := by
  obtain ⟨f, phase⟩ := t
  cases phase with
  | replaying => exact absurd rfl replaying
  | ending => exact absurd rfl ending
  | _ => rfl

/-- The thread of a server, as the replay that nobody stops, or as what it has become. -/
inductive OnCourse (S : Setup) (stopRequested : Bool) (t : Thread) : Prop where
  | onward {k : Nat} (same : t = unstopped S k) : OnCourse S stopRequested t
  | stopped {k : Nat} (sent : sentPackets t.feed.log = sentPackets (unstopped S k).feed.log)
      (out : left t.phase = true) (stopped : stopRequested = true)
      (silent : endOfSessionPackets t.feed.log = []) : OnCourse S stopRequested t
  | complete {k : Nat} (sent : sentPackets t.feed.log = sentPackets (unstopped S k).feed.log)
      (finished : t.phase = .finished) (out : left (unstopped S k).phase = true) :
      OnCourse S stopRequested t

theorem onward_step (S : Setup) (k : Nat) (stopRequested expired : Bool) :
    OnCourse S stopRequested ((unstopped S k).step S ⟨stopRequested, expired⟩) := by
  by_cases replaying : (unstopped S k).phase = .replaying
  · cases stopRequested with
    | false =>
      refine .onward (k := k + 1) ?_
      rw [unstopped_succ]
      simp only [Thread.step, replaying, undisturbed]
    | true =>
      have leaves : (unstopped S k).step S ⟨true, expired⟩ = ⟨(unstopped S k).feed, .stopping⟩ := by
        simp only [Thread.step, replaying, atHead_stopped]
      have silent : endOfSessionPackets (unstopped S k).feed.log = [] :=
        early_silent (run_announced S (List.replicate k undisturbed))
          (show (unstopped S k).phase.ended = false by rw [replaying]; rfl)
      rw [leaves]
      exact .stopped (k := k) rfl rfl rfl silent
  · by_cases ending : (unstopped S k).phase = .ending
    · cases asked : stopRequested || expired with
      | false =>
        refine .onward (k := k + 1) ?_
        rw [unstopped_succ]
        simp only [Bool.or_eq_false_iff] at asked
        rw [asked.1, asked.2]
        rfl
      | true =>
        have ends : (unstopped S k).step S ⟨stopRequested, expired⟩ =
            ⟨(unstopped S k).feed, .finished⟩ := by
          have final : (!stopRequested && !expired) = false := by
            rw [← Bool.not_or, asked]
            rfl
          simp [Thread.step, ending, final]
        rw [ends]
        exact .complete (k := k) rfl rfl (by rw [ending]; rfl)
    · refine .onward (k := k + 1) ?_
      rw [unstopped_succ]
      exact step_unasked S replaying ending _

theorem stopped_silent (out : left t.phase = true)
    (silent : endOfSessionPackets t.feed.log = []) (expired : Bool) :
    endOfSessionPackets (t.step S ⟨true, expired⟩).feed.log = [] := by
  obtain ⟨f, phase⟩ := t
  cases phase with
  | stopping => exact silent
  | joining => exact silent
  | ending => exact silent
  | finished => exact silent
  | _ => cases out

theorem course_step {stopRequested : Bool} (h : OnCourse S stopRequested t) (expired : Bool) :
    OnCourse S stopRequested (t.step S ⟨stopRequested, expired⟩) := by
  cases h with
  | onward same =>
    rw [same]
    exact onward_step S _ stopRequested expired
  | stopped sent out stopped silent =>
    obtain ⟨out', kept⟩ := left_silent (S := S) out ⟨stopRequested, expired⟩
    rw [stopped] at kept out' ⊢
    exact .stopped (kept.trans sent) out' rfl (stopped_silent out silent expired)
  | complete sent finished out =>
    have stays : t.step S ⟨stopRequested, expired⟩ = t := by
      obtain ⟨f, phase⟩ := t
      cases finished
      rfl
    rw [stays]
    exact .complete sent finished out

theorem course_asked {stopRequested stopRequested' : Bool} (h : OnCourse S stopRequested t)
    (asked : stopRequested = true → stopRequested' = true) : OnCourse S stopRequested' t := by
  cases h with
  | onward same => exact .onward same
  | stopped sent out stopped silent => exact .stopped sent out (asked stopped) silent
  | complete sent finished out => exact .complete sent finished out

theorem advance_course {w w' : World n} (h : OnCourse S w.stopRequested w.heart.thread)
    (advance : Advance S w w') : OnCourse S w'.stopRequested w'.heart.thread := by
  have requested : w.stopRequested = true → w.requestStop.stopRequested = true := by
    intro stopped
    simp [World.requestStop, stopped]
  cases advance with
  | stop _ => exact course_asked h requested
  | requestStop _ => exact course_asked h requested
  | replay running unfinished ready expired =>
    rcases replay_thread S w.heart ⟨w.stopRequested, expired⟩ with same | stepped
    · exact same ▸ h
    · exact stepped ▸ course_step h expired
  | beat => exact heartbeat_thread S w.heart ▸ h
  | _ => exact h

theorem run_course (S : Setup) (actions : List (Action n)) :
    OnCourse S (run (step S) (initial S n) actions).stopRequested
      (run (step S) (initial S n) actions).heart.thread :=
  run_always (I := fun w : World n => OnCourse S w.stopRequested w.heart.thread)
    (fun w a h => advance_course h (step_advances S w a)) actions (.onward (k := 0) rfl)

theorem course_sent {stopRequested : Bool} (h : OnCourse S stopRequested t)
    (announced : Announced S t) : ∃ k,
    sentPackets t.feed.log = sentPackets (unstopped S k).feed.log ∧
      (endOfSessionPackets t.feed.log ≠ [] → left (unstopped S k).phase = true) := by
  cases h with
  | @onward k same =>
    refine ⟨k, by rw [same], ?_⟩
    intro some_
    obtain ⟨p, member⟩ := List.exists_mem_of_ne_nil _ some_
    have ended := (announced p member).1
    rw [← same]
    cases phase : t.phase <;> rw [phase] at ended <;> first | rfl | cases ended
  | stopped sent out stopped silent => exact ⟨_, sent, fun some_ => absurd silent some_⟩
  | complete sent finished out => exact ⟨_, sent, fun _ => out⟩

def multicast (S : Setup) (actions : List (Action n)) : List Datagram :=
  (run (step S) (initial S n) actions).heart.wire

theorem multicast_course (S : Setup) (actions : List (Action n)) : ∃ k,
    dataPackets (multicast S actions) = sentPackets (unstopped S k).feed.log ∧
      (endOfSessions (multicast S actions) ≠ [] → left (unstopped S k).phase = true) := by
  obtain ⟨beats, same⟩ := run_heart S actions
  have together := run_together S beats
  rw [← same] at together
  rw [multicast, together.data, together.ends]
  exact course_sent (run_course S actions) together.announced

/-- The data packets of one server start with those of the other one. Where a server has
    sent an end of session packet, no twin ever sends more than it has. -/
theorem twin_servers_agree (S S' : Setup) (twins : Twins S S') (actions : List (Action n))
    (actions' : List (Action n')) (_once : StartedOnce actions) (_once' : StartedOnce actions') :
    (dataPackets (multicast S actions) <+: dataPackets (multicast S' actions') ∨
      dataPackets (multicast S' actions') <+: dataPackets (multicast S actions)) ∧
    (endOfSessions (multicast S actions) ≠ [] →
      dataPackets (multicast S' actions') <+: dataPackets (multicast S actions)) := by
  obtain ⟨k, sent, complete⟩ := multicast_course S actions
  obtain ⟨k', sent', -⟩ := multicast_course S' actions'
  rw [twin_sent twins] at sent'
  rw [sent, sent']
  refine ⟨(Nat.le_total k k').imp (unstopped_grows S) (unstopped_grows S), fun ended => ?_⟩
  rcases Nat.le_total k k' with earlier | later
  · exact unstopped_left (complete ended) earlier ▸ List.prefix_rfl
  · exact unstopped_grows S later

def wholeReplay : List (Action 1) :=
  .call .start :: (List.replicate 20 [.downstream false, .heartbeat]).flatten

/-- What lies behind the file is zero for the one server, and 255 for the other. -/
theorem stopped_twin_agrees : ∃ S S',
    Setup.make ⟨MoldFraming.frame (List.replicate 12 1), fun _ => 0, by decide⟩ ⟨0⟩
      { session := List.replicate 10 0x20 } 4 = .ok S ∧
    Setup.make ⟨MoldFraming.frame (List.replicate 12 1), fun _ => 255, by decide⟩ ⟨0⟩
      { session := List.replicate 10 0x20 } 5 = .ok S' ∧
    dataPackets (multicast S' ([.call .start, .call .stop] : List (Action 2))) <+:
      dataPackets (multicast S wholeReplay) := by
  refine ⟨_, _, rfl, rfl,
    (twin_servers_agree _ _ ?_ wholeReplay [.call .start, .call .stop] ?_ ?_).2 ?_⟩
  · refine framed_twins (show Framed _ [frame (List.replicate 12 1)] from ⟨rfl, ?_, ?_⟩)
      rfl rfl rfl
    · intro m member
      rw [List.mem_singleton.mp member]
      exact frame_isFrame _ (by decide)
    · intro m member
      rw [List.mem_singleton.mp member]
      decide
  · unfold StartedOnce
    decide
  · unfold StartedOnce
    decide
  · decide +kernel

end MoldTwinServers
