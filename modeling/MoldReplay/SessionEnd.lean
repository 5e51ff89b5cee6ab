import MoldReplay.TimedReplay
import MoldReplay.HeartbeatLifecycle

/- How often heartbeats and end of session packets are sent, and how many of the latter. -/
namespace MoldSessionEnd
open MoldDownstream MoldGapFree MoldHeartbeatLifecycle MoldHeartbeatNumbers MoldTimedReplay
open ScheduledRuns
open MoldHeartbeat hiding World step initial Action

def Spaced (gap : Int) (times : List Int) : Prop := times.Pairwise fun s t => s + gap ≤ t

theorem spaced_snoc {gap time : Int} {times : List Int} (spaced : Spaced gap times)
    (later : ∀ s ∈ times, s + gap ≤ time) : Spaced gap (times ++ [time]) := by
  rw [Spaced, List.pairwise_append]
  refine ⟨spaced, List.pairwise_singleton _ _, ?_⟩
  intro s member t only
  rw [List.mem_singleton.mp only]
  exact later s member

theorem spaced_span {gap first : Int} {times : List Int} (spaced : Spaced gap times)
    (from_ : ∀ t ∈ times, first ≤ t) :
    ∀ last ∈ times.getLast?, first + ((times.length : Int) - 1) * gap ≤ last := by
  induction times using List.reverseRecOn with
  | nil => simp
  | append_singleton times t ih =>
    obtain ⟨before, _, later⟩ := List.pairwise_append.mp spaced
    intro last member
    rw [List.getLast?_concat, Option.mem_some] at member
    rw [← member]
    rcases List.eq_nil_or_concat times with rfl | ⟨rest, s, rfl⟩
    · simpa using from_ t (by simp)
    · have span := ih before (fun u inside => from_ u (List.mem_append_left _ inside)) s (by simp)
      have next := later s (by simp) t (by simp)
      simp only [List.length_append, List.length_singleton] at span ⊢
      push_cast at span ⊢
      linarith

def beatTimes (sent : List (Int × Datagram)) : List Int :=
  sent.filterMap fun | (time, .heartbeat _) => some time | _ => none
def endTimes (sent : List (Int × Datagram)) : List Int :=
  sent.filterMap fun | (time, .endOfSession _) => some time | _ => none

variable {S : Setup} {T : Timing} {w w' : World} {h : MoldHeartbeat.World} {ds : List Datagram}

theorem beatTimes_append (sent : List (Int × Datagram)) (ds : List Datagram) (time : Int) :
    beatTimes (sent ++ ds.map fun d => (time, d)) =
      beatTimes sent ++ (heartbeats ds).map fun _ => time := by
  have now : beatTimes (ds.map fun d => (time, d)) = (heartbeats ds).map fun _ => time := by
    induction ds with
    | nil => rfl
    | cons d rest ih => cases d <;> simpa [beatTimes, heartbeats] using ih
  rw [← now]
  exact List.filterMap_append

theorem endTimes_append (sent : List (Int × Datagram)) (ds : List Datagram) (time : Int) :
    endTimes (sent ++ ds.map fun d => (time, d)) =
      endTimes sent ++ (endOfSessions ds).map fun _ => time := by
  have now : endTimes (ds.map fun d => (time, d)) = (endOfSessions ds).map fun _ => time := by
    induction ds with
    | nil => rfl
    | cons d rest ih => cases d <;> simpa [endTimes, endOfSessions] using ih
  rw [← now]
  exact List.filterMap_append

theorem take_downstream (S : Setup) (w : World) (inputs : Inputs) :
    beatTimes (w.take S (.downstream inputs)).sent = beatTimes w.sent ∧
      (w.heart.thread.phase ≠ .ending →
        endTimes (w.take S (.downstream inputs)).sent = endTimes w.sent) := by
  cases step_untimed S w.heart (.downstream inputs) with
  | joining phase same =>
    have nothing : (MoldHeartbeat.step S w.heart (.downstream inputs)).wire = w.heart.wire ++ [] := by
      rw [same, List.append_nil]
    rw [take_sent nothing, List.map_nil, List.append_nil]
    exact ⟨rfl, fun _ => rfl⟩
  | downstream wire thread emits =>
    rw [take_sent wire, beatTimes_append, endTimes_append]
    generalize (MoldHeartbeat.step S w.heart (.downstream inputs)).thread = t' at emits
    generalize w.heart.thread = t at emits ⊢
    cases emits with
    | quiet _ _ _ _ => simp [heartbeats, endOfSessions]
    | data f => simp [heartbeats, endOfSessions]
    | endOfSession f => simp [heartbeats]

theorem take_heartbeat (S : Setup) (w : World) :
    endTimes (w.take S .heartbeat).sent = endTimes w.sent ∧
      (beatTimes (w.take S .heartbeat).sent = beatTimes w.sent ∨
        (∃ seq, w.heart.beat.place = .sending seq) ∧
          beatTimes (w.take S .heartbeat).sent = beatTimes w.sent ++ [w.steady]) := by
  cases place : w.heart.beat.place with
  | sending seq =>
    have wire : (MoldHeartbeat.step S w.heart .heartbeat).wire =
        w.heart.wire ++ [.heartbeat (w.heart.beat.heartbeat.send seq).2] := by
      simp [MoldHeartbeat.step, place]
    rw [take_sent wire, endTimes_append, beatTimes_append]
    exact ⟨by simp [endOfSessions], Or.inr ⟨⟨seq, rfl⟩, rfl⟩⟩
  | _ =>
    have wire : (MoldHeartbeat.step S w.heart .heartbeat).wire = w.heart.wire ++ [] := by
      simp [MoldHeartbeat.step, place, MoldHeartbeat.World.setPlace]
    rw [take_sent wire, List.map_nil, List.append_nil]
    exact ⟨rfl, Or.inl rfl⟩

theorem ending_announces (S : Setup) (ending : w.heart.thread.phase = .ending) :
    (w.take S (.downstream undisturbed)).heart.thread.phase = .ending ∧
      endTimes (w.take S (.downstream undisturbed)).sent = endTimes w.sent ++ [w.steady] := by
  have stepped : w.heart.thread.step S undisturbed =
      ⟨w.heart.thread.feed.emit (.endOfSession w.heart.thread.feed.endOfSessionPacket), .ending⟩ := by
    simp [Thread.step, ending, undisturbed]
  have next : MoldHeartbeat.step S w.heart (.downstream undisturbed) = _ :=
    if_neg (by simp [ending])
  have wire : (MoldHeartbeat.step S w.heart (.downstream undisturbed)).wire =
      w.heart.wire ++ [.endOfSession w.heart.thread.feed.endOfSessionPacket] := by
    rw [next]
    simp [stepped, emitted, Feed.emit, datagram]
  refine ⟨?_, ?_⟩
  · change (MoldHeartbeat.step S w.heart (.downstream undisturbed)).thread.phase = .ending
    rw [next]
    simp [stepped]
  · rw [take_sent wire, endTimes_append]
    rfl

theorem ending_finishes (S : Setup) (ending : w.heart.thread.phase = .ending)
    (stopRequested : Bool) :
    (w.take S (.downstream ⟨stopRequested, true⟩)).heart.thread.phase = .finished ∧
      endTimes (w.take S (.downstream ⟨stopRequested, true⟩)).sent = endTimes w.sent := by
  have stepped : w.heart.thread.step S ⟨stopRequested, true⟩ = ⟨w.heart.thread.feed, .finished⟩ := by
    simp [Thread.step, ending]
  have next : MoldHeartbeat.step S w.heart (.downstream ⟨stopRequested, true⟩) = _ :=
    if_neg (by simp [ending])
  have wire : (MoldHeartbeat.step S w.heart (.downstream ⟨stopRequested, true⟩)).wire =
      w.heart.wire ++ [] := by
    rw [next]
    simp [stepped, emitted]
  refine ⟨?_, ?_⟩
  · change (MoldHeartbeat.step S w.heart (.downstream ⟨stopRequested, true⟩)).thread.phase = .finished
    rw [next]
    simp [stepped]
  · rw [take_sent wire, List.map_nil, List.append_nil]

theorem ended_stays (S : Setup) (h : MoldHeartbeat.World) (inputs : Inputs)
    (ended : h.thread.phase.ended = true) :
    (MoldHeartbeat.step S h (.downstream inputs)).thread.phase.ended = true := by
  cases step_untimed S h (.downstream inputs) with
  | joining phase same =>
    rw [same]
    exact ended
  | downstream wire thread emits =>
    rw [thread]
    exact goes_ended (thread_goes S h.thread inputs) ended

structure Spacing (T : Timing) (w : World) : Prop where
  beats : Spaced T.heartbeatPeriod (beatTimes w.sent)
  beatsPast : ∀ s ∈ beatTimes w.sent, s ≤ w.steady
  beatsSlept : ∀ s ∈ beatTimes w.sent, s + T.heartbeatPeriod ≤ w.beatWakeAt
  ends : Spaced T.heartbeatPeriod (endTimes w.sent)
  endsPast : ∀ s ∈ endTimes w.sent, s ≤ w.steady
  endsSlept : ∀ s ∈ endTimes w.sent, s + T.heartbeatPeriod ≤ w.wakeAt
  early : w.heart.thread.phase.ended = false → w.sessionEnd = none
  unstarted : w.sessionEnd = none → endTimes w.sent = []

theorem spacing_kept (h : Spacing T w) (beats : beatTimes w'.sent = beatTimes w.sent)
    (ends : endTimes w'.sent = endTimes w.sent) (steady : w.steady ≤ w'.steady)
    (beatWakeAt : w'.beatWakeAt = w.beatWakeAt)
    (wakeAt : endTimes w.sent = [] ∨ w'.wakeAt = w.wakeAt)
    (early : w'.heart.thread.phase.ended = false → w'.sessionEnd = none)
    (unstarted : w'.sessionEnd = none → endTimes w.sent = []) : Spacing T w' where
  beats := by rw [beats]; exact h.beats
  beatsPast := by
    rw [beats]
    exact fun s member => Int.le_trans (h.beatsPast s member) steady
  beatsSlept := by rw [beats, beatWakeAt]; exact h.beatsSlept
  ends := by rw [ends]; exact h.ends
  endsPast := by
    rw [ends]
    exact fun s member => Int.le_trans (h.endsPast s member) steady
  endsSlept := by
    rw [ends]
    rcases wakeAt with nothing | same
    · simp [nothing]
    · rw [same]
      exact h.endsSlept
  early := early
  unstarted := by rw [ends]; exact unstarted

theorem spacing_replaying (h : Spacing T w) (inputs : Inputs)
    (replaying : w.heart.thread.phase ≠ .ending) (wakeAt : Int) (pause : Pause)
    (kept : w.heart.thread.phase.ended = false ∨ wakeAt = w.wakeAt) :
    Spacing T { w.take S (.downstream inputs) with wakeAt := wakeAt, pause := pause } := by
  obtain ⟨beats, ends⟩ := take_downstream S w inputs
  refine spacing_kept h beats (ends replaying) (Int.le_refl _) rfl ?_ ?_ h.unstarted
  · exact kept.imp (fun early => h.unstarted (h.early early)) id
  · intro early
    apply h.early
    by_contra ended
    have stays := ended_stays S w.heart inputs (by simpa using ended)
    change (MoldHeartbeat.step S w.heart (.downstream inputs)).thread.phase.ended = false at early
    rw [stays] at early
    cases early

theorem spacing_announces (h : Spacing T w) (awake : w.wakeAt ≤ w.steady)
    (ending : w.heart.thread.phase = .ending) {sessionEnd : Int}
    (ends : w.sessionEnd = some sessionEnd) :
    Spacing T ((w.take S (.downstream undisturbed)).sleepUntil (w.steady + T.heartbeatPeriod)) := by
  obtain ⟨phase, times⟩ := ending_announces S ending
  obtain ⟨beats, _⟩ := take_downstream S w undisturbed
  refine {
    beats := ?beats
    beatsPast := ?beatsPast
    beatsSlept := ?beatsSlept
    ends := ?ends
    endsPast := ?endsPast
    endsSlept := ?endsSlept
    early := ?early
    unstarted := ?unstarted }
  case beats => exact beats ▸ h.beats
  case beatsPast => exact beats ▸ h.beatsPast
  case beatsSlept => exact beats ▸ h.beatsSlept
  case early =>
    intro early
    change (w.take S (.downstream undisturbed)).heart.thread.phase.ended = false at early
    rw [phase] at early
    cases early
  case unstarted =>
    intro unstarted
    change w.sessionEnd = none at unstarted
    rw [ends] at unstarted
    cases unstarted
  case ends =>
    change Spaced T.heartbeatPeriod (endTimes (w.take S (.downstream undisturbed)).sent)
    rw [times]
    exact spaced_snoc h.ends fun s member => Int.le_trans (h.endsSlept s member) awake
  case endsPast =>
    change ∀ s ∈ endTimes (w.take S (.downstream undisturbed)).sent, s ≤ w.steady
    rw [times]
    simpa [or_imp, forall_and] using h.endsPast
  case endsSlept =>
    change ∀ s ∈ endTimes (w.take S (.downstream undisturbed)).sent,
      s + T.heartbeatPeriod ≤ w.steady + T.heartbeatPeriod
    rw [times]
    simpa [or_imp, forall_and] using h.endsPast

theorem spacing_beats (h : Spacing T w) (awake : w.beatWakeAt ≤ w.steady) :
    Spacing T ((w.take S .heartbeat).beatSleepsUntil (w.steady + T.heartbeatPeriod)) := by
  obtain ⟨ends, beats⟩ := take_heartbeat S w
  have thread := heartbeat_thread S w.heart
  have times : ∀ s ∈ beatTimes (w.take S .heartbeat).sent, s ∈ beatTimes w.sent ∨ s = w.steady := by
    intro s member
    rcases beats with same | ⟨_, more⟩
    · exact Or.inl (same ▸ member)
    · rw [more, List.mem_append, List.mem_singleton] at member
      exact member
  refine {
    beats := ?beats
    beatsPast := ?beatsPast
    beatsSlept := ?beatsSlept
    ends := ends ▸ h.ends
    endsPast := ends ▸ h.endsPast
    endsSlept := ends ▸ h.endsSlept
    early := ?early
    unstarted := ends ▸ h.unstarted }
  case beats =>
    change Spaced T.heartbeatPeriod (beatTimes (w.take S .heartbeat).sent)
    rcases beats with same | ⟨_, more⟩
    · rw [same]
      exact h.beats
    · rw [more]
      exact spaced_snoc h.beats fun s member => Int.le_trans (h.beatsSlept s member) awake
  case beatsPast =>
    intro s member
    rcases times s member with old | rfl
    · exact h.beatsPast s old
    · exact Int.le_refl _
  case beatsSlept =>
    intro s member
    apply Int.add_le_add_right
    rcases times s member with old | rfl
    · exact h.beatsPast s old
    · exact Int.le_refl _
  case early =>
    change (MoldHeartbeat.step S w.heart .heartbeat).thread.phase.ended = false → _
    rw [thread]
    exact h.early

theorem tick_spacing {a : Action} (h : Spacing T w) (tick : Tick S T w a w') : Spacing T w' := by
  cases tick with
  | pass duration =>
    exact spacing_kept h rfl rfl (Int.le_add_of_nonneg_right (Int.natCast_nonneg _)) rfl
      (Or.inr rfl) h.early h.unstarted
  | setClock time =>
    exact spacing_kept h rfl rfl (Int.le_refl _) rfl (Or.inr rfl) h.early h.unstarted
  | asleep stopRequested _ => exact h
  | beatAsleep _ => exact h
  | originate pacing fresh =>
    exact spacing_kept h rfl rfl (Int.le_refl _) rfl (Or.inr rfl) h.early h.unstarted
  | compute pacing originated =>
    exact spacing_kept h rfl rfl (Int.le_refl _) rfl (Or.inr rfl) h.early h.unstarted
  | pace pacing computed =>
    exact spacing_replaying h undisturbed (by simp [pacing]) _ _
      (Or.inl (by rw [pacing]; rfl))
  | startEnding _ ending first =>
    refine spacing_kept h rfl rfl (Int.le_refl _) rfl (Or.inr rfl) ?_ ?_
    · intro early
      change w.heart.thread.phase.ended = false at early
      rw [ending] at early
      cases early
    · intro unstarted
      cases unstarted
  | announce awake ending ends early => exact spacing_announces h awake ending ends
  | @finish stopRequested sessionEnd ending ends closed =>
    obtain ⟨phase, times⟩ := ending_finishes S ending stopRequested
    obtain ⟨beats, _⟩ := take_downstream S w ⟨stopRequested, true⟩
    refine spacing_kept h beats times (Int.le_refl _) rfl (Or.inr rfl) ?_ h.unstarted
    intro early
    rw [phase] at early
    cases early
  | downstream stopRequested awake unpaced replaying =>
    exact spacing_replaying h ⟨stopRequested, false⟩ replaying w.wakeAt w.pause (Or.inr rfl)
  | beat awake sending => exact spacing_beats h awake
  | heartbeat _ quiet =>
    obtain ⟨ends, beats⟩ := take_heartbeat S w
    have same := beats.resolve_right fun ⟨⟨seq, sending⟩, _⟩ => quiet seq sending
    refine spacing_kept h same ends (Int.le_refl _) rfl (Or.inr rfl) ?_ h.unstarted
    change (MoldHeartbeat.step S w.heart .heartbeat).thread.phase.ended = false → _
    rw [heartbeat_thread]
    exact h.early

theorem initial_spacing (S : Setup) (T : Timing) (now highResolution : Int) :
    Spacing T (initial S now highResolution) := by
  constructor <;> simp [initial, beatTimes, endTimes, Spaced]

theorem run_spacing (S : Setup) (T : Timing) (now highResolution : Int) (actions : List Action) :
    Spacing T (run (step S T) (initial S now highResolution) actions) :=
  run_always (I := Spacing T) (fun w a h => tick_spacing h (step_ticks S T w a)) actions
    (initial_spacing S T now highResolution)

/-- When the end of the session was computed, as long as nobody has set the clock since. -/
def begun (T : Timing) (w : World) (sessionEnd : Int) : Int :=
  w.steady - (w.highResolution - (sessionEnd - T.endOfSessionDuration))

def nextPass (T : Timing) (times : List Int) (start : Int) : Int :=
  (times.getLast?.map (· + T.heartbeatPeriod)).getD start

/-- high_resolution_clock is not set while end_of_session runs. -/
def ClockKept (w : World) : Action → Prop
  | .setClock _ => w.heart.thread.phase ≠ .ending
  | _ => True

/-- end_of_session is not stopped, and no pass of it starts later than this after a sleep. -/
def Punctual (T : Timing) (late : Int) (w : World) : Action → Prop
  | .downstream stopRequested => w.heart.thread.phase = .ending → ∀ sessionEnd ∈ w.sessionEnd,
      stopRequested = false ∧
        w.steady ≤ nextPass T (endTimes w.sent) (begun T w sessionEnd) + late
  | _ => True

structure Session (T : Timing) (w : World) (start : Int) : Prop where
  past : start ≤ w.steady
  known : w.heart.thread.phase = .ending → ∀ sessionEnd ∈ w.sessionEnd,
    begun T w sessionEnd = start
  inside : ∀ s ∈ endTimes w.sent, start ≤ s ∧ s < start + T.endOfSessionDuration

structure Kept (T : Timing) (late : Int) (w : World) (start : Int) : Prop where
  next : nextPass T (endTimes w.sent) start ≤
    start + (endTimes w.sent).length * (T.heartbeatPeriod + late)
  finished : w.heart.thread.phase = .finished →
    T.endOfSessionDuration ≤ (endTimes w.sent).length * (T.heartbeatPeriod + late) + late

variable {late start : Int}

theorem replaying_phase (S : Setup) (h : MoldHeartbeat.World) (inputs : Inputs)
    (replaying : h.thread.phase ≠ .ending) :
    ((MoldHeartbeat.step S h (.downstream inputs)).thread.phase = .ending →
      h.thread.phase.ended = false) ∧
    ((MoldHeartbeat.step S h (.downstream inputs)).thread.phase = .finished →
      h.thread.phase = .finished) := by
  cases step_untimed S h (.downstream inputs) with
  | joining phase same =>
    rw [same, phase]
    refine ⟨?_, id⟩
    intro ending
    cases ending
  | downstream wire thread emits =>
    have before := step_ended (S := S) h.thread inputs
    rw [thread]
    obtain ⟨⟨f, phase⟩, beat, wire⟩ := h
    cases phase with
    | ending => exact absurd rfl replaying
    | finished =>
      refine ⟨?_, fun _ => rfl⟩
      intro ending
      cases ending
    | joining =>
      refine ⟨fun _ => rfl, ?_⟩
      intro finished
      cases finished
    | _ =>
      refine ⟨fun _ => rfl, fun finished => ?_⟩
      rcases before (by rw [finished]; rfl) with ended | joining
      · cases ended
      · cases joining

theorem session_kept (h : Session T w start) (ends : endTimes w'.sent = endTimes w.sent)
    (steady : w.steady ≤ w'.steady)
    (known : w'.heart.thread.phase = .ending → ∀ sessionEnd ∈ w'.sessionEnd,
      begun T w' sessionEnd = start)
    (finished : w'.heart.thread.phase = .finished → w.heart.thread.phase = .finished) :
    Session T w' start ∧ (Kept T late w start → Kept T late w' start) := by
  refine ⟨⟨Int.le_trans h.past steady, known, ?_⟩, fun kept => ⟨?_, ?_⟩⟩
  · rw [ends]
    exact h.inside
  · rw [ends]
    exact kept.next
  · rw [ends]
    exact fun now => kept.finished (finished now)

theorem session_replaying (spacing : Spacing T w) (h : Session T w start) (inputs : Inputs)
    (replaying : w.heart.thread.phase ≠ .ending) (wakeAt : Int) (pause : Pause) :
    Session T { w.take S (.downstream inputs) with wakeAt := wakeAt, pause := pause } start ∧
      (Kept T late w start →
        Kept T late { w.take S (.downstream inputs) with wakeAt := wakeAt, pause := pause } start) := by
  obtain ⟨ending, finished⟩ := replaying_phase S w.heart inputs replaying
  refine session_kept h ((take_downstream S w inputs).2 replaying) (Int.le_refl _) ?_ finished
  intro now sessionEnd ends
  have unstarted : w.sessionEnd = none := spacing.early (ending now)
  change sessionEnd ∈ w.sessionEnd at ends
  rw [unstarted] at ends
  cases ends

theorem session_announces (h : Session T w start) (ending : w.heart.thread.phase = .ending)
    {sessionEnd : Int} (ends : w.sessionEnd = some sessionEnd)
    (early : w.highResolution < sessionEnd) :
    Session T ((w.take S (.downstream undisturbed)).sleepUntil (w.steady + T.heartbeatPeriod))
        start ∧
      (Punctual T late w (.downstream false) → Kept T late w start → Kept T late
        ((w.take S (.downstream undisturbed)).sleepUntil (w.steady + T.heartbeatPeriod)) start) := by
  obtain ⟨phase, times⟩ := ending_announces S ending
  have known := h.known ending sessionEnd ends
  refine ⟨⟨h.past, fun _ => h.known ending, ?_⟩, fun punctual kept => ⟨?_, ?_⟩⟩
  · change ∀ s ∈ endTimes (w.take S (.downstream undisturbed)).sent, _
    rw [times]
    intro s member
    rcases List.mem_append.mp member with old | new
    · exact h.inside s old
    · rw [List.mem_singleton.mp new]
      have past := h.past
      simp only [begun] at known
      omega
  · change nextPass T (endTimes (w.take S (.downstream undisturbed)).sent) start ≤
      start + (endTimes (w.take S (.downstream undisturbed)).sent).length * _
    have inTime := (punctual ending sessionEnd ends).2
    have next := kept.next
    rw [known] at inTime
    rw [times, nextPass, List.getLast?_concat, List.length_append, List.length_singleton]
    change w.steady + T.heartbeatPeriod ≤ _
    push_cast
    linarith
  · intro finished
    change (w.take S (.downstream undisturbed)).heart.thread.phase = .finished at finished
    rw [phase] at finished
    cases finished

theorem session_finishes (h : Session T w start) (ending : w.heart.thread.phase = .ending)
    {stopRequested : Bool} {sessionEnd : Int} (ends : w.sessionEnd = some sessionEnd)
    (closed : stopRequested = true ∨ sessionEnd ≤ w.highResolution) :
    Session T (w.take S (.downstream ⟨stopRequested, true⟩)) start ∧
      (Punctual T late w (.downstream stopRequested) → Kept T late w start →
        Kept T late (w.take S (.downstream ⟨stopRequested, true⟩)) start) := by
  obtain ⟨phase, times⟩ := ending_finishes S ending stopRequested
  have known := h.known ending sessionEnd ends
  refine ⟨⟨h.past, fun _ => h.known ending, ?_⟩, fun punctual kept => ⟨?_, fun _ => ?_⟩⟩
  · rw [times]
    exact h.inside
  · rw [times]
    exact kept.next
  · obtain ⟨onward, inTime⟩ := punctual ending sessionEnd ends
    have reached : sessionEnd ≤ w.highResolution := closed.resolve_left (by simp [onward])
    have next := kept.next
    rw [times]
    rw [known] at inTime
    simp only [begun] at known
    linarith

theorem session_heartbeat (h : Session T w start) (time : Int) :
    Session T ((w.take S .heartbeat).beatSleepsUntil time) start ∧
      (Kept T late w start → Kept T late ((w.take S .heartbeat).beatSleepsUntil time) start) := by
  have thread : ((w.take S .heartbeat).beatSleepsUntil time).heart.thread = w.heart.thread :=
    heartbeat_thread S w.heart
  refine session_kept h (take_heartbeat S w).1 (Int.le_refl _) ?_ ?_
  · rw [thread]
    exact h.known
  · rw [thread]
    exact id

theorem tick_session {a : Action} (late : Int) (spacing : Spacing T w) (h : Session T w start)
    (clock : ClockKept w a) (tick : Tick S T w a w') : ∃ start', Session T w' start' ∧
      (Punctual T late w a → Kept T late w start → Kept T late w' start') := by
  have stays : Session T w' start ∧ (Kept T late w start → Kept T late w' start) →
      ∃ start', Session T w' start' ∧
        (Punctual T late w a → Kept T late w start → Kept T late w' start') :=
    fun ⟨session, kept⟩ => ⟨start, session, fun _ => kept⟩
  cases tick with
  | pass duration =>
    refine stays (session_kept h rfl (Int.le_add_of_nonneg_right (Int.natCast_nonneg duration)) ?_ id)
    intro ending sessionEnd ends
    rw [← h.known ending sessionEnd ends]
    simp only [begun]
    omega
  | setClock time =>
    exact stays (session_kept h rfl (Int.le_refl _) (fun ending => absurd ending clock) id)
  | asleep stopRequested _ => exact stays ⟨h, id⟩
  | beatAsleep _ => exact stays ⟨h, id⟩
  | originate pacing fresh => exact stays (session_kept h rfl (Int.le_refl _) h.known id)
  | compute pacing originated => exact stays (session_kept h rfl (Int.le_refl _) h.known id)
  | pace pacing computed =>
    exact stays (session_replaying spacing h undisturbed (by simp [pacing]) _ _)
  | startEnding _ ending first =>
    have nothing := spacing.unstarted first
    refine ⟨w.steady, ⟨Int.le_refl _, ?_, ?_⟩, fun _ _ => ⟨?_, ?_⟩⟩
    · intro _ sessionEnd ends
      rw [Option.mem_def, Option.some.injEq] at ends
      simp only [begun]
      omega
    · simp [nothing]
    · simp [nothing, nextPass]
    · intro finished
      change w.heart.thread.phase = .finished at finished
      rw [ending] at finished
      cases finished
  | announce awake ending ends early =>
    exact ⟨start, session_announces h ending ends early⟩
  | finish ending ends closed => exact ⟨start, session_finishes h ending ends closed⟩
  | downstream stopRequested awake unpaced replaying =>
    exact stays (session_replaying spacing h ⟨stopRequested, false⟩ replaying w.wakeAt w.pause)
  | beat awake sending => exact stays (session_heartbeat h _)
  | heartbeat _ quiet => exact stays (session_heartbeat h w.beatWakeAt)

theorem initial_session (S : Setup) (T : Timing) (late now highResolution : Int) :
    Session T (initial S now highResolution) now ∧
      Kept T late (initial S now highResolution) now := by
  refine ⟨⟨Int.le_refl _, ?_, ?_⟩, ?_, ?_⟩
  · intro ending
    cases ending
  · simp [initial, endTimes]
  · simp [initial, endTimes, nextPass]
  · intro finished
    cases finished

/-- However the threads are held up and the clocks are set: at least heartbeat_period lies
    between two heartbeats, and between two end of session packets. -/
theorem repeats_spaced (S : Setup) (T : Timing) (now highResolution : Int)
    (actions : List Action) :
    Spaced T.heartbeatPeriod
        (beatTimes (run (step S T) (initial S now highResolution) actions).sent) ∧
      Spaced T.heartbeatPeriod
        (endTimes (run (step S T) (initial S now highResolution) actions).sent) :=
  have spacing := run_spacing S T now highResolution actions
  ⟨spacing.beats, spacing.ends⟩

/-- As long as nobody sets the clock, there are no more end of session packets than fit into
    end_of_session_duration, however late they are; and if nobody stops the session either,
    no fewer than passes that are so late. A pass checks, sends and starts to sleep at once. -/
theorem session_ends_counted (S : Setup) (T : Timing) (late now highResolution : Int)
    (actions : List Action)
    (clock : Throughout (step S T) ClockKept (initial S now highResolution) actions) :
    (endTimes (run (step S T) (initial S now highResolution) actions).sent ≠ [] →
      ((endTimes (run (step S T) (initial S now highResolution) actions).sent).length - 1 : Int) *
        T.heartbeatPeriod < T.endOfSessionDuration) ∧
    (Throughout (step S T) (Punctual T late) (initial S now highResolution) actions →
      (run (step S T) (initial S now highResolution) actions).heart.thread.phase = .finished →
        T.endOfSessionDuration ≤
          (endTimes (run (step S T) (initial S now highResolution) actions).sent).length *
            (T.heartbeatPeriod + late) + late) := by
  have spacing := run_spacing S T now highResolution actions
  constructor
  · obtain ⟨_, start, session⟩ := run_invariant
      (I := fun w => Spacing T w ∧ ∃ start, Session T w start)
      (fun w a ⟨spacing, start, session⟩ clock =>
        have tick := step_ticks S T w a
        have ⟨start', next, _⟩ := tick_session late spacing session clock tick
        ⟨tick_spacing spacing tick, start', next⟩)
      ⟨initial_spacing S T now highResolution, now,
        (initial_session S T late now highResolution).1⟩ clock
    intro some_
    obtain ⟨last, member⟩ := Option.isSome_iff_exists.mp (List.getLast?_isSome.mpr some_)
    have span := spaced_span spacing.ends (fun t inside => (session.inside t inside).1) last member
    have until_ := (session.inside last (List.mem_of_getLast? member)).2
    linarith
  · intro punctual finished
    obtain ⟨_, start, _, kept⟩ := run_invariant
      (I := fun w => Spacing T w ∧ ∃ start, Session T w start ∧ Kept T late w start)
      (fun w a ⟨spacing, start, session, kept⟩ ⟨clock, punctual⟩ =>
        have tick := step_ticks S T w a
        have ⟨start', next, onward⟩ := tick_session late spacing session clock tick
        ⟨tick_spacing spacing tick, start', next, onward punctual kept⟩)
      ⟨initial_spacing S T now highResolution, now, initial_session S T late now highResolution⟩
      (throughout_and clock punctual)
    exact kept.finished finished

instance (w : World) : (a : Action) → Decidable (ClockKept w a)
  | .setClock _ => inferInstanceAs (Decidable (w.heart.thread.phase ≠ .ending))
  | .pass _ | .downstream _ | .heartbeat => inferInstanceAs (Decidable True)

instance (T : Timing) (late : Int) (w : World) : (a : Action) → Decidable (Punctual T late w a)
  | .downstream stopRequested =>
    inferInstanceAs (Decidable (w.heart.thread.phase = .ending → ∀ sessionEnd ∈ w.sessionEnd,
      stopRequested = false ∧
        w.steady ≤ nextPass T (endTimes w.sent) (begun T w sessionEnd) + late))
  | .pass _ | .setClock _ | .heartbeat => inferInstanceAs (Decidable True)

/-- An empty file: the heartbeat is stopped and joined, and the session ends after as many
    packets as the duration has periods. -/
def emptyReplay : List Action :=
  List.replicate 3 (.downstream false) ++ [.heartbeat] ++ List.replicate 3 (.downstream false) ++
    [.pass 50, .downstream false, .pass 50, .downstream false]

theorem empty_file_ends : ∃ S,
    Setup.make ⟨[], fun _ => 0, by decide⟩ ⟨0⟩ { session := List.replicate 10 0x20 } 4 = .ok S ∧
    ((endTimes (run (step S (exactly 1 50 100)) (initial S 0 7) emptyReplay).sent).length -
      1 : Int) * 50 < 100 ∧
    (100 : Int) ≤
      (endTimes (run (step S (exactly 1 50 100)) (initial S 0 7) emptyReplay).sent).length *
        (50 + 0) + 0 := by
  refine ⟨_, rfl, ?_, ?_⟩
  · exact (session_ends_counted _ (exactly 1 50 100) 0 0 7 emptyReplay (by decide +kernel)).1
      (by decide +kernel)
  · exact (session_ends_counted _ (exactly 1 50 100) 0 0 7 emptyReplay (by decide +kernel)).2
      (by decide +kernel) (by decide +kernel)

end MoldSessionEnd
