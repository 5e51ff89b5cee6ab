import MoldReplay.SessionEnd

/- How long a receiver waits for the next datagram. Heartbeats go on until the last message
   is out, then end of session packets take over from them; the threads that send either may
   be held up at every step. -/
namespace MoldSilence
open MoldDownstream MoldGapFree MoldHeartbeatLifecycle MoldTimedReplay MoldSessionEnd ScheduledRuns
open MoldHeartbeat hiding World step initial Action

variable {S : Setup} {T : Timing}

/-- A timed run with what an observer of its threads knows: since when each could have taken
    its next step, sleep aside, and when the last datagram went out, or the replay began. -/
structure Watched where
  world : World
  since : Int
  beatSince : Int
  heard : Int

def blocked (w : World) : Bool :=
  w.heart.thread.phase = .finished || (w.heart.thread.phase = .joining && w.heart.beat.running)

def takesTurn : Action → Bool
  | .downstream _ => true
  | _ => false

def beatTakesTurn : Action → Bool
  | .heartbeat => true
  | _ => false

def watch (S : Setup) (T : Timing) (v : Watched) (a : Action) : Watched :=
  let w := step S T v.world a
  { world := w
    since := if takesTurn a || blocked v.world then w.steady else v.since
    beatSince :=
      if beatTakesTurn a || !v.world.heart.beat.running then w.steady else v.beatSince
    heard :=
      if w.sent.length = v.world.sent.length ∧ v.world.heart.thread.phase ≠ .starting then v.heard
      else w.steady }

def watched (S : Setup) (now highResolution : Int) : Watched :=
  ⟨initial S now highResolution, now, now, now⟩

/-- A thread that can take a step waits no longer than this until it does. -/
def Prompt (late : Nat) (v : Watched) : Action → Prop
  | .pass duration =>
    (blocked v.world = false →
      v.world.steady + duration ≤ max v.since v.world.wakeAt + late) ∧
    (v.world.heart.beat.running = true →
      v.world.steady + duration ≤ max v.beatSince v.world.beatWakeAt + late)
  | _ => True

/-- The steps until the next datagram, if no message is sent before. A heartbeat that is told
    to stop leaves them to end_of_session. -/
def beatLegs : Place → Nat
  | .sleeping => 5
  | .checking => 4
  | .loading => 2
  | .sending _ => 1
  | .absent | .exited => 0

def sessionLegs (w : World) : Nat :=
  match w.heart.thread.phase with
  | .joining => 3
  | .ending => if w.sessionEnd.isNone then 2 else 1
  | _ => 0

def legs (w : World) : Nat :=
  if w.heart.beat.running then beatLegs w.heart.beat.place else sessionLegs w

def readyAt (v : Watched) : Int :=
  if v.world.heart.beat.running then max v.beatSince v.world.beatWakeAt
  else max v.since v.world.wakeAt

structure Due (T : Timing) (late : Nat) (heard ready : Int) (legs : Nat) (steady : Int) : Prop where
  prompt : steady ≤ ready + late
  deadline : ready + legs * late ≤ heard + T.heartbeatPeriod + 5 * late

variable {late left left' : Nat} {heard heard' ready ready' steady : Int}

theorem due_later (due : Due T late heard ready left steady) (more : heard ≤ heard') :
    Due T late heard' ready left steady :=
  ⟨due.prompt, by linarith [due.deadline]⟩

theorem due_nearer (due : Due T late heard ready left steady) (more : heard ≤ heard')
    (fewer : left' + 1 ≤ left) (now : ready' = steady) :
    Due T late heard' ready' left' steady := by
  have product : ((left' + 1 : Nat) : Int) * late ≤ left * late :=
    Int.mul_le_mul_of_nonneg_right (by exact_mod_cast fewer) (Int.natCast_nonneg late)
  push_cast at product
  refine ⟨by omega, ?_⟩
  linarith [due.prompt, due.deadline]

theorem due_heard (period : 0 ≤ T.heartbeatPeriod) (few : left ≤ 5)
    (asleep : ready = max steady (steady + T.heartbeatPeriod)) :
    Due T late steady ready left steady := by
  have product : (left : Int) * late ≤ 5 * late :=
    Int.mul_le_mul_of_nonneg_right (by exact_mod_cast few) (Int.natCast_nonneg late)
  refine ⟨by omega, ?_⟩
  rw [asleep]
  omega

def InTime (T : Timing) (late : Nat) (v : Watched) : Prop :=
  Due T late v.heard (readyAt v) (legs v.world) v.world.steady

structure Listening (T : Timing) (late : Nat) (v : Watched) : Prop where
  beating : Beating v.world.heart
  spacing : Spacing T v.world
  past : v.heard ≤ v.world.steady
  last : ∀ last ∈ v.world.sent.getLast?, v.heard = last.1
  unstarted : v.world.heart.thread.phase = .starting →
    v.world.sent = [] ∧ v.heard = v.world.steady ∧ v.world.beatWakeAt ≤ v.world.steady
  awake : v.world.heart.thread.phase = .joining → v.world.wakeAt ≤ v.world.steady
  inTime : v.world.heart.thread.phase ≠ .starting → v.world.heart.thread.phase ≠ .finished →
    InTime T late v

variable {w w' : World} {v : Watched} {a : Action}

theorem tick_beating (tick : Tick S T w a w') (before : Beating w.heart) : Beating w'.heart := by
  rcases tick_untimed tick with same | ⟨turn, stepped⟩
  · rwa [same]
  · rw [stepped]
    exact step_beating before _

theorem take_sends (S : Setup) (w : World) (a : MoldHeartbeat.Action) :
    ∃ ds : List Datagram, (w.take S a).sent = w.sent ++ ds.map fun d => (w.steady, d) := by
  obtain ⟨ds, wire⟩ := untimed_wire (step_untimed S w.heart a)
  exact ⟨ds, take_sent wire⟩

theorem tick_sends (tick : Tick S T w a w') : w.steady ≤ w'.steady ∧
    ∃ ds : List Datagram, w'.sent = w.sent ++ ds.map fun d => (w'.steady, d) := by
  cases tick with
  | pass duration =>
    exact ⟨Int.le_add_of_nonneg_right (Int.natCast_nonneg _), [], (List.append_nil _).symm⟩
  | pace pacing computed => exact ⟨Int.le_refl _, take_sends S w _⟩
  | announce awake ending ends early => exact ⟨Int.le_refl _, take_sends S w _⟩
  | finish ending ends closed => exact ⟨Int.le_refl _, take_sends S w _⟩
  | downstream stopRequested awake unpaced replaying => exact ⟨Int.le_refl _, take_sends S w _⟩
  | beat awake sending => exact ⟨Int.le_refl _, take_sends S w _⟩
  | heartbeat awake quiet => exact ⟨Int.le_refl _, take_sends S w _⟩
  | _ => exact ⟨Int.le_refl _, [], (List.append_nil _).symm⟩

theorem heard_step (h : Listening T late v) (a : Action) :
    v.heard ≤ (watch S T v a).heard ∧ (watch S T v a).heard ≤ (watch S T v a).world.steady ∧
      ∀ last ∈ (watch S T v a).world.sent.getLast?, (watch S T v a).heard = last.1 := by
  obtain ⟨later, ds, sent⟩ := tick_sends (step_ticks S T v.world a)
  have past := h.past
  simp only [watch]
  generalize step S T v.world a = w' at later sent ⊢
  split
  · rename_i quiet
    have nothing : ds = [] := by
      have length := quiet.1
      rw [sent, List.length_append, List.length_map] at length
      exact List.eq_nil_of_length_eq_zero (by omega)
    rw [sent, nothing, List.map_nil, List.append_nil]
    exact ⟨Int.le_refl _, Int.le_trans past later, h.last⟩
  · rename_i changed
    refine ⟨Int.le_trans past later, Int.le_refl _, ?_⟩
    rw [sent]
    rcases List.eq_nil_or_concat ds with rfl | ⟨before, d, rfl⟩
    · have starting : v.world.heart.thread.phase = .starting := by
        by_contra onward
        exact changed ⟨by rw [sent]; simp, onward⟩
      simp [(h.unstarted starting).1]
    · simp

theorem tick_downstream_running {stopRequested : Bool}
    (tick : Tick S T w (.downstream stopRequested) w') (before : Beating w.heart)
    (running : w.heart.beat.running = true) :
    w'.heart.beat.place = w.heart.beat.place ∧ w'.beatWakeAt = w.beatWakeAt ∧
      w'.steady = w.steady := by
  cases tick with
  | pace pacing computed => exact ⟨running_downstream before running _, rfl, rfl⟩
  | announce awake ending ends early => exact ⟨running_downstream before running _, rfl, rfl⟩
  | finish ending ends closed => exact ⟨running_downstream before running _, rfl, rfl⟩
  | downstream _ awake unpaced replaying => exact ⟨running_downstream before running _, rfl, rfl⟩
  | _ => exact ⟨rfl, rfl, rfl⟩

theorem tick_unstarted (tick : Tick S T w a w') (before : Beating w.heart)
    (starting : w'.heart.thread.phase = .starting) :
    w.heart.thread.phase = .starting ∧ w'.sent = w.sent ∧ w'.beatWakeAt = w.beatWakeAt := by
  have started : ∀ inputs, (w.take S (.downstream inputs)).heart.thread.phase ≠ .starting := by
    intro inputs
    have stepped := step_untimed S w.heart (.downstream inputs)
    change (MoldHeartbeat.step S w.heart (.downstream inputs)).thread.phase ≠ .starting
    cases stepped with
    | downstream _ thread _ =>
      rw [thread]
      exact goes_started (thread_goes S w.heart.thread inputs)
    | joining joining same => simp [same, joining]
  cases tick with
  | pace pacing computed => exact absurd starting (started _)
  | announce awake ending ends early => exact absurd starting (started _)
  | finish ending ends closed => exact absurd starting (started _)
  | downstream stopRequested awake unpaced replaying => exact absurd starting (started _)
  | beat awake sending =>
    have thread : (w.take S .heartbeat).heart.thread = w.heart.thread := heartbeat_thread S w.heart
    change (w.take S .heartbeat).heart.thread.phase = .starting at starting
    rw [thread] at starting
    have stopped := before.unstarted starting
    simp [Beat.running, sending] at stopped
  | heartbeat awake quiet =>
    have thread : (w.take S .heartbeat).heart.thread = w.heart.thread := heartbeat_thread S w.heart
    rw [thread] at starting
    obtain ⟨ds, beats, wire⟩ := heartbeat_beats S w.heart
    rw [(beats_stopped beats (before.unstarted starting)).2] at wire
    refine ⟨starting, ?_, rfl⟩
    rw [take_sent wire, List.map_nil, List.append_nil]
  | _ => exact ⟨starting, rfl, rfl⟩

theorem tick_awake (tick : Tick S T w a w')
    (before : w.heart.thread.phase = .joining → w.wakeAt ≤ w.steady)
    (joining : w'.heart.thread.phase = .joining) : w'.wakeAt ≤ w'.steady := by
  cases tick with
  | pass duration => exact Int.le_trans (before joining) (by simp)
  | pace pacing computed =>
    have publishing : (w.take S (.downstream undisturbed)).heart.thread.phase = .publishing := by
      simp [World.take, MoldHeartbeat.step, Thread.step, pacing]
    change (w.take S (.downstream undisturbed)).heart.thread.phase = .joining at joining
    rw [publishing] at joining
    cases joining
  | announce awake ending ends early =>
    have phase := (ending_announces S ending).1
    change (w.take S (.downstream undisturbed)).heart.thread.phase = .joining at joining
    rw [phase] at joining
    cases joining
  | @finish stopRequested _ ending ends closed =>
    have phase := (ending_finishes S ending stopRequested).1
    rw [phase] at joining
    cases joining
  | downstream stopRequested awake unpaced replaying => exact awake
  | beat awake sending => exact before (heartbeat_thread S w.heart ▸ joining)
  | heartbeat awake quiet => exact before (heartbeat_thread S w.heart ▸ joining)
  | _ => exact before joining

theorem unturned_ready (S : Setup) (T : Timing) (v : Watched) {a : Action}
    (unturned : takesTurn a = false ∧ beatTakesTurn a = false)
    (heart : (step S T v.world a).heart = v.world.heart)
    (asleep : (step S T v.world a).wakeAt = v.world.wakeAt ∧
      (step S T v.world a).beatWakeAt = v.world.beatWakeAt)
    (unfinished : v.world.heart.thread.phase ≠ .finished) :
    readyAt (watch S T v a) = readyAt v := by
  simp only [readyAt, watch, unturned, heart, asleep, blocked]
  cases running : v.world.heart.beat.running <;> simp [unfinished]

theorem pass_inTime (h : Listening T late v) (duration : Nat)
    (prompt : Prompt late v (.pass duration)) (started : v.world.heart.thread.phase ≠ .starting)
    (unfinished : v.world.heart.thread.phase ≠ .finished) :
    InTime T late (watch S T v (.pass duration)) := by
  have more := (heard_step (S := S) h (.pass duration)).1
  rw [InTime, unturned_ready S T v ⟨rfl, rfl⟩ rfl ⟨rfl, rfl⟩ unfinished]
  refine ⟨?_, (due_later (h.inTime started unfinished) more).deadline⟩
  change v.world.steady + duration ≤ _
  rw [readyAt]
  split
  · rename_i running
    exact prompt.2 running
  · rename_i stopped
    exact prompt.1 (by simp [blocked, unfinished, stopped])

theorem setClock_inTime (h : Listening T late v) (time : Int)
    (started : v.world.heart.thread.phase ≠ .starting)
    (unfinished : v.world.heart.thread.phase ≠ .finished) :
    InTime T late (watch S T v (.setClock time)) := by
  rw [InTime, unturned_ready S T v ⟨rfl, rfl⟩ rfl ⟨rfl, rfl⟩ unfinished]
  exact due_later (h.inTime started unfinished) (heard_step (S := S) h (.setClock time)).1

theorem running_inTime (h : Listening T late v) (running : v.world.heart.beat.running = true)
    (stopRequested : Bool) : InTime T late (watch S T v (.downstream stopRequested)) := by
  obtain ⟨started, unfinished, _⟩ := running_phase h.beating running
  have due := due_later (h.inTime started unfinished)
    (heard_step (S := S) h (.downstream stopRequested)).1
  obtain ⟨place, asleep, steady⟩ := tick_downstream_running
    (step_ticks S T v.world (.downstream stopRequested)) h.beating running
  have still : (step S T v.world (.downstream stopRequested)).heart.beat.running = true := by
    rw [Beat.running, place]
    exact running
  have ready : readyAt (watch S T v (.downstream stopRequested)) = readyAt v := by
    simp [readyAt, watch, still, running, asleep, beatTakesTurn]
  have same : legs (watch S T v (.downstream stopRequested)).world = legs v.world := by
    simp [legs, watch, still, running, place]
  rw [InTime, ready, same]
  change Due _ _ _ _ _ (step S T v.world (.downstream stopRequested)).steady
  rwa [steady]

theorem starts_inTime (period : 0 ≤ T.heartbeatPeriod) (h : Listening T late v)
    (starting : v.world.heart.thread.phase = .starting) {stopRequested : Bool}
    (stepped : step S T v.world (.downstream stopRequested) =
      v.world.take S (.downstream ⟨stopRequested, false⟩)) :
    InTime T late (watch S T v (.downstream stopRequested)) := by
  have stopped := h.beating.unstarted starting
  have beat : (v.world.take S (.downstream ⟨stopRequested, false⟩)).heart.beat =
      { v.world.heart.beat with place := .checking, stopRequested := false } := by
    simp [World.take, MoldHeartbeat.step, starting, Beat.alongside]
  have running : (v.world.take S (.downstream ⟨stopRequested, false⟩)).heart.beat.running =
      true := by
    rw [beat]
    rfl
  have asleep : (v.world.take S (.downstream ⟨stopRequested, false⟩)).beatWakeAt ≤
      v.world.steady := (h.unstarted starting).2.2
  have four : legs (v.world.take S (.downstream ⟨stopRequested, false⟩)) = 4 := by
    rw [legs, if_pos running, beat]
    rfl
  simp only [InTime, watch, stepped, four, readyAt, running, starting, stopped, if_true,
    ne_eq, not_true_eq_false, and_false, if_false, Bool.not_false, Bool.or_true]
  change Due T late v.world.steady (max v.world.steady _) 4 v.world.steady
  rw [max_eq_left asleep]
  refine ⟨by omega, ?_⟩
  push_cast
  linarith

theorem quiet_inTime (h : Listening T late v) (stopped : v.world.heart.beat.running = false)
    (started : v.world.heart.thread.phase ≠ .starting)
    (unfinished : v.world.heart.thread.phase ≠ .finished) {stopRequested : Bool} {w' : World}
    (stepped : step S T v.world (.downstream stopRequested) = w')
    (still : w'.heart.beat.running = false) (awake : w'.wakeAt ≤ v.world.steady)
    (steady : w'.steady = v.world.steady) (fewer : sessionLegs w' + 1 ≤ sessionLegs v.world) :
    InTime T late (watch S T v (.downstream stopRequested)) := by
  have due := h.inTime started unfinished
  have more := (heard_step (S := S) h (.downstream stopRequested)).1
  have before : legs v.world = sessionLegs v.world := by simp [legs, stopped]
  have after : legs w' = sessionLegs w' := by simp [legs, still]
  rw [InTime, before] at due
  have next : Due T late _ v.world.steady (sessionLegs w') v.world.steady :=
    due_nearer due more fewer rfl
  simpa only [InTime, watch, stepped, after, readyAt, still, steady, takesTurn, Bool.true_or, if_true,
    Bool.false_eq_true, if_false, max_eq_left awake] using next

theorem alongside_ending (S : Setup) (inputs : Inputs) (ending : w.heart.thread.phase = .ending) :
    (w.take S (.downstream inputs)).heart.beat = w.heart.beat := by
  simp [World.take, MoldHeartbeat.step, ending, Beat.alongside]

theorem announces_inTime (period : 0 ≤ T.heartbeatPeriod) (h : Listening T late v)
    (ending : v.world.heart.thread.phase = .ending) {sessionEnd : Int}
    (ends : v.world.sessionEnd = some sessionEnd)
    (stepped : step S T v.world (.downstream false) =
      (v.world.take S (.downstream undisturbed)).sleepUntil
        (v.world.steady + T.heartbeatPeriod)) :
    InTime T late (watch S T v (.downstream false)) := by
  obtain ⟨phase, times⟩ := ending_announces S ending
  have stopped := h.beating.joined (by rw [ending]; rfl)
  have beat := alongside_ending S undisturbed ending
  have still : ((v.world.take S (.downstream undisturbed)).sleepUntil
      (v.world.steady + T.heartbeatPeriod)).heart.beat.running = false := by
    change (v.world.take S (.downstream undisturbed)).heart.beat.running = false
    rw [beat, stopped]
  have one : legs ((v.world.take S (.downstream undisturbed)).sleepUntil
      (v.world.steady + T.heartbeatPeriod)) = 1 := by
    rw [legs, still, sessionLegs]
    change (if false = true then _ else
      match (v.world.take S (.downstream undisturbed)).heart.thread.phase with
      | .joining => 3
      | .ending => if v.world.sessionEnd.isNone then 2 else 1
      | _ => 0) = 1
    rw [phase, ends]
    rfl
  have sent : ((v.world.take S (.downstream undisturbed)).sleepUntil
      (v.world.steady + T.heartbeatPeriod)).sent.length ≠ v.world.sent.length := by
    obtain ⟨ds, more⟩ := take_sends S v.world (.downstream undisturbed)
    intro same
    change (v.world.take S (.downstream undisturbed)).sent.length = _ at same
    rw [more, List.length_append, List.length_map] at same
    have nothing : ds = [] := List.eq_nil_of_length_eq_zero (by omega)
    rw [more, nothing, List.map_nil, List.append_nil] at times
    simp at times
  have due : Due T late v.world.steady
      (max v.world.steady (v.world.steady + T.heartbeatPeriod)) 1 v.world.steady :=
    due_heard period (by decide) rfl
  simp only [InTime, watch, stepped, one, readyAt, still, takesTurn, Bool.true_or, if_true,
    Bool.false_eq_true, if_false, if_neg (fun quiet => sent (And.left quiet))]
  exact due

theorem downstream_inTime (period : 0 ≤ T.heartbeatPeriod) (h : Listening T late v)
    (stopped : v.world.heart.beat.running = false) (stopRequested : Bool)
    (started : (step S T v.world (.downstream stopRequested)).heart.thread.phase ≠ .starting)
    (unfinished : (step S T v.world (.downstream stopRequested)).heart.thread.phase ≠ .finished) :
    InTime T late (watch S T v (.downstream stopRequested)) := by
  have tick := step_ticks S T v.world (.downstream stopRequested)
  generalize stepped : step S T v.world (.downstream stopRequested) = w' at tick started unfinished
  have unpaced : ∀ timestamp, v.world.heart.thread.phase ≠ .pacing timestamp := by
    intro timestamp pacing
    have running := (h.beating.beating (by rw [pacing]; rfl)).1
    exact absurd (stopped.symm.trans running) (by simp)
  cases tick with
  | originate pacing fresh => exact absurd pacing (unpaced _)
  | compute pacing originated => exact absurd pacing (unpaced _)
  | pace pacing computed => exact absurd pacing (unpaced _)
  | asleep _ early =>
    obtain ⟨prompt, deadline⟩ := due_later (h.inTime started unfinished)
      (heard_step (S := S) h (.downstream stopRequested)).1
    rw [readyAt, stopped] at deadline
    have waits : readyAt (watch S T v (.downstream stopRequested)) = v.world.wakeAt := by
      simp only [readyAt, watch, stepped, stopped, takesTurn, Bool.true_or, if_true,
        Bool.false_eq_true, if_false]
      exact max_eq_right early.le
    have same : (watch S T v (.downstream stopRequested)).world = v.world := stepped
    rw [InTime, waits, same]
    refine ⟨by omega, ?_⟩
    have later : v.world.wakeAt ≤ max v.since v.world.wakeAt := le_max_right _ _
    simp only [Bool.false_eq_true, if_false] at deadline
    linarith
  | startEnding awake ending first =>
    refine quiet_inTime h stopped (by simp [ending]) (by simp [ending]) stepped stopped awake rfl ?_
    simp [sessionLegs, ending, first]
  | announce awake ending ends early => exact announces_inTime period h ending ends stepped
  | finish ending ends closed =>
    exact absurd (ending_finishes S ending stopRequested).1 unfinished
  | downstream _ awake _ replaying =>
    cases phase : v.world.heart.thread.phase with
    | starting => exact starts_inTime period h phase stepped
    | joining =>
      have next : (v.world.take S (.downstream ⟨stopRequested, false⟩)).heart.thread.phase =
          .ending := by
        simp [World.take, MoldHeartbeat.step, stopped, Thread.step, phase]
      have beat : (v.world.take S (.downstream ⟨stopRequested, false⟩)).heart.beat =
          v.world.heart.beat := by
        simp [World.take, MoldHeartbeat.step, stopped, Beat.alongside, phase]
      have fresh : (v.world.take S (.downstream ⟨stopRequested, false⟩)).sessionEnd = none :=
        h.spacing.early (by rw [phase]; rfl)
      refine quiet_inTime h stopped (by simp [phase]) (by simp [phase]) stepped
        (by rw [beat]; exact stopped) awake rfl ?_
      simp [sessionLegs, next, fresh, phase]
    | finished =>
      refine absurd ?_ unfinished
      simp [World.take, MoldHeartbeat.step, Thread.step, phase]
    | ending => exact absurd phase replaying
    | _ =>
      have running := (h.beating.beating (by rw [phase]; rfl)).1
      exact absurd (stopped.symm.trans running) (by simp)

theorem absent_inTime (h : Listening T late v) (stopped : v.world.heart.beat.running = false)
    (started : v.world.heart.thread.phase ≠ .starting)
    (unfinished : v.world.heart.thread.phase ≠ .finished)
    (same : (step S T v.world .heartbeat).heart.beat = v.world.heart.beat ∧
      (step S T v.world .heartbeat).heart.thread = v.world.heart.thread)
    (frame : (step S T v.world .heartbeat).steady = v.world.steady ∧
      (step S T v.world .heartbeat).wakeAt = v.world.wakeAt ∧
      (step S T v.world .heartbeat).sessionEnd = v.world.sessionEnd) :
    InTime T late (watch S T v .heartbeat) := by
  have due := due_later (h.inTime started unfinished) (heard_step (S := S) h .heartbeat).1
  have open_ : blocked v.world = false := by simp [blocked, unfinished, stopped]
  have ready : readyAt (watch S T v .heartbeat) = readyAt v := by
    simp [readyAt, watch, same, stopped, open_, frame, takesTurn]
  have left : legs (watch S T v .heartbeat).world = legs v.world := by
    simp [legs, sessionLegs, watch, same, frame]
  rw [InTime, ready, left]
  change Due _ _ _ _ _ (step S T v.world .heartbeat).steady
  rwa [frame.1]

theorem beat_inTime (h : Listening T late v) (running : v.world.heart.beat.running = true)
    {beat : Beat} (stepped : (step S T v.world .heartbeat).heart.beat = beat)
    (still : beat.running = true) (fewer : beatLegs beat.place + 1 ≤ beatLegs v.world.heart.beat.place)
    (awake : (step S T v.world .heartbeat).beatWakeAt ≤ v.world.steady)
    (steady : (step S T v.world .heartbeat).steady = v.world.steady) :
    InTime T late (watch S T v .heartbeat) := by
  obtain ⟨started, unfinished, _⟩ := running_phase h.beating running
  have due := h.inTime started unfinished
  have before : legs v.world = beatLegs v.world.heart.beat.place := if_pos running
  rw [InTime, before] at due
  have next : Due T late (watch S T v .heartbeat).heard v.world.steady (beatLegs beat.place)
      v.world.steady :=
    due_nearer due (heard_step (S := S) h .heartbeat).1 fewer rfl
  have ready : readyAt (watch S T v .heartbeat) = v.world.steady := by
    simp only [readyAt, watch, stepped, still, beatTakesTurn, Bool.true_or, if_true, steady]
    exact max_eq_left awake
  have left : legs (watch S T v .heartbeat).world = beatLegs beat.place := by
    simp [legs, watch, stepped, still]
  rw [InTime, ready, left]
  change Due _ _ _ _ _ (step S T v.world .heartbeat).steady
  rwa [steady]

theorem exit_inTime (h : Listening T late v) (place : v.world.heart.beat.place = .checking)
    (told : v.world.heart.beat.stopRequested = true)
    (stepped : (step S T v.world .heartbeat).heart.beat.running = false)
    (thread : (step S T v.world .heartbeat).heart.thread = v.world.heart.thread)
    (frame : (step S T v.world .heartbeat).steady = v.world.steady ∧
      (step S T v.world .heartbeat).wakeAt = v.world.wakeAt) :
    InTime T late (watch S T v .heartbeat) := by
  have running : v.world.heart.beat.running = true := by simp [Beat.running, place]
  obtain ⟨started, unfinished, unended⟩ := running_phase h.beating running
  have joining : v.world.heart.thread.phase = .joining := by
    have stopping : Phase.beating v.world.heart.thread.phase = false := by
      by_contra beating
      have untold := (h.beating.beating (by simpa using beating)).2
      exact absurd (untold.symm.trans told) (by simp)
    cases phase : v.world.heart.thread.phase with
    | joining => rfl
    | starting => exact absurd phase started
    | finished => exact absurd phase unfinished
    | ending => exact absurd phase unended
    | _ => rw [phase] at stopping; cases stopping
  have due := h.inTime started unfinished
  have before : legs v.world = 4 := by simp [legs, running, place, beatLegs]
  rw [InTime, before] at due
  have next : Due T late (watch S T v .heartbeat).heard v.world.steady 3 v.world.steady :=
    due_nearer due (heard_step (S := S) h .heartbeat).1 (Nat.le_refl 4) rfl
  have waited : blocked v.world = true := by simp [blocked, joining, running]
  have ready : readyAt (watch S T v .heartbeat) = v.world.steady := by
    simp only [readyAt, watch, stepped, waited, Bool.or_true, if_true, Bool.false_eq_true, if_false,
      frame]
    exact max_eq_left (h.awake joining)
  have left : legs (watch S T v .heartbeat).world = 3 := by
    simp [legs, sessionLegs, watch, stepped, thread, joining]
  rw [InTime, ready, left]
  change Due _ _ _ _ _ (step S T v.world .heartbeat).steady
  rwa [frame.1]

theorem sends_inTime (period : 0 ≤ T.heartbeatPeriod) {seq : MoldWire.SequenceNumber}
    (sending : v.world.heart.beat.place = .sending seq)
    (stepped : step S T v.world .heartbeat =
      (v.world.take S .heartbeat).beatSleepsUntil (v.world.steady + T.heartbeatPeriod)) :
    InTime T late (watch S T v .heartbeat) := by
  have wire : (MoldHeartbeat.step S v.world.heart .heartbeat).wire =
      v.world.heart.wire ++ [.heartbeat (v.world.heart.beat.heartbeat.send seq).2] := by
    simp [MoldHeartbeat.step, sending]
  have place : ((v.world.take S .heartbeat).beatSleepsUntil
      (v.world.steady + T.heartbeatPeriod)).heart.beat.place = .sleeping := by
    simp [World.beatSleepsUntil, World.take, MoldHeartbeat.step, sending]
  have sent : (step S T v.world .heartbeat).sent.length ≠ v.world.sent.length := by
    rw [stepped]
    change (v.world.take S .heartbeat).sent.length ≠ _
    rw [take_sent wire]
    simp
  have due : Due T late v.world.steady
      (max v.world.steady (v.world.steady + T.heartbeatPeriod)) 5 v.world.steady :=
    due_heard period (Nat.le_refl 5) rfl
  have heard : (watch S T v .heartbeat).heard = v.world.steady := by
    simp only [watch, if_neg (fun quiet => sent (And.left quiet))]
    rw [stepped]
    rfl
  have ready : readyAt (watch S T v .heartbeat) =
      max v.world.steady (v.world.steady + T.heartbeatPeriod) := by
    simp only [readyAt, watch, stepped, Beat.running, place, beatTakesTurn, Bool.true_or, if_true]
    rfl
  have left : legs (watch S T v .heartbeat).world = 5 := by
    simp [legs, watch, stepped, Beat.running, place, beatLegs]
  rw [InTime, heard, ready, left]
  change Due _ _ _ _ _ (step S T v.world .heartbeat).steady
  rw [stepped]
  exact due

theorem asleep_inTime (h : Listening T late v) (running : v.world.heart.beat.running = true)
    (early : v.world.steady < v.world.beatWakeAt)
    (same : step S T v.world .heartbeat = v.world) : InTime T late (watch S T v .heartbeat) := by
  obtain ⟨started, unfinished, _⟩ := running_phase h.beating running
  obtain ⟨prompt, deadline⟩ := due_later (h.inTime started unfinished)
    (heard_step (S := S) h .heartbeat).1
  rw [readyAt, if_pos running] at deadline
  have waits : readyAt (watch S T v .heartbeat) = v.world.beatWakeAt := by
    simp only [readyAt, watch, same, running, beatTakesTurn, Bool.true_or, if_true]
    exact max_eq_right early.le
  have unchanged : (watch S T v .heartbeat).world = v.world := same
  rw [InTime, waits, unchanged]
  have later : v.world.beatWakeAt ≤ max v.beatSince v.world.beatWakeAt := le_max_right _ _
  exact ⟨by omega, by linarith⟩

theorem heartbeat_inTime (period : 0 ≤ T.heartbeatPeriod) (h : Listening T late v)
    (started : v.world.heart.thread.phase ≠ .starting)
    (unfinished : v.world.heart.thread.phase ≠ .finished) :
    InTime T late (watch S T v .heartbeat) := by
  have tick := step_ticks S T v.world .heartbeat
  generalize stepped : step S T v.world .heartbeat = w' at tick
  cases tick with
  | beatAsleep early =>
    cases running : v.world.heart.beat.running with
    | true => exact asleep_inTime h running early stepped
    | false =>
      exact absent_inTime h running started unfinished (by rw [stepped]; exact ⟨rfl, rfl⟩)
        (by rw [stepped]; exact ⟨rfl, rfl, rfl⟩)
  | beat awake sending => exact sends_inTime period sending stepped
  | heartbeat awake quiet =>
    obtain ⟨ds, beats, _⟩ := heartbeat_beats S v.world.heart
    have thread := heartbeat_thread S v.world.heart
    generalize next : (MoldHeartbeat.step S v.world.heart .heartbeat).beat = b' at beats
    have beat : (step S T v.world .heartbeat).heart.beat = b' := by
      rw [stepped]
      exact next
    have ready : (step S T v.world .heartbeat).beatWakeAt ≤ v.world.steady := by
      rw [stepped]
      exact awake
    have steady : (step S T v.world .heartbeat).steady = v.world.steady := by
      rw [stepped]
      rfl
    cases beats with
    | still stopped =>
      exact absent_inTime h stopped started unfinished ⟨beat, by rw [stepped]; exact thread⟩
        (by rw [stepped]; exact ⟨rfl, rfl, rfl⟩)
    | exits place told =>
      exact exit_inTime h place told (by rw [beat]; rfl) (by rw [stepped]; exact thread)
        (by rw [stepped]; exact ⟨rfl, rfl⟩)
    | goesOn place untold =>
      exact beat_inTime h (by simp [Beat.running, place]) beat rfl (by simp [place, beatLegs]) ready
        steady
    | loads place seq =>
      exact beat_inTime h (by simp [Beat.running, place]) beat rfl (by simp [place, beatLegs]) ready
        steady
    | wakes place =>
      exact beat_inTime h (by simp [Beat.running, place]) beat rfl (by simp [place, beatLegs]) ready
        steady
    | sends place => exact absurd place (quiet _)

theorem heartbeat_keeps (S : Setup) (T : Timing) (w : World) :
    (step S T w .heartbeat).heart.thread.phase = w.heart.thread.phase := by
  have tick := step_ticks S T w .heartbeat
  generalize step S T w .heartbeat = w' at tick
  have thread : (w.take S .heartbeat).heart.thread = w.heart.thread := heartbeat_thread S w.heart
  cases tick with
  | beatAsleep _ => rfl
  | beat awake sending =>
    change (w.take S .heartbeat).heart.thread.phase = _
    rw [thread]
  | heartbeat awake quiet => rw [thread]

theorem watch_listening (period : 0 ≤ T.heartbeatPeriod) (v : Watched) (a : Action)
    (h : Listening T late v) (prompt : Prompt late v a) : Listening T late (watch S T v a) := by
  have tick := step_ticks S T v.world a
  obtain ⟨more, past, last⟩ := heard_step (S := S) h a
  refine {
    beating := tick_beating tick h.beating
    spacing := tick_spacing h.spacing tick
    past := past
    last := last
    unstarted := ?unstarted
    awake := tick_awake tick h.awake
    inTime := ?inTime }
  case unstarted =>
    intro starting
    obtain ⟨before, sent, asleep⟩ := tick_unstarted tick h.beating starting
    have later := (tick_sends tick).1
    refine ⟨sent.trans (h.unstarted before).1, ?_, ?_⟩
    · simp [watch, before]
    · change (step S T v.world a).beatWakeAt ≤ (step S T v.world a).steady
      rw [asleep]
      exact Int.le_trans (h.unstarted before).2.2 later
  case inTime =>
    intro started unfinished
    cases a with
    | pass duration => exact pass_inTime h duration prompt started unfinished
    | setClock time => exact setClock_inTime h time started unfinished
    | downstream stopRequested =>
      cases running : v.world.heart.beat.running with
      | true => exact running_inTime h running stopRequested
      | false => exact downstream_inTime period h running stopRequested started unfinished
    | heartbeat =>
      have thread := heartbeat_keeps S T v.world
      exact heartbeat_inTime period h (fun starting => started (by rw [← starting]; exact thread))
        fun finished => unfinished (by rw [← finished]; exact thread)

theorem initial_listening (S : Setup) (T : Timing) (late : Nat) (now highResolution : Int) :
    Listening T late (watched S now highResolution) where
  beating := initial_beating S
  spacing := initial_spacing S T now highResolution
  past := Int.le_refl now
  last := by simp [watched, initial]
  unstarted := fun _ => ⟨rfl, rfl, Int.le_refl now⟩
  awake := by intro elsewhere; cases elsewhere
  inTime := fun started _ => absurd rfl started

theorem legs_pos (before : Beating w.heart) (started : w.heart.thread.phase ≠ .starting)
    (unfinished : w.heart.thread.phase ≠ .finished) : 1 ≤ legs w := by
  unfold legs
  split
  · rename_i running
    cases place : w.heart.beat.place with
    | absent => simp [Beat.running, place] at running
    | exited => simp [Beat.running, place] at running
    | _ => simp [beatLegs]
  · rename_i stopped
    cases phase : w.heart.thread.phase with
    | starting => exact absurd phase started
    | finished => exact absurd phase unfinished
    | joining => simp [sessionLegs, phase]
    | ending =>
      simp only [sessionLegs, phase]
      split <;> simp
    | _ => exact absurd (before.beating (by rw [phase]; rfl)).1 stopped

theorem watch_world (S : Setup) (T : Timing) (v : Watched) (actions : List Action) :
    (run (watch S T) v actions).world = run (step S T) v.world actions :=
  run_lockstep (R := fun (v : Watched) w => v.world = w)
    (fun v w a same => by rw [← same]; rfl) actions rfl

/-- As long as every thread that can go on does so in time, nobody hears nothing for longer
    than a heartbeat period and five such delays, from the start of the replay to its end:
    not while packets are paced, and not where end_of_session takes over. -/
theorem never_silent (S : Setup) (T : Timing) (period : 0 ≤ T.heartbeatPeriod) (late : Nat)
    (now highResolution : Int) (actions : List Action)
    (prompt : Throughout (watch S T) (Prompt late) (watched S now highResolution) actions) :
    let v := run (watch S T) (watched S now highResolution) actions
    v.world = run (step S T) (initial S now highResolution) actions ∧
    (∀ last ∈ v.world.sent.getLast?, v.heard = last.1) ∧
    (v.world.heart.thread.phase ≠ .finished →
      v.world.steady ≤ v.heard + T.heartbeatPeriod + 5 * late) := by
  intro v
  have h : Listening T late v := run_invariant (watch_listening period)
    (initial_listening S T late now highResolution) prompt
  refine ⟨watch_world S T _ actions, h.last, fun unfinished => ?_⟩
  by_cases starting : v.world.heart.thread.phase = .starting
  · rw [(h.unstarted starting).2.1]
    omega
  · obtain ⟨inTime, deadline⟩ := h.inTime starting unfinished
    have one : (1 : Int) * late ≤ legs v.world * late :=
      Int.mul_le_mul_of_nonneg_right (by exact_mod_cast legs_pos h.beating starting unfinished)
        (Int.natCast_nonneg late)
    linarith

instance (late : Nat) (v : Watched) : (a : Action) → Decidable (Prompt late v a)
  | .pass duration => inferInstanceAs (Decidable ((blocked v.world = false →
      v.world.steady + duration ≤ max v.since v.world.wakeAt + late) ∧
    (v.world.heart.beat.running = true →
      v.world.steady + duration ≤ max v.beatSince v.world.beatWakeAt + late)))
  | .setClock _ | .downstream _ | .heartbeat => inferInstanceAs (Decidable True)

def lateHandover : List Action :=
  [.downstream false, .heartbeat, .heartbeat, .heartbeat, .downstream false, .downstream false,
    .pass 52, .heartbeat, .pass 2, .heartbeat, .pass 2, .downstream false, .pass 2,
    .downstream false, .pass 2]

theorem handover_heard : ∃ S,
    Setup.make ⟨[], fun _ => 0, by decide⟩ ⟨0⟩ { session := List.replicate 10 0x20 } 4 = .ok S ∧
    (run (watch S (exactly 1 50 100)) (watched S 0 7) lateHandover).world.steady ≤
      (run (watch S (exactly 1 50 100)) (watched S 0 7) lateHandover).heard + 50 + 5 * (2 : Nat) := by
  refine ⟨_, rfl, (never_silent _ (exactly 1 50 100) (by decide) 2 0 7 lateHandover ?_).2.2 ?_⟩
  · decide +kernel
  · decide +kernel

end MoldSilence
