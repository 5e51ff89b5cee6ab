import MoldReplay.HeartbeatNumbers
import MoldReplay.PacketTimestamps
import MoldReplay.Pacing

/- The two threads of a replay with their clocks and sleeps. Time passes between any two
   steps; a thread goes on at any time after its sleep is over, so however late. -/
namespace MoldTimedReplay
open MoldPacket MoldDownstream MoldHeartbeat MoldTimestamps ScheduledRuns

structure Timing where
  -- wall_origin_ plus an offset scaled by playback_speed_: whatever the division of doubles,
  -- its conversion to int64_t and the addition give
  sendAt : Int → Int → Int
  heartbeatPeriod : Int
  endOfSessionDuration : Int

/-- Where the quotient is exact and everything fits into 64 bits. -/
def exactly (playbackSpeed : ℚ) (heartbeatPeriod endOfSessionDuration : Int) : Timing :=
  ⟨fun wall offset => wall + MoldPacing.truncate ((offset : ℚ) / playbackSpeed), heartbeatPeriod,
    endOfSessionDuration⟩

structure Pacer where
  wallOrigin : Int := 0
  replayOrigin : Option Int := none

/-- send_at -/
def Pacer.due (T : Timing) (p : Pacer) (packetTimestamp : Nat) : Int :=
  T.sendAt p.wallOrigin (packetTimestamp - p.replayOrigin.getD 0)

/-- calculate_delay, by the reading it takes. -/
def Pacer.delay (T : Timing) (p : Pacer) (packetTimestamp : Nat) (now : Int) : Int :=
  if p.due T packetTimestamp ≤ now then 0 else p.due T packetTimestamp - now

/-- The last delay: what get_delay has returned to sleep_for, if the sleep has not started,
    when get_delay read the clock for it, and when the sleep started. -/
structure Pause where
  delay : Option Int
  readAt : Int
  startedAt : Int

structure World where
  heart : MoldHeartbeat.World
  pacer : Pacer
  pause : Pause
  -- steady_clock, by which threads sleep, and high_resolution_clock, which may be set
  steady : Int
  highResolution : Int
  -- until when each thread sleeps
  wakeAt : Int
  beatWakeAt : Int
  -- end, in end_of_session
  sessionEnd : Option Int
  -- what was handed to the socket, and when
  sent : List (Int × Datagram)

inductive Action where
  | pass (duration : Nat)
  | setClock (time : Int)
  | downstream (stopRequested : Bool)
  | heartbeat

def initial (S : Setup) (now highResolution : Int) : World := {
  heart := MoldHeartbeat.initial S
  pacer := {}
  pause := ⟨none, now, now⟩
  steady := now
  highResolution := highResolution
  wakeAt := now
  beatWakeAt := now
  sessionEnd := none
  sent := [] }

def World.take (S : Setup) (w : World) (a : MoldHeartbeat.Action) : World :=
  let heart := MoldHeartbeat.step S w.heart a
  { w with
    heart := heart
    sent := w.sent ++ (heart.wire.drop w.heart.wire.length).map fun d => (w.steady, d) }

def World.sleepUntil (w : World) (time : Int) : World := { w with wakeAt := time }
def World.beatSleepsUntil (w : World) (time : Int) : World := { w with beatWakeAt := time }

def World.setOrigin (w : World) (packetTimestamp : Nat) : World :=
  { w with pacer := ⟨w.steady, some (packetTimestamp : Int)⟩ }

def World.computeDelay (T : Timing) (w : World) (packetTimestamp : Nat) : World :=
  { w with pause := { w.pause with
      delay := some (w.pacer.delay T packetTimestamp w.steady), readAt := w.steady } }

def World.startSleep (w : World) (delay : Int) : World :=
  { w with wakeAt := w.steady + delay, pause := { w.pause with delay := none, startedAt := w.steady } }

/-- get_delay and sleep_for. The two readings of get_delay are two steps, and the sleep starts
    in a third. -/
def World.pace (S : Setup) (T : Timing) (w : World) (packetTimestamp : Nat) : World :=
  match w.pacer.replayOrigin, w.pause.delay with
  | none, _ => w.setOrigin packetTimestamp
  | some _, none => w.computeDelay T packetTimestamp
  | some _, some delay => (w.take S (.downstream undisturbed)).startSleep delay

/-- end_of_session: the readings before the loop, then a pass of it. -/
def World.endSession (S : Setup) (T : Timing) (w : World) (stopRequested : Bool) : World :=
  match w.sessionEnd with
  | none => { w with sessionEnd := some (w.highResolution + T.endOfSessionDuration) }
  | some sessionEnd =>
    if !stopRequested && sessionEnd > w.highResolution then
      (w.take S (.downstream undisturbed)).sleepUntil (w.steady + T.heartbeatPeriod)
    else w.take S (.downstream ⟨stopRequested, true⟩)

def step (S : Setup) (T : Timing) (w : World) : Action → World
  | .pass duration => { w with
      steady := w.steady + duration, highResolution := w.highResolution + duration }
  | .setClock time => { w with highResolution := time }
  | .downstream stopRequested =>
    if w.steady < w.wakeAt then w
    else
      match w.heart.thread.phase with
      | .pacing packetTimestamp => w.pace S T packetTimestamp
      | .ending => w.endSession S T stopRequested
      | _ => w.take S (.downstream ⟨stopRequested, false⟩)
  | .heartbeat =>
    if w.steady < w.beatWakeAt then w
    else
      match w.heart.beat.place with
      | .sending _ => (w.take S .heartbeat).beatSleepsUntil (w.steady + T.heartbeatPeriod)
      | _ => w.take S .heartbeat

variable {S : Setup} {T : Timing} {w w' : World}

/-- Everything one step can do. -/
inductive Tick (S : Setup) (T : Timing) (w : World) : Action → World → Prop where
  | pass (duration : Nat) : Tick S T w (.pass duration) { w with
      steady := w.steady + duration, highResolution := w.highResolution + duration }
  | setClock (time : Int) : Tick S T w (.setClock time) { w with highResolution := time }
  | asleep (stopRequested : Bool) (early : w.steady < w.wakeAt) :
      Tick S T w (.downstream stopRequested) w
  | beatAsleep (early : w.steady < w.beatWakeAt) : Tick S T w .heartbeat w
  | originate {stopRequested : Bool} {timestamp : Nat}
      (pacing : w.heart.thread.phase = .pacing timestamp)
      (fresh : w.pacer.replayOrigin = none) :
      Tick S T w (.downstream stopRequested) (w.setOrigin timestamp)
  | compute {stopRequested : Bool} {timestamp : Nat} {origin : Int}
      (pacing : w.heart.thread.phase = .pacing timestamp)
      (originated : w.pacer.replayOrigin = some origin) :
      Tick S T w (.downstream stopRequested) (w.computeDelay T timestamp)
  | pace {stopRequested : Bool} {timestamp : Nat} {delay : Int}
      (pacing : w.heart.thread.phase = .pacing timestamp) (computed : w.pause.delay = some delay) :
      Tick S T w (.downstream stopRequested) ((w.take S (.downstream undisturbed)).startSleep delay)
  | startEnding {stopRequested : Bool} (awake : w.wakeAt ≤ w.steady)
      (ending : w.heart.thread.phase = .ending) (first : w.sessionEnd = none) :
      Tick S T w (.downstream stopRequested)
        { w with sessionEnd := some (w.highResolution + T.endOfSessionDuration) }
  | announce {sessionEnd : Int} (awake : w.wakeAt ≤ w.steady)
      (ending : w.heart.thread.phase = .ending) (ends : w.sessionEnd = some sessionEnd)
      (early : w.highResolution < sessionEnd) :
      Tick S T w (.downstream false)
        ((w.take S (.downstream undisturbed)).sleepUntil (w.steady + T.heartbeatPeriod))
  | finish {stopRequested : Bool} {sessionEnd : Int} (ending : w.heart.thread.phase = .ending)
      (ends : w.sessionEnd = some sessionEnd)
      (closed : stopRequested = true ∨ sessionEnd ≤ w.highResolution) :
      Tick S T w (.downstream stopRequested) (w.take S (.downstream ⟨stopRequested, true⟩))
  | downstream (stopRequested : Bool) (awake : w.wakeAt ≤ w.steady)
      (unpaced : ∀ timestamp, w.heart.thread.phase ≠ .pacing timestamp)
      (replaying : w.heart.thread.phase ≠ .ending) :
      Tick S T w (.downstream stopRequested) (w.take S (.downstream ⟨stopRequested, false⟩))
  | beat {seq : MoldWire.SequenceNumber} (awake : w.beatWakeAt ≤ w.steady)
      (sending : w.heart.beat.place = .sending seq) :
      Tick S T w .heartbeat ((w.take S .heartbeat).beatSleepsUntil (w.steady + T.heartbeatPeriod))
  | heartbeat (awake : w.beatWakeAt ≤ w.steady)
      (quiet : ∀ seq, w.heart.beat.place ≠ .sending seq) :
      Tick S T w .heartbeat (w.take S .heartbeat)

theorem pace_ticks {timestamp : Nat} (pacing : w.heart.thread.phase = .pacing timestamp)
    (stopRequested : Bool) : Tick S T w (.downstream stopRequested) (w.pace S T timestamp) := by
  unfold World.pace
  split
  · rename_i fresh
    exact .originate pacing fresh
  · rename_i originated _
    exact .compute pacing originated
  · rename_i computed
    exact .pace pacing computed

theorem endSession_ticks (awake : w.wakeAt ≤ w.steady) (ending : w.heart.thread.phase = .ending)
    (stopRequested : Bool) :
    Tick S T w (.downstream stopRequested) (w.endSession S T stopRequested) := by
  simp only [World.endSession]
  cases ends : w.sessionEnd with
  | none => exact .startEnding awake ending ends
  | some sessionEnd =>
    dsimp only
    split
    · rename_i onward
      simp only [Bool.and_eq_true, Bool.not_eq_true', decide_eq_true_eq] at onward
      obtain ⟨rfl, early⟩ := onward
      exact .announce awake ending ends early
    · rename_i closed
      have closed : stopRequested = true ∨ sessionEnd ≤ w.highResolution := by
        cases stopRequested
        · exact Or.inr (by simpa using closed)
        · exact Or.inl rfl
      exact .finish ending ends closed

theorem step_ticks (S : Setup) (T : Timing) (w : World) (a : Action) :
    Tick S T w a (step S T w a) := by
  cases a with
  | pass duration => exact .pass duration
  | setClock time => exact .setClock time
  | downstream stopRequested =>
    simp only [step]
    split
    · exact .asleep stopRequested ‹_›
    · rename_i awake
      have awake := Int.not_lt.mp awake
      cases phase : w.heart.thread.phase with
      | pacing timestamp => exact pace_ticks phase stopRequested
      | ending => exact endSession_ticks awake phase stopRequested
      | _ => exact .downstream _ awake (by simp [phase]) (by simp [phase])
  | heartbeat =>
    simp only [step]
    split
    · exact .beatAsleep ‹_›
    · rename_i awake
      have awake := Int.not_lt.mp awake
      cases place : w.heart.beat.place with
      | sending seq => exact .beat awake place
      | _ => exact .heartbeat awake (by simp [place])

inductive Stage (t t' : Thread) (ds : List Datagram) : Prop where
  | paces {timestamp : Nat} (pacing : t.phase = .pacing timestamp) (paced : t'.phase = .publishing)
      (delayed : delayedTimestamps t'.feed.log = delayedTimestamps t.feed.log ++ [timestamp])
      (data : dataPackets ds = []) (sent : sentPackets t'.feed.log = sentPackets t.feed.log)
  | publishes (publishing : t.phase = .publishing) (published : t'.phase = .sending)
      (delayed : delayedTimestamps t'.feed.log = delayedTimestamps t.feed.log)
      (data : dataPackets ds = []) (sent : sentPackets t'.feed.log = sentPackets t.feed.log)
  | sends {p : Packet} (sending : t.phase = .sending) (sent : t'.phase = .replaying)
      (delayed : delayedTimestamps t'.feed.log = delayedTimestamps t.feed.log)
      (data : dataPackets ds = [p])
      (packets : sentPackets t'.feed.log = sentPackets t.feed.log ++ [p])
  | others (unpaced : ∀ timestamp, t.phase ≠ .pacing timestamp)
      (before : awaited t.phase = 0) (after : awaited t'.phase = 0)
      (delayed : delayedTimestamps t'.feed.log = delayedTimestamps t.feed.log)
      (data : dataPackets ds = []) (sent : sentPackets t'.feed.log = sentPackets t.feed.log)

theorem awaited_between {p : Phase} (between : p.between = true) : awaited p = 0 := by
  cases p <;> first | rfl | cases between

theorem between_stage {f g : Feed} {p p' : Phase} {ds : List Datagram} (before : p.between = true)
    (after : p'.between = true) (delayed : delayedTimestamps g.log = delayedTimestamps f.log)
    (data : dataPackets ds = []) (sent : sentPackets g.log = sentPackets f.log) :
    Stage ⟨f, p⟩ ⟨g, p'⟩ ds := by
  refine .others ?_ (awaited_between before) (awaited_between after) delayed data sent
  rintro timestamp rfl
  cases before

theorem emits_stage {t t' : Thread} {ds : List Datagram} (emits : Emits S t t' ds) :
    Stage t t' ds := by
  cases emits with
  | data f =>
    refine .sends rfl rfl ?_ rfl ?_
    · simp [delayedTimestamps, Feed.transmit, Feed.emit]
    · simp [sentPackets, Feed.transmit, Feed.emit]
  | endOfSession f =>
    refine between_stage rfl rfl ?_ rfl ?_
    · simp [delayedTimestamps, Feed.emit]
    · simp [sentPackets, Feed.emit]
  | quiet move open_ sent ends =>
    cases move with
    | turn before after onward => exact between_stage before after rfl rfl sent
    | skip skipped complete =>
      exact between_stage rfl rfl (by simp [delayedTimestamps, Feed.emit]) rfl sent
    | skipFails inside skipped incomplete => exact between_stage rfl rfl rfl rfl sent
    | start timestamp kept => exact .others (by simp) rfl rfl rfl rfl sent
    | add complete fits =>
      refine .others (by simp) rfl rfl ?_ rfl sent
      simp [delayedTimestamps, Feed.accept, Feed.emit]
    | unreadable inside incomplete => exact .others (by simp) rfl rfl rfl rfl sent
    | close => exact .others (by simp) rfl rfl rfl rfl sent
    | pace => exact .paces rfl rfl (by simp [delayedTimestamps, Feed.pace, Feed.emit]) rfl sent
    | publish => exact .publishes rfl rfl rfl rfl sent
    | send => exact absurd rfl open_
    | announce =>
      exact between_stage rfl rfl (by simp [delayedTimestamps, Feed.emit]) rfl sent

structure OnTime (T : Timing) (t : Thread) (pacer : Pacer) (pause : Pause) (steady wakeAt : Int)
    (times : List Int) : Prop where
  count : (delayedTimestamps t.feed.log).length = (sentPackets t.feed.log).length + awaited t.phase
  -- the first timestamp becomes the origin in a step before its delay
  origin : pacer.replayOrigin = (delayedTimestamps t.feed.log).head?.map Nat.cast ∨
    ∃ timestamp : Nat, t.phase = .pacing timestamp ∧ delayedTimestamps t.feed.log = [] ∧
      pacer.replayOrigin = some (timestamp : Int)
  computed : ∀ delay ∈ pause.delay, pause.readAt ≤ steady ∧ pacer.replayOrigin ≠ none ∧
    ∃ timestamp, t.phase = .pacing timestamp ∧ delay = pacer.delay T timestamp pause.readAt
  notEarly : List.Forall₂ (fun timestamp time => pacer.due T timestamp ≤ time)
    ((delayedTimestamps t.feed.log).take (sentPackets t.feed.log).length) times
  asleep : t.phase = .publishing → pause.readAt ≤ pause.startedAt ∧ pause.startedAt ≤ steady ∧
    ∀ timestamp ∈ (delayedTimestamps t.feed.log).getLast?,
      wakeAt = pause.startedAt + pacer.delay T timestamp pause.readAt
  ready : t.phase = .sending → ∀ timestamp ∈ (delayedTimestamps t.feed.log).getLast?,
    pacer.due T timestamp ≤ steady

variable {t t' : Thread} {pacer : Pacer} {pause pause' : Pause}
  {steady steady' wakeAt wakeAt' : Int} {times : List Int} {ds : List Datagram}

theorem delay_eq (T : Timing) (pacer : Pacer) (timestamp : Nat) (now : Int) :
    pacer.delay T timestamp now = max now (pacer.due T timestamp) - now := by
  unfold Pacer.delay
  split <;> omega

theorem delay_exactly (p : MoldPacing.Pacer) {origin : Int}
    (originated : p.replayOrigin = some origin) (period duration : Int) (timestamp : Nat)
    (clock : MoldPacing.Clock) :
    (p.calculateDelay timestamp clock).1 =
      Pacer.delay (exactly p.playbackSpeed period duration) ⟨p.wallOrigin, p.replayOrigin⟩ timestamp
        (clock.readings clock.taken) := by
  rw [MoldPacing.calculateDelay_eq p originated, delay_eq, originated]
  rfl

theorem onTime_later (h : OnTime T t pacer pause steady wakeAt times) (later : steady ≤ steady') :
    OnTime T t pacer pause steady' wakeAt times where
  count := h.count
  origin := h.origin
  computed delay returned :=
    ⟨Int.le_trans (h.computed delay returned).1 later, (h.computed delay returned).2⟩
  notEarly := h.notEarly
  asleep publishing :=
    ⟨(h.asleep publishing).1, Int.le_trans (h.asleep publishing).2.1 later, (h.asleep publishing).2.2⟩
  ready sending timestamp last := Int.le_trans (h.ready sending timestamp last) later

theorem onTime_originates (h : OnTime T t pacer pause steady wakeAt times) {timestamp : Nat}
    (pacing : t.phase = .pacing timestamp) (fresh : pacer.replayOrigin = none) :
    OnTime T t ⟨steady, some (timestamp : Int)⟩ pause steady wakeAt times := by
  have none_yet : delayedTimestamps t.feed.log = [] := by
    rcases h.origin with first | ⟨_, _, nothing, _⟩
    · rw [fresh] at first
      simpa using first.symm
    · exact nothing
  have no_times : times = [] := by simpa [none_yet] using h.notEarly
  refine ⟨h.count, Or.inr ⟨timestamp, pacing, none_yet, rfl⟩, ?_, ?_, ?_, ?_⟩
  · intro delay returned
    exact absurd fresh (h.computed delay returned).2.1
  · simp [none_yet, no_times]
  · simp [pacing]
  · simp [pacing]

theorem onTime_computes (h : OnTime T t pacer pause steady wakeAt times) {timestamp : Nat}
    {origin : Int} (pacing : t.phase = .pacing timestamp)
    (originated : pacer.replayOrigin = some origin) :
    OnTime T t pacer ⟨some (pacer.delay T timestamp steady), steady, pause.startedAt⟩ steady wakeAt
      times := by
  refine ⟨h.count, h.origin, ?_, h.notEarly, ?_, ?_⟩
  · intro delay returned
    cases returned
    exact ⟨Int.le_refl _, by simp [originated], timestamp, pacing, rfl⟩
  · simp [pacing]
  · simp [pacing]

theorem pacing_origin (h : OnTime T t pacer pause steady wakeAt times) {timestamp : Nat}
    (pacing : t.phase = .pacing timestamp) (originated : pacer.replayOrigin ≠ none) :
    pacer.replayOrigin = (delayedTimestamps t.feed.log ++ [timestamp]).head?.map Nat.cast := by
  rcases h.origin with first | ⟨timestamp', pacing', nothing, same⟩
  · cases earlier : delayedTimestamps t.feed.log with
    | nil =>
      rw [earlier] at first
      exact absurd first originated
    | cons d rest =>
      rw [first, earlier]
      rfl
  · rw [pacing] at pacing'
    cases pacing'
    rw [nothing, same]
    rfl

theorem onTime_paces (h : OnTime T t pacer pause steady wakeAt times) {timestamp : Nat} {delay : Int}
    (pacing : t.phase = .pacing timestamp) (paced : t'.phase = .publishing)
    (delayed : delayedTimestamps t'.feed.log = delayedTimestamps t.feed.log ++ [timestamp])
    (sent : sentPackets t'.feed.log = sentPackets t.feed.log) (returned : pause.delay = some delay) :
    OnTime T t' pacer ⟨none, pause.readAt, steady⟩ steady (steady + delay) times := by
  obtain ⟨read, originated, timestamp', pacing', computed⟩ := h.computed delay returned
  rw [pacing] at pacing'
  cases pacing'
  have count := h.count
  simp only [pacing, awaited, Nat.add_zero] at count
  refine ⟨?_, Or.inl ?_, ?_, ?_, ?_, ?_⟩
  · rw [delayed, sent, paced, List.length_append, count]
    rfl
  · rw [delayed]
    exact pacing_origin h pacing originated
  · intro delay none_
    cases none_
  · rw [delayed, sent, List.take_append_of_le_length (by omega)]
    exact h.notEarly
  · refine fun _ => ⟨read, Int.le_refl _, fun last member => ?_⟩
    rw [delayed, List.getLast?_concat, Option.mem_some] at member
    rw [← member, computed]
  · simp [paced]

theorem onTime_publishes (h : OnTime T t pacer pause steady wakeAt times) (awake : wakeAt ≤ steady)
    (publishing : t.phase = .publishing) (published : t'.phase = .sending)
    (delayed : delayedTimestamps t'.feed.log = delayedTimestamps t.feed.log)
    (sent : sentPackets t'.feed.log = sentPackets t.feed.log) :
    OnTime T t' pacer pause steady wakeAt times := by
  refine ⟨?_, Or.inl ?_, ?_, ?_, ?_, ?_⟩
  · rw [delayed, sent, h.count, publishing, published]
    rfl
  · rw [delayed]
    rcases h.origin with first | ⟨_, pacing, _⟩
    · exact first
    · rw [publishing] at pacing
      cases pacing
  · intro delay returned
    obtain ⟨_, _, _, pacing, _⟩ := h.computed delay returned
    rw [publishing] at pacing
    cases pacing
  · rw [delayed, sent]
    exact h.notEarly
  · simp [published]
  · intro _ timestamp last
    rw [delayed] at last
    obtain ⟨read, _, wake⟩ := h.asleep publishing
    have until_ := wake timestamp last
    rw [delay_eq] at until_
    omega

theorem onTime_sends (h : OnTime T t pacer pause steady wakeAt times) {p : Packet}
    (sending : t.phase = .sending) (sent : t'.phase = .replaying)
    (delayed : delayedTimestamps t'.feed.log = delayedTimestamps t.feed.log)
    (packets : sentPackets t'.feed.log = sentPackets t.feed.log ++ [p]) :
    OnTime T t' pacer pause steady wakeAt (times ++ [steady]) := by
  have count := h.count
  rw [sending, awaited] at count
  obtain ⟨before, last, split⟩ : ∃ before last, delayedTimestamps t.feed.log = before ++ [last] := by
    rcases List.eq_nil_or_concat (delayedTimestamps t.feed.log) with nothing | ⟨before, last, split⟩
    · simp [nothing] at count
    · exact ⟨before, last, by simpa using split⟩
  have length : before.length = (sentPackets t.feed.log).length := by
    simpa [split] using count
  refine ⟨?_, Or.inl ?_, ?_, ?_, ?_, ?_⟩
  · rw [delayed, packets, sent, count, List.length_append]
    rfl
  · rw [delayed]
    rcases h.origin with first | ⟨_, pacing, _⟩
    · exact first
    · rw [sending] at pacing
      cases pacing
  · intro delay returned
    obtain ⟨_, _, _, pacing, _⟩ := h.computed delay returned
    rw [sending] at pacing
    cases pacing
  · have notEarly := h.notEarly
    rw [split, ← length, List.take_left' rfl] at notEarly
    rw [delayed, packets, List.length_append, ← length, split]
    have whole : before.length + [p].length = (before ++ [last]).length := by simp
    rw [whole, List.take_length, forall₂_snoc]
    exact ⟨notEarly, h.ready sending last (by simp [split])⟩
  · simp [sent]
  · simp [sent]

theorem onTime_others (h : OnTime T t pacer pause steady wakeAt times)
    (unpaced : ∀ timestamp, t.phase ≠ .pacing timestamp) (before : awaited t.phase = 0)
    (after : awaited t'.phase = 0)
    (delayed : delayedTimestamps t'.feed.log = delayedTimestamps t.feed.log)
    (sent : sentPackets t'.feed.log = sentPackets t.feed.log) (wakeAt' : Int) :
    OnTime T t' pacer pause steady wakeAt' times := by
  refine ⟨?_, Or.inl ?_, ?_, ?_, ?_, ?_⟩
  · rw [delayed, sent, h.count, before, after]
  · rw [delayed]
    exact h.origin.resolve_right fun ⟨timestamp, pacing, _⟩ => unpaced timestamp pacing
  · intro delay returned
    obtain ⟨_, _, timestamp, pacing, _⟩ := h.computed delay returned
    exact absurd pacing (unpaced timestamp)
  · rw [delayed, sent]
    exact h.notEarly
  · intro publishing
    rw [publishing] at after
    cases after
  · intro sending
    rw [sending] at after
    cases after

def dataTimes (sent : List (Int × Datagram)) : List Int :=
  sent.filterMap fun | (time, .data _) => some time | _ => none

structure Timed (S : Setup) (T : Timing) (w : World) : Prop where
  follows : MoldLedger.Follows S w.heart.thread
  dated : Dated S w.heart.thread
  wire : w.sent.map Prod.snd = w.heart.wire
  onTime : OnTime T w.heart.thread w.pacer w.pause w.steady w.wakeAt (dataTimes w.sent)

theorem dataTimes_append (sent : List (Int × Datagram)) (ds : List Datagram) (time : Int) :
    dataTimes (sent ++ ds.map fun d => (time, d)) =
      dataTimes sent ++ (dataPackets ds).map fun _ => time := by
  have now : dataTimes (ds.map fun d => (time, d)) = (dataPackets ds).map fun _ => time := by
    induction ds with
    | nil => rfl
    | cons d rest ih => cases d <;> simpa [dataTimes, dataPackets] using ih
  rw [← now]
  exact List.filterMap_append

inductive Untimed (S : Setup) (h h' : MoldHeartbeat.World) : MoldHeartbeat.Action → Prop where
  | downstream {inputs : Inputs} {ds : List Datagram} (wire : h'.wire = h.wire ++ ds)
      (thread : h'.thread = h.thread.step S inputs) (emits : Emits S h.thread h'.thread ds) :
      Untimed S h h' (.downstream inputs)
  | joining {inputs : Inputs} (phase : h.thread.phase = .joining) (same : h' = h) :
      Untimed S h h' (.downstream inputs)
  | heartbeat {ds : List Datagram} (wire : h'.wire = h.wire ++ ds) (thread : h'.thread = h.thread)
      (data : dataPackets ds = []) : Untimed S h h' .heartbeat

theorem step_untimed (S : Setup) (h : MoldHeartbeat.World) (a : MoldHeartbeat.Action) :
    Untimed S h (MoldHeartbeat.step S h a) a := by
  cases a with
  | downstream inputs =>
    by_cases waits : h.thread.phase = .joining ∧ h.beat.running
    · exact .joining waits.1 (if_pos waits)
    · have free : MoldHeartbeat.step S h (.downstream inputs) = _ := if_neg waits
      rw [free]
      exact .downstream rfl rfl (move_emits (step_moves h.thread inputs))
  | heartbeat =>
    simp only [MoldHeartbeat.step]
    cases h.beat.place with
    | sending seq => exact .heartbeat rfl rfl rfl
    | absent => exact .heartbeat (List.append_nil _).symm rfl rfl
    | exited => exact .heartbeat (List.append_nil _).symm rfl rfl
    | checking => exact .heartbeat (List.append_nil _).symm rfl rfl
    | loading => exact .heartbeat (List.append_nil _).symm rfl rfl
    | sleeping => exact .heartbeat (List.append_nil _).symm rfl rfl

theorem untimed_wire {h h' : MoldHeartbeat.World} {a : MoldHeartbeat.Action}
    (untimed : Untimed S h h' a) : ∃ ds, h'.wire = h.wire ++ ds := by
  cases untimed with
  | downstream wire _ _ => exact ⟨_, wire⟩
  | joining _ same => exact ⟨[], by rw [same, List.append_nil]⟩
  | heartbeat wire _ _ => exact ⟨_, wire⟩

theorem take_sent {a : MoldHeartbeat.Action} {ds : List Datagram}
    (wire : (MoldHeartbeat.step S w.heart a).wire = w.heart.wire ++ ds) :
    (w.take S a).sent = w.sent ++ ds.map fun d => (w.steady, d) := by
  simp [World.take, wire]

theorem take_times {a : MoldHeartbeat.Action} {ds : List Datagram}
    (wire : (MoldHeartbeat.step S w.heart a).wire = w.heart.wire ++ ds) :
    dataTimes (w.take S a).sent = dataTimes w.sent ++ (dataPackets ds).map fun _ => w.steady := by
  rw [take_sent wire, dataTimes_append]

theorem take_timed (h : Timed S T w) (a : MoldHeartbeat.Action) {w' : World}
    (heart : w'.heart = (w.take S a).heart) (sent : w'.sent = (w.take S a).sent)
    (onTime : OnTime T w'.heart.thread w'.pacer w'.pause w'.steady w'.wakeAt
      (dataTimes w'.sent)) : Timed S T w' := by
  have untimed := step_untimed S w.heart a
  have thread : w'.heart.thread = (MoldHeartbeat.step S w.heart a).thread := by rw [heart]; rfl
  have kept : MoldLedger.Follows S w'.heart.thread ∧ Dated S w'.heart.thread := by
    rw [thread]
    cases untimed with
    | downstream _ moved _ =>
      rw [moved]
      exact ⟨MoldLedger.move_follows h.follows (step_moves _ _), step_dated h.follows h.dated _⟩
    | joining _ same =>
      rw [same]
      exact ⟨h.follows, h.dated⟩
    | heartbeat _ same _ =>
      rw [same]
      exact ⟨h.follows, h.dated⟩
  refine ⟨kept.1, kept.2, ?_, onTime⟩
  obtain ⟨ds, wire⟩ := untimed_wire untimed
  rw [sent, heart, take_sent wire, List.map_append, h.wire]
  simp [World.take, wire, Function.comp_def]

theorem beat_timed (h : Timed S T w) {w' : World} (heart : w'.heart = (w.take S .heartbeat).heart)
    (sent : w'.sent = (w.take S .heartbeat).sent) (pacer : w'.pacer = w.pacer)
    (pause : w'.pause = w.pause) (steady : w'.steady = w.steady) (wakeAt : w'.wakeAt = w.wakeAt) :
    Timed S T w' := by
  refine take_timed h .heartbeat heart sent ?_
  cases step_untimed S w.heart .heartbeat with
  | heartbeat wire thread data =>
    have same : w'.heart.thread = w.heart.thread := by rw [heart]; exact thread
    rw [same, pacer, pause, steady, wakeAt, sent, take_times wire, data, List.map_nil,
      List.append_nil]
    exact h.onTime

theorem downstream_timed (h : Timed S T w) (inputs : Inputs)
    (unpaced : ∀ timestamp, w.heart.thread.phase ≠ .pacing timestamp)
    (awake : w.heart.thread.phase = .publishing → w.wakeAt ≤ w.steady) {w' : World}
    (heart : w'.heart = (w.take S (.downstream inputs)).heart)
    (sent : w'.sent = (w.take S (.downstream inputs)).sent) (pacer : w'.pacer = w.pacer)
    (pause : w'.pause = w.pause) (steady : w'.steady = w.steady)
    (wakeAt : w.heart.thread.phase ≠ .ending → w'.wakeAt = w.wakeAt) : Timed S T w' := by
  refine take_timed h (.downstream inputs) heart sent ?_
  have next : w'.heart.thread = (MoldHeartbeat.step S w.heart (.downstream inputs)).thread := by
    rw [heart]; rfl
  rw [pacer, pause, steady, next, sent]
  cases step_untimed S w.heart (.downstream inputs) with
  | joining joining same =>
    have nothing : (MoldHeartbeat.step S w.heart (.downstream inputs)).wire = w.heart.wire ++ [] := by
      rw [same, List.append_nil]
    rw [same, wakeAt (by simp [joining]), take_times nothing]
    simpa [dataPackets] using h.onTime
  | downstream wire thread emits =>
    rw [take_times wire]
    cases emits_stage emits with
    | paces pacing _ _ _ _ => exact absurd pacing (unpaced _)
    | publishes publishing published delayed data packets =>
      rw [data, List.map_nil, List.append_nil, wakeAt (by simp [publishing])]
      exact onTime_publishes h.onTime (awake publishing) publishing published delayed packets
    | sends sending onward delayed data packets =>
      rw [data, wakeAt (by simp [sending])]
      exact onTime_sends h.onTime sending onward delayed packets
    | others _ before after delayed data packets =>
      rw [data, List.map_nil, List.append_nil]
      exact onTime_others h.onTime unpaced before after delayed packets _

theorem pace_timed (h : Timed S T w) {timestamp : Nat} {delay : Int}
    (pacing : w.heart.thread.phase = .pacing timestamp) (computed : w.pause.delay = some delay) :
    Timed S T ((w.take S (.downstream undisturbed)).startSleep delay) := by
  refine take_timed h (.downstream undisturbed) rfl rfl ?_
  change OnTime T (MoldHeartbeat.step S w.heart (.downstream undisturbed)).thread w.pacer
    ⟨none, w.pause.readAt, w.steady⟩ w.steady (w.steady + delay)
    (dataTimes (w.take S (.downstream undisturbed)).sent)
  cases step_untimed S w.heart (.downstream undisturbed) with
  | joining joining _ =>
    rw [pacing] at joining
    cases joining
  | downstream wire thread emits =>
    rw [take_times wire]
    cases emits_stage emits with
    | paces pacing' paced delayed data packets =>
      rw [pacing] at pacing'
      cases pacing'
      rw [data, List.map_nil, List.append_nil]
      exact onTime_paces h.onTime pacing paced delayed packets computed
    | publishes publishing _ _ _ _ => simp [pacing] at publishing
    | sends sending _ _ _ _ => simp [pacing] at sending
    | others unpaced _ _ _ _ _ => exact absurd pacing (unpaced _)

theorem tick_timed {a : Action} (h : Timed S T w) (tick : Tick S T w a w') : Timed S T w' := by
  cases tick with
  | pass duration => exact ⟨h.follows, h.dated, h.wire, onTime_later h.onTime
    (Int.le_add_of_nonneg_right (Int.natCast_nonneg _))⟩
  | setClock time => exact ⟨h.follows, h.dated, h.wire, h.onTime⟩
  | asleep stopRequested _ => exact h
  | beatAsleep _ => exact h
  | originate pacing fresh =>
    exact ⟨h.follows, h.dated, h.wire, onTime_originates h.onTime pacing fresh⟩
  | compute pacing originated =>
    exact ⟨h.follows, h.dated, h.wire, onTime_computes h.onTime pacing originated⟩
  | pace pacing computed => exact pace_timed h pacing computed
  | startEnding _ ending first => exact ⟨h.follows, h.dated, h.wire, h.onTime⟩
  | announce awake ending ends early =>
    exact downstream_timed h undisturbed (by simp [ending]) (fun _ => awake) rfl rfl rfl rfl
      rfl fun other => absurd ending other
  | @finish stopRequested sessionEnd ending ends closed =>
    exact downstream_timed h ⟨stopRequested, true⟩ (by simp [ending]) (by simp [ending]) rfl rfl rfl
      rfl rfl fun _ => rfl
  | downstream stopRequested awake unpaced replaying =>
    exact downstream_timed h ⟨stopRequested, false⟩ unpaced (fun _ => awake) rfl rfl rfl rfl rfl
      fun _ => rfl
  | beat awake sending => exact beat_timed h rfl rfl rfl rfl rfl rfl
  | heartbeat _ quiet => exact beat_timed h rfl rfl rfl rfl rfl rfl

theorem initial_timed (S : Setup) (T : Timing) (now highResolution : Int) :
    Timed S T (initial S now highResolution) where
  follows := MoldLedger.initial_follows S
  dated := initial_dated S
  wire := rfl
  onTime := {
    count := rfl
    origin := Or.inl rfl
    computed := by intro delay returned; cases returned
    notEarly := .nil
    asleep := by intro publishing; cases publishing
    ready := by intro sending; cases sending }

theorem run_timed (S : Setup) (T : Timing) (now highResolution : Int) (actions : List Action) :
    Timed S T (run (step S T) (initial S now highResolution) actions) :=
  run_always (I := Timed S T) (fun w a h => tick_timed h (step_ticks S T w a)) actions
    (initial_timed S T now highResolution)

theorem tick_untimed {a : Action} (tick : Tick S T w a w') :
    w'.heart = w.heart ∨ ∃ a, w'.heart = MoldHeartbeat.step S w.heart a := by
  cases tick with
  | pass _ => exact Or.inl rfl
  | setClock _ => exact Or.inl rfl
  | asleep _ _ => exact Or.inl rfl
  | beatAsleep _ => exact Or.inl rfl
  | originate _ _ => exact Or.inl rfl
  | compute _ _ => exact Or.inl rfl
  | startEnding _ _ _ => exact Or.inl rfl
  | pace _ _ => exact Or.inr ⟨.downstream undisturbed, rfl⟩
  | announce _ _ _ _ => exact Or.inr ⟨.downstream undisturbed, rfl⟩
  | @finish stopRequested _ _ _ _ => exact Or.inr ⟨.downstream ⟨stopRequested, true⟩, rfl⟩
  | downstream stopRequested _ _ _ => exact Or.inr ⟨.downstream ⟨stopRequested, false⟩, rfl⟩
  | beat _ _ => exact Or.inr ⟨.heartbeat, rfl⟩
  | heartbeat _ _ => exact Or.inr ⟨.heartbeat, rfl⟩

theorem run_untimed (S : Setup) (T : Timing) (now highResolution : Int) (actions : List Action) :
    ∃ beats, (run (step S T) (initial S now highResolution) actions).heart =
      run (MoldHeartbeat.step S) (MoldHeartbeat.initial S) beats := by
  refine run_refined (R := fun (w : World) h => w.heart = h) ?_ actions rfl
  rintro w _ a rfl
  rcases tick_untimed (step_ticks S T w a) with same | ⟨beat, next⟩
  · exact ⟨[], same⟩
  · exact ⟨[beat], next⟩

/-- With the timestamps of their first messages, the packets went out when these were due,
    counted from the first of them, or later. -/
def Departed (T : Timing) (w : World) (timestamps : List Nat) : Prop :=
  List.Forall₂ DatedBy (dataPackets w.heart.wire) timestamps ∧
    ∀ origin ∈ timestamps.head?, List.Forall₂ (fun (timestamp : Nat) time =>
      T.sendAt w.pacer.wallOrigin ((timestamp : Int) - origin) ≤ time) timestamps (dataTimes w.sent)

/-- The pacer's sleep goes on until the packet is due, or for as long behind that as the
    thread was held up between the reading of the clock and the start of the sleep. -/
def NotHeld (T : Timing) (w : World) : Prop :=
  w.heart.thread.phase = .publishing →
    w.pause.readAt ≤ w.pause.startedAt ∧ w.pause.startedAt ≤ w.steady ∧
    ∀ origin ∈ (delayedTimestamps w.heart.thread.feed.log).head?,
      ∀ timestamp ∈ (delayedTimestamps w.heart.thread.feed.log).getLast?,
        w.wakeAt = max w.pause.startedAt (T.sendAt w.pacer.wallOrigin ((timestamp : Int) - origin) +
          (w.pause.startedAt - w.pause.readAt))

/-- However long the threads are held up, however high_resolution_clock is set, and whatever
    the arithmetic of the pacer gives: what the threads do is what they do without clocks, no
    data packet leaves before its send_at, and the pacer's sleep is as long as the packet is
    early when the clock is read. -/
theorem replay_on_schedule (S : Setup) (T : Timing) (now highResolution : Int)
    (actions : List Action) :
    (∃ beats, (run (step S T) (initial S now highResolution) actions).heart =
      run (MoldHeartbeat.step S) (MoldHeartbeat.initial S) beats) ∧
    (run (step S T) (initial S now highResolution) actions).sent.map Prod.snd =
      (run (step S T) (initial S now highResolution) actions).heart.wire ∧
    (∃ timestamps,
      Departed T (run (step S T) (initial S now highResolution) actions) timestamps) ∧
    NotHeld T (run (step S T) (initial S now highResolution) actions) := by
  have untimed := run_untimed S T now highResolution actions
  have timed := run_timed S T now highResolution actions
  generalize run (step S T) (initial S now highResolution) actions = w at untimed timed ⊢
  have due_eq : ∀ origin ∈ (delayedTimestamps w.heart.thread.feed.log).head?, ∀ timestamp : Nat,
      w.pacer.due T timestamp = T.sendAt w.pacer.wallOrigin ((timestamp : Int) - origin) := by
    intro origin first timestamp
    rcases timed.onTime.origin with same | ⟨_, _, nothing, _⟩
    · rw [Pacer.due, same, Option.mem_def.mp first]
      rfl
    · rw [nothing] at first
      cases first
  refine ⟨untimed, timed.wire,
    ⟨(delayedTimestamps w.heart.thread.feed.log).take (sentPackets w.heart.thread.feed.log).length,
      ?_, ?_⟩, ?_⟩
  · obtain ⟨beats, same⟩ := untimed
    have data := (MoldHeartbeatNumbers.run_together S beats).data
    rw [← same] at data
    rw [data]
    exact delays_stamped timed.follows timed.dated
  · intro origin first
    have head : origin ∈ (delayedTimestamps w.heart.thread.feed.log).head? := by
      cases delays : delayedTimestamps w.heart.thread.feed.log with
      | nil => simp [delays] at first
      | cons d rest =>
        cases count : (sentPackets w.heart.thread.feed.log).length with
        | zero => simp [count] at first
        | succ n => simpa [delays, count] using first
    exact timed.onTime.notEarly.imp fun timestamp time early => due_eq origin head timestamp ▸ early
  · intro publishing
    obtain ⟨read, started, wake⟩ := timed.onTime.asleep publishing
    refine ⟨read, started, fun origin first timestamp last => ?_⟩
    rw [wake timestamp last, delay_eq, due_eq origin first]
    omega

end MoldTimedReplay
