import MoldReplay.Heartbeat

/- The life of the heartbeat thread: started with the replay, told to stop behind the last
   message, joined before the end of session packets. -/
namespace MoldHeartbeatLifecycle
open MoldDownstream MoldGapFree MoldHeartbeat

def Phase.beating : Phase → Bool
  | .starting | .joining | .ending | .finished => false
  | _ => true

structure Beating (h : World) : Prop where
  unstarted : h.thread.phase = .starting → h.beat.running = false
  beating : Phase.beating h.thread.phase = true →
    h.beat.running = true ∧ h.beat.stopRequested = false
  told : h.thread.phase = .joining → h.beat.stopRequested = true
  joined : h.thread.phase.ended = true → h.beat.running = false

variable {S : Setup} {h : World}

inductive Goes : Phase → Phase → Prop where
  | starts : Goes .starting .replaying
  | onward {p p' : Phase} (before : Phase.beating p = true) (unstopped : p ≠ .stopping)
      (after : Phase.beating p' = true) : Goes p p'
  | stops : Goes .stopping .joining
  | joins : Goes .joining .ending
  | ends {p p' : Phase} (before : p.ended = true) (after : p'.ended = true) : Goes p p'

theorem thread_goes (S : Setup) (t : Thread) (inputs : Inputs) :
    Goes t.phase (t.step S inputs).phase := by
  obtain ⟨f, phase⟩ := t
  cases phase with
  | starting => exact .starts
  | replaying =>
    refine .onward rfl (by simp) ?_
    simp only [Thread.step]
    cases f.atHead S inputs.stopRequested <;> rfl
  | building timestamp =>
    refine .onward rfl (by simp) ?_
    simp only [Thread.step]
    cases f.addMessage S <;> rfl
  | pacing timestamp => exact .onward rfl (by simp) rfl
  | publishing => exact .onward rfl (by simp) rfl
  | sending => exact .onward rfl (by simp) rfl
  | stopping => exact .stops
  | joining => exact .joins
  | ending =>
    refine .ends rfl ?_
    simp only [Thread.step]
    split <;> rfl
  | finished => exact .ends rfl rfl

theorem beating_alongside {p : Phase} (beating : Phase.beating p = true) (unstopped : p ≠ .stopping)
    (b : Beat) : b.alongside p = b := by
  cases p with
  | starting => cases beating
  | stopping => exact absurd rfl unstopped
  | _ => rfl

theorem ended_alongside {p : Phase} (ended : p.ended = true) (b : Beat) : b.alongside p = b := by
  cases p with
  | ending => rfl
  | finished => rfl
  | _ => cases ended

theorem beating_open {p : Phase} (beating : Phase.beating p = true) :
    p ≠ .starting ∧ p ≠ .joining ∧ p.ended = false := by
  refine ⟨?_, ?_, ?_⟩
  · rintro rfl
    cases beating
  · rintro rfl
    cases beating
  · cases p <;> first | rfl | cases beating

theorem goes_started {p p' : Phase} (goes : Goes p p') : p' ≠ .starting := by
  cases goes with
  | onward _ _ after => exact (beating_open after).1
  | ends _ after =>
    rintro rfl
    cases after
  | _ => simp

theorem goes_joining {p : Phase} (goes : Goes p .joining) : p = .stopping := by
  cases goes with
  | stops => rfl
  | onward _ _ after => cases after
  | ends _ after => cases after

theorem goes_ended {p p' : Phase} (goes : Goes p p') (ended : p.ended = true) :
    p'.ended = true := by
  cases goes with
  | ends _ after => exact after
  | onward before _ _ => exact absurd ((beating_open before).2.2.symm.trans ended) (by simp)
  | _ => cases ended

theorem downstream_beating (before : Beating h) (inputs : Inputs) :
    Beating (step S h (.downstream inputs)) := by
  by_cases waits : h.thread.phase = .joining ∧ h.beat.running = true
  · rw [step, if_pos waits]
    exact before
  · rw [step, if_neg waits]
    obtain ⟨unstarted, beating, told, joined⟩ := before
    have goes := thread_goes S h.thread inputs
    generalize h.thread.step S inputs = t' at goes ⊢
    obtain ⟨f', p'⟩ := t'
    obtain ⟨⟨f, p⟩, b, wire⟩ := h
    cases goes with
    | starts =>
      refine ⟨?_, fun _ => ⟨rfl, rfl⟩, ?_, ?_⟩
      all_goals intro elsewhere; cases elsewhere
    | onward from_ unstopped after =>
      obtain ⟨notStarting, notJoining, open_⟩ := beating_open after
      rw [beating_alongside from_ unstopped]
      refine ⟨fun starting => absurd starting notStarting, fun _ => beating from_,
        fun joining => absurd joining notJoining, fun ended => ?_⟩
      exact absurd (open_.symm.trans ended) (by simp)
    | stops =>
      refine ⟨?_, ?_, fun _ => rfl, ?_⟩
      all_goals intro elsewhere; cases elsewhere
    | joins =>
      have ended : b.running = false := by simpa using waits
      refine ⟨?_, ?_, ?_, fun _ => ended⟩
      all_goals intro elsewhere; cases elsewhere
    | ends ended after =>
      rw [ended_alongside ended]
      refine ⟨fun starting => ?_, fun open_ => ?_, fun joining => ?_, fun _ => joined ended⟩
      · rw [starting] at after
        cases after
      · exact absurd ((beating_open open_).2.2.symm.trans after) (by simp)
      · rw [joining] at after
        cases after

inductive Beats (b : Beat) : Beat → List Datagram → Prop where
  | still (stopped : b.running = false) : Beats b b []
  | exits (place : b.place = .checking) (told : b.stopRequested = true) :
      Beats b { b with place := .exited } []
  | goesOn (place : b.place = .checking) (untold : b.stopRequested = false) :
      Beats b { b with place := .loading } []
  | loads (place : b.place = .loading) (seq : MoldWire.SequenceNumber) :
      Beats b { b with place := .sending seq } []
  | sends {seq : MoldWire.SequenceNumber} (place : b.place = .sending seq) :
      Beats b { b with heartbeat := (b.heartbeat.send seq).1, place := .sleeping }
        [.heartbeat (b.heartbeat.send seq).2]
  | wakes (place : b.place = .sleeping) : Beats b { b with place := .checking } []

theorem heartbeat_beats (S : Setup) (h : World) : ∃ ds,
    Beats h.beat (step S h .heartbeat).beat ds ∧ (step S h .heartbeat).wire = h.wire ++ ds := by
  obtain ⟨t, ⟨heartbeat, place, stop⟩, wire⟩ := h
  cases place with
  | absent => exact ⟨[], .still rfl, (List.append_nil _).symm⟩
  | exited => exact ⟨[], .still rfl, (List.append_nil _).symm⟩
  | checking =>
    cases stop with
    | true => exact ⟨[], .exits rfl rfl, (List.append_nil _).symm⟩
    | false => exact ⟨[], .goesOn rfl rfl, (List.append_nil _).symm⟩
  | loading => exact ⟨[], .loads rfl _, (List.append_nil _).symm⟩
  | sending seq => exact ⟨_, .sends rfl, rfl⟩
  | sleeping => exact ⟨[], .wakes rfl, (List.append_nil _).symm⟩

variable {b b' : Beat} {ds : List Datagram}

theorem beats_stop (beats : Beats b b' ds) : b'.stopRequested = b.stopRequested := by
  cases beats <;> rfl

theorem beats_untold (beats : Beats b b' ds) (running : b.running = true)
    (untold : b.stopRequested = false) : b'.running = true := by
  cases beats with
  | still _ => exact running
  | exits _ told => exact absurd (untold.symm.trans told) (by simp)
  | _ => rfl

theorem beats_stopped (beats : Beats b b' ds) (stopped : b.running = false) : b' = b ∧ ds = [] := by
  cases beats with
  | still _ => exact ⟨rfl, rfl⟩
  | exits place _ => simp [Beat.running, place] at stopped
  | goesOn place _ => simp [Beat.running, place] at stopped
  | loads place _ => simp [Beat.running, place] at stopped
  | sends place => simp [Beat.running, place] at stopped
  | wakes place => simp [Beat.running, place] at stopped

theorem heartbeat_thread (S : Setup) (h : World) : (step S h .heartbeat).thread = h.thread := by
  simp only [step]
  split <;> rfl

theorem heartbeat_beating (before : Beating h) : Beating (step S h .heartbeat) := by
  obtain ⟨ds, beats, wire⟩ := heartbeat_beats S h
  have thread := heartbeat_thread S h
  have stop := beats_stop beats
  refine ⟨?_, ?_, ?_, ?_⟩
  all_goals rw [thread]
  · intro starting
    rw [(beats_stopped beats (before.unstarted starting)).1]
    exact before.unstarted starting
  · intro beating
    obtain ⟨running, untold⟩ := before.beating beating
    exact ⟨beats_untold beats running untold, stop.trans untold⟩
  · exact fun joining => stop.trans (before.told joining)
  · intro ended
    rw [(beats_stopped beats (before.joined ended)).1]
    exact before.joined ended

theorem initial_beating (S : Setup) : Beating (initial S) := by
  refine ⟨fun _ => rfl, ?_, ?_, ?_⟩
  all_goals intro elsewhere; cases elsewhere

theorem step_beating (before : Beating h) (a : Action) : Beating (step S h a) := by
  cases a with
  | downstream inputs => exact downstream_beating before inputs
  | heartbeat => exact heartbeat_beating before

theorem heartbeat_stopped (S : Setup) (stopped : h.beat.running = false) :
    (step S h .heartbeat).beat.running = false := by
  obtain ⟨ds, beats, _⟩ := heartbeat_beats S h
  rw [(beats_stopped beats stopped).1, stopped]

theorem step_told (a : Action) (told : h.thread.phase = .joining → h.beat.stopRequested = true) :
    (step S h a).thread.phase = .joining → (step S h a).beat.stopRequested = true := by
  cases a with
  | downstream inputs =>
    by_cases waits : h.thread.phase = .joining ∧ h.beat.running = true
    · rw [step, if_pos waits]
      exact told
    · rw [step, if_neg waits]
      have goes := thread_goes S h.thread inputs
      intro joining
      change (h.thread.step S inputs).phase = .joining at joining
      rw [joining] at goes
      rw [goes_joining goes]
      rfl
  | heartbeat =>
    obtain ⟨ds, beats, _⟩ := heartbeat_beats S h
    rw [heartbeat_thread, beats_stop beats]
    exact told

theorem running_phase (before : Beating h) (running : h.beat.running = true) :
    h.thread.phase ≠ .starting ∧ h.thread.phase ≠ .finished ∧ h.thread.phase ≠ .ending := by
  have ended : h.thread.phase.ended = false := by
    by_contra ended
    exact absurd (running.symm.trans (before.joined (by simpa using ended))) (by simp)
  refine ⟨fun starting => ?_, fun finished => ?_, fun ending => ?_⟩
  · exact absurd (running.symm.trans (before.unstarted starting)) (by simp)
  · rw [finished] at ended
    cases ended
  · rw [ending] at ended
    cases ended

theorem running_downstream (before : Beating h) (running : h.beat.running = true)
    (inputs : Inputs) : (step S h (.downstream inputs)).beat.place = h.beat.place := by
  by_cases waits : h.thread.phase = .joining ∧ h.beat.running = true
  · rw [step, if_pos waits]
  · rw [step, if_neg waits]
    have launched : h.thread.phase ≠ .starting := by
      intro starting
      exact absurd ((before.unstarted starting).symm.trans running) (by simp)
    cases phase : h.thread.phase with
    | starting => exact absurd phase launched
    | _ => rfl

end MoldHeartbeatLifecycle
