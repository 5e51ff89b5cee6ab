import MoldReplay.ServerLifetimes

/- What holds in every state of a server about the events its feeds have before them, and
   about the threads its destructor waits for. -/
namespace MoldServerUnderway
open MoldPacket MoldDownstream MoldHeartbeatLifecycle MoldServerRuns MoldServerLifetimes
open ScheduledRuns
open MoldRetransmission (SockAddr RequestContext)

variable {n : Nat}

def Place.events : Place → List Readable
  | .dispatching events | .comparing _ events | .fetching _ events | .answering _ events => events
  | .constructing | .waiting | .exited => []

def Place.handling : Place → Bool
  | .comparing _ _ | .fetching _ _ | .answering _ _ => true
  | .constructing | .waiting | .dispatching _ | .exited => false

/-- The events not looked at yet are from one report, a datagram it was about is there, and
    the request that is being handled was the only one in it. -/
structure Fed (t : FeedThread) : Prop where
  distinct : (Place.events t.place).Nodup
  queued : .socket ∈ Place.events t.place → t.queue ≠ []
  only : Place.handling t.place = true → .socket ∉ Place.events t.place

/-- And the destructor only joins a downstream thread that it has told to stop, as that does
    with its heartbeat. -/
structure Underway (S : Setup) (w : World n) : Prop where
  orderly : Orderly S w
  fed : ∀ k, Fed (w.feeds k)
  asked : w.heart.thread.phase = .joining → w.heart.beat.stopRequested = true
  requested : w.owner = .joiningDownstream → w.downstream = .running → w.stopRequested = true

variable {S : Setup} {w w' : World n} {t t' : FeedThread}
  {buffer : MoldBuffer.RetransmissionBuffer} {shutdown : Nat} {kernel : Kernel}

theorem ready_distinct (t : FeedThread) (shutdown : Nat) (kernel : Kernel) :
    (t.ready shutdown kernel).Nodup := by
  unfold FeedThread.ready
  split <;> split <;> split <;> decide

theorem ready_queued (t : FeedThread) (shutdown : Nat) (kernel : Kernel)
    (reported : .socket ∈ t.ready shutdown kernel) : t.queue ≠ [] := by
  intro empty
  simp only [FeedThread.ready, empty, List.isEmpty_nil, if_true, List.nil_append, List.append_nil,
    ite_self] at reported
  split at reported <;> simp at reported

theorem move_fed {response : Option (SockAddr × Packet)}
    (move : FeedMove S buffer shutdown kernel t (t', response)) (h : Fed t) : Fed t' := by
  obtain ⟨distinct, queued, only⟩ := h
  cases move with
  | still => exact ⟨distinct, queued, only⟩
  | construct place => exact ⟨.nil, by simp [Place.events], by simp [Place.handling]⟩
  | report place some =>
    exact ⟨ready_distinct t shutdown kernel, ready_queued t shutdown kernel,
      by simp [Place.handling]⟩
  | again place => exact ⟨.nil, by simp [Place.events], by simp [Place.handling]⟩
  | leave place => exact ⟨.nil, by simp [Place.events], by simp [Place.handling]⟩
  | lose place =>
    rw [place] at distinct queued
    exact ⟨(List.nodup_cons.mp distinct).2, fun later => queued (List.mem_cons_of_mem _ later),
      by simp [Place.handling]⟩
  | take place taken =>
    rename_i events client datagram queue
    rw [place] at distinct
    obtain ⟨once, rest⟩ := List.nodup_cons.mp distinct
    have same : Place.events (t.take buffer client datagram queue events).place = events := by
      rcases taken_place (take_taken buffer t client datagram queue events) with at_ | ⟨_, at_⟩
      · rw [at_]; rfl
      · rw [at_]; rfl
    refine ⟨?_, fun later => ?_, fun _ => ?_⟩
    all_goals rw [same] at *
    · exact rest
    · exact absurd later once
    · exact once
  | miss place other =>
    rw [place] at distinct queued
    exact ⟨distinct, queued, by simp [FeedThread.settle, Place.handling]⟩
  | found place same =>
    rw [place] at distinct queued only
    exact ⟨distinct, queued, fun _ => only rfl⟩
  | fetch place =>
    rw [place] at distinct queued only
    exact ⟨distinct, queued, fun _ => only rfl⟩
  | answer place =>
    rw [place] at distinct queued
    exact ⟨distinct, queued, by simp [Place.handling]⟩

theorem arrive_fed (h : Fed t) (client : SockAddr) (datagram : List UInt8) (room : Bool) :
    Fed (t.arrive client datagram room) := by
  obtain ⟨_, place, _, _⟩ := arrive_same t client datagram room
  refine ⟨by rw [place]; exact h.distinct, fun reported => ?_, by rw [place]; exact h.only⟩
  rw [place] at reported
  have some := h.queued reported
  unfold FeedThread.arrive
  repeat' split
  all_goals simp [some]

theorem advance_fed (fed : ∀ k, Fed (w.feeds k)) (advance : Advance S w w') (i : Fin n) :
    Fed (w'.feeds i) := by
  have turn := advance_turns advance i
  generalize w'.feeds i = t' at turn
  cases turn with
  | aside => exact fed i
  | move move => exact move_fed move (fed i)
  | arrive client datagram room => exact arrive_fed (fed i) client datagram room

theorem advance_requested (advance : Advance S w w')
    (requested : w.owner = .joiningDownstream → w.downstream = .running → w.stopRequested = true) :
    w'.owner = .joiningDownstream → w'.downstream = .running → w'.stopRequested = true := by
  cases advance with
  | start free absent =>
    intro joining
    exact absurd (free.symm.trans joining) (by simp)
  | stop using_ =>
    intro joining running
    simp [World.requestStop, requested joining running]
  | requestStop at_ =>
    intro _ running
    have launched : w.downstream = .running := running
    simp [World.requestStop, launched]
  | signalled running finished => exact fun _ exited => by cases exited
  | wait free launched => intro joining; cases joining
  | destroy free => intro joining; cases joining
  | waited waiting ended => intro joining; cases joining
  | joined at_ ended => intro joining; cases joining
  | signal at_ => intro joining; cases joining
  | releasePointers at_ => intro joining; cases joining
  | joinedFeed at_ inside ended => intro joining; cases joining
  | joinedAll at_ all => intro joining; cases joining
  | release at_ => intro joining; cases joining
  | finish at_ => intro joining; cases joining
  | _ => exact requested

theorem advance_underway (h : Underway S w) (advance : Advance S w w') : Underway S w' := by
  refine ⟨advance_orderly h.orderly advance, advance_fed h.fed advance, ?_,
    advance_requested advance h.requested⟩
  cases advance with
  | replay running unfinished ready expired => exact step_told _ h.asked
  | beat => exact step_told _ h.asked
  | _ => exact h.asked

theorem run_underway (S : Setup) (actions : List (Action n)) :
    Underway S (run (step S) (initial S n) actions) := by
  have start : Underway S (initial S n) := by
    refine ⟨initial_orderly S n, fun _ => ⟨.nil, ?_, ?_⟩, ?_, ?_⟩
    · simp [initial, Place.events]
    · simp [initial, Place.handling]
    · intro joining
      cases joining
    · simp [initial]
  exact run_always (I := Underway S) (fun w a h => advance_underway h (step_advances S w a)) actions
    start

theorem advance_shutdown (advance : Advance S w w') (signalled : w.shutdown ≠ 0) :
    w'.shutdown ≠ 0 := by
  cases advance with
  | signal at_ => exact Nat.succ_ne_zero _
  | signalled running finished => exact Nat.succ_ne_zero _
  | _ => exact signalled

theorem unsignalled_before (actions : List (Action n))
    (unsignalled : (run (step S) w actions).shutdown = 0) : w.shutdown = 0 := by
  by_contra signalled
  exact run_always (I := fun w : World n => w.shutdown ≠ 0)
    (fun w a => advance_shutdown (step_advances S w a)) actions signalled unsignalled

end MoldServerUnderway
