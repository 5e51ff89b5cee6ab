import MoldReplay.ScheduledRuns
import Mathlib.Data.List.TakeWhile

/- The loop in retransmission::Feed::start, by the results of its calls of epoll_wait. Of
   handle_request only the calls are kept. -/
namespace MoldEventLoop
open ScheduledRuns

structure EpollEvent where
  events : UInt32
  fd : Int
  deriving DecidableEq, Repr

def EPOLLIN : UInt32 := 1
def EINTR : Nat := 4
def EAGAIN : Nat := 11

/-- What one call of epoll_wait comes to. It has room for two events. -/
inductive WaitResult where
  | reported (events : List EpollEvent) (fits : events.length ≤ 2)
  | failed (errno : Nat)

def WaitResult.events : WaitResult → List EpollEvent
  | .reported events _ => events
  | .failed _ => []

def WaitResult.nfds : WaitResult → Int
  | .reported events _ => events.length
  | .failed _ => -1

def WaitResult.bound (result : WaitResult) : Nat :=
  -- static_cast<std::size_t>(nfds)
  (result.nfds % UInt64.size).toNat

def WaitResult.interrupted : WaitResult → Bool
  | .reported _ _ => false
  | .failed errno => errno == EINTR || errno == EAGAIN

/-- What the for loop does: the positions of epoll_events_ it reads, the descriptors it calls
    handle_request with, and whether it sets should_stop. -/
structure Dispatch where
  indexed : List Nat
  handled : List Int
  shouldStop : Bool
  deriving DecidableEq, Repr

def EpollEvent.readable (event : EpollEvent) : Bool := event.events &&& EPOLLIN != 0

def dispatch (shutdownFd : Int) (eventAt : Nat → EpollEvent) : Nat → Nat → Dispatch
  | 0, _ => ⟨[], [], false⟩
  | left + 1, i =>
    let event := eventAt i
    if event.fd = shutdownFd then ⟨[i], [], true⟩
    else
      let rest := dispatch shutdownFd eventAt left (i + 1)
      ⟨i :: rest.indexed, if event.readable then event.fd :: rest.handled else rest.handled,
        rest.shouldStop⟩

structure Pass where
  result : WaitResult
  dispatched : Dispatch

structure Loop where
  epollEvents : List EpollEvent
  shouldStop : Bool
  passes : List Pass

def start : Loop := ⟨[⟨0, 0⟩, ⟨0, 0⟩], false, []⟩

def Loop.received (loop : Loop) (result : WaitResult) : List EpollEvent :=
  -- epoll_wait writes as many entries as it reports
  result.events ++ loop.epollEvents.drop result.events.length

/-- `beyond i` is what a load i entries past the end of epoll_events_ finds. -/
def Loop.dispatched (shutdownFd : Int) (beyond : Nat → EpollEvent) (loop : Loop)
    (result : WaitResult) : Dispatch :=
  if result.interrupted then ⟨[], [], false⟩
  else
    let epollEvents := loop.received result
    dispatch shutdownFd (fun i => epollEvents.getD i (beyond (i - epollEvents.length)))
      result.bound 0

def Loop.wait (shutdownFd : Int) (beyond : Nat → EpollEvent) (loop : Loop) (result : WaitResult) :
    Loop :=
  if loop.shouldStop then loop
  else
    let dispatched := loop.dispatched shutdownFd beyond result
    { epollEvents := loop.received result
      shouldStop := dispatched.shouldStop
      passes := loop.passes ++ [⟨result, dispatched⟩] }

/-- What a pass is to do with the events that were reported to it, and with no others. -/
structure Sound (shutdownFd : Int) (pass : Pass) : Prop where
  indexes : ∀ i ∈ pass.dispatched.indexed, i < pass.result.events.length
  inside : ∀ i ∈ pass.dispatched.indexed, i < 2
  handles : pass.dispatched.handled = ((pass.result.events.takeWhile
    fun e => e.fd != shutdownFd).filter EpollEvent.readable).map EpollEvent.fd
  leaves : pass.dispatched.shouldStop = true → ∃ e ∈ pass.result.events, e.fd = shutdownFd

def Survivable (result : WaitResult) : Prop :=
  ∀ errno, result = .failed errno → errno = EINTR ∨ errno = EAGAIN

def quiet (shutdownFd : Int) (result : WaitResult) : Bool :=
  result.events.all fun e => e.fd != shutdownFd

/-- The waits of a loop that is left at the first shutdown event: all before it, and the
    one that reports it. -/
def untilShutdown (shutdownFd : Int) (results : List WaitResult) : List WaitResult :=
  results.takeWhile (quiet shutdownFd) ++ (results.dropWhile (quiet shutdownFd)).take 1

/-- A loop that got these results has waited until the first shutdown event, whatever else
    was reported, and every pass has done what it is to do. -/
structure Survived (shutdownFd : Int) (results : List WaitResult) (loop : Loop) : Prop where
  waited : loop.passes.map Pass.result = untilShutdown shutdownFd results
  left : loop.shouldStop = true ↔ ∃ result ∈ results, ∃ e ∈ result.events, e.fd = shutdownFd
  sound : ∀ pass ∈ loop.passes, Sound shutdownFd pass

variable {shutdownFd : Int} {beyond : Nat → EpollEvent} {loop : Loop} {result : WaitResult}

theorem reported_bound {events : List EpollEvent} (fits : events.length ≤ 2) :
    (WaitResult.reported events fits).bound = events.length := by
  simp only [WaitResult.bound, WaitResult.nfds, UInt64.size]
  omega

theorem dispatch_events (eventAt : Nat → EpollEvent) (events : List EpollEvent) (i : Nat)
    (there : ∀ k e, events[k]? = some e → eventAt (i + k) = e) :
    (∀ j ∈ (dispatch shutdownFd eventAt events.length i).indexed, j < i + events.length) ∧
    (dispatch shutdownFd eventAt events.length i).handled =
      ((events.takeWhile fun e => e.fd != shutdownFd).filter EpollEvent.readable).map
        EpollEvent.fd ∧
    ((dispatch shutdownFd eventAt events.length i).shouldStop = true ↔
      ∃ e ∈ events, e.fd = shutdownFd) := by
  induction events generalizing i with
  | nil => simp [dispatch]
  | cons e rest ih =>
    have first : eventAt i = e := there 0 e rfl
    obtain ⟨indexes, handles, stops⟩ := ih (i + 1) fun k e' at_k => by
      rw [Nat.add_assoc, Nat.add_comm 1]
      exact there (k + 1) e' at_k
    rw [List.length_cons, dispatch, first]
    by_cases shutdown : e.fd = shutdownFd
    · simp [shutdown]
    · rw [if_neg shutdown]
      refine ⟨?_, ?_, ?_⟩
      · intro j member
        rcases List.mem_cons.mp member with rfl | later
        · omega
        · have := indexes j later
          omega
      · simp only [handles]
        rw [List.takeWhile_cons_of_pos (by simpa using shutdown)]
        cases readable : e.readable with
        | true => rw [List.filter_cons_of_pos readable]; rfl
        | false => rw [List.filter_cons_of_neg (by simp [readable])]; rfl
      · simp only [stops, List.mem_cons, exists_eq_or_imp, shutdown, false_or]

theorem dispatch_indexes_first (eventAt : Nat → EpollEvent) (left i : Nat) :
    i ∈ (dispatch shutdownFd eventAt (left + 1) i).indexed := by
  rw [dispatch]
  split <;> simp

theorem interrupted_iff (errno : Nat) :
    (WaitResult.failed errno).interrupted = true ↔ errno = EINTR ∨ errno = EAGAIN := by
  simp [WaitResult.interrupted]

theorem dispatched_reported (beyond : Nat → EpollEvent) (loop : Loop) (events : List EpollEvent)
    (fits : events.length ≤ 2) : Sound shutdownFd ⟨.reported events fits,
      loop.dispatched shutdownFd beyond (.reported events fits)⟩ ∧
    ((loop.dispatched shutdownFd beyond (.reported events fits)).shouldStop = true ↔
      ∃ e ∈ events, e.fd = shutdownFd) := by
  have array : ∀ k e, events[k]? = some e →
      (loop.received (.reported events fits)).getD (0 + k)
        (beyond (0 + k - (loop.received (.reported events fits)).length)) = e := by
    intro k e at_k
    have inside := (List.getElem?_eq_some_iff.mp at_k).1
    rw [Nat.zero_add, List.getD_eq_getElem?_getD, Loop.received, WaitResult.events,
      List.getElem?_append_left inside, at_k, Option.getD_some]
  obtain ⟨indexes, handles, stops⟩ := dispatch_events
    (fun i => (loop.received (.reported events fits)).getD i
      (beyond (i - (loop.received (.reported events fits)).length))) events 0 array
  unfold Loop.dispatched
  rw [if_neg (by simp [WaitResult.interrupted]), reported_bound]
  refine ⟨⟨?_, ?_, handles, stops.mp⟩, stops⟩
  · intro i member
    have := indexes i member
    rwa [Nat.zero_add] at this
  · intro i member
    have := indexes i member
    omega

theorem dispatched_sound_iff (beyond : Nat → EpollEvent) (loop : Loop) (result : WaitResult) :
    Sound shutdownFd ⟨result, loop.dispatched shutdownFd beyond result⟩ ↔ Survivable result := by
  cases result with
  | reported events fits =>
    exact iff_of_true (dispatched_reported beyond loop events fits).1 nofun
  | failed errno =>
    by_cases interrupted : (WaitResult.failed errno).interrupted = true
    · have known := (interrupted_iff errno).mp interrupted
      rw [Loop.dispatched, if_pos interrupted]
      refine iff_of_true ⟨nofun, nofun, rfl, nofun⟩ fun errno' same => ?_
      cases same
      exact known
    · rw [Loop.dispatched, if_neg interrupted]
      refine iff_of_false (fun sound => ?_) fun survivable => ?_
      · exact absurd (sound.indexes 0 (dispatch_indexes_first _ (2 ^ 64 - 2) 0)) (Nat.lt_irrefl 0)
      · exact interrupted ((interrupted_iff errno).mpr (survivable errno rfl))

theorem wait_running (running : loop.shouldStop = false) :
    loop.wait shutdownFd beyond result =
      { epollEvents := loop.received result
        shouldStop := (loop.dispatched shutdownFd beyond result).shouldStop
        passes := loop.passes ++ [⟨result, loop.dispatched shutdownFd beyond result⟩] } := by
  rw [Loop.wait, if_neg (by simp [running])]

theorem wait_stopped (stopped : loop.shouldStop = true) :
    loop.wait shutdownFd beyond result = loop := if_pos stopped

theorem run_stopped (stopped : loop.shouldStop = true) (results : List WaitResult) :
    run (Loop.wait shutdownFd beyond) loop results = loop := by
  induction results with
  | nil => rfl
  | cons result rest ih =>
    change run (Loop.wait shutdownFd beyond) (loop.wait shutdownFd beyond result) rest = loop
    rw [wait_stopped stopped, ih]

theorem dispatched_stops (beyond : Nat → EpollEvent) (loop : Loop)
    (survivable : Survivable result) :
    (loop.dispatched shutdownFd beyond result).shouldStop = true ↔
      quiet shutdownFd result = false := by
  cases result with
  | reported events fits =>
    rw [(dispatched_reported beyond loop events fits).2]
    simp [quiet, WaitResult.events]
  | failed errno =>
    have interrupted := (interrupted_iff errno).mpr (survivable errno rfl)
    rw [Loop.dispatched, if_pos interrupted]
    simp [quiet, WaitResult.events]

theorem step_sound_iff (loop : Loop) (result : WaitResult) :
    (∀ pass ∈ (loop.wait shutdownFd beyond result).passes, Sound shutdownFd pass) ↔
      (∀ pass ∈ loop.passes, Sound shutdownFd pass) ∧
        (loop.shouldStop = false → Survivable result) := by
  cases running : loop.shouldStop with
  | true => simp [wait_stopped running]
  | false =>
    rw [wait_running running]
    simp only [List.mem_append, List.mem_singleton, or_imp, forall_and, forall_eq,
      dispatched_sound_iff, forall_const]

theorem wait_quiet (running : loop.shouldStop = false) (survivable : Survivable result) :
    (loop.wait shutdownFd beyond result).shouldStop = !quiet shutdownFd result := by
  have stops : (loop.dispatched shutdownFd beyond result).shouldStop = true ↔
      quiet shutdownFd result = false := dispatched_stops beyond loop survivable
  rw [wait_running running]
  cases still : quiet shutdownFd result with
  | true => simpa [still] using stops
  | false => exact stops.mpr still

theorem shutdown_survivable (shutdown : quiet shutdownFd result = false) : Survivable result := by
  rintro errno rfl
  cases shutdown

theorem throughout_stopped (stopped : loop.shouldStop = true) (results : List WaitResult) :
    Throughout (Loop.wait shutdownFd beyond)
      (fun loop result => loop.shouldStop = false → Survivable result) loop results := by
  induction results with
  | nil => trivial
  | cons result rest ih =>
    refine ⟨fun running => by simp [stopped] at running, ?_⟩
    rw [wait_stopped stopped]
    exact ih

theorem throughout_iff (running : loop.shouldStop = false) (results : List WaitResult) :
    Throughout (Loop.wait shutdownFd beyond)
        (fun loop result => loop.shouldStop = false → Survivable result) loop results ↔
      ∀ result ∈ results.takeWhile (quiet shutdownFd), Survivable result := by
  induction results generalizing loop with
  | nil => simp [Throughout]
  | cons result rest ih =>
    simp only [Throughout, running, forall_const]
    cases still : quiet shutdownFd result with
    | true =>
      rw [List.takeWhile_cons_of_pos still, List.forall_mem_cons]
      refine and_congr_right fun survivable => ih ?_
      rw [wait_quiet running survivable, still]
      rfl
    | false =>
      have survivable := shutdown_survivable still
      rw [List.takeWhile_cons_of_neg (by simp [still])]
      refine iff_of_true ⟨survivable, throughout_stopped ?_ rest⟩ (List.forall_mem_nil _)
      rw [wait_quiet running survivable, still]
      rfl

theorem run_waits (running : loop.shouldStop = false) (results : List WaitResult)
    (survivable : ∀ result ∈ results.takeWhile (quiet shutdownFd), Survivable result) :
    (run (Loop.wait shutdownFd beyond) loop results).passes.map Pass.result =
        loop.passes.map Pass.result ++ untilShutdown shutdownFd results ∧
      ((run (Loop.wait shutdownFd beyond) loop results).shouldStop = true ↔
        ∃ result ∈ results, quiet shutdownFd result = false) := by
  induction results generalizing loop with
  | nil => simp [run, untilShutdown, running]
  | cons result rest ih =>
    have added : (loop.wait shutdownFd beyond result).passes.map Pass.result =
        loop.passes.map Pass.result ++ [result] := by
      rw [wait_running running, List.map_append]
      rfl
    change (run (Loop.wait shutdownFd beyond) (loop.wait shutdownFd beyond result) rest).passes.map
      Pass.result = _ ∧ ((run (Loop.wait shutdownFd beyond) (loop.wait shutdownFd beyond result)
        rest).shouldStop = true ↔ _)
    cases still : quiet shutdownFd result with
    | true =>
      rw [List.takeWhile_cons_of_pos still, List.forall_mem_cons] at survivable
      have next : (loop.wait shutdownFd beyond result).shouldStop = !quiet shutdownFd result :=
        wait_quiet running survivable.1
      rw [still] at next
      obtain ⟨waited, left⟩ := ih next survivable.2
      rw [waited, added, left]
      simp [untilShutdown, still]
    | false =>
      have next : (loop.wait shutdownFd beyond result).shouldStop = !quiet shutdownFd result :=
        wait_quiet running (shutdown_survivable still)
      rw [still] at next
      rw [run_stopped next, added, next]
      simp [untilShutdown, still]

/-- The loop gets through whatever it waits for, exactly if no wait before the shutdown
    event fails with an error that it does not know. -/
theorem loop_survives_iff (shutdownFd : Int) (beyond : Nat → EpollEvent)
    (results : List WaitResult) :
    Survived shutdownFd results (run (Loop.wait shutdownFd beyond) start results) ↔
      ∀ result ∈ results.takeWhile (quiet shutdownFd), Survivable result := by
  have exactly : (∀ pass ∈ (run (Loop.wait shutdownFd beyond) start results).passes,
      Sound shutdownFd pass) ↔ (∀ pass ∈ start.passes, Sound shutdownFd pass) ∧
        Throughout (Loop.wait shutdownFd beyond)
          (fun loop result => loop.shouldStop = false → Survivable result) start results :=
    run_exactly (I := fun _ => True) (P := fun loop => ∀ pass ∈ loop.passes, Sound shutdownFd pass)
      (fun _ _ _ => trivial) (fun loop result _ => step_sound_iff loop result) results trivial
  rw [throughout_iff rfl] at exactly
  constructor
  · intro survived
    exact (exactly.mp survived.sound).2
  · intro survivable
    have running : start.shouldStop = false := rfl
    obtain ⟨waited, left⟩ := run_waits running results survivable
    refine ⟨waited, ?_, exactly.mpr ⟨List.forall_mem_nil _, survivable⟩⟩
    rw [left]
    simp [quiet]

/-- One request, then EBADF: the entry of the request is read again, and those behind the
    array after it. -/
theorem unknown_error_reads_array : ¬ Survived 7 [.reported [⟨EPOLLIN, 5⟩] (by decide), .failed 9]
    (run (Loop.wait 7 fun _ => ⟨0, 0⟩) start
      [.reported [⟨EPOLLIN, 5⟩] (by decide), .failed 9]) := by
  intro survived
  have sound := survived.sound ⟨.failed 9, _⟩ (List.mem_append_right _ (List.mem_singleton.mpr rfl))
  exact absurd ((dispatched_sound_iff _ _ (.failed 9)).mp sound 9 rfl) (by decide)

end MoldEventLoop
