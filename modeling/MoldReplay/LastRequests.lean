import MoldReplay.ServerShutdown

/- What retransmission feeds still do for their clients once they are told to stop. -/
namespace MoldLastRequests
open MoldPacket MoldDownstream MoldServerRuns MoldServerUnderway MoldServerShutdown ScheduledRuns
open MoldRetransmission (SockAddr RequestContext)

def eventsTakes : List Readable → Nat
  | [] => 1
  | .shutdownFd :: _ => 0
  | .socket :: events => eventsTakes events + 1

def Place.takes : Place → Nat
  | .dispatching events | .comparing _ events | .fetching _ events | .answering _ events =>
    eventsTakes events
  | .exited => 0
  | .constructing | .waiting => 1

def Place.answers : Place → Nat
  | .comparing _ events | .fetching _ events | .answering _ events => eventsTakes events + 1
  | place => Place.takes place

variable {n : Nat} {S : Setup} {w w' : World n} {t t' : FeedThread}
  {buffer : MoldBuffer.RetransmissionBuffer} {shutdown : Nat} {kernel : Kernel}

theorem eventsTakes_distinct {events : List Readable} (distinct : events.Nodup) :
    eventsTakes events ≤ 2 := by
  match events with
  | [] => decide
  | [event] => cases event <;> simp [eventsTakes]
  | .shutdownFd :: _ :: _ => simp [eventsTakes]
  | .socket :: .shutdownFd :: _ => simp [eventsTakes]
  | .socket :: .socket :: _ => simp at distinct

theorem ready_takes (signalled : shutdown ≠ 0) (t : FeedThread) (kernel : Kernel) :
    eventsTakes (t.ready shutdown kernel) ≤ 1 := by
  simp only [FeedThread.ready, if_neg signalled]
  split <;> split <;> simp [eventsTakes]

theorem move_takes {response : Option (SockAddr × Packet)} (signalled : shutdown ≠ 0)
    (move : FeedMove S buffer shutdown kernel t (t', response)) :
    t'.taken.length + Place.takes t'.place ≤ t.taken.length + Place.takes t.place ∧
      response.toList.length + Place.answers t'.place ≤ Place.answers t.place := by
  cases move with
  | still => exact ⟨Nat.le_refl _, by simp⟩
  | report place some =>
    have few := ready_takes signalled t kernel
    rw [place]
    exact ⟨Nat.add_le_add_left few _, by simpa [Place.answers, Place.takes] using few⟩
  | take place queued =>
    rename_i events client datagram queue
    rw [place]
    have taken := take_taken buffer t client datagram queue events
    generalize t.take buffer client datagram queue events = t' at taken ⊢
    cases taken <;> simp [Place.takes, Place.answers, eventsTakes] <;> omega
  | miss place other => simp [place, Place.takes, Place.answers, FeedThread.settle]
  | found place same => simp [place, Place.takes, Place.answers]
  | fetch place => simp [place, Place.takes, Place.answers, FeedThread.settle]
  | construct place => simp [place, Place.takes, Place.answers]
  | again place => simp [place, Place.takes, Place.answers, eventsTakes]
  | leave place => simp [place, Place.takes, Place.answers, eventsTakes]
  | lose place => simp [place, Place.takes, Place.answers, eventsTakes]
  | answer place =>
    rw [place]
    simp only [Place.takes, Place.answers, Option.toList_some, List.length_singleton]
    omega

theorem advance_takes (advance : Advance S w w') (k : Fin n) (signalled : w.shutdown ≠ 0) :
    w'.shutdown ≠ 0 ∧
    (w'.feeds k).taken.length + Place.takes (w'.feeds k).place ≤
      (w.feeds k).taken.length + Place.takes (w.feeds k).place ∧
    (w'.responses k).length + Place.answers (w'.feeds k).place ≤
      (w.responses k).length + Place.answers (w.feeds k).place := by
  cases advance with
  | signal at_ => exact ⟨Nat.succ_ne_zero _, Nat.le_refl _, Nat.le_refl _⟩
  | signalled running finished => exact ⟨Nat.succ_ne_zero _, Nat.le_refl _, Nat.le_refl _⟩
  | feed j move =>
    obtain ⟨takes, answers⟩ := move_takes signalled move
    refine ⟨signalled, ?_⟩
    rw [responses_sent]
    simp only [World.setFeed]
    by_cases same : k = j
    · subst same
      simp only [if_true, List.length_append]
      exact ⟨takes, by omega⟩
    · simp only [if_neg same, List.append_nil]
      exact ⟨Nat.le_refl _, Nat.le_refl _⟩
  | arrive j client datagram room =>
    refine ⟨signalled, ?_⟩
    simp only [World.setFeed]
    split
    · rename_i same
      subst same
      obtain ⟨_, place, taken, _⟩ := arrive_same (w.feeds k) client datagram room
      rw [place, taken]
      exact ⟨Nat.le_refl _, Nat.le_refl _⟩
    · exact ⟨Nat.le_refl _, Nat.le_refl _⟩
  | _ => exact ⟨signalled, Nat.le_refl _, Nat.le_refl _⟩

theorem eventsTakes_stop {events : List Readable} (only : .socket ∉ events) :
    eventsTakes events ≤ 1 := by
  match events with
  | [] => decide
  | .shutdownFd :: _ => simp [eventsTakes]
  | .socket :: _ => simp at only

theorem takes_bound (h : Fed t) : Place.takes t.place ≤ 2 ∧ Place.answers t.place ≤ 2 := by
  obtain ⟨distinct, _, only⟩ := h
  cases place : t.place with
  | dispatching events =>
    rw [place] at distinct
    exact ⟨eventsTakes_distinct distinct, eventsTakes_distinct distinct⟩
  | comparing request events =>
    rw [place] at only
    have few := eventsTakes_stop (only rfl)
    exact ⟨Nat.le_succ_of_le few, Nat.succ_le_succ few⟩
  | fetching request events =>
    rw [place] at only
    have few := eventsTakes_stop (only rfl)
    exact ⟨Nat.le_succ_of_le few, Nat.succ_le_succ few⟩
  | answering ctx events =>
    rw [place] at only
    have few := eventsTakes_stop (only rfl)
    exact ⟨Nat.le_succ_of_le few, Nat.succ_le_succ few⟩
  | _ => simp [Place.takes, Place.answers]

structure Since (w : World n) (k : Fin n) (w' : World n) : Prop where
  signalled : w'.shutdown ≠ 0
  taken : (w'.feeds k).taken.length + Place.takes (w'.feeds k).place ≤ (w.feeds k).taken.length + 2
  answered : (w'.responses k).length + Place.answers (w'.feeds k).place ≤
    (w.responses k).length + 2

theorem advance_since {w₀ : World n} {k : Fin n} (h : Since w₀ k w) (advance : Advance S w w') :
    Since w₀ k w' := by
  obtain ⟨signalled, taken, answered⟩ := advance_takes advance k h.signalled
  exact ⟨signalled, Nat.le_trans taken h.taken, Nat.le_trans answered h.answered⟩

/-- Once the eventfd is written, a feed takes up two more requests at most, and sends two
    more responses at most, however many there are: the event it has before it, and one
    that is reported together with the shutdown event. -/
theorem two_more_requests (S : Setup) (earlier later : List (Action n)) (k : Fin n)
    (signalled : (run (step S) (initial S n) earlier).shutdown ≠ 0) :
    ((run (step S) (initial S n) (earlier ++ later)).feeds k).taken.length ≤
      ((run (step S) (initial S n) earlier).feeds k).taken.length + 2 ∧
    ((run (step S) (initial S n) (earlier ++ later)).responses k).length ≤
      ((run (step S) (initial S n) earlier).responses k).length + 2 := by
  have bounds := takes_bound ((run_underway S earlier).fed k)
  have start : Since (run (step S) (initial S n) earlier) k (run (step S) (initial S n) earlier) :=
    ⟨signalled, Nat.add_le_add_left bounds.1 _, Nat.add_le_add_left bounds.2 _⟩
  have since := run_always (I := Since (run (step S) (initial S n) earlier) k)
    (fun w a h => advance_since h (step_advances S w a)) later start
  rw [run_append]
  exact ⟨Nat.le_trans (Nat.le_add_right _ _) since.taken,
    Nat.le_trans (Nat.le_add_right _ _) since.answered⟩

/-- A server that is destroyed before start, and datagrams that come too late. -/
theorem late_requests_left : ∃ S,
    Setup.make ⟨MoldFraming.frame (List.replicate 12 1), fun _ => 0, by decide⟩ ⟨0⟩
      { session := List.replicate 10 0x20 } 4 = .ok S ∧
    ((run (step S) (initial S 1) ([.feed 0 ⟨false, false⟩, .call .destroy, .owner, .owner, .owner] ++
      .arrive 0 ⟨0, 0⟩ [] true :: (List.replicate 4 (oneTurnEach 0)).flatten)).feeds 0).taken.length ≤ 2 :=
  ⟨_, rfl, (two_more_requests _ [.feed 0 ⟨false, false⟩, .call .destroy, .owner, .owner, .owner]
    (.arrive 0 ⟨0, 0⟩ [] true :: (List.replicate 4 (oneTurnEach 0)).flatten) 0 (by decide)).1⟩

end MoldLastRequests
