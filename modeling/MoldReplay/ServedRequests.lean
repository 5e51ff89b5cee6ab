import MoldReplay.Requests
import MoldReplay.ServerLookups

/- What becomes of the datagrams that reach the socket of a feed, in a server whose other
   threads do whatever they do meanwhile. -/
namespace MoldServedRequests
open FixedBytes MoldWire MoldFraming MoldPacket MoldBuffer MoldDownstream MoldLedger MoldRerequest
open MoldServerRuns MoldServerLookups MoldLookupInstants ScheduledRuns
open MoldRetransmission (SockAddr RequestContext readRun requestedSequence requestedCount)

variable {n : Nat}

def FeedThread.bound (t : FeedThread) : Bool :=
  match t.place with
  | .constructing | .exited => false
  | .waiting | .dispatching _ | .comparing _ _ | .fetching _ _ | .answering _ _ => true

def arrived (w : World n) (k : Fin n) : Action n → List (SockAddr × List UInt8)
  | .arrive j client datagram room =>
    if j = k ∧ FeedThread.bound (w.feeds k) = true ∧ room = true then [(client, datagram)] else []
  | _ => []

def arrivals (S : Setup) (k : Fin n) : World n → List (Action n) → List (SockAddr × List UInt8)
  | _, [] => []
  | w, a :: rest => arrived w k a ++ arrivals S k (step S w a) rest

def wantedBy (S : Setup) (d : SockAddr × List UInt8) : Option Wanted :=
  if 20 ≤ d.2.length ∧ d.2.take 10 = S.config.session then
    some ⟨d.1, requestedSequence d.2, requestedCount d.2⟩
  else none

def Place.wanted : Place → List Wanted
  | .comparing request _ | .fetching request _ => [request]
  | .constructing | .waiting | .dispatching _ | .answering _ _ | .exited => []

def responseTo (S : Setup) (l : Wanted × Option Nat) : Option (SockAddr × Packet) :=
  l.2.map fun pos => (l.1.clientAddress, dataPacket S.config.session l.1.startingSequence.toNat
    (readRun S.file.bytes l.1.msgCount.toNat pos S.config.capacity))

def outstanding (S : Setup) (t : FeedThread) : List (SockAddr × Packet) :=
  match t.place with
  | .answering ctx _ => [(ctx.clientAddress, (t.feed.answer S.file.bytes ctx).2)]
  | .constructing | .waiting | .dispatching _ | .comparing _ _ | .fetching _ _ | .exited => []

structure Serving (S : Setup) (t : FeedThread) (responses : List (SockAddr × Packet))
    (arrived : List (SockAddr × List UInt8)) : Prop where
  ready : MoldRetransmission.Ready S.config t.feed
  order : t.taken ++ t.queue = arrived
  lookups : t.taken.filterMap (wantedBy S) = t.looked.map Prod.fst ++ Place.wanted t.place
  answers : t.looked.filterMap (responseTo S) = responses ++ outstanding S t

variable {S : Setup} {w w' : World n} {t t' : FeedThread} {buffer : RetransmissionBuffer}
  {shutdown : Nat} {kernel : Kernel} {responses : List (SockAddr × Packet)}
  {past : List (SockAddr × List UInt8)}

theorem readRequest_ready {f : MoldRetransmission.Feed}
    (ready : MoldRetransmission.Ready S.config f) (client : SockAddr) (datagram : List UInt8) :
    MoldRetransmission.Ready S.config (readRequest f client datagram).1 := by
  have received := MoldRetransmission.receive_ready ready datagram
  simp only [readRequest]
  repeat' split
  all_goals exact received

theorem readRequest_wanted {f : MoldRetransmission.Feed}
    (ready : MoldRetransmission.Ready S.config f) (client : SockAddr) (datagram : List UInt8) :
    (readRequest f client datagram).2 = wantedBy S (client, datagram) := by
  by_cases long : 20 ≤ datagram.length
  · obtain ⟨received, size⟩ := MoldRetransmission.received_bytes ready long
    obtain ⟨_, _, holds⟩ := (MoldRetransmission.receive_ready ready datagram).builder
    have named : (datagram.take headerLength).take sessionSize = datagram.take 10 := by
      rw [List.take_take]
      rfl
    simp only [readRequest, size, ne_eq, not_true_eq_false, if_false, received, named,
      session_configured holds, wantedBy, long, true_and]
    by_cases same : datagram.take 10 = S.config.session
    · rw [if_neg (not_not.mpr same), if_pos same]
      rfl
    · rw [if_pos same, if_neg same]
  · have size : (f.receive datagram).2 ≠ headerLength := by
      simp only [MoldRetransmission.Feed.receive, List.length_take, headerLength, sessionSize,
        sequenceNumberSize, messageCountSize]
      omega
    simp only [readRequest, if_pos size]
    rw [wantedBy, if_neg fun whole => long whole.1]

theorem take_serving (h : Serving S t responses past) {events : List Readable} {client : SockAddr}
    {datagram : List UInt8} {queue : List (SockAddr × List UInt8)}
    (place : t.place = .dispatching (.socket :: events))
    (queued : t.queue = (client, datagram) :: queue)
    (taken : Taken buffer t client datagram queue events t') : Serving S t' responses past := by
  have ready := readRequest_ready h.ready client datagram
  have wanted := readRequest_wanted h.ready client datagram
  have order : (t.taken ++ [(client, datagram)]) ++ queue = past := by
    rw [← h.order, queued]
    simp
  have lookups := h.lookups
  have answers := h.answers
  rw [place] at lookups
  rw [outstanding, place] at answers
  simp only [Place.wanted, List.append_nil] at lookups answers
  cases taken with
  | ignored unread =>
    refine ⟨ready, order, ?_, by simpa [outstanding] using answers⟩
    rw [List.filterMap_append, lookups]
    simp [← wanted, unread, Place.wanted]
  | turnedAway read out =>
    refine ⟨ready, order, ?_, ?_⟩
    · rw [List.filterMap_append, lookups]
      simp [← wanted, read, Place.wanted]
    · rw [List.filterMap_append, answers]
      simp [responseTo, outstanding]
  | lookedUp read inside =>
    refine ⟨ready, order, ?_, by simpa [outstanding] using answers⟩
    rw [List.filterMap_append, lookups]
    simp [← wanted, read, Place.wanted]

theorem settle_serving (h : Serving S t responses past) {request : Wanted} {events : List Readable}
    (wanted : Place.wanted t.place = [request]) (quiet : outstanding S t = [])
    (found : Option Nat) : Serving S (t.settle request events found) responses past := by
  have lookups := h.lookups
  have answers := h.answers
  rw [wanted] at lookups
  rw [quiet, List.append_nil] at answers
  cases found with
  | none =>
    refine ⟨h.ready, h.order, ?_, ?_⟩
    · simpa [FeedThread.settle, Place.wanted] using lookups
    · simp [FeedThread.settle, List.filterMap_append, answers, responseTo, outstanding]
  | some filePosition =>
    refine ⟨h.ready, h.order, ?_, ?_⟩
    · simpa [FeedThread.settle, Place.wanted] using lookups
    · have packet := MoldRetransmission.answer_packet S.file.bytes h.ready
        (request.context filePosition)
      simp only [FeedThread.settle, List.filterMap_append, answers, outstanding, packet]
      rfl

theorem move_serving {response : Option (SockAddr × Packet)}
    (move : FeedMove S buffer shutdown kernel t (t', response)) (h : Serving S t responses past) :
    Serving S t' (responses ++ response.toList) past := by
  have idle {place : Place} (wanted : Place.wanted place = Place.wanted t.place)
      (quiet : outstanding S t = []) (after : outstanding S { t with place := place } = []) :
      Serving S { t with place := place } (responses ++ []) past := by
    have lookups := h.lookups
    have answers := h.answers
    refine ⟨h.ready, h.order, by rw [wanted]; exact lookups, ?_⟩
    rw [quiet] at answers
    rw [after, List.append_nil]
    exact answers
  cases move with
  | still => simpa using h
  | construct place => exact idle (by rw [place]; rfl) (by simp [outstanding, place]) rfl
  | report place some => exact idle (by rw [place]; rfl) (by simp [outstanding, place]) rfl
  | again place => exact idle (by rw [place]; rfl) (by simp [outstanding, place]) rfl
  | leave place => exact idle (by rw [place]; rfl) (by simp [outstanding, place]) rfl
  | lose place => exact idle (by rw [place]; rfl) (by simp [outstanding, place]) rfl
  | found place same => exact idle (by rw [place]; rfl) (by simp [outstanding, place]) rfl
  | take place queued =>
    rw [Option.toList_none, List.append_nil]
    exact take_serving h place queued (take_taken buffer t _ _ _ _)
  | miss place other =>
    rw [Option.toList_none, List.append_nil]
    exact settle_serving h (by rw [place]; rfl) (by simp [outstanding, place]) none
  | fetch place =>
    rw [Option.toList_none, List.append_nil]
    exact settle_serving h (by rw [place]; rfl) (by simp [outstanding, place]) _
  | answer place =>
    rename_i ctx events
    have lookups := h.lookups
    have answers := h.answers
    rw [place] at lookups
    rw [outstanding, place] at answers
    exact ⟨MoldRetransmission.answer_ready S.file.bytes h.ready ctx, h.order, lookups,
      by simpa [outstanding] using answers⟩

theorem arrive_serving (h : Serving S t responses past) (client : SockAddr) (datagram : List UInt8)
    (room : Bool) : Serving S (t.arrive client datagram room) responses
      (past ++ if FeedThread.bound t = true ∧ room = true then [(client, datagram)] else []) := by
  obtain ⟨feed, place, taken, looked⟩ := arrive_same t client datagram room
  refine ⟨by rw [feed]; exact h.ready, ?_, ?_, ?_⟩
  · rw [taken, ← h.order, List.append_assoc]
    congr 1
    cases at_ : t.place <;> cases room <;> simp [FeedThread.arrive, FeedThread.bound, at_]
  · rw [taken, looked, place]
    exact h.lookups
  · rw [looked, outstanding, place, feed]
    exact h.answers

theorem owner_frame (w : World n) : w.ownerStep.feeds = w.feeds ∧ w.ownerStep.unicast = w.unicast := by
  unfold World.ownerStep
  repeat' split
  all_goals exact ⟨rfl, rfl⟩

theorem call_frame (w : World n) (call : Call) :
    (w.call call).feeds = w.feeds ∧ (w.call call).unicast = w.unicast := by
  cases call <;> simp only [World.call] <;> split <;> exact ⟨rfl, rfl⟩

theorem downstream_frame (S : Setup) (w : World n) (expired : Bool) :
    (w.downstreamStep S expired).feeds = w.feeds ∧
      (w.downstreamStep S expired).unicast = w.unicast := by
  unfold World.downstreamStep
  repeat' split
  all_goals exact ⟨rfl, rfl⟩

theorem framed_serving {k : Fin n} (frame : w'.feeds = w.feeds ∧ w'.unicast = w.unicast)
    (h : Serving S (w.feeds k) (w.responses k) past) :
    Serving S (w'.feeds k) (w'.responses k) (past ++ []) := by
  rw [World.responses, frame.1, frame.2, List.append_nil]
  exact h

theorem step_serving (a : Action n) (k : Fin n) (h : Serving S (w.feeds k) (w.responses k) past) :
    Serving S ((step S w a).feeds k) ((step S w a).responses k) (past ++ arrived w k a) := by
  cases a with
  | call call => exact framed_serving (call_frame w call) h
  | owner => exact framed_serving (owner_frame w) h
  | dropConfiguration => exact framed_serving ⟨rfl, rfl⟩ h
  | downstream expired => exact framed_serving (downstream_frame S w expired) h
  | heartbeat => exact framed_serving ⟨rfl, rfl⟩ h
  | feed j kernel =>
    have move := feed_moves S w.ring w.shutdown kernel (w.feeds j)
    have sent : (step S w (.feed j kernel)).responses k = w.responses k ++ if k = j then
        ((w.feeds j).step S w.ring w.shutdown kernel).2.toList else [] := responses_sent w j k _ _
    rw [sent]
    simp only [step, World.setFeed, arrived, List.append_nil]
    split
    · rename_i same
      subst same
      exact move_serving move h
    · rw [List.append_nil]
      exact h
  | arrive j client datagram room =>
    have received := arrive_serving h client datagram room
    have kept : (step S w (.arrive j client datagram room)).responses k = w.responses k := rfl
    rw [kept]
    simp only [step, World.setFeed, arrived]
    by_cases same : k = j
    · subst same
      simpa using received
    · simpa [same, Ne.symm same] using h

theorem run_serving (actions : List (Action n)) (k : Fin n)
    (h : Serving S (w.feeds k) (w.responses k) past) :
    Serving S ((run (step S) w actions).feeds k) ((run (step S) w actions).responses k)
      (past ++ arrivals S k w actions) := by
  induction actions generalizing w past with
  | nil => simpa [run, arrivals] using h
  | cons a rest ih =>
    rw [arrivals, ← List.append_assoc]
    exact ih (step_serving a k h)

theorem initial_serving (S : Setup) (k : Fin n) :
    Serving S ((initial S n).feeds k) ((initial S n).responses k) [] :=
  ⟨served_ready S [], rfl, rfl, rfl⟩

structure Sound (S : Setup) (w : World n) : Prop where
  follows : Follows S w.heart.thread
  half : HalfPushed S w
  recorded : Recorded S.bufferSize.toNat (World.position w) (World.shared w)
  ready : ∀ k, MoldRetransmission.Ready S.config (w.feeds k).feed

theorem run_sound (S : Setup) (actions : List (Action n)) :
    Sound S (run (step S) (initial S n) actions) :=
  ⟨run_server_follows S actions, run_halfPushed S actions, run_recorded S actions,
    fun k => (run_serving actions k (initial_serving S k)).ready⟩

theorem sent_response {actions : List (Action n)} {r : Fin n × SockAddr × Packet}
    (sent : r ∈ (run (step S) (initial S n) actions).unicast) :
    ∃ l ∈ ((run (step S) (initial S n) actions).feeds r.1).looked, responseTo S l = some r.2 := by
  have serving := run_serving actions r.1 (initial_serving S r.1)
  have own : r.2 ∈ (run (step S) (initial S n) actions).responses r.1 :=
    List.mem_map.mpr ⟨r, List.mem_filter.mpr ⟨sent, by simp⟩, rfl⟩
  have answered := List.mem_append_left
    (outstanding S ((run (step S) (initial S n) actions).feeds r.1)) own
  rw [← serving.answers] at answered
  exact List.mem_filterMap.mp answered

def Looks (S : Setup) (t : FeedThread) (request : Wanted) : Prop :=
  (∃ events client datagram queue, t.place = .dispatching (.socket :: events) ∧
    t.queue = (client, datagram) :: queue ∧ wantedBy S (client, datagram) = some request) ∨
  ∃ events, t.place = .comparing request events

/-- The step of the k-th feed that settles its i-th lookup, in the state before it:
    file_position_for finds the number at this moment, or does not. -/
structure Settles (S : Setup) (k : Fin n) (i : Nat) (request : Wanted) (found : Option Nat)
    (w : World n) (a : Action n) : Prop where
  turn : ∃ kernel, a = .feed k kernel
  looks : Looks S (w.feeds k) request
  nth : (w.feeds k).looked.length = i
  answer : w.ring.filePositionFor request.startingSequence =
    found.map fun _ => World.position w request.startingSequence.toNat

def Settled (S : Setup) (k : Fin n) (actions : List (Action n)) (i : Nat) (request : Wanted)
    (found : Option Nat) : Prop :=
  ∃ earlier a, earlier ++ [a] <+: actions ∧
    Settles S k i request found (run (step S) (initial S n) earlier) a

/-- Number 0, which is no message's, is answered out of slots that were never written. -/
structure History (S : Setup) (k : Fin n) (actions : List (Action n)) (w : World n) : Prop where
  looked : ∀ i request found, (w.feeds k).looked[i]? = some (request, found) →
    request.startingSequence ≠ 0 → Settled S k actions i request found ∧
      ∀ p ∈ found, World.Lapped S w request.startingSequence p
  fetching : ∀ request events, (w.feeds k).place = .fetching request events →
    request.startingSequence ≠ 0 → ∀ p,
      Settled S k actions (w.feeds k).looked.length request (some p)

theorem settled_later {k : Fin n} {actions : List (Action n)} {i : Nat} {request : Wanted}
    {found : Option Nat} (settled : Settled S k actions i request found) (a : Action n) :
    Settled S k (actions ++ [a]) i request found := by
  obtain ⟨earlier, b, before, settles⟩ := settled
  exact ⟨earlier, b, before.trans (List.prefix_append _ _), settles⟩

theorem step_aside (a : Action n) (k : Fin n) (aside : ∀ kernel, a ≠ .feed k kernel) :
    ((step S w a).feeds k).place = (w.feeds k).place ∧
      ((step S w a).feeds k).looked = (w.feeds k).looked := by
  cases a with
  | call call => rw [step, (call_frame w call).1]; exact ⟨rfl, rfl⟩
  | owner => rw [step, (owner_frame w).1]; exact ⟨rfl, rfl⟩
  | downstream expired => rw [step, (downstream_frame S w expired).1]; exact ⟨rfl, rfl⟩
  | dropConfiguration => exact ⟨rfl, rfl⟩
  | heartbeat => exact ⟨rfl, rfl⟩
  | feed j kernel =>
    have other : k ≠ j := by
      rintro rfl
      exact aside kernel rfl
    simp [step, World.setFeed, other]
  | arrive j client datagram room =>
    obtain ⟨_, place, _, looked⟩ := arrive_same (w.feeds j) client datagram room
    simp only [step, World.setFeed]
    split
    · rename_i same
      rw [same]
      exact ⟨place, looked⟩
    · exact ⟨rfl, rfl⟩

theorem looked_snoc {α : Type*} {l : List α} {x y : α} {i : Nat}
    (at_i : (l ++ [x])[i]? = some y) : l[i]? = some y ∨ i = l.length ∧ y = x := by
  rcases Nat.lt_trichotomy i l.length with inside | last | beyond
  · rw [List.getElem?_append_left inside] at at_i
    exact Or.inl at_i
  · subst last
    rw [List.getElem?_concat_length] at at_i
    exact Or.inr ⟨rfl, (Option.some.inj at_i).symm⟩
  · rw [List.getElem?_append_right (by omega)] at at_i
    obtain ⟨inside, _⟩ := List.getElem?_eq_some_iff.mp at_i
    simp only [List.length_singleton] at inside
    omega

structure Adds (S : Setup) (k : Fin n) (w : World n) (kernel : Kernel) (t : FeedThread) : Prop where
  looked : t.looked = (w.feeds k).looked ∨ ∃ request found,
    t.looked = (w.feeds k).looked ++ [(request, found)] ∧ (request.startingSequence ≠ 0 →
      (Settles S k (w.feeds k).looked.length request found w (.feed k kernel) ∨
        ∃ events, (w.feeds k).place = .fetching request events ∧ found.isSome = true) ∧
      ∀ p ∈ found, World.Lapped S w request.startingSequence p)
  fetching : ∀ request events, t.place = .fetching request events →
    t.looked = (w.feeds k).looked ∧ ((w.feeds k).place = .fetching request events ∨
      (request.startingSequence ≠ 0 → ∀ p,
        Settles S k (w.feeds k).looked.length request (some p) w (.feed k kernel)))

theorem take_adds {k : Fin n} (ready : MoldRetransmission.Ready S.config (w.feeds k).feed)
    {events : List Readable} {client : SockAddr} {datagram : List UInt8}
    {queue : List (SockAddr × List UInt8)}
    (place : (w.feeds k).place = .dispatching (.socket :: events))
    (queued : (w.feeds k).queue = (client, datagram) :: queue)
    (taken : Taken w.ring (w.feeds k) client datagram queue events t) : Adds S k w kernel t := by
  have wanted := readRequest_wanted ready client datagram
  cases taken with
  | ignored unread => exact ⟨Or.inl rfl, by intro _ _ fetching; cases fetching⟩
  | lookedUp read inside => exact ⟨Or.inl rfl, by intro _ _ fetching; cases fetching⟩
  | turnedAway read out =>
    rename_i request
    refine ⟨Or.inr ⟨request, none, rfl, fun _ => ⟨Or.inl ?_, by simp⟩⟩,
      by intro _ _ fetching; cases fetching⟩
    exact ⟨⟨kernel, rfl⟩, Or.inl ⟨events, client, datagram, queue, place, queued,
      wanted.symm.trans read⟩, rfl, outOfRange_none out⟩

theorem move_adds {k : Fin n} (sound : Sound S w) {response : Option (SockAddr × Packet)}
    (move : FeedMove S w.ring w.shutdown kernel (w.feeds k) (t, response)) : Adds S k w kernel t := by
  have elsewhere {place : Place} (idle : ∀ request events, place ≠ .fetching request events)
      (feed : MoldRetransmission.Feed) : Adds S k w kernel
        { w.feeds k with feed := feed, place := place } :=
    ⟨Or.inl rfl, fun request events fetching => absurd fetching (idle request events)⟩
  cases move with
  | still => exact ⟨Or.inl rfl, fun _ _ fetching => ⟨rfl, Or.inl fetching⟩⟩
  | construct place => exact elsewhere (by simp) _
  | report place some => exact elsewhere (by simp) _
  | again place => exact elsewhere (by simp) _
  | leave place => exact elsewhere (by simp) _
  | lose place => exact elsewhere (by simp) _
  | answer place => exact elsewhere (by simp) _
  | take place queued => exact take_adds (sound.ready k) place queued (take_taken w.ring _ _ _ _ _)
  | miss place other =>
    rename_i request events
    refine ⟨Or.inr ⟨request, none, rfl, fun real => ⟨Or.inl ?_, by simp⟩⟩, ?_⟩
    · exact ⟨⟨kernel, rfl⟩, Or.inr ⟨events, place⟩, rfl,
        (comparing_settles sound.follows sound.recorded place real).2 other⟩
    · intro _ _ fetching
      cases fetching
  | found place same =>
    rename_i request events
    refine ⟨Or.inl rfl, fun request' events' fetching => ⟨rfl, Or.inr fun real p => ?_⟩⟩
    cases fetching
    exact ⟨⟨kernel, rfl⟩, Or.inr ⟨events, place⟩, rfl,
      (comparing_settles sound.follows sound.recorded place real).1 same⟩
  | fetch place =>
    rename_i request events
    refine ⟨Or.inr ⟨request, _, rfl, fun real => ⟨Or.inr ⟨events, place, rfl⟩, ?_⟩⟩, ?_⟩
    · intro p found
      cases found
      exact fetching_lapped sound.recorded place real
    · intro _ _ fetching
      cases fetching

theorem step_history {k : Fin n} {actions : List (Action n)} (a : Action n)
    (w_eq : w = run (step S) (initial S n) actions) (h : History S k actions w) :
    History S k (actions ++ [a]) (step S w a) := by
  have grows := advance_stores (w_eq ▸ run_halfPushed S actions) (step_advances S w a)
  have kept : ∀ i request found, (w.feeds k).looked[i]? = some (request, found) →
      request.startingSequence ≠ 0 → Settled S k (actions ++ [a]) i request found ∧
        ∀ p ∈ found, World.Lapped S (step S w a) request.startingSequence p := by
    intro i request found held real
    obtain ⟨settled, lapped⟩ := h.looked i request found held real
    exact ⟨settled_later settled a, fun p member => lapped_stays grows real (lapped p member)⟩
  by_cases own : ∃ kernel, a = .feed k kernel
  · obtain ⟨kernel, rfl⟩ := own
    have adds : Adds S k w kernel ((step S w (.feed k kernel)).feeds k) := by
      rw [feed_turn]
      exact move_adds (w_eq ▸ run_sound S actions)
        (feed_moves S w.ring w.shutdown kernel (w.feeds k))
    have now {i : Nat} {request : Wanted} {found : Option Nat}
        (settles : Settles S k i request found w (.feed k kernel)) :
        Settled S k (actions ++ [.feed k kernel]) i request found :=
      ⟨actions, _, List.prefix_rfl, w_eq ▸ settles⟩
    refine ⟨fun i request found held real => ?_, fun request events fetching real p => ?_⟩
    · rcases adds.looked with same | ⟨request', found', more, settled⟩
      · exact kept i request found (same ▸ held) real
      · rw [more] at held
        rcases looked_snoc held with old | ⟨rfl, last⟩
        · exact kept i request found old real
        · cases last
          obtain ⟨settles, lapped⟩ := settled real
          refine ⟨?_, fun p member => lapped_stays grows real (lapped p member)⟩
          rcases settles with settles | ⟨events, fetching, some_⟩
          · exact now settles
          · obtain ⟨p, rfl⟩ := Option.isSome_iff_exists.mp some_
            exact settled_later (h.fetching request events fetching real p) _
    · obtain ⟨same, before | settles⟩ := adds.fetching request events fetching
      · rw [same]
        exact settled_later (h.fetching request events before real p) _
      · rw [same]
        exact now (settles real p)
  · obtain ⟨place, looked⟩ := step_aside (S := S) (w := w) a k fun kernel same => own ⟨kernel, same⟩
    refine ⟨fun i request found held real => ?_, fun request events fetching real p => ?_⟩
    · rw [looked] at held
      exact kept i request found held real
    · rw [place] at fetching
      rw [looked]
      exact settled_later (h.fetching request events fetching real p) a

theorem run_history (S : Setup) (actions : List (Action n)) (k : Fin n) :
    History S k actions (run (step S) (initial S n) actions) := by
  induction actions using List.reverseRecOn with
  | nil =>
    refine ⟨fun i request found held => ?_, fun request events fetching => ?_⟩
    · simp [run, initial] at held
    · cases fetching
  | append_singleton actions a ih =>
    rw [run_snoc]
    exact step_history a rfl ih

/-- In every run of a server, each feed deals with the datagrams that get into its socket one
    after the other, none lost, none twice. Their lookups end in this order, each as
    file_position_for at once would have at a step between the request and the answer; only
    the position may be that of a later number in the same slot. What the feed has handed to
    sendmsg, with what it is about to, is what its lookups are to be answered with. -/
theorem requests_served_in_order (S : Setup) (actions : List (Action n))
    (_once : StartedOnce actions) (k : Fin n) :
    let w := run (step S) (initial S n) actions
    (w.feeds k).taken ++ (w.feeds k).queue = arrivals S k (initial S n) actions ∧
    (w.feeds k).taken.filterMap (wantedBy S) =
      (w.feeds k).looked.map Prod.fst ++ Place.wanted (w.feeds k).place ∧
    (w.feeds k).looked.filterMap (responseTo S) = w.responses k ++ outstanding S (w.feeds k) ∧
    ∀ i request found, (w.feeds k).looked[i]? = some (request, found) →
      request.startingSequence ≠ 0 → Settled S k actions i request found ∧
        ∀ p ∈ found, World.Lapped S w request.startingSequence p := by
  intro w
  have serving := run_serving actions k (initial_serving S k)
  exact ⟨serving.order, serving.lookups, serving.answers, (run_history S actions k).looked⟩

/-- A request whose lookup begins behind one half of a push and ends behind the next. -/
theorem racing_request_served : ∃ S,
    Setup.make ⟨frame (List.replicate 12 1) ++ frame (List.replicate 12 2), fun _ => 0, by decide⟩
      ⟨0⟩ { session := List.replicate 10 0x20 } 4 = .ok S ∧
    let actions := halfPushed ++ List.replicate 2 (.feed 0 ⟨false, false⟩)
    ((run (step S) (initial S 1) actions).feeds 0).looked = [(⟨⟨0, 0⟩, 1, 1⟩, some 0)] ∧
    Settled S 0 actions 0 ⟨⟨0, 0⟩, 1, 1⟩ (some 0) := by
  refine ⟨_, rfl, by decide +kernel, ?_⟩
  obtain ⟨_, _, _, settled⟩ := requests_served_in_order _
    (halfPushed ++ List.replicate 2 (.feed 0 ⟨false, false⟩)) (by unfold StartedOnce; decide) 0
  exact (settled 0 ⟨⟨0, 0⟩, 1, 1⟩ (some 0) (by decide +kernel) (by decide)).1

end MoldServedRequests
