import MoldReplay.ServedRequests
import MoldReplay.ServerUnderway

/- A feed of the pool as one of its clients sees it: the client's datagram waits behind those
   of others, is looked up, and is answered, whatever the rest of the server does meanwhile. -/
namespace MoldClientView
open MoldPacket MoldBuffer MoldDownstream MoldRerequest MoldServerRuns MoldServerLookups
open MoldServedRequests MoldServerLifetimes MoldServerUnderway ScheduledRuns
open MoldRetransmission (SockAddr RequestContext Ready)

inductive Stage where
  | idle
  | queued (ahead : Nat) (datagram : List UInt8)
  | lookedUp (request : Wanted) (matched : Bool)
  | answering (response : Packet)

def Place.client : Place → Option SockAddr
  | .comparing request _ | .fetching request _ => some request.clientAddress
  | .answering ctx _ => some ctx.clientAddress
  | .constructing | .waiting | .dispatching _ | .exited => none

inductive At (S : Setup) (client : SockAddr) (t : FeedThread) : Stage → Prop where
  | idle (queue : ∀ r ∈ t.queue, r.1 ≠ client) (apart : Place.client t.place ≠ some client) :
      At S client t .idle
  | queued {before after : List (SockAddr × List UInt8)} {datagram : List UInt8}
      (queue : t.queue = before ++ (client, datagram) :: after)
      (others : ∀ r ∈ before ++ after, r.1 ≠ client)
      (apart : Place.client t.place ≠ some client) :
      At S client t (.queued before.length datagram)
  | comparing {request : Wanted} {events : List Readable} (queue : ∀ r ∈ t.queue, r.1 ≠ client)
      (place : t.place = .comparing request events) (own : request.clientAddress = client) :
      At S client t (.lookedUp request false)
  | fetching {request : Wanted} {events : List Readable} (queue : ∀ r ∈ t.queue, r.1 ≠ client)
      (place : t.place = .fetching request events) (own : request.clientAddress = client) :
      At S client t (.lookedUp request true)
  | answering {ctx : RequestContext} {events : List Readable} (queue : ∀ r ∈ t.queue, r.1 ≠ client)
      (place : t.place = .answering ctx events) (own : ctx.clientAddress = client) :
      At S client t (.answering (t.feed.answer S.file.bytes ctx).2)

variable {n : Nat}

/-- What a lookup made at once in this state would come to. Number 0, which is no message's,
    is left out. -/
def Outcome (w : World n) (request : Wanted) (found : Bool) : Prop :=
  request.startingSequence ≠ 0 → w.ring.filePositionFor request.startingSequence =
    if found then some (World.position w request.startingSequence.toNat) else none

inductive Turn (S : Setup) (w : World n) (client : SockAddr) :
    Stage → List Packet → Stage → Prop where
  | still (s : Stage) : Turn S w client s [] s
  | closer {ahead : Nat} {datagram : List UInt8} :
      Turn S w client (.queued (ahead + 1) datagram) [] (.queued ahead datagram)
  | ignored {datagram : List UInt8} (unread : wantedBy S (client, datagram) = none) :
      Turn S w client (.queued 0 datagram) [] .idle
  | turnedAway {datagram : List UInt8} {request : Wanted}
      (asks : wantedBy S (client, datagram) = some request) (lost : Outcome w request false) :
      Turn S w client (.queued 0 datagram) [] .idle
  | takenUp {datagram : List UInt8} {request : Wanted}
      (asks : wantedBy S (client, datagram) = some request) :
      Turn S w client (.queued 0 datagram) [] (.lookedUp request false)
  | missed {request : Wanted} (lost : Outcome w request false) :
      Turn S w client (.lookedUp request false) [] .idle
  | matched {request : Wanted} (there : Outcome w request true) :
      Turn S w client (.lookedUp request false) [] (.lookedUp request true)
  | fetched {request : Wanted} {p : Nat} {response : Packet}
      (lapped : request.startingSequence ≠ 0 → World.Lapped S w request.startingSequence p)
      (responds : responseTo S (request, some p) = some (client, response)) :
      Turn S w client (.lookedUp request true) [] (.answering response)
  | answered {response : Packet} : Turn S w client (.answering response) [response] .idle

def FeedThread.stage (S : Setup) (t : FeedThread) : Stage :=
  match t.place with
  | .comparing request _ => .lookedUp request false
  | .fetching request _ => .lookedUp request true
  | .answering ctx _ => .answering (t.feed.answer S.file.bytes ctx).2
  | .constructing | .waiting | .dispatching _ | .exited => .idle

def sentTo (client : SockAddr) (response : Option (SockAddr × Packet)) : List Packet :=
  (response.toList.filter fun r => r.1 = client).map Prod.snd

def untilTaken : Place → Nat
  | .constructing | .dispatching [] => 3
  | .waiting => 2
  | .dispatching (_ :: _) => 1
  | .comparing _ _ => 6
  | .fetching _ _ => 5
  | .answering _ _ => 4
  | .exited => 0

def turnsLeft (place : Place) : Stage → Nat
  | .idle => 0
  | .queued ahead _ => untilTaken place + 6 * ahead + 3
  | .lookedUp _ false => 3
  | .lookedUp _ true => 2
  | .answering _ => 1

variable {S : Setup} {client : SockAddr} {w : World n} {k : Fin n} {t t' : FeedThread} {s : Stage}
  {shutdown : Nat} {kernel : Kernel} {events : List Readable}

theorem untilTaken_le (place : Place) : untilTaken place ≤ 6 := by
  match place with
  | .constructing | .waiting | .exited => simp [untilTaken]
  | .comparing _ _ | .fetching _ _ | .answering _ _ => simp [untilTaken]
  | .dispatching [] | .dispatching (_ :: _) => simp [untilTaken]

theorem turnsLeft_pos (place : Place) (waits : s ≠ .idle) : 0 < turnsLeft place s := by
  cases s with
  | idle => exact absurd rfl waits
  | queued ahead datagram => exact Nat.succ_pos _
  | lookedUp request matched => cases matched <;> simp [turnsLeft]
  | answering response => exact Nat.one_pos

theorem dispatching_le (events : List Readable) : untilTaken (.dispatching events) ≤ 3 := by
  cases events <;> simp [untilTaken]

theorem at_own (h : At S client t s) (own : Place.client t.place = some client) :
    (∀ r ∈ t.queue, r.1 ≠ client) ∧ s = FeedThread.stage S t := by
  cases h with
  | idle _ apart => exact absurd own apart
  | queued _ _ apart => exact absurd own apart
  | comparing queue place _ => exact ⟨queue, by rw [FeedThread.stage, place]⟩
  | fetching queue place _ => exact ⟨queue, by rw [FeedThread.stage, place]⟩
  | answering queue place _ => exact ⟨queue, by rw [FeedThread.stage, place]⟩

theorem at_apart (h : At S client t s) (apart : Place.client t.place ≠ some client) :
    (s = .idle ∧ ∀ r ∈ t.queue, r.1 ≠ client) ∨
      ∃ before after datagram, s = .queued before.length datagram ∧
        t.queue = before ++ (client, datagram) :: after ∧ ∀ r ∈ before ++ after, r.1 ≠ client := by
  cases h with
  | idle queue _ => exact Or.inl ⟨rfl, queue⟩
  | queued queue others _ => exact Or.inr ⟨_, _, _, rfl, queue, others⟩
  | comparing _ place own => exact absurd (by rw [place, Place.client, own]) apart
  | fetching _ place own => exact absurd (by rw [place, Place.client, own]) apart
  | answering _ place own => exact absurd (by rw [place, Place.client, own]) apart

theorem apart_stage (h : At S client t s) (apart : Place.client t.place ≠ some client) :
    s = .idle ∨ ∃ ahead datagram, s = .queued ahead datagram := by
  rcases at_apart h apart with ⟨idle, _⟩ | ⟨before, _, datagram, queued, _⟩
  · exact Or.inl idle
  · exact Or.inr ⟨before.length, datagram, queued⟩

theorem place_turn (h : At S client t s) (apart : Place.client t.place ≠ some client)
    {feed : MoldRetransmission.Feed} {looked : List (Wanted × Option Nat)} {place : Place}
    (apart' : Place.client place ≠ some client) :
    At S client { t with feed := feed, place := place, looked := looked } s := by
  rcases at_apart h apart with ⟨rfl, queue⟩ | ⟨_, _, _, rfl, queue, others⟩
  · exact .idle queue apart'
  · exact .queued queue others apart'

theorem apart_nearer (h : At S client t s) (apart : Place.client t.place ≠ some client)
    {place : Place} (nearer : untilTaken place < untilTaken t.place) :
    turnsLeft place s ≤ turnsLeft t.place s - 1 := by
  rcases apart_stage h apart with rfl | ⟨ahead, datagram, rfl⟩
  · exact Nat.zero_le _
  · simp only [turnsLeft]
    omega

theorem taken_client {buffer : RetransmissionBuffer} (ready : Ready S.config t.feed)
    {sender : SockAddr} {datagram : List UInt8} {queue : List (SockAddr × List UInt8)}
    (taken : Taken buffer t sender datagram queue events t') (other : sender ≠ client) :
    Place.client t'.place ≠ some client := by
  cases taken with
  | ignored unread => simp [Place.client]
  | turnedAway read out => simp [Place.client]
  | lookedUp read inside =>
    rw [readRequest_wanted ready, wantedBy] at read
    split at read
    · cases read
      simpa [Place.client] using other
    · cases read

theorem take_turn (h : At S client t s) (ready : Ready S.config t.feed) {sender : SockAddr}
    {datagram : List UInt8} {queue : List (SockAddr × List UInt8)}
    (place : t.place = .dispatching (.socket :: events))
    (queued : t.queue = (sender, datagram) :: queue)
    (taken : Taken w.ring t sender datagram queue events t') :
    ∃ s', At S client t' s' ∧ Turn S w client s [] s' ∧
      turnsLeft t'.place s' ≤ turnsLeft t.place s - 1 := by
  have next := untilTaken_le t'.place
  have last : untilTaken t.place = 1 := by
    rw [place]
    rfl
  have rest : t'.queue = queue := by cases taken <;> rfl
  have apart : Place.client t.place ≠ some client := by
    rw [place]
    simp [Place.client]
  rcases at_apart h apart with ⟨rfl, others⟩ | ⟨before, after, wanted, rfl, at_, others⟩
  · rw [queued] at others
    obtain ⟨other, behind⟩ := List.forall_mem_cons.mp others
    exact ⟨.idle, .idle (rest ▸ behind) (taken_client ready taken other), .still _, Nat.zero_le _⟩
  · rw [queued] at at_
    cases before with
    | cons first before =>
      obtain ⟨rfl, rfl⟩ := List.cons.inj at_
      obtain ⟨other, behind⟩ := List.forall_mem_cons.mp others
      refine ⟨.queued before.length wanted,
        .queued rest behind (taken_client ready taken other), .closer, ?_⟩
      simp only [turnsLeft, List.length_cons]
      omega
    | nil =>
      obtain ⟨same, rfl⟩ := List.cons.inj at_
      obtain ⟨rfl, rfl⟩ := Prod.mk.inj same
      have asks := readRequest_wanted ready sender datagram
      cases taken with
      | ignored unread =>
        exact ⟨.idle, .idle others (by simp [Place.client]), .ignored (asks.symm.trans unread),
          Nat.zero_le _⟩
      | turnedAway read out =>
        refine ⟨.idle, .idle others (by simp [Place.client]),
          .turnedAway (asks.symm.trans read) fun _ => ?_, Nat.zero_le _⟩
        exact outOfRange_none out
      | @lookedUp request read inside =>
        have own : request.clientAddress = sender := by
          rw [asks, wantedBy] at read
          split at read <;> cases read
          rfl
        refine ⟨_, .comparing others rfl own, .takenUp (asks.symm.trans read), ?_⟩
        simp only [turnsLeft]
        omega

/-- The result of a step of the feed, to this client: nearer to the response by a turn or
    more. A call that fails sets the feed back by no more than two. -/
def Onward (S : Setup) (w : World n) (client : SockAddr) (kernel : Kernel) (t : FeedThread)
    (s : Stage) (result : FeedThread × Option (SockAddr × Packet)) : Prop :=
  ∃ s', At S client result.1 s' ∧ Turn S w client s (sentTo client result.2) s' ∧
    (w.shutdown = 0 → turnsLeft result.1.place s' ≤
      if kernel.fails then turnsLeft t.place s + 2 else turnsLeft t.place s - 1)

theorem nearer_onward {left : Nat} (less : left ≤ turnsLeft t.place s - 1) :
    left ≤ if kernel.fails then turnsLeft t.place s + 2 else turnsLeft t.place s - 1 := by
  split <;> omega

theorem apart_onward (h : At S client t s) (apart : Place.client t.place ≠ some client)
    {feed : MoldRetransmission.Feed} {looked : List (Wanted × Option Nat)} {place : Place}
    (apart' : Place.client place ≠ some client) (nearer : untilTaken place < untilTaken t.place)
    {response : Option (SockAddr × Packet)} (others : sentTo client response = []) :
    Onward S w client kernel t s
      ({ t with feed := feed, place := place, looked := looked }, response) := by
  refine ⟨s, place_turn h apart apart', ?_, fun _ => nearer_onward (apart_nearer h apart nearer)⟩
  rw [others]
  exact .still s

theorem told_onward (h : At S client t s) (apart : Place.client t.place ≠ some client)
    {place : Place} (apart' : Place.client place ≠ some client) (signalled : w.shutdown ≠ 0) :
    Onward S w client kernel t s ({ t with place := place }, none) :=
  ⟨s, place_turn h apart apart', .still s, fun unsignalled => absurd unsignalled signalled⟩

theorem comparing_onward (h : At S client (w.feeds k) s) (sound : Sound S w) {request : Wanted}
    (place : (w.feeds k).place = .comparing request events) :
    Onward S w client kernel (w.feeds k) s
      ((w.feeds k).step S w.ring w.shutdown kernel) := by
  have settles := comparing_settles sound.follows sound.recorded place
  have few := dispatching_le events
  have most : untilTaken (w.feeds k).place = 6 := by
    rw [place]
    rfl
  have stepped : (w.feeds k).step S w.ring w.shutdown kernel =
      if (w.ring.entry request.startingSequence).sequenceNumber ≠ request.startingSequence then
        ((w.feeds k).settle request events none, none)
      else ({ w.feeds k with place := .fetching request events }, none) := by
    rw [FeedThread.step, place]
  rw [stepped]
  by_cases own : request.clientAddress = client
  · obtain ⟨queue, stage⟩ := at_own h (by rw [place, Place.client, own])
    obtain rfl : s = .lookedUp request false := by
      rw [stage, FeedThread.stage, place]
    split
    · rename_i other
      exact ⟨.idle, .idle queue (by simp [FeedThread.settle, Place.client]),
        .missed fun real => (settles real).2 other, fun _ => Nat.zero_le _⟩
    · rename_i same
      exact ⟨_, .fetching queue rfl own, .matched fun real => (settles real).1 (not_not.mp same),
        fun _ => nearer_onward (Nat.le_refl 2)⟩
  · have apart : Place.client (w.feeds k).place ≠ some client := by
      rw [place]
      simpa [Place.client] using own
    split
    · exact apart_onward h apart (by simp [Place.client])
        (by rw [most]; exact Nat.lt_of_le_of_lt few (by decide)) rfl
    · exact apart_onward h apart (by simpa [Place.client] using own)
        (by rw [most]; simp [untilTaken]) rfl

theorem fetching_onward (h : At S client (w.feeds k) s) (sound : Sound S w) {request : Wanted}
    (place : (w.feeds k).place = .fetching request events) :
    Onward S w client kernel (w.feeds k) s
      ((w.feeds k).step S w.ring w.shutdown kernel) := by
  have lapped := fetching_lapped sound.recorded place
  have stepped : (w.feeds k).step S w.ring w.shutdown kernel =
      ((w.feeds k).settle request events
        (some (w.ring.entry request.startingSequence).filePosition), none) := by
    rw [FeedThread.step, place]
  rw [stepped]
  by_cases own : request.clientAddress = client
  · obtain ⟨queue, stage⟩ := at_own h (by rw [place, Place.client, own])
    obtain rfl : s = .lookedUp request true := by
      rw [stage, FeedThread.stage, place]
    refine ⟨_, .answering queue rfl own, .fetched lapped ?_, fun _ =>
      nearer_onward (Nat.le_refl 1)⟩
    have packet := MoldRetransmission.answer_packet S.file.bytes (sound.ready k)
      (request.context (w.ring.entry request.startingSequence).filePosition)
    rw [responseTo, Option.map_some, own]
    exact congrArg (fun p => some (client, p)) packet.symm
  · have apart : Place.client (w.feeds k).place ≠ some client := by
      rw [place]
      simpa [Place.client] using own
    exact apart_onward h apart (by simpa [Wanted.context, Place.client] using own)
      (by rw [place]; simp [untilTaken]) rfl

theorem answering_onward (h : At S client (w.feeds k) s) {ctx : RequestContext}
    (place : (w.feeds k).place = .answering ctx events) :
    Onward S w client kernel (w.feeds k) s
      ((w.feeds k).step S w.ring w.shutdown kernel) := by
  have few := dispatching_le events
  have most : untilTaken (w.feeds k).place = 4 := by
    rw [place]
    rfl
  have stepped : (w.feeds k).step S w.ring w.shutdown kernel =
      ({ w.feeds k with
        feed := ((w.feeds k).feed.answer S.file.bytes ctx).1, place := .dispatching events },
          some (ctx.clientAddress, ((w.feeds k).feed.answer S.file.bytes ctx).2)) := by
    rw [FeedThread.step, place]
  rw [stepped]
  by_cases own : ctx.clientAddress = client
  · obtain ⟨queue, stage⟩ := at_own h (by rw [place, Place.client, own])
    obtain rfl : s = .answering ((w.feeds k).feed.answer S.file.bytes ctx).2 := by
      rw [stage, FeedThread.stage, place]
    have sent : sentTo client (some (ctx.clientAddress,
        ((w.feeds k).feed.answer S.file.bytes ctx).2)) =
          [((w.feeds k).feed.answer S.file.bytes ctx).2] := by simp [sentTo, own]
    refine ⟨.idle, .idle queue (by simp [Place.client]), ?_, fun _ => Nat.zero_le _⟩
    rw [sent]
    exact .answered
  · have apart : Place.client (w.feeds k).place ≠ some client := by
      rw [place]
      simpa [Place.client] using own
    exact apart_onward h apart (by simp [Place.client]) (by omega) (by simp [sentTo, own])

theorem waiting_onward (h : At S client (w.feeds k) s) (place : (w.feeds k).place = .waiting) :
    Onward S w client kernel (w.feeds k) s
      ((w.feeds k).step S w.ring w.shutdown kernel) := by
  have apart : Place.client (w.feeds k).place ≠ some client := by
    rw [place]
    simp [Place.client]
  cases fails : kernel.fails with
  | true =>
    have same : (w.feeds k).step S w.ring w.shutdown kernel = (w.feeds k, none) := by
      simp only [FeedThread.step, place, fails, if_true]
    rw [same]
    exact ⟨s, h, .still s, fun _ => by rw [if_pos fails]; exact Nat.le_add_right _ 2⟩
  | false =>
    cases events : (w.feeds k).ready w.shutdown kernel with
    | cons event rest =>
      have moved : (w.feeds k).step S w.ring w.shutdown kernel =
          ({ w.feeds k with place := .dispatching (event :: rest) }, none) := by
        simp [FeedThread.step, place, fails, events]
      rw [moved]
      exact apart_onward h apart (by simp [Place.client]) (by rw [place]; exact Nat.one_lt_two) rfl
    | nil =>
      -- epoll_wait blocks: there is no datagram, so none of this client
      have same : (w.feeds k).step S w.ring w.shutdown kernel = (w.feeds k, none) := by
        simp [FeedThread.step, place, fails, events]
      rw [same]
      refine ⟨s, h, .still s, fun unsignalled => nearer_onward ?_⟩
      rw [unsignalled] at events
      rcases at_apart h apart with ⟨rfl, _⟩ | ⟨_, _, _, _, queue, _⟩
      · exact Nat.zero_le _
      · simp [FeedThread.ready, queue] at events

theorem socket_onward (h : At S client (w.feeds k) s) (sound : Sound S w)
    (place : (w.feeds k).place = .dispatching (.socket :: events))
    (queued : (w.feeds k).queue ≠ []) :
    Onward S w client kernel (w.feeds k) s
      ((w.feeds k).step S w.ring w.shutdown kernel) := by
  have apart : Place.client (w.feeds k).place ≠ some client := by
    rw [place]
    simp [Place.client]
  cases fails : kernel.fails with
  | true =>
    have moved : (w.feeds k).step S w.ring w.shutdown kernel =
        ({ w.feeds k with place := .dispatching events }, none) := by
      simp only [FeedThread.step, place, fails, if_true]
    have back := dispatching_le events
    have front : untilTaken (w.feeds k).place = 1 := by
      rw [place]
      rfl
    rw [moved]
    refine ⟨s, place_turn h apart (by simp [Place.client]), .still s, fun _ => ?_⟩
    rw [if_pos fails]
    rcases apart_stage h apart with rfl | ⟨ahead, datagram, rfl⟩
    · exact Nat.zero_le _
    · simp only [turnsLeft]
      omega
  | false =>
    obtain ⟨⟨sender, datagram⟩, queue, split⟩ := List.exists_cons_of_ne_nil queued
    have moved : (w.feeds k).step S w.ring w.shutdown kernel =
        ((w.feeds k).take w.ring sender datagram queue events, none) := by
      simp [FeedThread.step, place, fails, split]
    obtain ⟨s', there, turn, less⟩ := take_turn h (sound.ready k) place split
      (take_taken w.ring (w.feeds k) sender datagram queue events)
    rw [moved]
    exact ⟨s', there, turn, fun _ => nearer_onward less⟩

theorem step_onward (h : At S client (w.feeds k) s) (sound : Sound S w) (under : Underway S w)
    (kernel : Kernel) :
    Onward S w client kernel (w.feeds k) s
      ((w.feeds k).step S w.ring w.shutdown kernel) := by
  have told := under.orderly.told k
  cases place : (w.feeds k).place with
  | constructing =>
    have moved : (w.feeds k).step S w.ring w.shutdown kernel =
        ({ w.feeds k with place := .waiting }, none) := by
      rw [FeedThread.step, place]
    rw [moved]
    exact apart_onward h (by simp [place, Place.client]) (by simp [Place.client])
      (by rw [place]; decide) rfl
  | waiting => exact waiting_onward h place
  | comparing request events => exact comparing_onward h sound place
  | fetching request events => exact fetching_onward h sound place
  | answering ctx events => exact answering_onward h place
  | exited =>
    have still : (w.feeds k).step S w.ring w.shutdown kernel =
        ({ w.feeds k with place := .exited }, none) := by
      simp only [FeedThread.step, place]
      rw [← place]
    rw [still]
    exact told_onward h (by simp [place, Place.client]) (by simp [Place.client])
      (told (by rw [place]; trivial))
  | dispatching events =>
    cases events with
    | nil =>
      have moved : (w.feeds k).step S w.ring w.shutdown kernel =
          ({ w.feeds k with place := .waiting }, none) := by
        simp only [FeedThread.step, place]
      rw [moved]
      exact apart_onward h (by simp [place, Place.client]) (by simp [Place.client])
        (by rw [place]; decide) rfl
    | cons event rest =>
      cases event with
      | shutdownFd =>
        have moved : (w.feeds k).step S w.ring w.shutdown kernel =
            ({ w.feeds k with place := .exited }, none) := by
          simp only [FeedThread.step, place]
        rw [moved]
        exact told_onward h (by simp [place, Place.client]) (by simp [Place.client])
          (told (by rw [place]; exact List.mem_cons_self))
      | socket =>
        have queued : (w.feeds k).queue ≠ [] :=
          (under.fed k).queued (by rw [place]; exact List.mem_cons_self)
        exact socket_onward h sound place queued

theorem others_arrive {queue : List (SockAddr × List UInt8)} (others : ∀ r ∈ queue, r.1 ≠ client)
    {sender : SockAddr} (other : sender ≠ client) (datagram : List UInt8) :
    ∀ r ∈ queue ++ [(sender, datagram)], r.1 ≠ client := by
  rw [List.forall_mem_append]
  exact ⟨others, List.forall_mem_singleton.mpr other⟩

theorem arrive_at (h : At S client t s) {sender : SockAddr} (other : sender ≠ client)
    (datagram : List UInt8) (room : Bool) : At S client (t.arrive sender datagram room) s := by
  have place := (arrive_same t sender datagram room).2.1
  have feed := (arrive_same t sender datagram room).1
  have longer : (t.arrive sender datagram room).queue = t.queue ∨
      (t.arrive sender datagram room).queue = t.queue ++ [(sender, datagram)] := by
    unfold FeedThread.arrive
    repeat' split
    all_goals simp
  have none_ (others : ∀ r ∈ t.queue, r.1 ≠ client) :
      ∀ r ∈ (t.arrive sender datagram room).queue, r.1 ≠ client := by
    rcases longer with same | more
    · rwa [same]
    · rw [more]
      exact others_arrive others other datagram
  cases h with
  | idle queue apart => exact .idle (none_ queue) (by rwa [place])
  | comparing queue at_ own => exact .comparing (none_ queue) (place.trans at_) own
  | fetching queue at_ own => exact .fetching (none_ queue) (place.trans at_) own
  | answering queue at_ own =>
    rw [← feed]
    exact .answering (none_ queue) (place.trans at_) own
  | @queued before after wanted queue others apart =>
    rcases longer with same | more
    · exact .queued (same.trans queue) others (by rwa [place])
    · have split : (t.arrive sender datagram room).queue =
          before ++ (client, wanted) :: (after ++ [(sender, datagram)]) := by
        rw [more, queue, List.append_assoc, List.cons_append]
      refine .queued split ?_ (by rwa [place])
      rw [← List.append_assoc]
      exact others_arrive others other datagram

theorem asked_at (h : At S client t .idle) (open_ : FeedThread.bound t = true)
    (datagram : List UInt8) :
    At S client (t.arrive client datagram true) (.queued t.queue.length datagram) := by
  obtain ⟨queue, apart⟩ := h
  have place := (arrive_same t client datagram true).2.1
  have last : (t.arrive client datagram true).queue = t.queue ++ (client, datagram) :: [] := by
    unfold FeedThread.bound at open_
    unfold FeedThread.arrive
    split <;> simp_all
  exact .queued last (by rwa [List.append_nil]) (by rwa [place])

/-- What the feed has handed to sendmsg for the client. -/
def received (w : World n) (k : Fin n) (client : SockAddr) : List Packet :=
  ((w.responses k).filter fun r => r.1 = client).map Prod.snd

def asks (k : Fin n) (client : SockAddr) : Action n → Bool
  | .arrive j sender _ _ => decide (j = k ∧ sender = client)
  | _ => false

/-- A turn of the feed in which no call fails, and one in which a call may fail. -/
def works (k : Fin n) : Action n → Bool
  | .feed j kernel => decide (j = k) && !kernel.fails
  | _ => false

def fails (k : Fin n) : Action n → Bool
  | .feed j kernel => decide (j = k) && kernel.fails
  | _ => false

def Onwards (S : Setup) (client : SockAddr) (k : Fin n) (w : World n) (s : Stage) (a : Action n)
    (w' : World n) : Prop :=
  ∃ s' sent, At S client (w'.feeds k) s' ∧ received w' k client = received w k client ++ sent ∧
    Turn S w client s sent s' ∧
    (w.shutdown = 0 → turnsLeft (w'.feeds k).place s' ≤
      if fails k a then turnsLeft (w.feeds k).place s + 2
      else turnsLeft (w.feeds k).place s - (works k a).toNat)

variable {w' : World n}

theorem framed_onwards (there : At S client (w.feeds k) s) {a : Action n}
    (frame : w'.feeds k = w.feeds k ∧ w'.responses k = w.responses k) (idle : works k a = false) :
    Onwards S client k w s a w' := by
  refine ⟨s, [], by rwa [frame.1], by rw [received, frame.2, List.append_nil]; rfl, .still s, ?_⟩
  intro _
  rw [frame.1, idle]
  split
  · exact Nat.le_add_right _ 2
  · exact Nat.le_refl _

theorem received_sent (w : World n) (k : Fin n) (t : FeedThread)
    (response : Option (SockAddr × Packet)) (client : SockAddr) :
    received { w.setFeed k t with unicast := w.unicast ++ response.toList.map fun r => (k, r) } k
      client = received w k client ++ sentTo client response := by
  rw [received, responses_sent, if_pos rfl, List.filter_append, List.map_append]
  rfl

theorem step_onwards (sound : Sound S w) (under : Underway S w)
    (there : At S client (w.feeds k) s) (a : Action n)
    (silent : asks k client a = false) : Onwards S client k w s a (step S w a) := by
  have kept : ∀ {w' : World n}, w'.feeds = w.feeds ∧ w'.unicast = w.unicast →
      w'.feeds k = w.feeds k ∧ w'.responses k = w.responses k := by
    intro w' frame
    exact ⟨by rw [frame.1], by rw [World.responses, frame.2]; rfl⟩
  cases a with
  | call call => exact framed_onwards there (kept (call_frame w call)) rfl
  | owner => exact framed_onwards there (kept (owner_frame w)) rfl
  | dropConfiguration => exact framed_onwards there ⟨rfl, rfl⟩ rfl
  | downstream expired => exact framed_onwards there (kept (downstream_frame S w expired)) rfl
  | heartbeat => exact framed_onwards there ⟨rfl, rfl⟩ rfl
  | feed j kernel =>
    by_cases same : j = k
    · subst same
      obtain ⟨s', at_, turn, left⟩ := step_onward there sound under kernel
      have next := feed_turn (S := S) w j kernel
      refine ⟨s', _, by rw [next]; exact at_, received_sent w j _ _ client, turn,
        fun unsignalled => ?_⟩
      have nearer := left unsignalled
      rw [next]
      cases failed : kernel.fails <;> simpa [fails, works, failed] using nearer
    · refine framed_onwards there ⟨if_neg (Ne.symm same), ?_⟩ (by simp [works, same])
      have sent := responses_sent w j k ((w.feeds j).step S w.ring w.shutdown kernel).1
        ((w.feeds j).step S w.ring w.shutdown kernel).2
      rwa [if_neg (Ne.symm same), List.append_nil] at sent
  | arrive j sender datagram room =>
    by_cases same : j = k
    · subst same
      have other : sender ≠ client := by simpa [asks] using silent
      have place := (arrive_same (w.feeds j) sender datagram room).2.1
      have next : (step S w (.arrive j sender datagram room)).feeds j =
          (w.feeds j).arrive sender datagram room := if_pos rfl
      refine ⟨s, [], by rw [next]; exact arrive_at there other datagram room, ?_, .still s,
        fun _ => ?_⟩
      · exact (List.append_nil _).symm
      · rw [next, place]
        exact Nat.le_refl _
    · exact framed_onwards there ⟨if_neg (Ne.symm same), rfl⟩ rfl

/-- The lookup of a request, settled in one of these states, with a position that is there in
    the last one. -/
structure Due (S : Setup) (met : World n → Prop) (last : World n) (request : Wanted)
    (found : Option Nat) : Prop where
  settled : ∃ v, met v ∧ Outcome v request found.isSome
  lapped : request.startingSequence ≠ 0 →
    ∀ p ∈ found, World.Lapped S last request.startingSequence p

inductive Answered (S : Setup) (met : World n → Prop) (last : World n) (client : SockAddr)
    (datagram : List UInt8) : List Packet → Prop where
  | ignored (unread : wantedBy S (client, datagram) = none) :
      Answered S met last client datagram []
  | lookedUp {request : Wanted} {found : Option Nat}
      (asks : wantedBy S (client, datagram) = some request) (due : Due S met last request found) :
      Answered S met last client datagram
        ((responseTo S (request, found)).toList.map Prod.snd)

inductive Owed (S : Setup) (met : World n → Prop) (last : World n) (client : SockAddr) :
    Stage → List Packet → Prop where
  | idle : Owed S met last client .idle []
  | answering {response : Packet} : Owed S met last client (.answering response) [response]
  | fetching {request : Wanted} {p : Nat} (lapped : request.startingSequence ≠ 0 →
        World.Lapped S last request.startingSequence p) :
      Owed S met last client (.lookedUp request true)
        ((responseTo S (request, some p)).toList.map Prod.snd)
  | comparing {request : Wanted} {found : Option Nat} (due : Due S met last request found) :
      Owed S met last client (.lookedUp request false)
        ((responseTo S (request, found)).toList.map Prod.snd)
  | queued {ahead : Nat} {datagram : List UInt8} {sent : List Packet}
      (answered : Answered S met last client datagram sent) :
      Owed S met last client (.queued ahead datagram) sent

variable {met met' : World n → Prop} {last : World n} {sent rest : List Packet} {s' : Stage}

theorem turn_owed (turn : Turn S w client s sent s') (owed : Owed S met last client s' rest)
    (now : met w) (later : World.stores w <+: World.stores last) :
    Owed S met last client s (sent ++ rest) := by
  cases turn with
  | still _ => exact owed
  | closer =>
    cases owed with
    | queued answered => exact .queued answered
  | ignored unread =>
    cases owed with
    | idle => exact .queued (.ignored unread)
  | turnedAway asks lost =>
    cases owed with
    | idle =>
      have due : Due S met last _ none := ⟨⟨w, now, lost⟩, by simp⟩
      exact .queued (.lookedUp asks due)
  | takenUp asks =>
    cases owed with
    | comparing due => exact .queued (.lookedUp asks due)
  | missed lost =>
    cases owed with
    | idle =>
      have due : Due S met last _ none := ⟨⟨w, now, lost⟩, by simp⟩
      exact .comparing due
  | matched there =>
    cases owed with
    | fetching lapped =>
      rename_i request p
      have due : Due S met last request (some p) := by
        refine ⟨⟨w, now, there⟩, fun real p member => ?_⟩
        cases member
        exact lapped real
      exact .comparing due
  | fetched lapped responds =>
    cases owed with
    | answering =>
      have due : Owed S met last client _ _ :=
        .fetching fun real => lapped_stays later real (lapped real)
      rwa [responds] at due
  | answered =>
    cases owed with
    | idle => exact .answering

theorem answered_earlier {datagram : List UInt8} (answered : Answered S met last client datagram sent)
    (also : ∀ v, met v → met' v) : Answered S met' last client datagram sent := by
  cases answered with
  | ignored unread => exact .ignored unread
  | lookedUp asks due =>
    obtain ⟨v, there, outcome⟩ := due.settled
    exact .lookedUp asks ⟨⟨v, also v there, outcome⟩, due.lapped⟩

theorem owed_earlier (owed : Owed S met last client s rest) (also : ∀ v, met v → met' v) :
    Owed S met' last client s rest := by
  cases owed with
  | idle => exact .idle
  | answering => exact .answering
  | fetching lapped => exact .fetching lapped
  | comparing due =>
    obtain ⟨v, there, outcome⟩ := due.settled
    exact .comparing ⟨⟨v, also v there, outcome⟩, due.lapped⟩
  | queued answered => exact .queued (answered_earlier answered also)

theorem turn_idle (turn : Turn S w client s sent s')
    (idle : s = .idle) : s' = .idle := by
  cases turn with
  | still _ => exact idle
  | _ => cases idle

theorem fails_resting {a : Action n} (failing : fails k a = true) : works k a = false := by
  cases a with
  | feed j kernel =>
    simp only [fails, Bool.and_eq_true] at failing
    simp [works, failing.2]
  | _ => rfl


theorem stores_later (earlier later : List (Action n)) :
    World.stores (run (step S) (initial S n) earlier) <+:
      World.stores (run (step S) (initial S n) (earlier ++ later)) := by
  induction later using List.reverseRecOn with
  | nil => simp only [List.append_nil, List.prefix_rfl]
  | append_singleton later a ih =>
    rw [← List.append_assoc, run_snoc]
    exact ih.trans (advance_stores (run_halfPushed S _) (step_advances S _ a))

def Between (S : Setup) (earlier later : List (Action n)) (v : World n) : Prop :=
  ∃ meanwhile, meanwhile <+: later ∧ v = run (step S) (initial S n) (earlier ++ meanwhile)

/-- In a stretch with enough turns of the feed the client gets what it is owed, and nothing
    else. The induction is on the stretch: a turn takes one of those that are left, a call
    that fails adds two. -/
theorem run_owed (later : List (Action n)) : ∀ (earlier : List (Action n)) (s : Stage),
    At S client ((run (step S) (initial S n) earlier).feeds k) s →
    (∀ a ∈ later, asks k client a = false) →
    (run (step S) (initial S n) (earlier ++ later)).shutdown = 0 →
    (s ≠ .idle → turnsLeft ((run (step S) (initial S n) earlier).feeds k).place s +
      2 * later.countP (fails k) ≤ later.countP (works k)) →
    ∃ sent, received (run (step S) (initial S n) (earlier ++ later)) k client =
        received (run (step S) (initial S n) earlier) k client ++ sent ∧
      At S client ((run (step S) (initial S n) (earlier ++ later)).feeds k) .idle ∧
      Owed S (Between S earlier later) (run (step S) (initial S n) (earlier ++ later)) client s
        sent := by
  induction later with
  | nil =>
    intro earlier s there silent unsignalled enough
    have idle : s = .idle := by
      by_contra waits
      have left := turnsLeft_pos ((run (step S) (initial S n) earlier).feeds k).place waits
      have none_ := enough waits
      simp only [List.countP_nil] at none_
      omega
    subst idle
    rw [List.append_nil]
    exact ⟨[], (List.append_nil _).symm, there, .idle⟩
  | cons a rest ih =>
    intro earlier s there silent unsignalled enough
    obtain ⟨first, silent⟩ := List.forall_mem_cons.mp silent
    have now : (run (step S) (initial S n) earlier).shutdown = 0 :=
      unsignalled_before (S := S) (a :: rest) (by rwa [← run_append])
    have stores := stores_later (S := S) earlier (a :: rest)
    have snoc : run (step S) (initial S n) (earlier ++ [a]) =
        step S (run (step S) (initial S n) earlier) a := run_snoc _ _ _
    have split : earlier ++ a :: rest = (earlier ++ [a]) ++ rest := by simp
    obtain ⟨s', sent, there', got, turn, left⟩ :=
      step_onwards (run_sound S earlier) (run_underway S earlier) there a first
    have fewer := left now
    rw [← snoc] at there' got fewer
    have enough' : s' ≠ .idle →
        turnsLeft ((run (step S) (initial S n) (earlier ++ [a])).feeds k).place s' +
          2 * rest.countP (fails k) ≤ rest.countP (works k) := by
      intro waits'
      have waits : s ≠ .idle := fun idle => waits' (turn_idle turn idle)
      have some_ := turnsLeft_pos ((run (step S) (initial S n) earlier).feeds k).place waits
      have counted := enough waits
      rw [List.countP_cons, List.countP_cons] at counted
      cases failing : fails k a with
      | true =>
        have resting := fails_resting failing
        simp only [failing, resting, if_true, Bool.false_eq_true, if_false] at fewer counted
        omega
      | false =>
        cases working : works k a <;>
          simp only [failing, working, if_true, Bool.false_eq_true, if_false, Bool.toNat_true,
            Bool.toNat_false] at fewer counted <;>
          omega
    rw [split] at unsignalled stores ⊢
    obtain ⟨more, received, idle, owed⟩ := ih (earlier ++ [a]) s' there' silent unsignalled enough'
    refine ⟨sent ++ more, ?_, idle, turn_owed turn (owed_earlier owed ?_)
      ⟨[], List.nil_prefix, by rw [List.append_nil]⟩ stores⟩
    · rw [received, got, List.append_assoc]
    · rintro v ⟨meanwhile, inside, rfl⟩
      exact ⟨a :: meanwhile, (List.prefix_cons_inj a).mpr inside, by simp⟩

theorem round_answered (earlier later : List (Action n)) (datagram : List UInt8)
    (open_ : FeedThread.bound ((run (step S) (initial S n) earlier).feeds k) = true)
    (idle : At S client ((run (step S) (initial S n) earlier).feeds k) .idle)
    (silent : ∀ a ∈ later, asks k client a = false)
    (unsignalled : (run (step S) (initial S n)
      (earlier ++ .arrive k client datagram true :: later)).shutdown = 0)
    (enough : 6 * ((run (step S) (initial S n) earlier).feeds k).queue.length + 9 +
      2 * later.countP (fails k) ≤ later.countP (works k)) :
    let asked := earlier ++ [.arrive k client datagram true]
    let final := run (step S) (initial S n) (earlier ++ .arrive k client datagram true :: later)
    At S client (final.feeds k) .idle ∧
    ∃ sent, received final k client =
        received (run (step S) (initial S n) earlier) k client ++ sent ∧
      Answered S (Between S asked later) final client datagram sent := by
  intro asked final
  have arrived : (run (step S) (initial S n) asked).feeds k =
      ((run (step S) (initial S n) earlier).feeds k).arrive client datagram true := by
    rw [run_snoc]
    exact if_pos rfl
  have same : received (run (step S) (initial S n) asked) k client =
      received (run (step S) (initial S n) earlier) k client := by
    rw [run_snoc]
    rfl
  have split : earlier ++ .arrive k client datagram true :: later = asked ++ later := by
    simp [asked]
  have there := asked_at idle open_ datagram
  have most := untilTaken_le
    (((run (step S) (initial S n) earlier).feeds k).arrive client datagram true).place
  rw [← arrived] at there most
  simp only [final]
  rw [split] at unsignalled ⊢
  obtain ⟨sent, got, idle, owed⟩ := run_owed later asked _ there silent unsignalled
    fun _ => by simp only [turnsLeft]; omega
  cases owed with
  | queued answered => exact ⟨idle, sent, by rw [got, same], answered⟩

/-- Whoever has nothing outstanding at a feed and whose datagram gets into its socket is
    answered as it is due, once, and nothing else: in every run in which the feed has turns
    enough for the datagrams before it and for the calls that fail, and is not told to stop.
    The lookup comes out as it would at once at some point in between; only the position may
    be that of a later number in the same slot. -/
theorem datagram_answered_once (S : Setup) (earlier later : List (Action n)) (k : Fin n)
    (client : SockAddr) (datagram : List UInt8)
    (_once : StartedOnce (earlier ++ .arrive k client datagram true :: later))
    (open_ : FeedThread.bound ((run (step S) (initial S n) earlier).feeds k) = true)
    (idle : At S client ((run (step S) (initial S n) earlier).feeds k) .idle)
    (silent : ∀ a ∈ later, asks k client a = false)
    (unsignalled : (run (step S) (initial S n)
      (earlier ++ .arrive k client datagram true :: later)).shutdown = 0)
    (enough : 6 * ((run (step S) (initial S n) earlier).feeds k).queue.length + 9 +
      2 * later.countP (fails k) ≤ later.countP (works k)) :
    let asked := earlier ++ [.arrive k client datagram true]
    let final := run (step S) (initial S n) (earlier ++ .arrive k client datagram true :: later)
    At S client (final.feeds k) .idle ∧
    ∃ sent, received final k client =
        received (run (step S) (initial S n) earlier) k client ++ sent ∧
      Answered S (Between S asked later) final client datagram sent :=
  round_answered earlier later datagram open_ idle silent unsignalled enough

def building (k : Fin 1) : List (Action 1) :=
  [.call .start, .feed k ⟨false, false⟩] ++ List.replicate 4 (.downstream false)

def waiting (k : Fin 1) : List (Action 1) :=
  (List.replicate 9 [.downstream false, .feed k ⟨false, false⟩]).flatten

theorem early_message_answered : ∃ S,
    Setup.make ⟨MoldFraming.frame (List.replicate 12 1), fun _ => 0, by decide⟩ ⟨0⟩
      { session := List.replicate 10 0x20 } 4 = .ok S ∧
    let datagram := MoldRetransmission.request (List.replicate 10 0x20) 1 1
    let final := run (step S) (initial S 1)
      (building 0 ++ .arrive 0 ⟨0, 0⟩ datagram true :: waiting 0)
    ∃ sent, received final 0 ⟨0, 0⟩ =
        received (run (step S) (initial S 1) (building 0)) 0 ⟨0, 0⟩ ++ sent ∧
      Answered S (Between S (building 0 ++ [.arrive 0 ⟨0, 0⟩ datagram true]) (waiting 0)) final
        ⟨0, 0⟩ datagram sent := by
  refine ⟨_, rfl, (datagram_answered_once _ (building 0) (waiting 0) 0 ⟨0, 0⟩ _ ?_ ?_ ?_ ?_ ?_
    ?_).2⟩
  · unfold StartedOnce
    decide
  · decide +kernel
  · exact .idle (by decide +kernel) (by decide +kernel)
  · decide
  · decide +kernel
  · decide +kernel

end MoldClientView
