import MoldReplay.ClientView
import MoldReplay.GapRecovery
import Mathlib.Data.List.Infix

/- A client at work while the server runs: what it has lost it asks for, round by round,
   from where its last response ended. Meanwhile the replay goes on and fills the buffer. -/
namespace MoldLiveRecovery
open MoldWire MoldPacket MoldBuffer MoldDownstream MoldLedger MoldGapFree MoldRerequest
open MoldGapRecovery MoldHeartbeatLifecycle MoldServerRuns MoldServerLookups MoldLookupInstants
open MoldServedRequests MoldServerLifetimes MoldServerUnderway MoldClientView ScheduledRuns
open MoldRetransmission (SockAddr request readRun)

variable {n : Nat}

/-- What sendmsg takes in one datagram: no more than 1024 buffers and 65507 bytes. -/
def Sendable (p : Packet) : Prop := p.iovecs.length ≤ 1024 ∧ p.bytes.length ≤ 65507

/-- What a client asks for that wants the numbers from `next` to `b`: as many messages as go
    into one datagram beside the header. -/
def nextRequest (S : Setup) (b next : Nat) : List UInt8 :=
  request S.config.session next (min (b - next + 1) 1023)

def askFor (S : Setup) (k : Fin n) (client : SockAddr) (b next : Nat) (wait : List (Action n)) :
    List (Action n) :=
  .arrive k client (nextRequest S b next) true :: wait

/-- What sendmsg has taken for the client, which gets it. -/
def delivered (takes : Packet → Bool) (w : World n) (k : Fin n) (client : SockAddr) : List Packet :=
  (received w k client).filter takes

def countSince (takes : Packet → Bool) (k : Fin n) (client : SockAddr) (w w' : World n) : Nat :=
  (((delivered takes w' k client).drop (delivered takes w k client).length).map
    Packet.messageCount).sum

/-- The run of a server whose client needs the numbers from `next` to `b`. It asks a feed
    before each of the waits until it has them all. -/
def recovery (S : Setup) (takes : Packet → Bool) (k : Fin n) (client : SockAddr) (b : Nat) :
    World n → Nat → List (List (Action n)) → List (Action n)
  | _, _, [] => []
  | w, next, wait :: waits =>
    if next = b + 1 then (wait :: waits).flatten
    else
      let w' := run (step S) w (askFor S k client b next wait)
      askFor S k client b next wait ++
        recovery S takes k client b w' (next + countSince takes k client w w') waits

def Patient (S : Setup) (takes : Packet → Bool) (k : Fin n) (client : SockAddr) (b : Nat) :
    World n → Nat → List (List (Action n)) → Prop
  | _, _, [] => True
  | w, next, wait :: waits =>
    next = b + 1 ∨
      6 * (w.feeds k).queue.length + 9 + 2 * wait.countP (fails k) ≤ wait.countP (works k) ∧
        let w' := run (step S) w (askFor S k client b next wait)
        Patient S takes k client b w' (next + countSince takes k client w w') waits

instance decidablePatient (S : Setup) (takes : Packet → Bool) (k : Fin n) (client : SockAddr)
    (b : Nat) : (w : World n) → (next : Nat) → (waits : List (List (Action n))) →
      Decidable (Patient S takes k client b w next waits)
  | _, _, [] => inferInstanceAs (Decidable True)
  | w, next, wait :: waits =>
    @instDecidableOr (next = b + 1) _ inferInstance
      (@instDecidableAnd _ _ inferInstance
        (decidablePatient S takes k client b (run (step S) w (askFor S k client b next wait)) _
          waits))

variable {S : Setup} {w w' : World n} {k : Fin n} {client : SockAddr}

theorem advance_log (advance : Advance S w w') :
    w.heart.thread.feed.log <+: w'.heart.thread.feed.log := by
  cases advance with
  | replay running unfinished ready expired =>
    rcases replay_thread S w.heart ⟨w.stopRequested, expired⟩ with same | stepped
    · simp only [same, List.prefix_rfl]
    · simp only [stepped]
      exact move_log (step_moves _ _)
  | beat =>
    simp only [heartbeat_thread]
    exact List.prefix_rfl
  | _ => exact List.prefix_rfl

theorem run_log (actions : List (Action n)) :
    w.heart.thread.feed.log <+: (run (step S) w actions).heart.thread.feed.log :=
  run_always (I := fun w' : World n => w.heart.thread.feed.log <+: w'.heart.thread.feed.log)
    (fun w' a earlier => earlier.trans (advance_log (step_advances S w' a))) actions List.prefix_rfl

theorem run_pushed (actions : List (Action n)) :
    (pushedRecords w.heart.thread.feed.log).length ≤
      (pushedRecords (run (step S) w actions).heart.thread.feed.log).length :=
  ((run_log actions).filterMap _).length_le

theorem run_assigned (actions : List (Action n)) :
    assigned S w.heart.thread.feed.log <+:
      assigned S (run (step S) w actions).heart.thread.feed.log :=
  ((run_log actions).filterMap _).map _

theorem taken_grown {α : Type} {l l' ms : List α} {i : Nat} (grown : l <+: l')
    (taken : ms = (l.drop i).take ms.length) : ms = (l'.drop i).take ms.length := by
  have part : ms <+: l.drop i := List.prefix_iff_eq_take.mpr taken
  exact List.prefix_iff_eq_take.mp (part.trans (grown.drop i))

theorem advance_bound (h : Orderly S w) (open_ : FeedThread.bound (w.feeds k) = true)
    (unsignalled : w.shutdown = 0) (advance : Advance S w w') :
    FeedThread.bound (w'.feeds k) = true := by
  have turn := advance_turns advance k
  generalize w'.feeds k = t' at turn
  cases turn with
  | aside => exact open_
  | arrive sender datagram room =>
    unfold FeedThread.bound at open_ ⊢
    rwa [(arrive_same (w.feeds k) sender datagram room).2.1]
  | move move =>
    cases move with
    | still => exact open_
    | leave place =>
      have told : Place.told (w.feeds k).place := by
        rw [place]
        exact List.mem_cons_self
      exact absurd unsignalled (h.told k told)
    | take place queued =>
      rcases taken_place (take_taken w.ring (w.feeds k) _ _ _ _) with at_ | ⟨_, at_⟩
      · rw [FeedThread.bound, at_]
      · rw [FeedThread.bound, at_]
    | _ => rfl

theorem run_bound (earlier later : List (Action n))
    (open_ : FeedThread.bound ((run (step S) (initial S n) earlier).feeds k) = true)
    (unsignalled : (run (step S) (initial S n) (earlier ++ later)).shutdown = 0) :
    FeedThread.bound ((run (step S) (initial S n) (earlier ++ later)).feeds k) = true := by
  induction later using List.reverseRecOn with
  | nil => rwa [List.append_nil]
  | append_singleton later a ih =>
    rw [← List.append_assoc, run_snoc] at unsignalled ⊢
    have before := unsignalled_before (S := S) [a] unsignalled
    exact advance_bound (run_orderly S _) (ih before) before (step_advances S _ a)

/-- What the client has got for the numbers from `next` to `b`: responses with a message or
    more each, one behind the other. -/
structure Recovered (S : Setup) (log : List Event) (next b : Nat) (got : List Packet) : Prop where
  few : got.length ≤ b + 1 - next
  sound : ∀ p ∈ got, 1 ≤ p.messageCount ∧ WellCounted p
  whole : (got.map Packet.messages).flatten =
    ((assigned S log).drop (next - 1)).take (b + 1 - next)

theorem recovered_cons {log : List Event} {next b : Nat} {ms : List (List UInt8)}
    {got : List Packet} (positive : 1 ≤ next) (some_ : 1 ≤ ms.length)
    (few : ms.length ≤ min (b - next + 1) 1023) (framed : ∀ m ∈ ms, MoldFraming.IsFrame m)
    (order : next ≤ b) (carried : ms = ((assigned S log).drop (next - 1)).take ms.length)
    (rest : Recovered S log (next + ms.length) b got) :
    Recovered S log next b (dataPacket S.config.session next ms :: got) := by
  have ten := (accepted S).session
  have count : (dataPacket S.config.session next ms).messageCount = ms.length := by
    rw [dataPacket_messageCount ten]
    exact Nat.mod_eq_of_lt (by omega)
  have left := rest.few
  have parts : b + 1 - next = ms.length + (b + 1 - (next + ms.length)) := by omega
  have onward : next + ms.length - 1 = next - 1 + ms.length := by omega
  refine ⟨?_, List.forall_mem_cons.mpr ⟨⟨by omega, ?_⟩, rest.sound⟩, ?_⟩
  · rw [List.length_cons]
    omega
  · exact ⟨dataPacket_block ten next ms, framed, count⟩
  · rw [List.map_cons, List.flatten_cons, rest.whole, dataPacket_messages, parts, List.take_add,
      ← carried, List.drop_drop, onward]

theorem request_wanted {next count : Nat} (nextBound : next < 2 ^ 64) (countBound : count < 65536) :
    wantedBy S (client, request S.config.session next count) =
      some ⟨client, UInt64.ofNat next, UInt16.ofNat count⟩ := by
  obtain ⟨size, named, number, total⟩ :=
    MoldRetransmission.request_fields (accepted S).session nextBound countBound
  rw [wantedBy, if_pos ⟨Nat.le_of_eq size.symm, named⟩, number, total]

theorem kept_found {actions : List (Action n)} {request : Wanted} {found : Option Nat}
    {next : Nat} (number : request.startingSequence = UInt64.ofNat next) (positive : 1 ≤ next)
    {v : World n} (reached : v = run (step S) (initial S n) actions)
    (pushed : next < (World.shared v).next) {last : World n}
    (later : World.stores v <+: World.stores last)
    (live : (World.stores last).length < next + S.bufferSize.toNat)
    (outcome : Outcome v request found.isSome)
    (lapped : request.startingSequence ≠ 0 →
      ∀ p ∈ found, World.Lapped S last request.startingSequence p) :
    found = some (World.position last next) := by
  have recorded : MoldLookupInstants.Recorded S.bufferSize.toNat (World.position v)
      (World.shared v) := reached ▸ run_recorded S actions
  have bounded := next_bounded (reached ▸ run_server_follows S actions)
  have small : next < 2 ^ 64 := by omega
  have value : request.startingSequence.toNat = next := by
    rw [number]
    exact UInt64.toNat_ofNat_of_lt' small
  have real : request.startingSequence ≠ 0 := by
    intro zero
    rw [zero] at value
    simp at value
    omega
  have there : Shared.Holds (World.shared v) request.startingSequence := by
    refine ⟨by rwa [value], ?_⟩
    have length := later.length_le
    rw [shared_written, recorded.size, value]
    omega
  have settled := (found_iff_holds recorded bounded real).1 there
  cases found with
  | none => cases settled.symm.trans (outcome real)
  | some p =>
    obtain ⟨laps, inside, same⟩ := lapped real p rfl
    rw [value] at inside same
    have none_ : laps = 0 := by
      by_contra more
      have whole := Nat.le_mul_of_pos_left S.bufferSize.toNat (Nat.pos_of_ne_zero more)
      omega
    rw [none_, Nat.zero_mul, Nat.add_zero] at same
    rw [same]

theorem delivered_snoc {takes : Packet → Bool} {p : Packet} (taken : takes p = true)
    (got : received w' k client = received w k client ++ [p]) :
    delivered takes w' k client = delivered takes w k client ++ [p] := by
  rw [delivered, got, List.filter_append, List.filter_cons_of_pos taken, List.filter_nil]
  rfl

theorem response_sendable (mtu : S.config.MTU ≤ 65507) {next : Nat} {ms : List (List UInt8)}
    (few : ms.length ≤ 1023) (fits : ms.flatten.length ≤ S.config.capacity) :
    Sendable (dataPacket S.config.session next ms) := by
  refine ⟨Nat.succ_le_succ few, ?_⟩
  rw [dataPacket_size (accepted S).session]
  unfold Config.capacity at fits
  omega

theorem round_recovers (never : S.pacer.skipBefore = 0) (mtu : S.config.MTU ≤ 65507)
    {takes : Packet → Bool} (platform : ∀ p, Sendable p → takes p = true)
    {earlier wait : List (Action n)} {b next : Nat}
    (open_ : FeedThread.bound ((run (step S) (initial S n) earlier).feeds k) = true)
    (idle : At S client ((run (step S) (initial S n) earlier).feeds k) .idle)
    (positive : 1 ≤ next) (order : next ≤ b)
    (pushed : b ≤ (pushedRecords (run (step S) (initial S n) earlier).heart.thread.feed.log).length)
    (silent : ∀ a ∈ wait, asks k client a = false)
    (enough : 6 * ((run (step S) (initial S n) earlier).feeds k).queue.length + 9 +
      2 * wait.countP (fails k) ≤ wait.countP (works k))
    (after : run (step S) (initial S n) (earlier ++ askFor S k client b next wait) = w')
    (unsignalled : w'.shutdown = 0)
    (live : (World.stores w').length < next + S.bufferSize.toNat) :
    At S client (w'.feeds k) .idle ∧
    ∃ ms, 1 ≤ ms.length ∧ ms.length ≤ min (b - next + 1) 1023 ∧
      (∀ m ∈ ms, MoldFraming.IsFrame m) ∧
      ms = ((assigned S w'.heart.thread.feed.log).drop (next - 1)).take ms.length ∧
      delivered takes w' k client =
        delivered takes (run (step S) (initial S n) earlier) k client ++
          [dataPacket S.config.session next ms] := by
  subst after
  obtain ⟨idle', sent, got, answered⟩ :=
    round_answered earlier wait (nextRequest S b next) open_ idle silent unsignalled enough
  refine ⟨idle', ?_⟩
  have follows := run_server_follows S (earlier ++ askFor S k client b next wait)
  have bounded := next_bounded follows
  -- what the request asks for was pushed before
  have grown (actions : List (Action n)) : b + 1 ≤
      (World.shared (run (step S) (initial S n) (earlier ++ actions))).next := by
    rw [run_append]
    exact Nat.succ_le_succ (Nat.le_trans pushed (run_pushed actions))
  have last := grown (askFor S k client b next wait)
  have small : next < 2 ^ 64 := by omega
  have asked : wantedBy S (client, nextRequest S b next) = some _ :=
    request_wanted small (by omega)
  cases answered with
  | ignored unread => cases asked.symm.trans unread
  | lookedUp asks due =>
    cases asked.symm.trans asks
    obtain ⟨v, ⟨meanwhile, ⟨more, rfl⟩, reached⟩, outcome⟩ := due.settled
    have again : earlier ++ askFor S k client b next (meanwhile ++ more) =
        ((earlier ++ [.arrive k client (nextRequest S b next) true]) ++ meanwhile) ++ more := by
      simp [askFor]
    have later : World.stores v <+: World.stores
        (run (step S) (initial S n) (earlier ++ askFor S k client b next (meanwhile ++ more))) := by
      rw [again, reached]
      exact stores_later _ more
    have early : next < (World.shared v).next := by
      have some_ := grown (.arrive k client (nextRequest S b next) true :: meanwhile)
      rw [reached]
      simp only [List.append_assoc, List.singleton_append] at some_ ⊢
      omega
    have found := kept_found rfl positive reached early later live outcome due.lapped
    subst found
    change received (run (step S) (initial S n)
      (earlier ++ askFor S k client b next (meanwhile ++ more))) k client = _ at got
    generalize run (step S) (initial S n) (earlier ++ askFor S k client b next (meanwhile ++ more)) =
      w' at *
    obtain ⟨e, held, position⟩ := position_entry follows positive (by omega)
    obtain ⟨some_, few, framed, carried⟩ := run_carries never follows
      (min (b - next + 1) 1023) positive (by omega)
      (by rw [← pushed_count follows.tracks]; simp only [World.shared] at last; omega) held
    have fits := MoldRetransmission.readRun_room S.file.bytes (min (b - next + 1) 1023) e.position
      S.config.capacity
    rw [← assigned_eq follows.tracks] at carried
    refine ⟨_, some_, few, framed, carried, delivered_snoc (platform _
      (response_sendable mtu (Nat.le_trans few (Nat.min_le_right _ _)) fits)) ?_⟩
    have count : (UInt16.ofNat (min (b - next + 1) 1023)).toNat = min (b - next + 1) 1023 :=
      UInt16.toNat_ofNat_of_lt' (Nat.lt_of_le_of_lt (Nat.min_le_right _ _) (by decide))
    rw [got, position]
    simp only [responseTo, Option.map_some, Option.toList_some, List.map_cons, List.map_nil, count,
      UInt64.toNat_ofNat_of_lt' small]

theorem rounds_recovered (never : S.pacer.skipBefore = 0) (mtu : S.config.MTU ≤ 65507)
    {takes : Packet → Bool} (platform : ∀ p, Sendable p → takes p = true) {b : Nat}
    (waits : List (List (Action n))) : ∀ (earlier : List (Action n)) (next : Nat),
      FeedThread.bound ((run (step S) (initial S n) earlier).feeds k) = true →
      At S client ((run (step S) (initial S n) earlier).feeds k) .idle → 1 ≤ next →
      next ≤ b + 1 →
      b ≤ (pushedRecords (run (step S) (initial S n) earlier).heart.thread.feed.log).length →
      (∀ wait ∈ waits, ∀ a ∈ wait, asks k client a = false) →
      Patient S takes k client b (run (step S) (initial S n) earlier) next waits →
      b + 1 - next ≤ waits.length →
      ∀ final, run (step S) (initial S n) (earlier ++ recovery S takes k client b
          (run (step S) (initial S n) earlier) next waits) = final →
        final.shutdown = 0 → (World.stores final).length < next + S.bufferSize.toNat →
        ∃ got, delivered takes final k client =
            delivered takes (run (step S) (initial S n) earlier) k client ++ got ∧
          Recovered S final.heart.thread.feed.log next b got := by
  -- each wait brings a prefix of what is missing
  induction waits with
  | nil =>
    intro earlier next open_ idle positive upper pushed silent patient enough final after
      unsignalled live
    subst after
    have last : b + 1 - next = 0 := Nat.eq_zero_of_le_zero enough
    rw [recovery, List.append_nil]
    exact ⟨[], (List.append_nil _).symm, Nat.zero_le _, by simp, by simp [last]⟩
  | cons wait waits ih =>
    intro earlier next open_ idle positive upper pushed silent patient enough final after
      unsignalled live
    by_cases last : next = b + 1
    · rw [recovery, if_pos last] at after
      subst after
      have quiet : ∀ a ∈ (wait :: waits).flatten, asks k client a = false := by
        intro a member
        obtain ⟨wait', inside, member⟩ := List.mem_flatten.mp member
        exact silent wait' inside a member
      obtain ⟨sent, got, _, owed⟩ :=
        run_owed _ earlier .idle idle quiet unsignalled fun waits => absurd rfl waits
      cases owed with
      | idle =>
        refine ⟨[], ?_, Nat.zero_le _, by simp, by simp [last]⟩
        rw [delivered, got, List.append_nil, List.append_nil]
        rfl
    · obtain ⟨turns, patient⟩ := patient.resolve_left last
      obtain ⟨now, silent⟩ := List.forall_mem_cons.mp silent
      rw [recovery, if_neg last] at after
      dsimp only at after patient
      rw [← run_append] at after patient
      rw [← List.append_assoc] at after
      have grown := run_pushed (S := S) (w := run (step S) (initial S n) earlier)
        (askFor S k client b next wait)
      rw [← run_append] at grown
      have kept : World.stores (run (step S) (initial S n)
          (earlier ++ askFor S k client b next wait)) <+: World.stores final :=
        after ▸ stores_later _ _
      have assigned' := run_assigned (S := S)
        (w := run (step S) (initial S n) (earlier ++ askFor S k client b next wait))
      have unsignalled' : (run (step S) (initial S n)
          (earlier ++ askFor S k client b next wait)).shutdown = 0 := by
        rw [← after, run_append] at unsignalled
        exact unsignalled_before _ unsignalled
      obtain ⟨idle', ms, some_, few, framed, carried, got⟩ := round_recovers never mtu platform
        open_ idle positive (by omega) pushed now turns rfl unsignalled'
        (Nat.lt_of_le_of_lt kept.length_le live)
      have listening := run_bound earlier _ open_ unsignalled'
      have short : ms.length ≤ 1023 := Nat.le_trans few (Nat.min_le_right _ _)
      have within : ms.length ≤ b - next + 1 := Nat.le_trans few (Nat.min_le_left _ _)
      have counted : countSince takes k client (run (step S) (initial S n) earlier)
          (run (step S) (initial S n) (earlier ++ askFor S k client b next wait)) = ms.length := by
        have ten := (accepted S).session
        rw [countSince, got, List.drop_left]
        simp only [List.map_cons, List.map_nil, List.sum_singleton, dataPacket_messageCount ten]
        exact Nat.mod_eq_of_lt (by omega)
      rw [counted] at after patient
      rw [List.length_cons] at enough
      obtain ⟨rest, got', recovered⟩ := ih (earlier ++ askFor S k client b next wait)
        (next + ms.length) listening idle' (by omega) (by omega) (Nat.le_trans pushed grown) silent
        patient (by omega) final after unsignalled (by omega)
      refine ⟨dataPacket S.config.session next ms :: rest, ?_, ?_⟩
      · rw [got', got, List.append_assoc, List.singleton_append]
      · refine recovered_cons positive some_ few framed (by omega) (taken_grown ?_ carried) recovered
        rw [← after, run_append (initial S n) (earlier ++ askFor S k client b next wait)]
        exact assigned' _

/-- Whatever a client has lost of the numbers that the buffer keeps until the end of a run of
    the server, one feed brings it back in so many rounds at most: each message once, in
    order, as it was numbered, whatever the replay, the other feeds and the other clients do
    in between. Its requests find room in the socket, and sendmsg takes what is no larger
    than a datagram and 1024 buffers. -/
theorem gap_recovered_live (S : Setup) (never : S.pacer.skipBefore = 0)
    (mtu : S.config.MTU ≤ 65507) (takes : Packet → Bool)
    (platform : ∀ p, Sendable p → takes p = true) (earlier : List (Action n)) (k : Fin n)
    (client : SockAddr) (a b : Nat) (waits : List (List (Action n))) {w final : World n}
    (start : run (step S) (initial S n) earlier = w)
    (_once : StartedOnce (earlier ++ recovery S takes k client b w a waits))
    (finish : run (step S) (initial S n) (earlier ++ recovery S takes k client b w a waits) = final)
    (open_ : FeedThread.bound (w.feeds k) = true) (idle : At S client (w.feeds k) .idle)
    (positive : 1 ≤ a) (order : a ≤ b)
    (pushed : b ≤ (pushedRecords w.heart.thread.feed.log).length)
    (silent : ∀ wait ∈ waits, ∀ action ∈ wait, asks k client action = false)
    (patient : Patient S takes k client b w a waits) (enough : b + 1 - a ≤ waits.length)
    (unsignalled : final.shutdown = 0)
    (live : (World.stores final).length < a + S.bufferSize.toNat) :
    ∃ got, delivered takes final k client = delivered takes w k client ++ got ∧
      Recovered S final.heart.thread.feed.log a b got := by
  subst start
  exact rounds_recovered never mtu platform waits earlier a open_ idle positive
    (Nat.le_succ_of_le order) pushed silent patient enough final finish unsignalled live

def twoPushed (k : Fin 1) : List (Action 1) :=
  [.call .start, .feed k ⟨false, false⟩] ++ List.replicate 11 (.downstream false)

/-- What sendmsg of Linux does on its own loopback. -/
def linuxTakes (p : Packet) : Bool := decide (p.iovecs.length ≤ 1024 ∧ p.bytes.length ≤ 65507)

theorem lost_pair_recovered_live : ∃ S,
    Setup.make ⟨MoldFraming.frame (List.replicate 12 1) ++ MoldFraming.frame (List.replicate 12 2),
      fun _ => 0, by decide⟩ ⟨0⟩ { session := List.replicate 10 0x20, MTU := 40 } 4 = .ok S ∧
    let w := run (step S) (initial S 1) (twoPushed 0)
    let final := run (step S) (initial S 1) (twoPushed 0 ++
      recovery S linuxTakes 0 ⟨0, 0⟩ 2 w 1 [waiting 0, waiting 0])
    ∃ got, delivered linuxTakes final 0 ⟨0, 0⟩ = delivered linuxTakes w 0 ⟨0, 0⟩ ++ got ∧
      Recovered S final.heart.thread.feed.log 1 2 got := by
  refine ⟨_, rfl, gap_recovered_live _ rfl (by decide) linuxTakes ?_ (twoPushed 0) 0 ⟨0, 0⟩ 1 2
    [waiting 0, waiting 0] rfl ?_ rfl ?_ ?_ (by decide) (by decide) ?_ ?_ ?_ (by decide) ?_ ?_⟩
  · intro p sendable
    exact decide_eq_true sendable
  · unfold StartedOnce
    decide +kernel
  · decide +kernel
  · exact .idle (by decide +kernel) (by decide +kernel)
  · decide +kernel
  · decide
  · decide +kernel
  · decide +kernel
  · decide +kernel

end MoldLiveRecovery
