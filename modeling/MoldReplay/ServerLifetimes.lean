import MoldReplay.ServerLookups

/- What the threads of a server use, and how long it is there. The destructor lets its
   members go one by one after the threads that use them have ended, but for two: the
   pointers that the pool keeps to the caller's configuration. -/
namespace MoldServerLifetimes
open FixedBytes MoldWire MoldFraming MoldPacket MoldDownstream MoldHeartbeatLifecycle
open MoldServerRuns MoldServerLookups ScheduledRuns
open MoldRetransmission (SockAddr)

def Place.uses : Place → List Resource
  | .constructing => [.configuration, .packetBuilderCfg, .feedCfg, .shutdownFd]
  | .waiting => [.shutdownFd]
  | .dispatching (.socket :: _) | .comparing _ _ | .fetching _ _ => [.retransmissionBuffer]
  | .answering _ _ => [.mappedItchFile]
  | _ => []

/-- What the next step of the downstream thread uses. The packet that is sent is gathered
    from the file. -/
def Phase.uses : Phase → List Resource
  | .replaying => [.downstreamFeed, .mappedItchFile]
  | .building _ => [.downstreamFeed, .mappedItchFile, .retransmissionBuffer]
  | .sending => [.downstreamFeed, .mappedItchFile]
  | .finished => [.shutdownFd]
  | _ => [.downstreamFeed]

variable {n : Nat}

inductive Uses (w : World n) (r : Resource) : Prop where
  | downstream (running : w.downstream = .running) (used : r ∈ Phase.uses w.heart.thread.phase)
  | heartbeat (running : w.heart.beat.running = true) (used : r = .downstreamFeed)
  | feed (k : Fin n) (used : r ∈ Place.uses (w.feeds k).place)

/-- No thread is about to use what is not there any more. -/
def NothingDangling (w : World n) : Prop := ∀ r, Uses w r → r ∉ w.released

/-- The configuration stays until every feed is constructed, and the pool until then too. -/
def KeepsConfiguration (w : World n) : Action n → Prop
  | .dropConfiguration => ∀ k, (w.feeds k).place ≠ .constructing
  | .owner => w.owner = .releasingPointers → ∀ k, (w.feeds k).place ≠ .constructing
  | _ => True

instance (w : World n) (a : Action n) : Decidable (KeepsConfiguration w a) :=
  match a with
  | .dropConfiguration => inferInstanceAs (Decidable (∀ k, (w.feeds k).place ≠ .constructing))
  | .owner => inferInstanceAs (Decidable (_ → ∀ k, (w.feeds k).place ≠ .constructing))
  | .call _ | .downstream _ | .heartbeat | .feed _ _ | .arrive _ _ _ _ => .isTrue trivial

def forConstruction : List Resource := [.configuration, .packetBuilderCfg, .feedCfg]

def Owner.joined : Owner → Bool
  | .signalling | .releasingPointers | .joiningFeeds _ | .releasing _ | .gone => true
  | _ => false

def Owner.signalled : Owner → Bool
  | .releasingPointers | .joiningFeeds _ | .releasing _ | .gone => true
  | _ => false

def Owner.joinedFeed (k : Nat) : Owner → Bool
  | .joiningFeeds next => decide (k < next)
  | .releasing _ | .gone => true
  | _ => false

def Owner.joinedFeeds : Owner → Bool
  | .releasing _ | .gone => true
  | _ => false

def Owner.begun : Owner → List Resource
  | .joiningFeeds _ => releasedFirst
  | .releasing _ | .gone => releasedFirst ++ releaseOrder
  | _ => []

def Owner.left : Owner → List Resource
  | .releasing left => left
  | _ => []

def World.releasedMembers (w : World n) : List Resource :=
  w.released.filter (· ≠ .configuration)

/-- The thread is at its end, or has the shutdown event before it. -/
def Place.told : Place → Prop
  | .dispatching events | .comparing _ events | .fetching _ events | .answering _ events =>
    .shutdownFd ∈ events
  | .exited => True
  | _ => False

structure Orderly (S : Setup) (w : World n) : Prop where
  together : MoldHeartbeatNumbers.Together S w.heart
  unstarted : w.downstream = .absent →
    w.heart.thread.phase = .starting ∧ w.heart.beat.running = false
  finished : w.downstream = .exited → w.heart.thread.phase = .finished
  launched : w.stopRequested = true → w.downstream ≠ .absent
  joined : Owner.joined w.owner = true → w.downstream ≠ .running
  signalled : w.shutdown ≠ 0 ↔ w.downstream = .exited ∨ Owner.signalled w.owner = true
  told : ∀ k, Place.told (w.feeds k).place → w.shutdown ≠ 0
  ended : ∀ k : Fin n, Owner.joinedFeed k w.owner = true → (w.feeds k).place = .exited
  order : World.releasedMembers w ++ Owner.left w.owner = Owner.begun w.owner
  remaining : Owner.left w.owner <:+ releaseOrder

variable {S : Setup} {w w' : World n}

theorem initial_orderly (S : Setup) (n : Nat) : Orderly S (initial S n) where
  together := MoldHeartbeatNumbers.initial_together S
  unstarted := fun _ => ⟨rfl, rfl⟩
  finished := nofun
  launched := nofun
  joined := nofun
  signalled := by simp [initial, Owner.signalled]
  told := fun k told => told.elim
  ended := nofun
  order := rfl
  remaining := List.nil_suffix

theorem move_told {buffer : MoldBuffer.RetransmissionBuffer} {shutdown : Nat} {kernel : Kernel}
    {t t' : FeedThread} {response : Option (SockAddr × Packet)}
    (move : FeedMove S buffer shutdown kernel t (t', response)) (told : Place.told t'.place) :
    shutdown ≠ 0 ∨ Place.told t.place := by
  cases move with
  | still => exact Or.inr told
  | construct place => exact told.elim
  | report place some =>
    left
    rintro rfl
    simp only [Place.told, FeedThread.ready, if_true, List.nil_append, List.append_nil, ite_self]
      at told
    split at told <;> simp at told
  | again place => exact told.elim
  | leave place => exact Or.inr (by simp [place, Place.told])
  | lose place => exact Or.inr (by simpa [place, Place.told] using told)
  | take place queued =>
    rename_i events client datagram queue
    have taken := take_taken buffer t client datagram queue events
    rw [place]
    rcases taken_place taken with at_ | ⟨_, at_⟩
    · rw [at_] at told
      exact Or.inr (List.mem_cons_of_mem _ told)
    · rw [at_] at told
      exact Or.inr (List.mem_cons_of_mem _ told)
  | miss place other => exact Or.inr (by simpa [place, Place.told, FeedThread.settle] using told)
  | found place same => exact Or.inr (by simpa [place, Place.told] using told)
  | fetch place => exact Or.inr (by simpa [place, Place.told, FeedThread.settle] using told)
  | answer place => exact Or.inr (by simpa [place, Place.told] using told)

theorem move_exited {buffer : MoldBuffer.RetransmissionBuffer} {shutdown : Nat} {kernel : Kernel}
    {t t' : FeedThread} {response : Option (SockAddr × Packet)}
    (move : FeedMove S buffer shutdown kernel t (t', response)) (exited : t.place = .exited) :
    t'.place = .exited := by
  cases move with
  | still => exact exited
  | leave _ => rfl
  | _ => simp_all

theorem move_constructing {buffer : MoldBuffer.RetransmissionBuffer} {shutdown : Nat}
    {kernel : Kernel} {t t' : FeedThread} {response : Option (SockAddr × Packet)}
    (move : FeedMove S buffer shutdown kernel t (t', response))
    (constructing : t'.place = .constructing) : t.place = .constructing := by
  cases move with
  | still => exact constructing
  | take place queued =>
    rename_i events client datagram queue
    have taken := take_taken buffer t client datagram queue events
    rcases taken_place taken with at_ | ⟨_, at_⟩ <;> simp [at_] at constructing
  | miss place other => simp [FeedThread.settle] at constructing
  | fetch place => simp [FeedThread.settle] at constructing
  | _ => simp at constructing

theorem requestStop_orderly (h : Orderly S w) : Orderly S w.requestStop where
  together := h.together
  unstarted := h.unstarted
  finished := h.finished
  launched := by
    intro stop
    rcases Bool.or_eq_true_iff.mp stop with before | launched
    · exact h.launched before
    · simpa [World.requestStop] using launched
  joined := h.joined
  signalled := h.signalled
  told := h.told
  ended := h.ended
  order := h.order
  remaining := h.remaining

theorem owner_orderly (h : Orderly S w) {owner : Owner}
    (joined : Owner.joined owner = true → w.downstream ≠ .running)
    (signalled : Owner.signalled owner = Owner.signalled w.owner)
    (ended : ∀ k : Fin n, Owner.joinedFeed k owner = true → (w.feeds k).place = .exited)
    (left : Owner.left owner = Owner.left w.owner)
    (begun : Owner.begun owner = Owner.begun w.owner) :
    Orderly S { w with owner := owner } where
  together := h.together
  unstarted := h.unstarted
  finished := h.finished
  launched := h.launched
  joined := joined
  signalled := by rw [signalled]; exact h.signalled
  told := h.told
  ended := ended
  order := by rw [left, begun]; exact h.order
  remaining := by rw [left]; exact h.remaining

theorem feed_orderly (h : Orderly S w) (k : Fin n) {t : FeedThread}
    {unicast : List (Fin n × SockAddr × Packet)}
    (told : Place.told t.place → w.shutdown ≠ 0 ∨ Place.told (w.feeds k).place)
    (ended : (w.feeds k).place = .exited → t.place = .exited) :
    Orderly S { w.setFeed k t with unicast := unicast } where
  together := h.together
  unstarted := h.unstarted
  finished := h.finished
  launched := h.launched
  joined := h.joined
  signalled := h.signalled
  told := by
    intro i at_i
    simp only [World.setFeed] at at_i ⊢
    split at at_i
    · exact (told at_i).elim id (h.told k)
    · exact h.told i at_i
  ended := by
    intro i past
    simp only [World.setFeed]
    split
    · rename_i same
      subst same
      exact ended (h.ended i past)
    · exact h.ended i past
  order := h.order
  remaining := h.remaining

theorem heart_orderly (h : Orderly S w) {heart : MoldHeartbeat.World}
    (change : MoldHeartbeat.Change S w.heart heart)
    (unstarted : w.downstream = .absent →
      heart.thread.phase = .starting ∧ heart.beat.running = false)
    (finished : w.downstream = .exited → heart.thread.phase = .finished) :
    Orderly S { w with heart := heart } where
  together := MoldHeartbeatNumbers.change_together h.together change
  unstarted := unstarted
  finished := finished
  launched := h.launched
  joined := h.joined
  signalled := h.signalled
  told := h.told
  ended := h.ended
  order := h.order
  remaining := h.remaining

theorem advance_orderly (h : Orderly S w) (advance : Advance S w w') : Orderly S w' := by
  cases advance with
  | still => exact h
  | start free absent =>
    refine { h with
      unstarted := nofun
      finished := nofun
      launched := fun _ => by simp
      joined := by simp [free, Owner.joined]
      signalled := ?_ }
    have signalled := h.signalled
    simpa [absent, free, Owner.signalled] using signalled
  | wait free launched =>
    exact owner_orderly h nofun (by rw [free]; rfl) nofun (by rw [free]; rfl) (by rw [free]; rfl)
  | stop using_ => exact requestStop_orderly h
  | destroy free =>
    exact owner_orderly h nofun (by rw [free]; rfl) nofun (by rw [free]; rfl) (by rw [free]; rfl)
  | waited waiting ended =>
    exact owner_orderly h nofun (by rw [waiting]; rfl) nofun (by rw [waiting]; rfl)
      (by rw [waiting]; rfl)
  | requestStop at_ =>
    have same : w.requestStop.owner = .requestingStop := at_
    exact owner_orderly (requestStop_orderly h) nofun (by rw [same]; rfl) nofun
      (by rw [same]; rfl) (by rw [same]; rfl)
  | joined at_ ended =>
    exact owner_orderly h (fun _ => ended) (by rw [at_]; rfl) nofun (by rw [at_]; rfl)
      (by rw [at_]; rfl)
  | signal at_ =>
    refine { h with
      joined := fun _ => h.joined (by rw [at_]; rfl)
      signalled := by simp [Owner.signalled]
      told := fun k told => by simp
      ended := by simp [Owner.joinedFeed]
      order := ?_
      remaining := List.nil_suffix }
    have order := h.order
    rwa [at_] at order
  | releasePointers at_ =>
    refine { h with
      joined := fun _ => h.joined (by rw [at_]; rfl)
      signalled := ?_
      ended := by simp [Owner.joinedFeed]
      order := ?_
      remaining := List.nil_suffix }
    · have signalled := h.signalled
      rwa [at_] at signalled
    · have order := h.order
      rw [at_] at order
      change World.releasedMembers w ++ [] = [] at order
      rw [List.append_nil] at order
      have more : (w.released ++ releasedFirst).filter (· ≠ .configuration) =
          World.releasedMembers w ++ releasedFirst := List.filter_append ..
      change (w.released ++ releasedFirst).filter (· ≠ .configuration) ++ [] = releasedFirst
      rw [more, order, List.append_nil, List.nil_append]
  | joinedFeed at_ inside ended =>
    rename_i k
    refine owner_orderly h (fun _ => h.joined (by rw [at_]; rfl)) (by rw [at_]; rfl) ?_
      (by rw [at_]; rfl) (by rw [at_]; rfl)
    intro i past
    rcases Nat.lt_succ_iff_lt_or_eq.mp (of_decide_eq_true past) with before | same
    · exact h.ended i (by rw [at_]; exact decide_eq_true before)
    · rw [← ended]
      exact congrArg (fun j => (w.feeds j).place) (Fin.ext same)
  | joinedAll at_ all =>
    refine { h with
      joined := fun _ => h.joined (by rw [at_]; rfl)
      signalled := ?_
      ended := ?_
      order := ?_
      remaining := List.suffix_rfl }
    · have signalled := h.signalled
      rwa [at_] at signalled
    · intro i _
      exact h.ended i (by rw [at_]; exact decide_eq_true (Nat.lt_of_lt_of_le i.isLt all))
    · have order := h.order
      rw [at_] at order
      change World.releasedMembers w ++ [] = releasedFirst at order
      change World.releasedMembers w ++ releaseOrder = releasedFirst ++ releaseOrder
      rw [List.append_nil] at order
      rw [order]
  | release at_ =>
    rename_i member left
    have order := h.order
    rw [at_] at order
    have remaining := h.remaining
    rw [at_] at remaining
    have named : member ≠ .configuration := by
      rintro rfl
      exact absurd (remaining.subset List.mem_cons_self) (by decide)
    refine { h with
      joined := fun _ => h.joined (by rw [at_]; rfl)
      signalled := ?_
      ended := fun i _ => h.ended i (by rw [at_]; rfl)
      order := ?_
      remaining := (List.suffix_cons member left).trans remaining }
    · have signalled := h.signalled
      rwa [at_] at signalled
    · simpa [World.releasedMembers, Owner.left, named, Owner.begun] using order
  | finish at_ =>
    exact owner_orderly h (fun _ => h.joined (by rw [at_]; rfl)) (by rw [at_]; rfl)
      (fun i _ => h.ended i (by rw [at_]; rfl)) (by rw [at_]; rfl) (by rw [at_]; rfl)
  | dropConfiguration =>
    refine { h with order := ?_ }
    have order := h.order
    simpa [World.releasedMembers] using order
  | signalled running finished =>
    exact { h with
      unstarted := nofun
      finished := fun _ => finished
      launched := fun _ => by simp
      joined := fun _ => by simp
      signalled := by simp
      told := fun _ _ => by simp }
  | storeRecord running pushes fresh => exact { h with }
  | replay running unfinished ready expired =>
    have replayed := heart_orderly h
      (MoldHeartbeat.step_changes S w.heart (.downstream ⟨w.stopRequested, expired⟩))
      (by simp [running]) (by simp [running])
    exact { replayed with }
  | beat =>
    have thread := heartbeat_thread S w.heart
    refine heart_orderly h (MoldHeartbeat.step_changes S w.heart _) ?_ ?_
    · intro absent
      obtain ⟨starting, quiet⟩ := h.unstarted absent
      exact ⟨by rw [thread, starting], heartbeat_stopped S quiet⟩
    · intro exited
      rw [thread, h.finished exited]
  | feed k move => exact feed_orderly h k (move_told move) (move_exited move)
  | arrive k client datagram room =>
    obtain ⟨_, place, _⟩ := arrive_same (w.feeds k) client datagram room
    exact feed_orderly h k (by rw [place]; exact Or.inr) (by rw [place]; exact id)

theorem run_orderly (S : Setup) (actions : List (Action n)) :
    Orderly S (run (step S) (initial S n) actions) :=
  run_always (I := Orderly S) (fun w a h => advance_orderly h (step_advances S w a)) actions
    (initial_orderly S n)

theorem heartbeat_ended (h : Orderly S w) (ended : w.downstream ≠ .running) :
    w.heart.beat.running = false := by
  cases launch : w.downstream with
  | absent => exact (h.unstarted launch).2
  | running => exact absurd launch ended
  | exited => exact h.together.joined (by rw [h.finished launch]; rfl)

theorem released_ended (h : Orderly S w) {r : Resource} (released : r ∈ w.released)
    (member : r ∉ forConstruction) :
    w.downstream ≠ .running ∧ w.heart.beat.running = false ∧
      ∀ k, (w.feeds k).place = .exited := by
  have order := h.order
  simp only [forConstruction, List.mem_cons, List.not_mem_nil, or_false, not_or] at member
  have inside : r ∈ World.releasedMembers w ++ Owner.left w.owner :=
    List.mem_append_left _ (List.mem_filter.mpr ⟨released, by simpa using member.1⟩)
  rw [order] at inside
  have past : Owner.joinedFeeds w.owner = true := by
    cases owner : w.owner <;> simp_all [Owner.begun, Owner.joinedFeeds, releasedFirst]
  have ended : w.downstream ≠ .running := by
    apply h.joined
    cases owner : w.owner <;> simp_all [Owner.joinedFeeds, Owner.joined]
  refine ⟨ended, heartbeat_ended h ended, fun k => h.ended k ?_⟩
  cases owner : w.owner <;> simp_all [Owner.joinedFeeds, Owner.joinedFeed]

theorem place_uses {place : Place} {r : Resource} (elsewhere : place ≠ .constructing)
    (used : r ∈ Place.uses place) : r ∉ forConstruction := by
  unfold Place.uses at used
  split at used <;> cases r <;> simp_all [forConstruction]

theorem phase_uses {phase : Phase} {r : Resource} (used : r ∈ Phase.uses phase) :
    r ∉ forConstruction := by
  cases phase <;> cases r <;> simp_all [Phase.uses, forConstruction]

theorem nothing_dangling_now (h : Orderly S w) : NothingDangling w ↔
    ((∃ r ∈ forConstruction, r ∈ w.released) → ∀ k, (w.feeds k).place ≠ .constructing) := by
  constructor
  · rintro nothing ⟨r, needed, dropped⟩ k constructing
    refine nothing r (.feed k ?_) dropped
    rw [constructing]
    exact List.mem_append_left [Resource.shutdownFd] needed
  · intro kept r uses released
    by_cases needed : r ∈ forConstruction
    · have constructed := kept ⟨r, needed, released⟩
      cases uses with
      | downstream running used => exact phase_uses used needed
      | heartbeat running used => simp [used, forConstruction] at needed
      | feed k used => exact place_uses (constructed k) used needed
    · obtain ⟨ended, quiet, exited⟩ := released_ended h released needed
      cases uses with
      | downstream running _ => exact ended running
      | heartbeat running _ => simp [quiet] at running
      | feed k used => simp [exited k, Place.uses] at used

theorem advance_constructing (advance : Advance S w w') (k : Fin n)
    (constructing : (w'.feeds k).place = .constructing) : (w.feeds k).place = .constructing := by
  have turn := advance_turns advance k
  generalize w'.feeds k = t' at turn constructing
  cases turn with
  | aside => exact constructing
  | move move => exact move_constructing move constructing
  | arrive client datagram room =>
    rwa [(arrive_same (w.feeds k) client datagram room).2.1] at constructing

def Ends (w : World n) : Action n → Prop
  | .dropConfiguration => True
  | .owner => w.owner = .releasingPointers
  | _ => False

theorem step_released (h : Orderly S w) (a : Action n) (keeps : ¬ Ends w a) {r : Resource}
    (needed : r ∈ forConstruction) : r ∈ (step S w a).released ↔ r ∈ w.released := by
  cases a with
  | dropConfiguration => exact absurd trivial keeps
  | owner =>
    simp only [step, World.ownerStep]
    split
    case h_7 at_ => exact absurd at_ keeps
    case h_10 member left at_ =>
      have remaining := h.remaining
      rw [at_] at remaining
      have other : r ≠ member := by
        rintro rfl
        have both : ∀ r ∈ forConstruction, r ∉ releaseOrder := by decide
        exact both r needed (remaining.subset List.mem_cons_self)
      simp [other]
    all_goals repeat' split
    all_goals rfl
  | call call =>
    cases call <;> simp only [step, World.call] <;> split <;> rfl
  | downstream expired =>
    simp only [step, World.downstreamStep]
    repeat' split
    all_goals rfl
  | _ => rfl

theorem keeps_iff (w : World n) (a : Action n) :
    KeepsConfiguration w a ↔ (Ends w a → ∀ k, (w.feeds k).place ≠ .constructing) := by
  cases a <;> simp [KeepsConfiguration, Ends]

theorem ends_released (w : World n) (a : Action n) (ends : Ends w a) :
    (∃ r ∈ forConstruction, r ∈ (step S w a).released) ∧ (step S w a).feeds = w.feeds := by
  cases a with
  | dropConfiguration => exact ⟨⟨.configuration, by decide, by simp [step]⟩, rfl⟩
  | owner =>
    have at_ : w.owner = .releasingPointers := ends
    exact ⟨⟨.feedCfg, by decide, by simp [step, World.ownerStep, at_, releasedFirst]⟩,
      by simp [step, World.ownerStep, at_]⟩
  | _ => exact ends.elim

theorem step_dangling_iff (w : World n) (a : Action n) (h : Orderly S w)
    (fine : NothingDangling w) :
    NothingDangling (step S w a) ↔ KeepsConfiguration w a := by
  have advance := step_advances S w a
  rw [nothing_dangling_now (advance_orderly h advance), keeps_iff]
  rw [nothing_dangling_now h] at fine
  by_cases ends : Ends w a
  · obtain ⟨dropped, feeds⟩ := ends_released (S := S) w a ends
    rw [feeds]
    simp [ends, dropped]
  · simp only [ends, false_imp_iff, iff_true]
    rintro ⟨r, needed, dropped⟩ k constructing
    exact fine ⟨r, needed, (step_released h a ends needed).mp dropped⟩ k
      (advance_constructing advance k constructing)

/-- Whatever the threads do in whatever order, none of them uses anything behind its end,
    exactly if the caller keeps its configuration until all feeds are constructed, and its
    server until then too. Nothing in the server waits for that. -/
theorem nothing_dangling_iff (S : Setup) (actions : List (Action n))
    (_once : StartedOnce actions) :
    (∀ earlier, earlier <+: actions → NothingDangling (run (step S) (initial S n) earlier)) ↔
      Throughout (step S) KeepsConfiguration (initial S n) actions :=
  prefixes_exactly (I := Orderly S) (fun w a h => advance_orderly h (step_advances S w a))
    step_dangling_iff actions (initial_orderly S n)
    ((nothing_dangling_now (initial_orderly S n)).mpr (by simp [initial]))

def wholeLife (k : Fin 1) : List (Action 1) :=
  [.call .start, .feed k ⟨false, false⟩, .dropConfiguration, .call .destroy, .owner] ++
    (List.replicate 8 [.downstream false, .heartbeat]).flatten ++ List.replicate 3 .owner ++
    List.replicate 2 (.feed k ⟨false, false⟩) ++ List.replicate 7 .owner

/-- A server that is destroyed before its feed's thread has begun. -/
def lateFeed : List (Action 1) := .call .destroy :: List.replicate 4 .owner

theorem early_feed_keeps_pointers : ∃ S,
    Setup.make ⟨frame (List.replicate 12 1), fun _ => 0, by decide⟩ ⟨0⟩
      { session := List.replicate 10 0x20 } 4 = .ok S ∧
    (run (step S) (initial S 1) (wholeLife 0)).owner = .gone ∧
    (∀ earlier, earlier <+: wholeLife 0 → NothingDangling (run (step S) (initial S 1) earlier)) ∧
    ¬ ∀ earlier, earlier <+: lateFeed → NothingDangling (run (step S) (initial S 1) earlier) :=
  ⟨_, rfl, by decide +kernel,
    (nothing_dangling_iff _ (wholeLife 0) (by unfold StartedOnce; decide)).mpr (by decide +kernel),
    mt (nothing_dangling_iff _ lateFeed (by unfold StartedOnce; decide)).mp (by decide +kernel)⟩

def ReplayOver (w : World n) : Prop :=
  (w.downstream = .absent ∨ w.heart.thread.phase = .finished) ∧ w.heart.beat.running = false

theorem not_running_over (h : Orderly S w) (ended : w.downstream ≠ .running) : ReplayOver w := by
  refine ⟨?_, heartbeat_ended h ended⟩
  cases launch : w.downstream with
  | absent => exact Or.inl rfl
  | running => exact absurd launch ended
  | exited => exact Or.inr (h.finished launch)

theorem signalled_joined (h : Orderly S w) (signalled : w.shutdown ≠ 0) :
    w.downstream ≠ .running := by
  rcases h.signalled.mp signalled with exited | past
  · simp [exited]
  · apply h.joined
    cases owner : w.owner <;> simp_all [Owner.signalled, Owner.joined]

theorem member_released (h : Orderly S w) (gone : w.owner = .gone) {r : Resource}
    (member : r ≠ .configuration) : w.released.count r = 1 := by
  have order := h.order
  rw [gone] at order
  change World.releasedMembers w ++ [] = releasedFirst ++ releaseOrder at order
  rw [List.append_nil] at order
  have kept : (World.releasedMembers w).count r = w.released.count r :=
    List.count_filter (by simpa using member)
  rw [← kept, order]
  cases r <;> simp_all [releasedFirst, releaseOrder]

/-- Feeds serve until the replay is over: none has ended, or has the shutdown event before
    it, while Feed::start runs. The eventfd is written once the replay has ended. Nothing but
    what the constructors of the feeds need is released before every thread has ended; and
    when the destructor has returned, they all have, and each member was released once. -/
theorem server_ends_in_order (S : Setup) (actions : List (Action n))
    (_once : StartedOnce actions) :
    let w := run (step S) (initial S n) actions
    (∀ k, Place.told (w.feeds k).place → ReplayOver w) ∧
    (w.downstream = .exited → ReplayOver w ∧ w.shutdown ≠ 0) ∧
    (∀ r ∈ w.released, r ∉ forConstruction →
      ReplayOver w ∧ w.downstream ≠ .running ∧ ∀ k, (w.feeds k).place = .exited) ∧
    (w.owner = .gone → ReplayOver w ∧ w.downstream ≠ .running ∧
      (∀ k, (w.feeds k).place = .exited) ∧ ∀ r, r ≠ .configuration → w.released.count r = 1) := by
  intro w
  have h : Orderly S w := run_orderly S actions
  refine ⟨?_, ?_, ?_, ?_⟩
  · intro k told
    exact not_running_over h (signalled_joined h (h.told k told))
  · intro exited
    exact ⟨not_running_over h (by simp [exited]), h.signalled.mpr (Or.inl exited)⟩
  · intro r released member
    obtain ⟨ended, _, exited⟩ := released_ended h released member
    exact ⟨not_running_over h ended, ended, exited⟩
  · intro gone
    have ended : w.downstream ≠ .running := h.joined (by rw [gone]; rfl)
    exact ⟨not_running_over h ended, ended, fun k => h.ended k (by rw [gone]; rfl),
      fun r member => member_released h gone member⟩

theorem whole_life_ends : ∃ S,
    Setup.make ⟨frame (List.replicate 12 1), fun _ => 0, by decide⟩ ⟨0⟩
      { session := List.replicate 10 0x20 } 4 = .ok S ∧
    (run (step S) (initial S 1) (wholeLife 0)).owner = .gone ∧
    ∀ r, r ≠ .configuration → (run (step S) (initial S 1) (wholeLife 0)).released.count r = 1 :=
  ⟨_, rfl, by decide +kernel, ((server_ends_in_order _ (wholeLife 0)
    (by unfold StartedOnce; decide)).2.2.2 (by decide +kernel)).2.2.2⟩

end MoldServerLifetimes
