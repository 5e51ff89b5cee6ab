import MoldReplay.Decoder
import MoldReplay.ServerRuns

/- The receiver of the end to end tests (LifeCycleToShutdown), which checks every datagram
   it gets from the multicast group, against what a server sends in any run. Not everything
   that is handed to the socket arrives: sendmsg refuses a packet of more than 1023 messages,
   and the network may lose any datagram. -/
namespace MoldTestClient
open FixedBytes MoldWire MoldFraming MoldPacket MoldDownstream MoldLedger MoldGapFree
open MoldHeartbeat MoldHeartbeatNumbers MoldDecoder CountedRuns ScheduledRuns

/-- The test's variables (less got_heartbeat, which nothing reads), whether it has left its
    loop, and whether all checks so far have passed. -/
structure Client where
  nextExpectedSeq : Option SequenceNumber
  eosCount : Nat
  left : Bool
  passed : Bool
  deriving DecidableEq, Repr

def fresh : Client := ⟨none, 0, false, true⟩

def Client.expect (c : Client) (check : Bool) : Client := { c with passed := c.passed && check }

/-- A pass of the loop, from the datagram on. -/
def Client.receive (session : List UInt8) (expectedEosCount : Nat) (c : Client)
    (bytes : List UInt8) : Client :=
  if c.left then c
  else
    match parseHeader bytes with
    | none => { c.expect false with left := true }
    | some header =>
      let seq := UInt64.ofNat header.sequenceNumber
      let c := c.expect (header.session == session)
      if header.messageCount = heartbeatMsgCount.toNat then c
      else if header.messageCount = endOfSessionMsgCount.toNat then
        match c.nextExpectedSeq with
        | none => { c.expect false with left := true }
        | some next => { c.expect (seq == next) with
            eosCount := c.eosCount + 1
            left := decide (expectedEosCount ≤ c.eosCount + 1) }
      else
        let next := c.nextExpectedSeq.getD seq
        let block := bytes.drop headerLength
        -- count_messages walks over that many messages of the block
        let counted := (messageCodec.decodeAll header.messageCount block).isSome
        { c.expect (seq == next && block.length > 0 && counted) with
          nextExpectedSeq := some (next + UInt64.ofNat header.messageCount) }

def Datagram.packet : Datagram → Packet
  | .data p | .heartbeat p | .endOfSession p => p

/-- The test's buffer has room for a datagram of the MTU. -/
def Client.watch (cfg : Config) (expectedEosCount : Nat) (c : Client) (seen : List Datagram) :
    Client :=
  seen.foldl (fun c d =>
    c.receive cfg.session expectedEosCount ((Datagram.packet d).bytes.take cfg.MTU)) c

/-- recv has timed out. -/
def Client.timeOut (c : Client) (expectedEosCount : Nat) : Client :=
  if c.left then c else { c.expect (c.eosCount == expectedEosCount) with left := true }

def IsData : Datagram → Prop
  | .data p => p.messages ≠ []
  | _ => False

def Numbered (d : Datagram) : Prop := IsData d ∨ IsEnd d

/- A stretch of the stream, each datagram with whether it arrives. -/
def received (seen : List (Datagram × Bool)) : List Datagram := (seen.filter (·.2)).map (·.1)

def Heard (P : Datagram → Prop) (d : Datagram × Bool) : Prop := d.2 = true ∧ P d.1

def Lost (d : Datagram × Bool) : Prop := d.2 = false ∧ IsData d.1

/-- Behind a lost data packet nothing arrives that has a number to check. -/
def Steady (seen : List (Datagram × Bool)) : Prop :=
  seen.Pairwise fun d d' => Lost d → ¬ Heard Numbered d'

/-- Datagrams from number `n` on, up to the number before `m`. -/
inductive Continues (cfg : Config) : Nat → List Datagram → Nat → Prop where
  | nil {n : Nat} : Continues cfg n [] n
  | data {n m : Nat} {ms : List (List UInt8)} {rest : List Datagram} (few : ms.length ≤ 65534)
      (framed : ∀ message ∈ ms, IsFrame message) (fits : ms.flatten.length ≤ cfg.capacity)
      (bound : n < 2 ^ 64) (onward : Continues cfg (n + ms.length) rest m) :
      Continues cfg n (.data (dataPacket cfg.session n ms) :: rest) m
  | heartbeat {n m seq : Nat} {rest : List Datagram} (bound : seq < 2 ^ 64)
      (onward : Continues cfg n rest m) :
      Continues cfg n (.heartbeat (heartbeatPacket cfg.session seq) :: rest) m
  | endOfSession {n m : Nat} {rest : List Datagram} (bound : n < 2 ^ 64)
      (onward : Continues cfg n rest m) :
      Continues cfg n (.endOfSession (eosPacket cfg.session n) :: rest) m

variable {S : Setup} {cfg : Config} {expectedEosCount n m : Nat} {c : Client}
  {wire more : List Datagram} {seen rest : List (Datagram × Bool)}

theorem continues_append {k : Nat} (first : Continues cfg n wire m)
    (second : Continues cfg m more k) : Continues cfg n (wire ++ more) k := by
  induction first with
  | nil => exact second
  | data few framed fits bound _ ih => exact .data few framed fits bound (ih second)
  | heartbeat bound _ ih => exact .heartbeat bound (ih second)
  | endOfSession bound _ ih => exact .endOfSession bound (ih second)

theorem continues_suffix (all : Continues cfg n (wire ++ more) m) :
    ∃ k, Continues cfg k more m := by
  induction wire generalizing n with
  | nil => exact ⟨n, all⟩
  | cons d rest ih =>
    cases all with
    | data _ _ _ _ onward => exact ih onward
    | heartbeat _ onward => exact ih onward
    | endOfSession _ onward => exact ih onward

theorem receive_header (accepted : cfg.Accepted) {seq count : Nat} {p : Packet}
    {block : List UInt8} (bytes : p.bytes = headerBytes cfg.session seq count ++ block)
    (seqBound : seq < 2 ^ 64) (countBound : count < 65536) (fits : block.length ≤ cfg.capacity) :
    parseHeader (p.bytes.take cfg.MTU) = some ⟨cfg.session, seq, count⟩ ∧
      (p.bytes.take cfg.MTU).drop headerLength = block := by
  have ten := accepted.session
  have room := accepted.mtu
  have size : p.bytes.length ≤ cfg.MTU := by
    rw [bytes]
    simp only [headerBytes, List.length_append, ten, bytesBE_length]
    unfold Config.capacity at fits
    omega
  rw [List.take_of_length_le size, bytes]
  exact parse_header ten seqBound countBound block

theorem receive_heartbeat (expectedEosCount : Nat) (accepted : cfg.Accepted)
    (inside : c.left = false) (passed : c.passed = true) {seq : Nat} {p : Packet}
    (bytes : p.bytes = headerBytes cfg.session seq 0 ++ []) (bound : seq < 2 ^ 64) :
    c.receive cfg.session expectedEosCount (p.bytes.take cfg.MTU) = c := by
  obtain ⟨parsed, _⟩ := receive_header accepted bytes bound (by decide) (Nat.zero_le _)
  cases c
  simp_all [Client.receive, Client.expect, heartbeatMsgCount]

theorem receive_data (expectedEosCount : Nat) (accepted : cfg.Accepted)
    (inside : c.left = false) (passed : c.passed = true) {ms : List (List UInt8)}
    (some_ : ms ≠ []) (few : ms.length ≤ 65534) (framed : ∀ message ∈ ms, IsFrame message)
    (fits : ms.flatten.length ≤ cfg.capacity) (bound : n < 2 ^ 64) :
    c.receive cfg.session expectedEosCount ((dataPacket cfg.session n ms).bytes.take cfg.MTU) =
      { c with
        passed := UInt64.ofNat n == c.nextExpectedSeq.getD (UInt64.ofNat n)
        nextExpectedSeq := some
          (c.nextExpectedSeq.getD (UInt64.ofNat n) + UInt64.ofNat ms.length) } := by
  have count : ms.length % 65536 = ms.length := Nat.mod_eq_of_lt (by omega)
  have positive := List.length_pos_iff.mpr some_
  have bytes : (dataPacket cfg.session n ms).bytes =
      headerBytes cfg.session n ms.length ++ ms.flatten := by
    rw [dataPacket_bytes, count]
    rfl
  obtain ⟨parsed, block⟩ := receive_header accepted bytes bound (by omega) fits
  have total := frames_count framed
  have valid : ∀ body ∈ ms.map (List.drop 2), messageCodec.valid body := by
    intro body member
    obtain ⟨message, at_, rfl⟩ := List.mem_map.mp member
    exact (frame_body (framed message at_)).2
  have counted := decodeAll_encodeAll valid []
  rw [List.append_nil, bodies_framed framed, List.length_map] at counted
  have data : ms.length ≠ heartbeatMsgCount.toNat ∧ ms.length ≠ endOfSessionMsgCount.toNat := by
    simp only [heartbeatMsgCount, endOfSessionMsgCount]
    refine ⟨?_, ?_⟩
    · change ms.length ≠ 0
      omega
    · change ms.length ≠ 65535
      omega
  have filled : 0 < ms.flatten.length := by omega
  simp only [Client.receive, inside, Bool.false_eq_true, if_false, parsed, data.1, data.2,
    Client.expect, block, counted]
  simp [passed, filled, -List.length_flatten]

theorem receive_end (expectedEosCount : Nat) (accepted : cfg.Accepted)
    (inside : c.left = false) (passed : c.passed = true) (bound : n < 2 ^ 64) :
    c.receive cfg.session expectedEosCount ((eosPacket cfg.session n).bytes.take cfg.MTU) =
      match c.nextExpectedSeq with
      | none => { c with passed := false, left := true }
      | some next => { c with
          passed := UInt64.ofNat n == next
          eosCount := c.eosCount + 1
          left := decide (expectedEosCount ≤ c.eosCount + 1) } := by
  obtain ⟨parsed, _⟩ := receive_header accepted (eosPacket_bytes cfg.session n) bound (by decide)
    (Nat.zero_le _)
  have end_ : endOfSessionMsgCount.toNat ≠ heartbeatMsgCount.toNat := by decide
  simp only [Client.receive, inside, Bool.false_eq_true, if_false, parsed, end_, if_true,
    Client.expect, beq_self_eq_true, Bool.and_true]
  cases c.nextExpectedSeq <;> simp [passed]

theorem watch_left (left : c.left = true) (more : List Datagram) :
    c.watch cfg expectedEosCount more = c := by
  induction more with
  | nil => rfl
  | cons d rest ih =>
    have same : c.receive cfg.session expectedEosCount ((Datagram.packet d).bytes.take cfg.MTU) =
        c := if_pos left
    change (c.receive cfg.session expectedEosCount _).watch cfg expectedEosCount rest = c
    rw [same, ih]

theorem watch_cons (c : Client) (d : Datagram) (rest : List Datagram) :
    c.watch cfg expectedEosCount (d :: rest) =
      (c.receive cfg.session expectedEosCount ((Datagram.packet d).bytes.take cfg.MTU)).watch cfg
        expectedEosCount rest := rfl

theorem receive_failed (failed : c.passed = false) (bytes : List UInt8) :
    (c.receive cfg.session expectedEosCount bytes).passed = false := by
  unfold Client.receive
  split
  · exact failed
  · split
    · simp [Client.expect, failed]
    · simp only
      split
      · simp [Client.expect, failed]
      · split
        · split <;> simp [Client.expect, failed]
        · simp [Client.expect, failed]

theorem watch_failed (failed : c.passed = false) (more : List Datagram) :
    ((c.watch cfg expectedEosCount more).timeOut expectedEosCount).passed = false := by
  induction more generalizing c with
  | nil =>
    change (c.timeOut expectedEosCount).passed = false
    unfold Client.timeOut
    split <;> simp [Client.expect, failed]
  | cons d rest ih =>
    rw [watch_cons]
    exact ih (receive_failed failed _)

@[simp] theorem received_heard (d : Datagram) : received ((d, true) :: rest) = d :: received rest :=
  rfl

@[simp] theorem received_lost (d : Datagram) : received ((d, false) :: rest) = received rest := rfl

@[simp] theorem endOfSessions_data (p : Packet) (rest : List Datagram) :
    endOfSessions (.data p :: rest) = endOfSessions rest := rfl

@[simp] theorem endOfSessions_heartbeat (p : Packet) (rest : List Datagram) :
    endOfSessions (.heartbeat p :: rest) = endOfSessions rest := rfl

@[simp] theorem endOfSessions_end (p : Packet) (rest : List Datagram) :
    endOfSessions (.endOfSession p :: rest) = p :: endOfSessions rest := rfl

structure Waiting (c : Client) (expectedEosCount : Nat) : Prop where
  inside : c.left = false
  passed : c.passed = true
  awaited : c.eosCount = 0 ∨ c.eosCount < expectedEosCount

theorem watch_heartbeat (accepted : cfg.Accepted) (waiting : Waiting c expectedEosCount) {seq : Nat}
    (bound : seq < 2 ^ 64) (more : List Datagram) :
    c.watch cfg expectedEosCount (.heartbeat (heartbeatPacket cfg.session seq) :: more) =
      c.watch cfg expectedEosCount more := by
  have same := receive_heartbeat expectedEosCount accepted waiting.inside waiting.passed
    (heartbeatPacket_bytes cfg.session seq) bound
  rw [watch_cons]
  exact congrArg (fun c => Client.watch cfg expectedEosCount c more) same

/-- A packet without messages has the count of a heartbeat. -/
theorem watch_empty (accepted : cfg.Accepted) (waiting : Waiting c expectedEosCount)
    (bound : n < 2 ^ 64) (more : List Datagram) :
    c.watch cfg expectedEosCount (.data (dataPacket cfg.session n []) :: more) =
      c.watch cfg expectedEosCount more := by
  have same := receive_heartbeat expectedEosCount accepted waiting.inside waiting.passed
    (dataPacket_bytes cfg.session n []) bound
  rw [watch_cons]
  exact congrArg (fun c => Client.watch cfg expectedEosCount c more) same

/-- A packet with the number that is expected, or the first one that is heard. -/
theorem watch_data (accepted : cfg.Accepted) (waiting : Waiting c expectedEosCount)
    {ms : List (List UInt8)} (some_ : ms ≠ []) (few : ms.length ≤ 65534)
    (framed : ∀ message ∈ ms, IsFrame message) (fits : ms.flatten.length ≤ cfg.capacity)
    (bound : n < 2 ^ 64)
    (next : c.nextExpectedSeq.getD (UInt64.ofNat n) = UInt64.ofNat n) (more : List Datagram) :
    c.watch cfg expectedEosCount (.data (dataPacket cfg.session n ms) :: more) =
      Client.watch cfg expectedEosCount { c with
        passed := true, nextExpectedSeq := some (UInt64.ofNat (n + ms.length)) } more := by
  have taken := receive_data expectedEosCount accepted waiting.inside waiting.passed some_ few framed
    fits bound
  rw [next, beq_self_eq_true, ← UInt64.ofNat_add] at taken
  rw [watch_cons]
  exact congrArg (fun c => Client.watch cfg expectedEosCount c more) taken

theorem timeOut_passes (waiting : Waiting c expectedEosCount) :
    (c.timeOut expectedEosCount).passed = true ↔ expectedEosCount ≤ c.eosCount := by
  have awaited := waiting.awaited
  simp only [Client.timeOut, waiting.inside, Bool.false_eq_true, if_false, Client.expect,
    waiting.passed, Bool.true_and, beq_iff_eq]
  omega

theorem ofNat_ne {k : Nat} (less : k < n) (bound : n < 2 ^ 64) :
    (UInt64.ofNat n == UInt64.ofNat k) = false := by
  rw [beq_eq_false_iff_ne]
  intro same
  have values := congrArg UInt64.toNat same
  rw [UInt64.toNat_ofNat_of_lt' bound, UInt64.toNat_ofNat_of_lt' (Nat.lt_trans less bound)] at values
  omega

/-- Behind a gap the first number that is checked is a wrong one. -/
theorem watch_gap_iff (accepted : cfg.Accepted) (continues : Continues cfg n (seen.map Prod.fst) m)
    (waiting : Waiting c expectedEosCount) {k : Nat} (less : k < n)
    (expected : c.nextExpectedSeq = some (UInt64.ofNat k)) :
    ((c.watch cfg expectedEosCount (received seen)).timeOut expectedEosCount).passed = true ↔
      (∀ d ∈ seen, ¬ Heard Numbered d) ∧ expectedEosCount ≤ c.eosCount := by
  induction seen generalizing n with
  | nil => simpa [received, Client.watch] using timeOut_passes waiting
  | cons d rest ih =>
    obtain ⟨d, heard⟩ := d
    cases heard with
    | false =>
      have unheard : ¬ Heard Numbered (d, false) := by simp [Heard]
      rw [received_lost, List.forall_mem_cons]
      cases continues with
      | data _ _ _ _ onward => rw [ih onward (by omega)]; simp [unheard]
      | heartbeat _ onward => rw [ih onward less]; simp [unheard]
      | endOfSession _ onward => rw [ih onward less]; simp [unheard]
    | true =>
      rw [received_heard, List.forall_mem_cons]
      cases continues with
      | heartbeat bound onward =>
        rw [watch_heartbeat accepted waiting bound, ih onward less]
        simp [Heard, Numbered, IsData, IsEnd]
      | @data _ _ ms _ few framed fits bound onward =>
        by_cases empty : ms = []
        · subst empty
          rw [watch_empty accepted waiting bound, ih onward (by omega)]
          simp [Heard, Numbered, IsData, IsEnd]
        · have failed := receive_data expectedEosCount accepted waiting.inside
            waiting.passed empty few framed fits bound
          rw [expected, Option.getD_some, ofNat_ne less bound] at failed
          have wrong : (c.receive cfg.session expectedEosCount
            ((Datagram.packet (.data (dataPacket cfg.session n ms))).bytes.take cfg.MTU)).passed =
            false := congrArg Client.passed failed
          simp [watch_cons, watch_failed wrong, Heard, Numbered, IsData, IsEnd, empty]
      | @endOfSession _ _ _ bound onward =>
        have failed := receive_end expectedEosCount accepted waiting.inside
          waiting.passed bound
        simp only [expected, ofNat_ne less bound] at failed
        have wrong : (c.receive cfg.session expectedEosCount
          ((Datagram.packet (.endOfSession (eosPacket cfg.session n))).bytes.take cfg.MTU)).passed =
          false := congrArg Client.passed failed
        simp [watch_cons, watch_failed wrong, Heard, Numbered, IsData, IsEnd]

theorem steady_cons {d : Datagram × Bool} :
    Steady (d :: rest) ↔ (Lost d → ∀ d' ∈ rest, ¬ Heard Numbered d') ∧ Steady rest := by
  rw [Steady, List.pairwise_cons]
  exact and_congr ⟨fun h lost d' member => h d' member lost, fun h d' member lost => h lost d' member⟩
    Iff.rfl

theorem unheard_steady (unheard : ∀ d ∈ seen, ¬ Heard Numbered d) :
    Steady seen ∧ endOfSessions (received seen) = [] := by
  refine ⟨List.pairwise_of_forall_mem_list fun d _ d' member _ => unheard d' member, ?_⟩
  induction seen with
  | nil => rfl
  | cons d rest ih =>
    have others := ih fun d' member => unheard d' (List.mem_cons_of_mem _ member)
    have first := unheard d List.mem_cons_self
    obtain ⟨d, heard⟩ := d
    cases heard with
    | false => exact others
    | true =>
      cases d with
      | endOfSession p => exact absurd ⟨rfl, Or.inr trivial⟩ first
      | _ => exact others

theorem no_data_behind {d : Datagram × Bool} (ends : IsEnd d.1)
    (final : (d :: rest).Pairwise fun d d' => IsEnd d.1 → IsEnd d'.1) :
    ∀ d' ∈ rest, ¬ IsData d'.1 := by
  rintro ⟨d', heard⟩ member data
  have last : IsEnd d' := (List.pairwise_cons.mp final).1 _ member ends
  cases d' <;> first | exact last | exact data

theorem watch_known_iff (accepted : cfg.Accepted)
    (continues : Continues cfg n (seen.map Prod.fst) m)
    (final : seen.Pairwise fun d d' => IsEnd d.1 → IsEnd d'.1) (waiting : Waiting c expectedEosCount)
    (expected : c.nextExpectedSeq = some (UInt64.ofNat n)) :
    ((c.watch cfg expectedEosCount (received seen)).timeOut expectedEosCount).passed = true ↔
      Steady seen ∧ expectedEosCount ≤ c.eosCount + (endOfSessions (received seen)).length := by
  induction seen generalizing n c with
  | nil => simpa [received, Client.watch, Steady, endOfSessions] using timeOut_passes waiting
  | cons d rest ih =>
    have others := (List.pairwise_cons.mp final).2
    obtain ⟨d, heard⟩ := d
    rw [steady_cons]
    cases heard with
    | false =>
      rw [received_lost]
      cases continues with
      | heartbeat _ onward => rw [ih onward others waiting expected]; simp [Lost, IsData]
      | endOfSession _ onward => rw [ih onward others waiting expected]; simp [Lost, IsData]
      | @data _ _ ms _ _ _ _ _ onward =>
        by_cases empty : ms = []
        · subst empty
          rw [ih onward others waiting expected]
          simp [Lost, IsData]
        · have more := List.length_pos_iff.mpr empty
          rw [watch_gap_iff accepted onward waiting (by omega) expected]
          have lost : Lost (.data (dataPacket cfg.session n ms), false) := ⟨rfl, empty⟩
          constructor
          · rintro ⟨unheard, enough⟩
            exact ⟨⟨fun _ => unheard, (unheard_steady unheard).1⟩, Nat.le_add_right_of_le enough⟩
          · rintro ⟨⟨unheard, _⟩, enough⟩
            rw [(unheard_steady (unheard lost)).2] at enough
            exact ⟨unheard lost, enough⟩
    | true =>
      have sure (d : Datagram) : ¬ Lost (d, true) := by simp [Lost]
      rw [received_heard]
      cases continues with
      | heartbeat bound onward =>
        rw [watch_heartbeat accepted waiting bound, ih onward others waiting expected]
        simp [sure]
      | @data _ _ ms _ few framed fits bound onward =>
        by_cases empty : ms = []
        · subst empty
          rw [watch_empty accepted waiting bound, ih onward others waiting expected]
          simp [sure]
        · have next : c.nextExpectedSeq.getD (UInt64.ofNat n) = UInt64.ofNat n := by simp [expected]
          rw [watch_data accepted waiting empty few framed fits bound next, ih (c := { c with
            passed := true, nextExpectedSeq := some (UInt64.ofNat (n + ms.length)) }) onward others
            ⟨waiting.inside, rfl, waiting.awaited⟩ rfl]
          simp [sure]
      | @endOfSession _ _ _ bound onward =>
        have ended := receive_end expectedEosCount accepted waiting.inside
          waiting.passed bound
        simp only [expected, beq_self_eq_true] at ended
        change (Client.watch _ _ (c.receive cfg.session expectedEosCount
          ((eosPacket cfg.session n).bytes.take cfg.MTU)) _ |>.timeOut _).passed = true ↔ _
        have steady : Steady rest := List.pairwise_of_forall_mem_list fun d member _ _ lost =>
          absurd lost.2 (no_data_behind (d := (.endOfSession _, true)) trivial final d member)
        rw [ended]
        by_cases enough : expectedEosCount ≤ c.eosCount + 1
        · have total : expectedEosCount ≤
              c.eosCount + ((endOfSessions (received rest)).length + 1) := by omega
          rw [watch_left (by simp [enough]), Client.timeOut, if_pos (by simp [enough])]
          simpa [sure, steady] using total
        · rw [ih (c := ⟨some (UInt64.ofNat n), c.eosCount + 1,
            decide (expectedEosCount ≤ c.eosCount + 1), true⟩) onward others
            ⟨by simp [enough], rfl, Or.inr (Nat.not_le.mp enough)⟩ rfl]
          simp [sure, Nat.add_right_comm, Nat.add_assoc]

theorem steady_suffix (steady : Steady seen) {d : Datagram × Bool}
    (suffix : d :: rest <:+ seen) : Steady rest :=
  (steady.sublist suffix.sublist).of_cons

theorem suffixes_cons {d : Datagram × Bool} {P : List (Datagram × Bool) → Prop} :
    (∀ e later, e :: later <:+ d :: rest → Heard IsData e → P later) ↔
      (Heard IsData d → P rest) ∧ ∀ e later, e :: later <:+ rest → Heard IsData e → P later := by
  constructor
  · intro all
    exact ⟨all d rest List.suffix_rfl, fun e later suffix =>
      all e later (suffix.trans (List.suffix_cons d rest))⟩
  · rintro ⟨first, others⟩ e later suffix data
    rcases List.suffix_cons_iff.mp suffix with same | inside
    · obtain ⟨rfl, rfl⟩ := List.cons.inj same
      exact first data
    · exact others e later inside data

theorem watch_unknown_iff (accepted : cfg.Accepted)
    (continues : Continues cfg n (seen.map Prod.fst) m)
    (final : seen.Pairwise fun d d' => IsEnd d.1 → IsEnd d'.1)
    (waiting : Waiting c expectedEosCount) (unknown : c.nextExpectedSeq = none) :
    ((c.watch cfg expectedEosCount (received seen)).timeOut expectedEosCount).passed = true ↔
      ((∃ d ∈ seen, Heard IsEnd d) → ∃ d ∈ seen, Heard IsData d) ∧
        (∀ d rest, d :: rest <:+ seen → Heard IsData d → Steady rest) ∧
        expectedEosCount ≤ c.eosCount + (endOfSessions (received seen)).length := by
  induction seen generalizing n with
  | nil => simpa [received, Client.watch, endOfSessions] using timeOut_passes waiting
  | cons d rest ih =>
    have others := (List.pairwise_cons.mp final).2
    obtain ⟨d, heard⟩ := d
    rw [suffixes_cons]
    simp only [List.exists_mem_cons_iff]
    cases heard with
    | false =>
      have unheard (P : Datagram → Prop) : ¬ Heard P (d, false) := by simp [Heard]
      rw [received_lost]
      cases continues with
      | heartbeat _ onward => rw [ih onward others]; simp [unheard]
      | endOfSession _ onward => rw [ih onward others]; simp [unheard]
      | data _ _ _ _ onward => rw [ih onward others]; simp [unheard]
    | true =>
      rw [received_heard]
      cases continues with
      | heartbeat bound onward =>
        rw [watch_heartbeat accepted waiting bound, ih onward others]
        simp [Heard, IsData, IsEnd]
      | @data _ _ ms _ few framed fits bound onward =>
        by_cases empty : ms = []
        · subst empty
          rw [watch_empty accepted waiting bound, ih onward others]
          simp [Heard, IsData, IsEnd]
        · have next : c.nextExpectedSeq.getD (UInt64.ofNat n) = UInt64.ofNat n := by simp [unknown]
          rw [watch_data accepted waiting empty few framed fits bound next, watch_known_iff (c := { c with
            passed := true, nextExpectedSeq := some (UInt64.ofNat (n + ms.length)) }) accepted onward
            others ⟨waiting.inside, rfl, waiting.awaited⟩ rfl]
          have data : Heard IsData (.data (dataPacket cfg.session n ms), true) := ⟨rfl, empty⟩
          constructor
          · rintro ⟨steady, enough⟩
            exact ⟨fun _ => Or.inl data, ⟨fun _ => steady, fun _ _ suffix _ =>
              steady_suffix steady suffix⟩, enough⟩
          · rintro ⟨_, ⟨steady, _⟩, enough⟩
            exact ⟨steady data, enough⟩
      | @endOfSession _ _ _ bound onward =>
        have ended := receive_end expectedEosCount accepted waiting.inside
          waiting.passed bound
        simp only [unknown] at ended
        have wrong : (c.receive cfg.session expectedEosCount
          ((Datagram.packet (.endOfSession (eosPacket cfg.session n))).bytes.take cfg.MTU)).passed =
          false := congrArg Client.passed ended
        have none_ := no_data_behind (d := (.endOfSession _, true)) trivial final
        simp only [watch_cons, watch_failed wrong, Bool.false_eq_true, false_iff]
        rintro ⟨announced, -⟩
        rcases announced (Or.inl ⟨rfl, trivial⟩) with first | ⟨d, member, later⟩
        · exact first.2
        · exact none_ d member later.2

def nextNumber (t : Thread) : Nat := messagesSent t.feed.log + 1

variable {t t' : Thread} {ds : List Datagram}

theorem nextNumber_small (follows : Follows S t) : nextNumber t < 2 ^ 64 := by
  have total := sent_le_entries (ledger S t.feed.log)
  have small := numbers_small follows.tracks
  rw [nextNumber, rendered_total follows.tracks]
  omega

theorem emits_continues (mtu : S.config.MTU ≤ 65507) (follows : Follows S t)
    (follows' : Follows S t') (announced : Announced S t') (emits : Emits S t t' ds) :
    Continues S.config (nextNumber t) ds (nextNumber t') := by
  cases emits with
  | quiet move open_ sent ends =>
    have same : nextNumber t' = nextNumber t := by rw [nextNumber, nextNumber, messagesSent, sent]; rfl
    rw [same]
    exact .nil
  | data f =>
    have tracks : Tracks S f (ledger S f.log) := follows.tracks
    obtain ⟨packet, holds, _⟩ := follows.phase
    change f.packetBuilder.packet = dataPacket S.config.session ((ledger S f.log).sent.length + 1)
      (messages (ledger S f.log).current) at packet
    have fits : (messages (ledger S f.log).current).flatten.length ≤ S.config.capacity :=
      holds_within_capacity holds
    have framed := messages_framed fun e (inside : e ∈ (ledger S f.log).current) =>
      tracks.reads e (List.mem_append_right _ inside)
    have count := frames_count framed
    have few : (messages (ledger S f.log).current).length ≤ 65534 := by
      simp only [Config.capacity] at fits
      omega
    have number : nextNumber ⟨f, .sending⟩ = (ledger S f.log).sent.length + 1 :=
      congrArg (· + 1) (rendered_total tracks)
    have onward : nextNumber ⟨f.transmit, .replaying⟩ =
        nextNumber ⟨f, .sending⟩ + f.packetBuilder.packet.messages.length := by
      simp only [nextNumber, messagesSent, sentPackets, Feed.transmit, Feed.emit,
        List.filterMap_append, List.map_append, List.sum_append]
      simp [Nat.add_right_comm]
    have bound := nextNumber_small follows
    rw [onward, packet, dataPacket_messages, ← number]
    exact .data few framed fits bound .nil
  | endOfSession f =>
    have number : nextNumber ⟨f, .ending⟩ = f.sequenceNumber.toNat := by
      rw [ended_complete follows rfl, nextNumber, rendered_total follows.tracks]
    have same : f.endOfSessionPacket = eosPacket S.config.session f.sequenceNumber.toNat :=
      (announced f.endOfSessionPacket (by simp [endOfSessionPackets, Feed.emit])).2
    have quiet : nextNumber ⟨f.emit (.endOfSession f.endOfSessionPacket), .ending⟩ =
        nextNumber ⟨f, .ending⟩ := by
      simp [nextNumber, messagesSent, sentPackets, Feed.emit]
    rw [quiet, same, ← number]
    exact .endOfSession (nextNumber_small follows) .nil

theorem change_continues {w w' : MoldHeartbeat.World} (mtu : S.config.MTU ≤ 65507)
    (together : Together S w) (together' : Together S w') (change : Change S w w')
    (h : Continues S.config 1 w.wire (nextNumber w.thread)) :
    Continues S.config 1 w'.wire (nextNumber w'.thread) := by
  cases change with
  | still => exact h
  | downstream inputs joined emits =>
    exact continues_append h
      (emits_continues mtu together.follows together'.follows together'.announced emits)
  | turn running started idle => exact h
  | load running => exact h
  | @send seq place =>
    have packet := (send_stamped (accepted S).session together.stamped seq).2
    rw [packet]
    exact continues_append h (.heartbeat seq.toNat_lt .nil)

theorem run_continues (mtu : S.config.MTU ≤ 65507) (beats : List MoldHeartbeat.Action) :
    Continues S.config 1 (run (MoldHeartbeat.step S) (MoldHeartbeat.initial S) beats).wire
      (nextNumber (run (MoldHeartbeat.step S) (MoldHeartbeat.initial S) beats).thread) := by
  refine (run_always (I := fun w => Together S w ∧
    Continues S.config 1 w.wire (nextNumber w.thread)) ?_ beats
    ⟨initial_together S, .nil⟩).2
  rintro w a ⟨together, h⟩
  have change := step_changes S w a
  have together' := change_together together change
  exact ⟨together', change_continues mtu together together' change h⟩

/-- Whenever the client starts to listen, wherever the server is when it stops, and whatever is
    lost: the checks pass exactly if the client has heard a message before any end of session
    packet, if no data packet is lost between the first one it hears and a later one or an end
    of session packet, and if it hears as many of these as it waits for. -/
theorem test_client_passes_iff {k : Nat} (S : Setup) (mtu : S.config.MTU ≤ 65507)
    (actions : List (MoldServerRuns.Action k)) (before : List Datagram)
    (seen : List (Datagram × Bool))
    (wire : (run (MoldServerRuns.step S) (MoldServerRuns.initial S k) actions).heart.wire =
      before ++ seen.map Prod.fst) (expectedEosCount : Nat) :
    ((fresh.watch S.config expectedEosCount (received seen)).timeOut expectedEosCount).passed =
        true ↔
      ((∃ d ∈ seen, Heard IsEnd d) → ∃ d ∈ seen, Heard IsData d) ∧
        (∀ d rest, d :: rest <:+ seen → Heard IsData d → Steady rest) ∧
        expectedEosCount ≤ (endOfSessions (received seen)).length := by
  obtain ⟨beats, same⟩ := MoldServerRuns.run_heart S actions
  rw [same] at wire
  have continues := run_continues mtu beats
  have final := (run_together S beats).final
  rw [wire] at continues final
  obtain ⟨n, onward⟩ := continues_suffix continues
  have waiting : Waiting fresh expectedEosCount := ⟨rfl, rfl, Or.inl rfl⟩
  rw [watch_unknown_iff (accepted S) onward (List.pairwise_map.mp (List.pairwise_append.mp final).2.1)
    waiting rfl]
  simp [fresh]

def alternate : List (MoldServerRuns.Action 1) :=
  .call .start :: (List.replicate 16 [.downstream false, .heartbeat]).flatten

def exceptHeartbeats : Datagram → Datagram × Bool
  | .heartbeat p => (.heartbeat p, false)
  | d => (d, true)

theorem exceptHeartbeats_sure (d : Datagram) : ¬ Lost (exceptHeartbeats d) := by
  cases d <;> simp [exceptHeartbeats, Lost, IsData]

theorem one_message_passes : ∃ S,
    Setup.make ⟨frame (List.replicate 12 1), fun _ => 0, by decide⟩ ⟨0⟩
      { session := List.replicate 10 0x20 } 4 = .ok S ∧
    ((fresh.watch S.config 2 (received
      ((run (MoldServerRuns.step S) (MoldServerRuns.initial S 1) alternate).heart.wire.map
        exceptHeartbeats))).timeOut 2).passed = true := by
  refine ⟨_, rfl, (test_client_passes_iff _ (by decide) alternate [] _ ?_ 2).mpr
    ⟨fun _ => ⟨(.data (dataPacket (List.replicate 10 0x20) 1 [frame (List.replicate 12 1)]), true),
      ?_, rfl, List.cons_ne_nil _ _⟩, ?_, by decide +kernel⟩⟩
  · rw [List.nil_append, List.map_map]
    exact (List.map_id' _).symm.trans
      (List.map_congr_left fun d _ => by cases d <;> rfl)
  · decide +kernel
  · intro d rest suffix _
    refine List.pairwise_of_forall_mem_list fun e member _ _ lost => ?_
    obtain ⟨e, _, rfl⟩ := List.mem_map.mp (suffix.subset (List.mem_cons_of_mem _ member))
    exact absurd lost (exceptHeartbeats_sure e)

end MoldTestClient
