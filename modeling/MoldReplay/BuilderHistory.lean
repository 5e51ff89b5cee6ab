import MoldReplay.PacketBuilder
import MoldReplay.ScheduledRuns
import Mathlib.Data.List.Induction
import Mathlib.Data.List.Basic

/- A PacketBuilder under any sequence of calls, in any order: finalize between adds, adds
   before the first reset, messages of every size. -/
namespace MoldHistory
open FixedBytes MoldWire MoldFraming MoldPacket ScheduledRuns

inductive Operation where
  | reset (seq : SequenceNumber)
  | tryAdd (message : List UInt8)
  | finalize
  deriving DecidableEq, Repr

/-- The builder, what try_add has taken since the last reset, and that reset's number. -/
structure History where
  builder : PacketBuilder
  added : List (List UInt8)
  number : Option SequenceNumber
  deriving DecidableEq, Repr

def History.apply (h : History) : Operation → History
  | .reset seq => ⟨h.builder.reset seq, [], some seq⟩
  | .tryAdd message =>
    match h.builder.tryAdd message with
    | (true, builder) => { h with builder := builder, added := h.added ++ [message] }
    | (false, builder) => { h with builder := builder }
  | .finalize => { h with builder := h.builder.finalize }

def history (b : PacketBuilder) (ops : List Operation) : History :=
  run History.apply ⟨b, [], none⟩ ops

/-- What the constructor has iovecs_ reserve, in 64 bits. -/
def reservedEntries (cfg : Config) : Nat := (1 + cfg.MTU / cfg.minMessageSize) % 2 ^ 64

def Sound (cfg : Config) (h : History) : Prop :=
  ∃ sq, Holds cfg h.builder sq h.added ∧ ∀ seq ∈ h.number, sq = bytesBE 8 seq.toNat

def History.announced (h : History) : Nat := (h.apply .finalize).builder.packet.messageCount

/-- The count is true, and a packet with messages is neither taken for a heartbeat nor for
    the end of session. -/
structure Counted (h : History) : Prop where
  count : h.announced = h.added.length
  unreserved : h.added ≠ [] → h.announced ≠ heartbeatMsgCount.toNat ∧
    h.announced ≠ endOfSessionMsgCount.toNat

def Sized (least : Nat) (ops : List Operation) : Prop :=
  ∀ m, .tryAdd m ∈ ops → m ≠ [] → least ≤ m.length

structure Representation (cfg : Config) (h : History) : Prop where
  account : 20 + h.added.flatten.length + h.builder.bytesRemaining = cfg.MTU
  gathered : h.builder.packet.bytes.length ≤ cfg.MTU
  iovecs : h.builder.iovecs = .header :: h.added.map .message
  adds : ∀ m, (h.builder.tryAdd m).1 = true ↔
    m ≠ [] ∧ 20 + h.added.flatten.length + m.length ≤ cfg.MTU
  refuses : ∀ m, (h.builder.tryAdd m).1 = false → (h.builder.tryAdd m).2 = h.builder
  session : h.builder.session = cfg.session
  number : ∀ seq ∈ h.number, (h.builder.headerBuffer.drop 10).take 8 = bytesBE 8 seq.toNat
  reserved : (∀ m ∈ h.added, cfg.minMessageSize ≤ m.length) →
    h.builder.iovecs.length ≤ reservedEntries cfg

variable {cfg : Config} {b : PacketBuilder} {h : History} {m : List UInt8}

theorem tryAdd_iff {sq : List UInt8} {ms : List (List UInt8)} (holds : Holds cfg b sq ms) :
    (b.tryAdd m).1 = true ↔ m ≠ [] ∧ ms.flatten.length + m.length ≤ cfg.capacity := by
  by_cases nonempty : m = []
  · simp [PacketBuilder.tryAdd, nonempty]
  · by_cases fits : ms.flatten.length + m.length ≤ cfg.capacity
    · obtain ⟨b', added, _⟩ := tryAdd_accepts holds nonempty fits
      rw [added]
      exact ⟨fun _ => ⟨nonempty, fits⟩, fun _ => rfl⟩
    · rw [tryAdd_rejects holds (Nat.not_le.mp fits)]
      exact ⟨fun taken => absurd taken Bool.false_ne_true, fun joined => absurd joined.2 fits⟩

theorem initial_sound (built : construct cfg = .ok b) : Sound cfg ⟨b, [], none⟩ :=
  ⟨_, (construct_accepts built).2, by simp⟩

theorem apply_sound (h : History) (op : Operation) (sound : Sound cfg h) :
    Sound cfg (h.apply op) := by
  obtain ⟨sq, holds, numbered⟩ := sound
  cases op with
  | reset seq => exact ⟨_, reset_holds holds seq, by simp [History.apply]⟩
  | finalize => exact ⟨sq, finalize_holds holds, numbered⟩
  | tryAdd message =>
    simp only [History.apply]
    rcases result : h.builder.tryAdd message with ⟨_ | _, builder⟩
    · cases tryAdd_refused result
      exact ⟨sq, holds, numbered⟩
    · obtain ⟨nonempty, fits⟩ := (tryAdd_iff holds).mp (congrArg Prod.fst result)
      obtain ⟨_, added, more⟩ := tryAdd_accepts holds nonempty fits
      cases result.symm.trans added
      exact ⟨sq, more, numbered⟩

theorem history_sound (built : construct cfg = .ok b) (ops : List Operation) :
    Sound cfg (history b ops) :=
  run_always apply_sound ops (initial_sound built)

theorem history_append (b : PacketBuilder) (first second : List Operation) :
    history b (first ++ second) = run History.apply (history b first) second := run_append _ _ _

theorem adds_all {ms : List (List UInt8)} {sq : List UInt8} (holds : Holds cfg h.builder sq h.added)
    (nonempty : ∀ m ∈ ms, m ≠ [])
    (fits : h.added.flatten.length + ms.flatten.length ≤ cfg.capacity) :
    Holds cfg (run History.apply h (ms.map .tryAdd)).builder sq (h.added ++ ms) := by
  induction ms generalizing h with
  | nil => simpa [run] using holds
  | cons m rest ih =>
    rw [List.flatten_cons, List.length_append] at fits
    obtain ⟨builder, added, more⟩ :=
      tryAdd_accepts holds (nonempty m List.mem_cons_self) (by omega)
    have step : h.apply (.tryAdd m) = { h with builder := builder, added := h.added ++ [m] } := by
      simp only [History.apply, added]
    change Holds cfg (run History.apply (h.apply (.tryAdd m)) (rest.map .tryAdd)).builder sq _
    rw [step]
    have others := ih (h := { h with builder := builder, added := h.added ++ [m] }) more
      (fun m' member => nonempty m' (List.mem_cons_of_mem _ member)) (by
        simp only [List.flatten_append, List.length_append, List.flatten_cons, List.flatten_nil,
          List.append_nil]
        omega)
    simpa using others

theorem history_packet (built : construct cfg = .ok b) (ops : List Operation)
    (seq : SequenceNumber) {ms : List (List UInt8)} (nonempty : ∀ m ∈ ms, m ≠ [])
    (fits : ms.flatten.length ≤ cfg.capacity) :
    (history b (ops ++ .reset seq :: (ms.map .tryAdd ++ [.finalize]))).builder.packet =
      dataPacket cfg.session seq.toNat ms := by
  obtain ⟨_, holds, _⟩ := history_sound built ops
  have started := reset_holds holds seq
  have filled := adds_all (h := (history b ops).apply (.reset seq)) started nonempty
    (by simpa [History.apply] using fits)
  rw [history_append]
  change (run History.apply ((history b ops).apply (.reset seq))
    (ms.map .tryAdd ++ [.finalize])).builder.packet = _
  rw [run_snoc]
  exact finalize_packet filled

theorem header_size {sq : List UInt8} {ms : List (List UInt8)} (holds : Holds cfg b sq ms) :
    b.headerBuffer.length = 20 := by
  obtain ⟨count, two, header⟩ := holds.header
  simp [header, holds.accepted.session, holds.sequenceBytes, two]

theorem gathered_bytes {sq : List UInt8} {ms : List (List UInt8)} (holds : Holds cfg b sq ms) :
    b.packet.bytes = b.headerBuffer ++ ms.flatten := by
  have data : (ms.map Iovec.message).map (Iovec.data b.headerBuffer) = ms := by
    rw [List.map_map]
    exact List.map_id'' (fun _ => rfl) ms
  simp only [PacketBuilder.packet, Packet.bytes, holds.iovecs, List.map_cons, data,
    List.flatten_cons, Iovec.data]

theorem gathered_size {sq : List UInt8} {ms : List (List UInt8)} (holds : Holds cfg b sq ms) :
    b.packet.bytes.length = 20 + ms.flatten.length := by
  rw [gathered_bytes holds, List.length_append, header_size holds]

theorem number_field {sq : List UInt8} {ms : List (List UInt8)} (holds : Holds cfg b sq ms) :
    (b.headerBuffer.drop 10).take 8 = sq := by
  obtain ⟨count, _, header⟩ := holds.header
  have field := read_field cfg.session sq count
  rwa [holds.accepted.session, holds.sequenceBytes, ← header] at field

theorem reserved_suffices {sq : List UInt8} {ms : List (List UInt8)} (holds : Holds cfg b sq ms)
    (whole : 1 + cfg.MTU / cfg.minMessageSize < 2 ^ 64)
    (sized : ∀ m ∈ ms, cfg.minMessageSize ≤ m.length) :
    b.iovecs.length ≤ reservedEntries cfg := by
  have total := least_total sized
  have room := holds_within_capacity holds
  have count : ms.length ≤ cfg.MTU / cfg.minMessageSize := by
    rw [Nat.le_div_iff_mul_le holds.accepted.minimum, Nat.mul_comm]
    simp only [Config.capacity] at room
    omega
  rw [reservedEntries, Nat.mod_eq_of_lt whole, holds.iovecs, List.length_cons, List.length_map]
  omega

theorem sound_representation (sound : Sound cfg h)
    (whole : 1 + cfg.MTU / cfg.minMessageSize < 2 ^ 64) : Representation cfg h := by
  obtain ⟨sq, holds, numbered⟩ := sound
  have mtu := holds.accepted.mtu
  have room := holds.room
  have within := holds_within_capacity holds
  simp only [Config.capacity] at room within
  refine {
    account := by omega
    gathered := ?gathered
    iovecs := holds.iovecs
    adds := ?adds
    refuses := fun m refused => tryAdd_refused (Prod.ext refused rfl)
    session := session_configured holds
    number := ?number
    reserved := reserved_suffices holds whole }
  case gathered =>
    rw [gathered_size holds]
    omega
  case adds =>
    intro m
    rw [tryAdd_iff holds, Config.capacity]
    exact and_congr_right fun _ => by omega
  case number =>
    intro seq last
    rw [number_field holds, numbered seq last]

theorem reserves_iff (size : cfg.MTU < 2 ^ 64) :
    1 ≤ reservedEntries cfg ↔ 1 + cfg.MTU / cfg.minMessageSize < 2 ^ 64 := by
  have quotient := Nat.div_le_self cfg.MTU cfg.minMessageSize
  unfold reservedEntries
  generalize cfg.MTU / cfg.minMessageSize = entries at *
  omega

/-- The representation invariant holds under every sequence of calls, unless the sum that
    the constructor reserves by wraps around. -/
theorem representation_kept_iff (cfg : Config) (b : PacketBuilder) (built : construct cfg = .ok b)
    (size : cfg.MTU < 2 ^ 64) :
    (∀ ops, Representation cfg (history b ops)) ↔
      1 + cfg.MTU / cfg.minMessageSize < 2 ^ 64 := by
  constructor
  · intro kept
    have reserved := (kept []).reserved (by simp [history, run])
    rw [(kept []).iovecs] at reserved
    exact (reserves_iff size).mp (Nat.le_trans (Nat.le_add_left 1 _) reserved)
  · intro whole ops
    exact sound_representation (history_sound built ops) whole

theorem default_representation_kept : ∃ b,
    construct { session := List.replicate 10 0x20 } = .ok b ∧
    ∀ ops, Representation { session := List.replicate 10 0x20 } (history b ops) :=
  ⟨_, rfl, (representation_kept_iff { session := List.replicate 10 0x20 } _ rfl
    (by decide)).mpr (by decide)⟩

/-- 1 + (2^64 - 1) / 1 is 0 in 64 bits: nothing is reserved, and the header alone is more. -/
theorem largest_mtu_reserves_nothing : ∃ b,
    construct { session := List.replicate 10 0x20, MTU := 2 ^ 64 - 1, minMessageSize := 1 } =
      .ok b ∧
    ¬ ∀ ops, Representation
      { session := List.replicate 10 0x20, MTU := 2 ^ 64 - 1, minMessageSize := 1 }
      (history b ops) := by
  refine ⟨_, rfl, fun kept => ?_⟩
  exact absurd ((kept []).reserved (by decide)) (by decide)

theorem announced_eq (sound : Sound cfg h) : h.announced = h.added.length % 65536 := by
  obtain ⟨sq, holds, _⟩ := sound
  have finalized := gathered_bytes (finalize_holds holds)
  have number := bytesBE_natBE sq
  rw [holds.sequenceBytes] at number
  have bound := natBE_lt sq
  rw [holds.sequenceBytes] at bound
  rw [finalize_header holds, ← number] at finalized
  exact header_messageCount finalized holds.accepted.session (Nat.mod_lt _ (by decide))

theorem counted_iff (sound : Sound cfg h) : Counted h ↔ h.added.length ≤ 65534 := by
  have announced := announced_eq sound
  have reserved : endOfSessionMsgCount.toNat = 65535 := rfl
  have idle : heartbeatMsgCount.toNat = 0 := rfl
  constructor
  · rintro ⟨count, unreserved⟩
    by_contra many
    have nonempty : h.added ≠ [] := by
      intro empty
      simp [empty] at many
    have ends := (unreserved nonempty).2
    omega
  · intro few
    have exactly : h.announced = h.added.length := by omega
    refine ⟨exactly, fun nonempty => ?_⟩
    have some := List.length_pos_iff.mpr nonempty
    omega

theorem apply_sized {least : Nat} {op : Operation} (sized : ∀ m ∈ h.added, least ≤ m.length)
    (tried : ∀ m, op = .tryAdd m → m ≠ [] → least ≤ m.length) :
    ∀ m ∈ (h.apply op).added, least ≤ m.length := by
  cases op with
  | reset seq => simp [History.apply]
  | finalize => exact sized
  | tryAdd message =>
    simp only [History.apply]
    rcases result : h.builder.tryAdd message with ⟨_ | _, builder⟩
    · exact sized
    · have nonempty : message ≠ [] := by
        rintro rfl
        simp [PacketBuilder.tryAdd] at result
      intro m member
      rcases List.mem_append.mp member with old | new
      · exact sized m old
      · rw [List.mem_singleton.mp new]
        exact tried message rfl nonempty

theorem history_sized {least : Nat} {ops : List Operation} (b : PacketBuilder)
    (sized : Sized least ops) : ∀ m ∈ (history b ops).added, least ≤ m.length := by
  induction ops using List.reverseRecOn with
  | nil => simp [history, run]
  | append_singleton ops op ih =>
    have earlier := ih fun m member => sized m (List.mem_append_left _ member)
    unfold history
    rw [run_snoc]
    refine apply_sized earlier fun m tried => sized m ?_
    rw [tried]
    simp

theorem repeated_added (built : construct cfg = .ok b) {m : List UInt8} (nonempty : m ≠ [])
    {count : Nat} (fits : count * m.length ≤ cfg.capacity) :
    (history b (List.replicate count (.tryAdd m))).added = List.replicate count m := by
  have total : (List.replicate count m).flatten.length = count * m.length := by simp
  have inhabited : ∀ m' ∈ List.replicate count m, m' ≠ [] :=
    fun m' member => (List.eq_of_mem_replicate member).symm ▸ nonempty
  have filled := adds_all (h := ⟨b, [], none⟩) (construct_accepts built).2 inhabited
    (by rw [total]; simpa using fits)
  obtain ⟨_, holds, _⟩ := history_sound built (List.replicate count (.tryAdd m))
  rw [List.map_replicate] at filled
  have same := holds.iovecs.symm.trans filled.iovecs
  exact List.map_injective_iff.mpr (fun _ _ equal => Iovec.message.inj equal)
    (List.cons.inj same).2

theorem counted_sized_iff (built : construct cfg = .ok b) {least : Nat} (positive : 0 < least) :
    (∀ ops, Sized least ops → Counted (history b ops)) ↔ cfg.capacity / least ≤ 65534 := by
  constructor
  · intro counted
    by_contra many
    have room : 65535 * least ≤ cfg.capacity :=
      (Nat.le_div_iff_mul_le positive).mp (Nat.not_le.mp many)
    have smallest : (List.replicate least (0 : UInt8)) ≠ [] := by
      rw [Ne, List.replicate_eq_nil_iff]
      omega
    have fits : 65535 * (List.replicate least (0 : UInt8)).length ≤ cfg.capacity := by
      rwa [List.length_replicate]
    have added := repeated_added built smallest fits
    have told := (counted_iff (history_sound built _)).mp (counted
      (List.replicate 65535 (.tryAdd (List.replicate least 0))) ?_)
    · rw [added, List.length_replicate] at told
      omega
    · intro m member _
      have same := List.eq_of_mem_replicate member
      cases same
      exact Nat.le_of_eq List.length_replicate.symm
  · intro few ops sized
    obtain ⟨sq, holds, _⟩ := history_sound built ops
    rw [counted_iff (history_sound built ops)]
    have total := least_total (history_sized b sized)
    have within := holds_within_capacity holds
    have count : (history b ops).added.length ≤ cfg.capacity / least := by
      rw [Nat.le_div_iff_mul_le positive, Nat.mul_comm]
      omega
    omega

/-- Which configurations never write a wrong or a reserved count: those with room for at
    most 65534 messages of one byte, or of min_message_size where that is asserted. -/
theorem counts_true_iff (cfg : Config) (b : PacketBuilder) (built : construct cfg = .ok b) :
    ((∀ ops, Counted (history b ops)) ↔ cfg.MTU ≤ 65554) ∧
    ((∀ ops, Sized cfg.minMessageSize ops → Counted (history b ops)) ↔
      (cfg.MTU - 20) / cfg.minMessageSize ≤ 65534) := by
  refine ⟨?_, counted_sized_iff built (construct_accepts built).1.minimum⟩
  have bytes := counted_sized_iff built Nat.one_pos
  rw [Nat.div_one, Config.capacity] at bytes
  have mtu := (construct_accepts built).1.mtu
  constructor
  · intro counted
    have fits := bytes.mp fun ops _ => counted ops
    omega
  · intro small ops
    exact bytes.mpr (by omega) ops fun m _ nonempty => List.length_pos_iff.mpr nonempty

theorem default_counts_true : ∃ b,
    construct { session := List.replicate 10 0x20 } = .ok b ∧ ∀ ops, Counted (history b ops) :=
  ⟨_, rfl, (counts_true_iff { session := List.replicate 10 0x20 } _ rfl).1.mpr (by decide)⟩

/-- One byte more, and a packet of 65535 messages says that the session has ended. -/
theorem full_packet_ends_session : ∃ b,
    construct { session := List.replicate 10 0x20, MTU := 65555 } = .ok b ∧
    ¬ Counted (history b (List.replicate 65535 (.tryAdd [7]))) := by
  refine ⟨_, rfl, fun counted => ?_⟩
  have built : construct { session := List.replicate 10 0x20, MTU := 65555 } = .ok _ := rfl
  have told := (counted_iff (history_sound built _)).mp counted
  rw [repeated_added built (by decide) (by decide), List.length_replicate] at told
  exact absurd told (by decide)

end MoldHistory
