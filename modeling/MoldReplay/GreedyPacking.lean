import Mathlib.Data.List.Induction
import Mathlib.Data.List.Nodup

/- Items offered one after another to packets of a fixed capacity. An item joins the
   open packet if it fits. If it does not, or if none is open, the open packet is
   closed, and the item is dropped if it is not wanted or opens the next packet. -/
namespace GreedyPacking
universe u v
variable {α : Type u} {κ : Type v}

structure Rule (α : Type u) where
  size : α → Nat
  capacity : Nat
  unwanted : α → Bool

structure Packing (α : Type u) where
  closed : List (List α)
  current : List α
  dropped : List α

def Packing.items (w : Packing α) : List α := w.closed.flatten ++ w.current

def Packing.packets (w : Packing α) : List (List α) :=
  if w.current.isEmpty then w.closed else w.closed ++ [w.current]

def Rule.total (R : Rule α) : List α → Nat
  | [] => 0
  | a :: rest => R.size a + R.total rest

def Rule.joins (R : Rule α) (w : Packing α) (a : α) : Bool :=
  !w.current.isEmpty && decide (R.total w.current + R.size a ≤ R.capacity)

def Rule.offer (R : Rule α) (w : Packing α) (a : α) : Packing α :=
  if R.joins w a then { w with current := w.current ++ [a] }
  else if R.unwanted a then ⟨w.packets, [], w.dropped ++ [a]⟩
  else ⟨w.packets, [a], w.dropped⟩

def Rule.pack (R : Rule α) (as : List α) : Packing α := as.foldl R.offer ⟨[], [], []⟩

def Rule.filled (R : Rule α) (as : List α) : Nat :=
  as.foldl (fun used a => if used + R.size a ≤ R.capacity then used + R.size a else R.size a) 0

def Packing.map {β : Type v} (w : Packing α) (g : α → β) : Packing β :=
  ⟨w.closed.map (List.map g), w.current.map g, w.dropped.map g⟩

def Rule.comap {β : Type v} (R : Rule β) (g : α → β) : Rule α where
  size a := R.size (g a)
  capacity := R.capacity
  unwanted a := R.unwanted (g a)

variable {R : Rule α} {w : Packing α} {a : α}

theorem packets_flatten (w : Packing α) : w.packets.flatten = w.items := by
  simp only [Packing.packets, Packing.items]
  split
  · rename_i empty
    rw [List.isEmpty_iff.mp empty, List.append_nil]
  · simp

theorem packets_closed (empty : w.current = []) : w.packets = w.closed := by
  simp [Packing.packets, empty]

theorem packets_open (some : w.current ≠ []) : w.packets = w.closed ++ [w.current] := by
  simp [Packing.packets, some]

theorem pack_snoc (R : Rule α) (as : List α) (a : α) :
    R.pack (as ++ [a]) = R.offer (R.pack as) a := by
  simp [Rule.pack]

theorem joins_iff : R.joins w a = true ↔
    w.current ≠ [] ∧ R.total w.current + R.size a ≤ R.capacity := by
  simp [Rule.joins]

theorem offer_joins (some : w.current ≠ []) (fits : R.total w.current + R.size a ≤ R.capacity) :
    R.offer w a = { w with current := w.current ++ [a] } := by
  unfold Rule.offer
  rw [if_pos (joins_iff.mpr ⟨some, fits⟩)]

theorem offer_drops (apart : ¬ R.joins w a = true) (unwanted : R.unwanted a = true) :
    R.offer w a = ⟨w.packets, [], w.dropped ++ [a]⟩ := by
  unfold Rule.offer
  rw [if_neg apart, if_pos unwanted]

theorem offer_opens (apart : ¬ R.joins w a = true) (wanted : R.unwanted a = false) :
    R.offer w a = ⟨w.packets, [a], w.dropped⟩ := by
  unfold Rule.offer
  rw [if_neg apart, if_neg (by simp [wanted])]

theorem offer_splits (R : Rule α) (w : Packing α) (a : α) :
    ((R.offer w a).items = w.items ++ [a] ∧ (R.offer w a).dropped = w.dropped) ∨
    ((R.offer w a).items = w.items ∧ (R.offer w a).dropped = w.dropped ++ [a] ∧
      R.unwanted a = true) := by
  by_cases joined : R.joins w a = true
  · have joins := joins_iff.mp joined
    rw [offer_joins joins.1 joins.2]
    exact Or.inl ⟨by simp [Packing.items], rfl⟩
  · cases wanted : R.unwanted a with
    | true =>
      rw [offer_drops joined wanted]
      refine Or.inr ⟨?_, rfl, rfl⟩
      simpa [Packing.items] using packets_flatten w
    | false =>
      rw [offer_opens joined wanted]
      refine Or.inl ⟨?_, rfl⟩
      rw [← packets_flatten w]
      simp [Packing.items]

theorem offer_grows (R : Rule α) (w : Packing α) (a : α) : w.items ⊆ (R.offer w a).items := by
  rcases offer_splits R w a with ⟨items, _⟩ | ⟨items, _⟩
  · rw [items]
    exact List.subset_append_left w.items [a]
  · rw [items]
    exact List.Subset.refl w.items

theorem offer_wanted_iff (R : Rule α) (w : Packing α) (a : α) :
    (∀ b ∈ (R.offer w a).items, R.unwanted b = false) ↔
      (∀ b ∈ w.items, R.unwanted b = false) ∧
        (R.unwanted a = true → ¬ R.joins w a = true) := by
  constructor
  · intro packed
    refine ⟨fun b member => packed b (offer_grows R w a member), ?_⟩
    intro unwanted joined
    obtain ⟨some, fits⟩ := joins_iff.mp joined
    rw [offer_joins some fits] at packed
    have wanted := packed a (by simp [Packing.items])
    rw [unwanted] at wanted
    cases wanted
  · rintro ⟨packed, apart⟩
    cases wanted : R.unwanted a with
    | false =>
      intro b member
      rcases offer_splits R w a with ⟨items, _⟩ | ⟨items, _⟩
      · rw [items, List.mem_append, List.mem_singleton] at member
        rcases member with old | rfl
        · exact packed b old
        · exact wanted
      · rw [items] at member
        exact packed b member
    | true =>
      rw [offer_drops (apart wanted) wanted]
      intro b member
      rw [Packing.items, List.append_nil, packets_flatten] at member
      exact packed b member

theorem dropped_unwanted (R : Rule α) (as : List α) :
    ∀ a ∈ (R.pack as).dropped, R.unwanted a = true := by
  induction as using List.reverseRecOn with
  | nil => simp [Rule.pack]
  | append_singleton as a ih =>
    rw [pack_snoc]
    intro b member
    rcases offer_splits R (R.pack as) a with ⟨_, dropped⟩ | ⟨_, dropped, unwanted⟩
    · rw [dropped] at member
      exact ih b member
    · rw [dropped, List.mem_append, List.mem_singleton] at member
      rcases member with old | rfl
      · exact ih b old
      · exact unwanted

theorem dropped_sublist (R : Rule α) (as : List α) : (R.pack as).dropped.Sublist as := by
  induction as using List.reverseRecOn with
  | nil => simp [Rule.pack]
  | append_singleton as a ih =>
    rw [pack_snoc]
    rcases offer_splits R (R.pack as) a with ⟨_, dropped⟩ | ⟨_, dropped, _⟩
    · rw [dropped]
      exact ih.trans (List.sublist_append_left as [a])
    · rw [dropped]
      exact ih.append (List.Sublist.refl [a])

theorem packed_items [DecidableEq κ] (R : Rule α) (key : α → κ) {as : List α}
    (nodup : (as.map key).Nodup) :
    (R.pack as).items = as.filter fun a => decide (key a ∉ (R.pack as).dropped.map key) := by
  induction as using List.reverseRecOn with
  | nil => simp [Rule.pack, Packing.items]
  | append_singleton as a ih =>
    rw [List.map_append, List.nodup_append] at nodup
    have fresh : ∀ b ∈ as, key b ≠ key a := by
      intro b member
      exact nodup.2.2 (key b) (List.mem_map_of_mem member) (key a) (by simp)
    have ih := ih nodup.1
    rw [pack_snoc, List.filter_append]
    rcases offer_splits R (R.pack as) a with ⟨items, dropped⟩ | ⟨items, dropped, _⟩
    · have kept : key a ∉ (R.pack as).dropped.map key := by
        intro member
        obtain ⟨b, inside, same⟩ := List.mem_map.mp member
        exact fresh b ((dropped_sublist R as).subset inside) same
      have stays : [a].filter (fun b => decide (key b ∉ (R.pack as).dropped.map key)) = [a] := by
        rw [List.filter_singleton, decide_eq_true kept, cond_true]
      rw [items, dropped, ih, stays]
    · rw [items, dropped, ih]
      have gone : [a].filter
          (fun b => decide (key b ∉ ((R.pack as).dropped ++ [a]).map key)) = [] := by simp
      rw [gone, List.append_nil]
      apply List.filter_congr
      intro b member
      simp [fresh b member]

theorem total_snoc (R : Rule α) (as : List α) (a : α) :
    R.total (as ++ [a]) = R.total as + R.size a := by
  induction as with
  | nil => simp [Rule.total]
  | cons first rest ih => simp only [List.cons_append, Rule.total, ih, Nat.add_assoc]

theorem filled_snoc (R : Rule α) (as : List α) (a : α) :
    R.filled (as ++ [a]) = if R.filled as + R.size a ≤ R.capacity then R.filled as + R.size a
      else R.size a := by
  rw [Rule.filled, List.foldl_append]
  rfl

theorem items_grow (R : Rule α) (as bs : List α) :
    (R.pack as).items ⊆ (R.pack (as ++ bs)).items := by
  induction bs using List.reverseRecOn with
  | nil => simp
  | append_singleton bs b ih =>
    rw [← List.append_assoc, pack_snoc]
    exact List.Subset.trans ih (offer_grows R (R.pack (as ++ bs)) b)

theorem wanted_fill {as run : List α} (closed : (R.pack as).current = [])
    (wanted : ∀ a ∈ run, R.unwanted a = false) :
    R.total (R.pack (as ++ run)).current = R.filled run ∧
      (run ≠ [] → (R.pack (as ++ run)).current ≠ []) := by
  induction run using List.reverseRecOn with
  | nil => simp [closed, Rule.total, Rule.filled]
  | append_singleton run b ih =>
    obtain ⟨total, open_⟩ := ih fun a member => wanted a (List.mem_append_left _ member)
    have last := wanted b (by simp)
    rw [← List.append_assoc, pack_snoc, filled_snoc, ← total]
    by_cases joined : R.joins (R.pack (as ++ run)) b = true
    · obtain ⟨some, fits⟩ := joins_iff.mp joined
      rw [offer_joins some fits, if_pos fits]
      exact ⟨total_snoc R _ b, fun _ => by simp⟩
    · rw [offer_opens joined last]
      refine ⟨?_, fun _ => by simp⟩
      have single : R.total [b] = R.size b := by simp [Rule.total]
      rw [single]
      split
      · rename_i fits
        have none : (R.pack (as ++ run)).current = [] := by
          by_contra some
          exact joined (joins_iff.mpr ⟨some, fits⟩)
        simp [none, Rule.total]
      · rfl

theorem joins_run_iff {before run : List α} (closed : (R.pack before).current = [])
    (wanted : ∀ b ∈ run, R.unwanted b = false) (a : α) :
    R.joins (R.pack (before ++ run)) a = true ↔
      run ≠ [] ∧ R.filled run + R.size a ≤ R.capacity := by
  obtain ⟨total, open_⟩ := wanted_fill closed wanted
  rw [joins_iff, total]
  constructor
  · rintro ⟨some, fits⟩
    refine ⟨?_, fits⟩
    rintro rfl
    rw [List.append_nil] at some
    exact some closed
  · rintro ⟨nonempty, fits⟩
    exact ⟨open_ nonempty, fits⟩

theorem unwanted_closes {as : List α} (wanted : ∀ b ∈ (R.pack as).items, R.unwanted b = false)
    (last : ∀ a ∈ as.getLast?, R.unwanted a = true) : (R.pack as).current = [] := by
  rcases List.eq_nil_or_concat as with rfl | ⟨rest, a, rfl⟩
  · rfl
  · rw [List.concat_eq_append] at wanted last ⊢
    rw [pack_snoc] at wanted ⊢
    have unwanted := last a (by simp)
    have apart := ((offer_wanted_iff R (R.pack rest) a).mp wanted).2 unwanted
    rw [offer_drops apart unwanted]

theorem last_run (R : Rule α) (as : List α) : ∃ before run, as = before ++ run ∧
    (∀ a ∈ run, R.unwanted a = false) ∧ ∀ a ∈ before.getLast?, R.unwanted a = true := by
  induction as using List.reverseRecOn with
  | nil => exact ⟨[], [], rfl, by simp, by simp⟩
  | append_singleton as a ih =>
    cases wanted : R.unwanted a with
    | true => exact ⟨as ++ [a], [], by simp, by simp, by simpa using wanted⟩
    | false =>
      obtain ⟨before, run, whole, all, last⟩ := ih
      refine ⟨before, run ++ [a], by rw [whole, List.append_assoc], ?_, last⟩
      intro b member
      rcases List.mem_append.mp member with old | new
      · exact all b old
      · rw [List.mem_singleton.mp new]
        exact wanted

theorem packed_wanted_iff (R : Rule α) (as : List α) :
    (∀ a ∈ (R.pack as).items, R.unwanted a = false) ↔
      ∀ before run a after, as = before ++ run ++ a :: after → run ≠ [] →
        (∀ b ∈ run, R.unwanted b = false) → (∀ b ∈ before.getLast?, R.unwanted b = true) →
        R.unwanted a = true → R.capacity < R.filled run + R.size a := by
  constructor
  · intro packed before run a after whole some wanted last unwanted
    have earlier : ∀ bs cs, as = bs ++ cs → ∀ b ∈ (R.pack bs).items, R.unwanted b = false := by
      intro bs cs split b member
      exact packed b (split ▸ items_grow R bs cs member)
    have closed := unwanted_closes
      (earlier before (run ++ a :: after) (by rw [whole, List.append_assoc])) last
    have included := earlier (before ++ run ++ [a]) after (by rw [whole]; simp)
    rw [pack_snoc, offer_wanted_iff] at included
    have apart := included.2 unwanted
    rw [joins_run_iff closed wanted] at apart
    exact Nat.not_le.mp fun fits => apart ⟨some, fits⟩
  · intro apart
    induction as using List.reverseRecOn with
    | nil => simp [Rule.pack, Packing.items]
    | append_singleton as a ih =>
      have packed := ih fun before run b after whole => apart before run b (after ++ [a])
        (by rw [whole]; simp)
      rw [pack_snoc, offer_wanted_iff]
      refine ⟨packed, fun unwanted joined => ?_⟩
      obtain ⟨before, run, whole, all, last⟩ := last_run R as
      have closed : (R.pack before).current = [] :=
        unwanted_closes (fun b member => packed b (whole ▸ items_grow R before run member)) last
      rw [whole, joins_run_iff closed all] at joined
      have large := apart before run a [] (by rw [whole]) joined.1 all last unwanted
      exact absurd joined.2 (Nat.not_le.mpr large)

/- Packing wanted items: nothing is dropped, and no other cutting needs fewer packets. -/
theorem offer_joins_count (some : w.current ≠ [])
    (fits : R.total w.current + R.size a ≤ R.capacity) :
    (R.offer w a).packets.length = w.packets.length := by
  rw [offer_joins some fits, packets_open some, packets_open (by simp)]
  simp

theorem offer_opens_count (apart : ¬ R.joins w a = true) (wanted : R.unwanted a = false) :
    (R.offer w a).packets.length = w.packets.length + 1 := by
  rw [offer_opens apart wanted, packets_open (by simp)]
  simp

theorem wanted_items {as : List α} (wanted : ∀ a ∈ as, R.unwanted a = false) :
    (R.pack as).items = as := by
  induction as using List.reverseRecOn with
  | nil => rfl
  | append_singleton as a ih =>
    have earlier := ih fun b member => wanted b (List.mem_append_left _ member)
    rw [pack_snoc]
    rcases offer_splits R (R.pack as) a with ⟨items, _⟩ | ⟨_, _, unwanted⟩
    · rw [items, earlier]
    · rw [wanted a (by simp)] at unwanted
      cases unwanted

theorem packets_fit {as : List α} (wanted : ∀ a ∈ as, R.unwanted a = false)
    (small : ∀ a ∈ as, R.size a ≤ R.capacity) :
    ∀ p ∈ (R.pack as).packets, p ≠ [] ∧ R.total p ≤ R.capacity := by
  induction as using List.reverseRecOn with
  | nil => simp [Rule.pack, Packing.packets]
  | append_singleton as a ih =>
    have earlier := ih (fun b member => wanted b (List.mem_append_left _ member))
      fun b member => small b (List.mem_append_left _ member)
    rw [pack_snoc]
    by_cases joined : R.joins (R.pack as) a = true
    · obtain ⟨some, fits⟩ := joins_iff.mp joined
      rw [packets_open some] at earlier
      rw [offer_joins some fits, packets_open (by simp)]
      intro p member
      rcases List.mem_append.mp member with closed | last
      · exact earlier p (List.mem_append_left _ closed)
      · rw [List.mem_singleton.mp last]
        refine ⟨by simp, ?_⟩
        rw [total_snoc]
        exact fits
    · rw [offer_opens joined (wanted a (by simp)), packets_open (by simp)]
      intro p member
      rcases List.mem_append.mp member with old | last
      · exact earlier p old
      · rw [List.mem_singleton.mp last]
        refine ⟨by simp, ?_⟩
        simpa [Rule.total] using small a (by simp)

/-- Items that fit into one packet cost one more packet at most: as soon as they open one,
    the rest of them joins it. -/
theorem run_opens_one {run : List α} (as : List α) (wanted : ∀ a ∈ run, R.unwanted a = false)
    (fits : R.total run ≤ R.capacity) :
    (R.pack (as ++ run)).packets.length ≤ (R.pack as).packets.length ∨
      ((R.pack (as ++ run)).packets.length = (R.pack as).packets.length + 1 ∧
        (R.pack (as ++ run)).current ≠ [] ∧
        R.total (R.pack (as ++ run)).current ≤ R.total run) := by
  induction run using List.reverseRecOn with
  | nil => exact Or.inl (by simp)
  | append_singleton run b ih =>
    rw [total_snoc] at fits ⊢
    have last := wanted b (by simp)
    have earlier := ih (fun a member => wanted a (List.mem_append_left _ member)) (by omega)
    rw [← List.append_assoc, pack_snoc]
    by_cases joined : R.joins (R.pack (as ++ run)) b = true
    · obtain ⟨some, room⟩ := joins_iff.mp joined
      rw [offer_joins_count some room]
      rcases earlier with few | ⟨more, _, small⟩
      · exact Or.inl few
      · refine Or.inr ⟨more, ?_, ?_⟩
        · rw [offer_joins some room]
          simp
        · rw [offer_joins some room, total_snoc]
          omega
    · have opened := offer_opens_count joined last
      have few : (R.pack (as ++ run)).packets.length ≤ (R.pack as).packets.length := by
        rcases earlier with few | ⟨_, some, small⟩
        · exact few
        · exact absurd (joins_iff.mpr ⟨some, by omega⟩) joined
      rcases Nat.lt_or_eq_of_le few with fewer | same
      · exact Or.inl (by omega)
      · refine Or.inr ⟨by omega, ?_, ?_⟩
        · rw [offer_opens joined last]
          simp
        · rw [offer_opens joined last]
          simp only [Rule.total]
          omega

/-- No cutting of wanted items into groups that fit has fewer groups. -/
theorem pack_fewest {groups : List (List α)} (wanted : ∀ a ∈ groups.flatten, R.unwanted a = false)
    (fits : ∀ g ∈ groups, R.total g ≤ R.capacity) :
    (R.pack groups.flatten).packets.length ≤ groups.length := by
  induction groups using List.reverseRecOn with
  | nil => simp [Rule.pack, Packing.packets]
  | append_singleton groups g ih =>
    rw [List.flatten_append, List.flatten_singleton] at wanted ⊢
    have earlier := ih (fun a member => wanted a (List.mem_append_left _ member))
      fun g' member => fits g' (List.mem_append_left _ member)
    have last := run_opens_one groups.flatten
      (fun a member => wanted a (List.mem_append_right _ member)) (fits g (by simp))
    rw [List.length_append, List.length_singleton]
    omega

section
variable {β : Type v}

theorem total_comap (R : Rule β) (g : α → β) (as : List α) :
    (R.comap g).total as = R.total (as.map g) := by
  induction as with
  | nil => rfl
  | cons a rest ih =>
    rw [List.map_cons, Rule.total, Rule.total, ih]
    rfl

theorem map_packets (g : α → β) (w : Packing α) :
    (w.map g).packets = w.packets.map (List.map g) := by
  simp only [Packing.packets, Packing.map, List.isEmpty_map]
  split <;> simp

theorem offer_comap (R : Rule β) (g : α → β) (w : Packing α) (a : α) :
    ((R.comap g).offer w a).map g = R.offer (w.map g) (g a) := by
  have joins : R.joins (w.map g) (g a) = (R.comap g).joins w a := by
    simp only [Rule.joins, Packing.map, List.isEmpty_map, total_comap]
    rfl
  unfold Rule.offer
  rw [joins, map_packets]
  change _ = if _ then _ else if (R.comap g).unwanted a = true then _ else _
  split
  · simp [Packing.map]
  · split <;> simp [Packing.map]

theorem pack_comap (R : Rule β) (g : α → β) (as : List α) :
    ((R.comap g).pack as).map g = R.pack (as.map g) := by
  induction as using List.reverseRecOn with
  | nil => rfl
  | append_singleton as a ih =>
    rw [pack_snoc, offer_comap, ih, List.map_append, List.map_singleton, pack_snoc]

end

end GreedyPacking
