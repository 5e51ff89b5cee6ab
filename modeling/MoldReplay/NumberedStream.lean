import Mathlib.Data.List.Chain

/- A stream of items sent in packets. Items are numbered through, from 1 on, and a
   packet carries the number of its first item. Items, packets and what is still
   open are lists; nothing here knows how a packet is written. -/
namespace NumberedStream
universe u v w
variable {α : Type u}

structure Ledger (α : Type u) where
  packets : List (List α)
  current : List α

def Ledger.empty : Ledger α := ⟨[], []⟩
def Ledger.sent (L : Ledger α) : List α := L.packets.flatten
def Ledger.entries (L : Ledger α) : List α := L.sent ++ L.current

def Ledger.add (L : Ledger α) (a : α) : Ledger α := { L with current := L.current ++ [a] }
def Ledger.send (L : Ledger α) : Ledger α := ⟨L.packets ++ [L.current], []⟩

@[simp] theorem empty_sent : (Ledger.empty : Ledger α).sent = [] := rfl
@[simp] theorem empty_entries : (Ledger.empty : Ledger α).entries = [] := rfl
@[simp] theorem add_sent (L : Ledger α) (a : α) : (L.add a).sent = L.sent := rfl

@[simp] theorem add_entries (L : Ledger α) (a : α) : (L.add a).entries = L.entries ++ [a] := by
  simp [Ledger.add, Ledger.entries, Ledger.sent]

@[simp] theorem send_sent (L : Ledger α) : L.send.sent = L.entries := by
  simp [Ledger.send, Ledger.entries, Ledger.sent]

@[simp] theorem send_entries (L : Ledger α) : L.send.entries = L.entries := by
  simp [Ledger.send, Ledger.entries, Ledger.sent]

theorem mapIdx_of_map {β : Type v} {γ : Type w} (f : Nat → β → γ) (g : α → β) (as : List α) :
    (as.map g).mapIdx f = as.mapIdx fun i a => f i (g a) := by
  apply List.ext_getElem?
  intro i
  simp only [List.getElem?_mapIdx, List.getElem?_map, Option.map_map]
  rfl

def numbered : Nat → List (List α) → List (Nat × List α)
  | _, [] => []
  | n, p :: rest => (n, p) :: numbered (n + p.length) rest

theorem numbered_snoc (n : Nat) (packets : List (List α)) (p : List α) :
    numbered n (packets ++ [p]) = numbered n packets ++ [(n + packets.flatten.length, p)] := by
  induction packets generalizing n with
  | nil => simp [numbered]
  | cons q rest ih =>
    simp only [List.cons_append, numbered, ih, List.flatten_cons, List.length_append,
      Nat.add_assoc]

theorem numbered_length (n : Nat) (packets : List (List α)) :
    (numbered n packets).length = packets.length := by
  induction packets generalizing n with
  | nil => rfl
  | cons p rest ih => simp only [numbered, List.length_cons, ih]

theorem numbered_first {n : Nat} {packets : List (List α)} {first : Nat × List α}
    (head : (numbered n packets).head? = some first) : first.1 = n := by
  cases packets with
  | nil => simp [numbered] at head
  | cons p rest =>
    simp only [numbered, List.head?_cons, Option.some.injEq] at head
    rw [← head]

theorem numbered_chain (n : Nat) (packets : List (List α)) :
    (numbered n packets).IsChain fun p q => q.1 = p.1 + p.2.length := by
  induction packets generalizing n with
  | nil => exact .nil
  | cons p rest ih =>
    unfold numbered
    rw [List.isChain_cons]
    exact ⟨fun q next => numbered_first next, ih _⟩

theorem numbered_packet {n : Nat} {packets : List (List α)} {p : Nat × List α}
    (member : p ∈ numbered n packets) : p.2 ∈ packets := by
  induction packets generalizing n with
  | nil => simp [numbered] at member
  | cons q rest ih =>
    rcases List.mem_cons.mp member with rfl | later
    · exact List.mem_cons_self
    · exact List.mem_cons_of_mem _ (ih later)

theorem numbered_split {n : Nat} {packets : List (List α)} {p : Nat × List α}
    (member : p ∈ numbered n packets) :
    ∃ before after, packets.flatten = before ++ p.2 ++ after ∧ p.1 = n + before.length := by
  induction packets generalizing n with
  | nil => simp [numbered] at member
  | cons q rest ih =>
    rcases List.mem_cons.mp member with rfl | later
    · exact ⟨[], rest.flatten, by simp, by simp⟩
    · obtain ⟨before, after, stream, number⟩ := ih later
      refine ⟨q ++ before, after, by simp [stream], ?_⟩
      rw [number, List.length_append]
      omega

theorem numbered_ends {n : Nat} {packets : List (List α)} {p q : Nat × List α}
    (member : p ∈ numbered n packets) (member' : q ∈ numbered n packets) :
    p.1 + p.2.length ≤ q.1 ∨ q.1 + q.2.length ≤ p.1 + p.2.length := by
  induction packets generalizing n with
  | nil => simp [numbered] at member
  | cons first rest ih =>
    have later : ∀ {r}, r ∈ numbered (n + first.length) rest → n + first.length ≤ r.1 := by
      intro r inside
      obtain ⟨before, after, _, number⟩ := numbered_split inside
      omega
    rcases List.mem_cons.mp member with rfl | inside
    · rcases List.mem_cons.mp member' with rfl | inside'
      · exact Or.inr (Nat.le_refl _)
      · exact Or.inl (later inside')
    · rcases List.mem_cons.mp member' with rfl | inside'
      · have := later inside
        exact Or.inr (by simp only; omega)
      · exact ih inside inside'

theorem numbered_covers (n q : Nat) (packets : List (List α)) :
    (∃ p ∈ numbered n packets, p.1 ≤ q ∧ q < p.1 + p.2.length) ↔
      n ≤ q ∧ q < n + packets.flatten.length := by
  induction packets generalizing n with
  | nil =>
    simp only [numbered, List.not_mem_nil, false_and, exists_false, List.flatten_nil,
      List.length_nil, false_iff]
    omega
  | cons p rest ih =>
    simp only [numbered, List.mem_cons, exists_eq_or_imp, ih, List.flatten_cons,
      List.length_append]
    omega

end NumberedStream
