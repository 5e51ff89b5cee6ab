import Mathlib.Data.Nat.ModEq
import Mathlib.Data.List.Basic

/- A circular array of slots written under the numbers 1, 2, 3, ... : number n
   goes to slot n modulo the size. Nothing here knows what a slot holds. -/
namespace RingWindow
universe u
variable {α : Type u}

def store (slots : List α) (n : Nat) (a : α) : List α := slots.set (n % slots.length) a

/-- Numbers m-N+1 .. m are in their own slots. -/
def Window (slots : List α) (m : Nat) (f : Nat → α) : Prop :=
  ∀ s, 1 ≤ s → s ≤ m → m < s + slots.length → slots[s % slots.length]? = some (f s)

/-- A slot was never written, or holds what some number of its residue class stored. -/
def Provenance (slots : List α) (m : Nat) (f : Nat → α) (initial : α) : Prop :=
  ∀ i a, slots[i]? = some a →
    (a = initial ∧ ∀ k, 1 ≤ k → k ≤ m → k % slots.length ≠ i) ∨
    ∃ k, 1 ≤ k ∧ k ≤ m ∧ k % slots.length = i ∧ a = f k

@[simp] theorem store_length (slots : List α) (n : Nat) (a : α) :
    (store slots n a).length = slots.length := by
  simp [store]

theorem window_slots_distinct {N s t : Nat} (order : s ≤ t) (near : t < s + N)
    (slot : s % N = t % N) : s = t := by
  have multiple : N ∣ t - s := (Nat.modEq_iff_dvd' order).mp slot
  have gap : t - s = 0 := Nat.eq_zero_of_dvd_of_lt multiple (by omega)
  omega

theorem store_same (slots : List α) (nonempty : 0 < slots.length) (n : Nat) (a : α) :
    (store slots n a)[n % slots.length]? = some a := by
  simp [store, Nat.mod_lt n nonempty]

theorem store_other (slots : List α) (n i : Nat) (a : α) (other : n % slots.length ≠ i) :
    (store slots n a)[i]? = slots[i]? := by
  simp [store, List.getElem?_set_ne other]

theorem window_initial (slots : List α) (f : Nat → α) : Window slots 0 f := by
  intro s positive upper
  omega

theorem window_store {slots : List α} {m : Nat} {f : Nat → α} (nonempty : 0 < slots.length)
    (window : Window slots m f) : Window (store slots (m + 1) (f (m + 1))) (m + 1) f := by
  intro s positive upper near
  rw [store_length] at near ⊢
  by_cases newest : s = m + 1
  · subst newest
    exact store_same slots nonempty (m + 1) _
  · have apart : (m + 1) % slots.length ≠ s % slots.length := by
      intro slot
      exact newest (window_slots_distinct upper near slot.symm)
    rw [store_other slots _ _ _ apart]
    exact window s positive (by omega) (by omega)

theorem window_newest {slots : List α} {m : Nat} {f : Nat → α} (nonempty : 0 < slots.length)
    (window : Window slots m f) {s : Nat} (positive : 1 ≤ s) (upper : s ≤ m) :
    ∃ laps, s + laps * slots.length ≤ m ∧ m < s + laps * slots.length + slots.length ∧
      slots[s % slots.length]? = some (f (s + laps * slots.length)) := by
  have last := Nat.div_add_mod (m - s) slots.length
  have rest := Nat.mod_lt (m - s) nonempty
  rw [Nat.mul_comm] at last
  have below : s + (m - s) / slots.length * slots.length ≤ m := by omega
  have near : m < s + (m - s) / slots.length * slots.length + slots.length := by omega
  have held := window (s + (m - s) / slots.length * slots.length) (by omega) below near
  rw [Nat.add_mul_mod_self_right] at held
  exact ⟨_, below, near, held⟩

theorem window_congr {slots : List α} {m : Nat} {f g : Nat → α}
    (same : ∀ k, 1 ≤ k → k ≤ m → f k = g k) (window : Window slots m f) : Window slots m g := by
  intro s positive upper near
  rw [← same s positive upper]
  exact window s positive upper near

theorem provenance_congr {slots : List α} {m : Nat} {f g : Nat → α} {initial : α}
    (same : ∀ k, 1 ≤ k → k ≤ m → f k = g k) (held : Provenance slots m f initial) :
    Provenance slots m g initial := by
  intro i a at_i
  rcases held i a at_i with blank | ⟨k, positive, upper, slot, stored⟩
  · exact Or.inl blank
  · exact Or.inr ⟨k, positive, upper, slot, stored.trans (same k positive upper)⟩

theorem provenance_initial (N : Nat) (f : Nat → α) (initial : α) :
    Provenance (List.replicate N initial) 0 f initial := by
  intro i a held
  have := List.eq_of_mem_replicate (List.mem_of_getElem? held)
  exact Or.inl ⟨this, fun k positive upper => by omega⟩

theorem provenance_store {slots : List α} {m : Nat} {f : Nat → α} {initial : α}
    (nonempty : 0 < slots.length) (held : Provenance slots m f initial) :
    Provenance (store slots (m + 1) (f (m + 1))) (m + 1) f initial := by
  intro i a at_i
  rw [store_length]
  by_cases written : (m + 1) % slots.length = i
  · subst written
    rw [store_same slots nonempty] at at_i
    exact Or.inr ⟨m + 1, by omega, by omega, rfl, (Option.some.inj at_i).symm⟩
  · rw [store_other slots _ _ _ written] at at_i
    rcases held i a at_i with ⟨blank, untouched⟩ | ⟨k, positive, upper, slot, same⟩
    · refine Or.inl ⟨blank, fun k positive upper => ?_⟩
      by_cases newest : k = m + 1
      · exact newest ▸ written
      · exact untouched k positive (by omega)
    · exact Or.inr ⟨k, positive, by omega, slot, same⟩

end RingWindow
