import Mathlib.Data.List.Basic

/- Items that are written one behind the other and read back by their number. A codec
   says how one item is written and read; whatever follows an item is left alone. -/
namespace CountedRuns
universe u v
variable {α : Type u} {β : Type v}

structure Codec (α : Type u) (β : Type v) where
  encode : α → List β
  decode : List β → Option (α × List β)
  valid : α → Prop
  reads : ∀ a rest, valid a → decode (encode a ++ rest) = some (a, rest)
  writes : ∀ input a rest, decode input = some (a, rest) → valid a ∧ input = encode a ++ rest

def Codec.encodeAll (C : Codec α β) (as : List α) : List β := (as.map C.encode).flatten

def Codec.decodeAll (C : Codec α β) : Nat → List β → Option (List α × List β)
  | 0, input => some ([], input)
  | n + 1, input =>
    match C.decode input with
    | none => none
    | some (a, input) => (C.decodeAll n input).map fun p => (a :: p.1, p.2)

variable {C : Codec α β}

theorem decodeAll_encodeAll {as : List α} (valid : ∀ a ∈ as, C.valid a) (rest : List β) :
    C.decodeAll as.length (C.encodeAll as ++ rest) = some (as, rest) := by
  induction as with
  | nil => rfl
  | cons a as ih =>
    have first := C.reads a (C.encodeAll as ++ rest) (valid a List.mem_cons_self)
    have others := ih fun b member => valid b (List.mem_cons_of_mem _ member)
    have layout : C.encodeAll (a :: as) ++ rest = C.encode a ++ (C.encodeAll as ++ rest) := by
      simp [Codec.encodeAll]
    rw [layout]
    simp [Codec.decodeAll, first, others]

theorem encodeAll_decodeAll {n : Nat} {input rest : List β} {as : List α}
    (decoded : C.decodeAll n input = some (as, rest)) :
    as.length = n ∧ (∀ a ∈ as, C.valid a) ∧ input = C.encodeAll as ++ rest := by
  induction n generalizing input as with
  | zero =>
    cases decoded
    exact ⟨rfl, by simp, rfl⟩
  | succ n ih =>
    simp only [Codec.decodeAll] at decoded
    split at decoded
    · cases decoded
    · rename_i a behind first
      rw [Option.map_eq_some_iff] at decoded
      obtain ⟨⟨others, rest'⟩, tail, same⟩ := decoded
      cases same
      obtain ⟨count, valid, layout⟩ := ih tail
      obtain ⟨good, written⟩ := C.writes _ _ _ first
      refine ⟨by simp [count], ?_, ?_⟩
      · intro b member
        rcases List.mem_cons.mp member with rfl | later
        · exact good
        · exact valid b later
      · rw [written, layout]
        simp [Codec.encodeAll]

end CountedRuns
