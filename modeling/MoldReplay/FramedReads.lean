import MoldReplay.Framing

/- read_message and skip_message on one cursor: what a failed call does to it, and a
   file of framed messages walked through by any mixture of the two. -/
namespace MoldReads
open FixedBytes MoldWire MoldFraming

inductive Call where
  | read
  | skip
  deriving DecidableEq, Repr

def Call.succeeds (bytes : List UInt8) (pos : Nat) : Call → Bool
  | .read => !(readMessage bytes pos).1.isEmpty
  | .skip => (skipMessage bytes pos).1

def Call.next (bytes : List UInt8) (pos : Nat) : Call → Nat
  | .read => (readMessage bytes pos).2
  | .skip => (skipMessage bytes pos).2

def cursorAfter (bytes : List UInt8) (calls : List Call) : Nat :=
  calls.foldl (fun pos c => c.next bytes pos) 0

def framings (bodies : List (List UInt8)) : List UInt8 := (bodies.map frame).flatten

/-- What the two functions are to do at a position. -/
structure Honest (bytes : List UInt8) (pos : Nat) : Prop where
  succeeds : ∀ c : Call, c.succeeds bytes pos = true ↔ Complete bytes pos
  advances : Complete bytes pos → ∀ c : Call, c.next bytes pos = pos + 2 + lengthAt bytes pos
  stays : ¬ Complete bytes pos → readMessage bytes pos = ([], pos) ∧
    skipMessage bytes pos = (false, pos)

variable {bytes : List UInt8} {pos : Nat}

theorem call_succeeds (bytes : List UInt8) (pos : Nat) (c : Call) :
    c.succeeds bytes pos = true ↔ Complete bytes pos := by
  by_cases complete : Complete bytes pos
  · have some := messageAt_ne_nil complete
    cases c with
    | read => simp [Call.succeeds, readMessage_complete complete, complete, some]
    | skip => simp [Call.succeeds, skipMessage_complete complete, complete]
  · cases c with
    | read => simp [Call.succeeds, readMessage_incomplete complete, complete]
    | skip => simp [Call.succeeds, skipMessage_incomplete complete, complete]

theorem call_advances (complete : Complete bytes pos) (c : Call) :
    c.next bytes pos = pos + 2 + lengthAt bytes pos := by
  cases c with
  | read => rw [Call.next, readMessage_complete complete]
  | skip => rw [Call.next, skipMessage_complete complete]

/-- A failed call keeps the cursor only where not even a length prefix is left: behind
    one that overruns the end it has already moved. -/
theorem failed_read_keeps_cursor_iff (bytes : List UInt8) (pos : Nat)
    (inside : pos ≤ bytes.length) :
    Honest bytes pos ↔ Complete bytes pos ∨ bytes.length < pos + 2 := by
  constructor
  · intro honest
    by_cases complete : Complete bytes pos
    · exact Or.inl complete
    · have stays := (honest.stays complete).1
      rw [readMessage_incomplete complete, afterFailure] at stays
      have moved := (Prod.mk.inj stays).2
      split at moved <;> omega
  · intro condition
    refine ⟨call_succeeds bytes pos, call_advances, fun incomplete => ?_⟩
    have short := condition.resolve_left incomplete
    have stays : afterFailure bytes pos = pos := by rw [afterFailure, if_neg (by omega)]
    rw [readMessage_incomplete incomplete, skipMessage_incomplete incomplete, stays]
    exact ⟨rfl, rfl⟩

theorem lone_prefix_byte_kept : Honest [0] 0 :=
  (failed_read_keeps_cursor_iff [0] 0 (by decide)).mpr (by decide)

/-- A length of 5 with one byte behind it: the cursor is left at the body. -/
theorem overrun_moves_cursor : 0 ≤ [(0 : UInt8), 5, 1].length ∧ ¬ Honest [0, 5, 1] 0 := by
  refine ⟨by decide, fun honest => ?_⟩
  exact absurd (honest.stays (by decide)).1 (by decide)

theorem framings_snoc (bodies : List (List UInt8)) (body : List UInt8) :
    framings (bodies ++ [body]) = framings bodies ++ frame body := by
  simp [framings]

theorem framings_at {bodies : List (List UInt8)} {i : Nat} {body : List UInt8}
    (at_i : bodies[i]? = some body) :
    framings bodies = framings (bodies.take i) ++ frame body ++ framings (bodies.drop (i + 1)) := by
  obtain ⟨inside, same⟩ := List.getElem?_eq_some_iff.mp at_i
  have whole : bodies = bodies.take i ++ body :: bodies.drop (i + 1) := by
    rw [← same, List.getElem_cons_drop, List.take_append_drop]
  conv_lhs => rw [whole]
  simp [framings]

theorem framed_at {bodies : List (List UInt8)} (small : ∀ body ∈ bodies, body.length < 65536)
    {i : Nat} {body : List UInt8} (at_i : bodies[i]? = some body) :
    Complete (framings bodies) (framings (bodies.take i)).length ∧
      messageAt (framings bodies) (framings (bodies.take i)).length = frame body := by
  rw [framings_at at_i]
  exact frame_in_place (frame_isFrame body (small body (List.mem_of_getElem? at_i)))

theorem cursor_at {bodies : List (List UInt8)} (small : ∀ body ∈ bodies, body.length < 65536)
    {calls : List Call} (each : calls.length = bodies.length) {i : Nat} (inside : i ≤ bodies.length) :
    cursorAfter (framings bodies) (calls.take i) = (framings (bodies.take i)).length := by
  induction i with
  | zero => simp [cursorAfter, framings]
  | succ i ih =>
    have at_body : bodies[i]? = some bodies[i] := List.getElem?_eq_getElem inside
    have at_call : calls[i]? = some calls[i] := List.getElem?_eq_getElem (by omega)
    obtain ⟨complete, read⟩ := framed_at small at_body
    have length := messageAt_length complete
    rw [read] at length
    have step : cursorAfter (framings bodies) (calls.take (i + 1)) =
        calls[i].next (framings bodies) (cursorAfter (framings bodies) (calls.take i)) := by
      unfold cursorAfter
      rw [List.take_add_one, at_call, Option.toList_some, List.foldl_append]
      rfl
    rw [step, ih (by omega), call_advances complete, List.take_add_one, at_body, Option.toList_some,
      framings_snoc, List.length_append, length, Nat.add_assoc]

/-- Any mixture of reading and skipping walks through the messages one by one, and fails
    where they end. -/
theorem mixed_reads_undo_framing (bodies : List (List UInt8))
    (small : ∀ body ∈ bodies, body.length < 65536) (calls : List Call)
    (each : calls.length = bodies.length) :
    (∀ i ≤ bodies.length, cursorAfter (framings bodies) (calls.take i) =
      (framings (bodies.take i)).length) ∧
    (∀ i c body, calls[i]? = some c → bodies[i]? = some body →
      c.succeeds (framings bodies) (cursorAfter (framings bodies) (calls.take i)) = true ∧
      (readMessage (framings bodies) (cursorAfter (framings bodies) (calls.take i))).1 =
        frame body) ∧
    cursorAfter (framings bodies) calls = (framings bodies).length ∧
    readMessage (framings bodies) (framings bodies).length = ([], (framings bodies).length) ∧
    skipMessage (framings bodies) (framings bodies).length = (false, (framings bodies).length) := by
  have ends : ¬ Complete (framings bodies) (framings bodies).length := by
    simp only [Complete]
    omega
  have honest := (failed_read_keeps_cursor_iff (framings bodies) _ (Nat.le_refl _)).mpr
    (Or.inr (by omega))
  refine ⟨fun i inside => cursor_at small each inside, ?_, ?_, honest.stays ends⟩
  · intro i c body at_call at_body
    have inside : i < bodies.length := (List.getElem?_eq_some_iff.mp at_body).1
    obtain ⟨complete, read⟩ := framed_at small at_body
    rw [cursor_at small each (Nat.le_of_lt inside), readMessage_complete complete]
    exact ⟨(call_succeeds _ _ c).mpr complete, read⟩
  · have last := cursor_at small each (Nat.le_refl _)
    rwa [List.take_of_length_le (Nat.le_of_eq each), List.take_length] at last

theorem empty_body_walked : cursorAfter (framings [[], [7]]) ([.skip, .read].take 1) =
    (framings ([[], [7]].take 1)).length :=
  (mixed_reads_undo_framing [[], [7]] (by decide) [.skip, .read] rfl).1 1 (by decide)

end MoldReads
