import Mathlib.Data.List.Induction
import Mathlib.Logic.Relation

/- Runs of a system whose next state is a function of the action a scheduler picks.
   A run is the list of its actions; every list is a run. -/
namespace ScheduledRuns
universe u v w
variable {σ : Type u} {α : Type v} {step : σ → α → σ}

def run (step : σ → α → σ) (s : σ) (actions : List α) : σ := actions.foldl step s

/-- Every step of the run meets a condition on its action and the state before it. -/
def Throughout (step : σ → α → σ) (C : σ → α → Prop) : σ → List α → Prop
  | _, [] => True
  | s, a :: rest => C s a ∧ Throughout step C (step s a) rest

theorem run_snoc (s : σ) (actions : List α) (a : α) :
    run step s (actions ++ [a]) = step (run step s actions) a := by
  simp [run]

theorem run_append (s : σ) (first second : List α) :
    run step s (first ++ second) = run step (run step s first) second := by
  simp [run]

theorem throughout_append {C : σ → α → Prop} (s : σ) (first second : List α) :
    Throughout step C s (first ++ second) ↔
      Throughout step C s first ∧ Throughout step C (run step s first) second := by
  induction first generalizing s with
  | nil => simp [Throughout, run]
  | cons a rest ih =>
    change C s a ∧ Throughout step C (step s a) (rest ++ second) ↔
      (C s a ∧ Throughout step C (step s a) rest) ∧
        Throughout step C (run step (step s a) rest) second
    rw [ih, and_assoc]

theorem throughout_and {C D : σ → α → Prop} {s : σ} {actions : List α}
    (first : Throughout step C s actions) (second : Throughout step D s actions) :
    Throughout step (fun s a => C s a ∧ D s a) s actions := by
  induction actions generalizing s with
  | nil => trivial
  | cons a rest ih => exact ⟨⟨first.1, second.1⟩, ih first.2 second.2⟩

instance decidableThroughout {C : σ → α → Prop} [∀ s a, Decidable (C s a)] (s : σ) :
    (actions : List α) → Decidable (Throughout step C s actions)
  | [] => inferInstanceAs (Decidable True)
  | a :: rest =>
    @instDecidableAnd (C s a) (Throughout step C (step s a) rest) inferInstance
      (decidableThroughout (step s a) rest)

theorem run_invariant {I : σ → Prop} {C : σ → α → Prop}
    (keeps : ∀ s a, I s → C s a → I (step s a)) {s : σ} {actions : List α} (start : I s)
    (condition : Throughout step C s actions) : I (run step s actions) := by
  induction actions generalizing s with
  | nil => exact start
  | cons a rest ih => exact ih (keeps s a start condition.1) condition.2

theorem run_always {I : σ → Prop} (keeps : ∀ s a, I s → I (step s a)) {s : σ}
    (actions : List α) (start : I s) : I (run step s actions) := by
  induction actions generalizing s with
  | nil => exact start
  | cons a rest ih => exact ih (keeps s a start)

theorem run_beside {I J : σ → Prop} {C : σ → α → Prop} {s : σ}
    (fact : ∀ actions, J (run step s actions)) (keeps : ∀ s a, J s → I s → C s a → I (step s a))
    {actions : List α} (start : I s) (condition : Throughout step C s actions) :
    I (run step s actions) := by
  induction actions using List.reverseRecOn with
  | nil => exact start
  | append_singleton actions a ih =>
    obtain ⟨before, last, _⟩ := (throughout_append s actions [a]).mp condition
    rw [run_snoc]
    exact keeps _ a (fact actions) (ih before) last

theorem run_lockstep {τ : Type w} {step' : τ → α → τ} {R : σ → τ → Prop}
    (keeps : ∀ s t a, R s t → R (step s a) (step' t a)) {s : σ} {t : τ} (actions : List α)
    (start : R s t) : R (run step s actions) (run step' t actions) := by
  induction actions generalizing s t with
  | nil => exact start
  | cons a rest ih => exact ih (keeps s t a start)

/-- Where a step's condition is exactly what the property needs of it, a run has the
    property exactly if its steps all meet the condition. -/
theorem run_exactly {I P : σ → Prop} {C : σ → α → Prop} (keeps : ∀ s a, I s → I (step s a))
    (needed : ∀ s a, I s → (P (step s a) ↔ P s ∧ C s a)) {s : σ} (actions : List α)
    (start : I s) : P (run step s actions) ↔ P s ∧ Throughout step C s actions := by
  induction actions generalizing s with
  | nil => simp [run, Throughout]
  | cons a rest ih =>
    change P (run step (step s a) rest) ↔ P s ∧ C s a ∧ Throughout step C (step s a) rest
    rw [ih (keeps s a start), needed s a start, and_assoc]

theorem run_simulated {τ : Type w} {R : σ → τ → Prop} {Next : τ → τ → Prop}
    (follows : ∀ s t a, R s t → ∃ t', Relation.ReflTransGen Next t t' ∧ R (step s a) t')
    {s : σ} {t : τ} (actions : List α) (start : R s t) :
    ∃ t', Relation.ReflTransGen Next t t' ∧ R (run step s actions) t' := by
  induction actions generalizing s t with
  | nil => exact ⟨t, .refl, start⟩
  | cons a rest ih =>
    obtain ⟨t', path, related⟩ := follows s t a start
    obtain ⟨last, onward, reached⟩ := ih related
    exact ⟨last, path.trans onward, reached⟩

theorem path_run {τ : Type w} {R : σ → τ → Prop} {Next : τ → τ → Prop}
    (taken : ∀ s t t', R s t → Next t t' → ∃ actions, R (run step s actions) t')
    {s : σ} {t t' : τ} (start : R s t) (path : Relation.ReflTransGen Next t t') :
    ∃ actions, R (run step s actions) t' := by
  induction path with
  | refl => exact ⟨[], start⟩
  | tail _ next ih =>
    obtain ⟨actions, reached⟩ := ih
    obtain ⟨more, there⟩ := taken _ _ _ reached next
    exact ⟨actions ++ more, by rwa [run_append]⟩

theorem prefixes_exactly {I P : σ → Prop} {C : σ → α → Prop}
    (keeps : ∀ s a, I s → I (step s a))
    (needed : ∀ s a, I s → P s → (P (step s a) ↔ C s a)) {s : σ} (actions : List α)
    (start : I s) (fine : P s) :
    (∀ earlier, earlier <+: actions → P (run step s earlier)) ↔ Throughout step C s actions := by
  induction actions generalizing s with
  | nil => simpa [Throughout, run] using fine
  | cons a rest ih =>
    change _ ↔ C s a ∧ Throughout step C (step s a) rest
    constructor
    · intro always
      have next : P (step s a) := always [a] ⟨rest, rfl⟩
      refine ⟨(needed s a start fine).mp next, (ih (keeps s a start) next).mp ?_⟩
      intro earlier before
      exact always (a :: earlier) ((List.prefix_cons_inj a).mpr before)
    · rintro ⟨first, onward⟩ earlier before
      have next : P (step s a) := (needed s a start fine).mpr first
      cases earlier with
      | nil => exact fine
      | cons b earlier =>
        obtain ⟨rfl, inside⟩ := List.cons_prefix_cons.mp before
        exact (ih (keeps s b start) next).mpr onward earlier inside

/-- Each step of one system is a run of another, so each run is. -/
theorem run_refined {τ : Type w} {β : Type*} {step' : τ → β → τ} {R : σ → τ → Prop}
    (follows : ∀ s t a, R s t → ∃ more, R (step s a) (run step' t more)) {s : σ} {t : τ}
    (actions : List α) (start : R s t) :
    ∃ actions', R (run step s actions) (run step' t actions') := by
  induction actions generalizing s t with
  | nil => exact ⟨[], start⟩
  | cons a rest ih =>
    obtain ⟨more, related⟩ := follows s t a start
    obtain ⟨onward, reached⟩ := ih related
    exact ⟨more ++ onward, by rwa [run_append]⟩

inductive Since (step : σ → α → σ) (s : σ) (Q : σ → α → Prop) (P : σ → Prop) : List α → Prop where
  | now {actions : List α} {a : α} (caused : Q (run step s actions) a)
      (there : P (run step s (actions ++ [a]))) : Since step s Q P (actions ++ [a])
  | still {actions : List α} {a : α} (before : Since step s Q P actions)
      (there : P (run step s (actions ++ [a]))) : Since step s Q P (actions ++ [a])

/-- What a run did not start with was brought about by a step, and has held since. -/
theorem run_since {I P : σ → Prop} {Q : σ → α → Prop} (keeps : ∀ s a, I s → I (step s a))
    (causes : ∀ s a, I s → P (step s a) → P s ∨ Q s a) {s : σ} (start : I s) (fresh : ¬ P s)
    {actions : List α} (there : P (run step s actions)) : Since step s Q P actions := by
  induction actions using List.reverseRecOn with
  | nil => exact absurd there fresh
  | append_singleton actions a ih =>
    have stepped := there
    rw [run_snoc] at stepped
    rcases causes _ a (run_always keeps actions start) stepped with before | caused
    · exact .still (ih before) there
    · exact .now caused there

theorem since_imp {P P' : σ → Prop} {Q Q' : σ → α → Prop} (also : ∀ s, P s → P' s)
    (cause : ∀ s a, Q s a → Q' s a) {s : σ} {actions : List α} (since : Since step s Q P actions) :
    Since step s Q' P' actions := by
  induction since with
  | now caused there => exact .now (cause _ _ caused) (also _ there)
  | still _ there ih => exact .still ih (also _ there)

theorem run_passes {I : σ → Prop} (count : σ → Nat) (keeps : ∀ s a, I s → I (step s a))
    (slow : ∀ s a, I s → count (step s a) ≤ count s + 1) {s : σ} {n : Nat} (start : I s)
    (below : count s ≤ n) {actions : List α} (last : n ≤ count (run step s actions)) :
    ∃ earlier, count (run step s earlier) = n := by
  induction actions generalizing s with
  | nil => exact ⟨[], Nat.le_antisymm below last⟩
  | cons a rest ih =>
    by_cases there : count s = n
    · exact ⟨[], there⟩
    · have next := slow s a start
      obtain ⟨earlier, found⟩ := ih (keeps s a start) (by omega) last
      exact ⟨a :: earlier, found⟩

end ScheduledRuns
