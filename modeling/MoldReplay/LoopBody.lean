import Mathlib.Logic.Relation

/- The meaning of a while loop given by one pass of its body: the pass either
   asks for another one or leaves, and hands the state on in both cases. -/
namespace LoopBody
universe u v

inductive Flow (σ : Type u) where
  | again : σ → Flow σ
  | leave : σ → Flow σ
  deriving DecidableEq, Repr

variable {σ : Type u} (body : σ → Flow σ)

/-- Bounded execution; `none` when the passes do not suffice. -/
def run : Nat → σ → Option σ
  | 0, _ => none
  | passes + 1, s =>
    match body s with
    | .again next => run passes next
    | .leave last => some last

inductive Leaves : σ → σ → Prop where
  | leave {s t : σ} (last : body s = .leave t) : Leaves s t
  | again {s next t : σ} (pass : body s = .again next) (tail : Leaves next t) : Leaves s t

def Again (s next : σ) : Prop := body s = .again next

def Visits : σ → σ → Prop := Relation.ReflTransGen (Again body)

variable {body}

theorem leaves_of_run {passes : Nat} {s t : σ} (result : run body passes s = some t) :
    Leaves body s t := by
  induction passes generalizing s with
  | zero => simp [run] at result
  | succ passes ih =>
    simp only [run] at result
    split at result
    · rename_i next pass
      exact .again pass (ih result)
    · rename_i last pass
      cases result
      exact .leave pass

theorem leaves_unique {s t t' : σ} (first : Leaves body s t) (second : Leaves body s t') :
    t = t' := by
  induction first with
  | leave last =>
    cases second with
    | leave last' => exact Flow.leave.inj (last.symm.trans last')
    | again pass _ => exact absurd (last.symm.trans pass) (by simp)
  | again pass _ ih =>
    cases second with
    | leave last => exact absurd (last.symm.trans pass) (by simp)
    | again pass' tail =>
      cases Flow.again.inj (pass.symm.trans pass')
      exact ih tail

theorem visits_leaves {s s' t : σ} (visits : Visits body s s') (leaves : Leaves body s' t) :
    Leaves body s t := by
  induction visits using Relation.ReflTransGen.head_induction_on with
  | refl => exact leaves
  | head pass _ ih => exact .again pass ih

theorem leaves_from_visited {s s' t : σ} (visits : Visits body s s')
    (leaves : Leaves body s t) : Leaves body s' t := by
  induction visits with
  | refl => exact leaves
  | tail _ pass ih =>
    cases ih with
    | leave last => exact absurd (last.symm.trans pass) (by simp)
    | again pass' tail =>
      cases Flow.again.inj (pass.symm.trans pass')
      exact tail

/-- Variant rule, with the number of passes that is enough. -/
theorem run_of_variant {I : σ → Prop} (v : σ → Nat)
    (decreases : ∀ s next, I s → body s = .again next → I next ∧ v next < v s)
    (passes : Nat) {s : σ} (start : I s) (budget : v s < passes) :
    ∃ t, run body passes s = some t := by
  induction passes generalizing s with
  | zero => omega
  | succ passes ih =>
    cases pass : body s with
    | leave last => exact ⟨last, by simp [run, pass]⟩
    | again next =>
      obtain ⟨keep, less⟩ := decreases s next start pass
      obtain ⟨t, result⟩ := ih keep (by omega)
      exact ⟨t, by simp [run, pass, result]⟩

theorem leaves_of_variant {I : σ → Prop} (v : σ → Nat)
    (decreases : ∀ s next, I s → body s = .again next → I next ∧ v next < v s)
    {s : σ} (start : I s) : ∃ t, Leaves body s t := by
  obtain ⟨t, result⟩ := run_of_variant v decreases _ start (Nat.lt_succ_self (v s))
  exact ⟨t, leaves_of_run result⟩

inductive Both {τ : Type v} (R Q : σ → τ → Prop) : Flow σ → Flow τ → Prop where
  | again {s : σ} {s' : τ} (rel : R s s') : Both R Q (.again s) (.again s')
  | leave {t : σ} {t' : τ} (rel : Q t t') : Both R Q (.leave t) (.leave t')

theorem leaves_lockstep {τ : Type v} {body' : τ → Flow τ} {R Q : σ → τ → Prop}
    (both : ∀ s s', R s s' → Both R Q (body s) (body' s')) {s : σ} {s' t' : τ} (start : R s s')
    (leaves : Leaves body' s' t') : ∃ t, Leaves body s t ∧ Q t t' := by
  induction leaves generalizing s with
  | leave last =>
    have pass := both _ _ start
    rw [last] at pass
    cases found : body s with
    | again next => rw [found] at pass; cases pass
    | leave t =>
      rw [found] at pass
      cases pass with
      | leave rel => exact ⟨t, .leave found, rel⟩
  | again pass' _ ih =>
    have pass := both _ _ start
    rw [pass'] at pass
    cases found : body s with
    | leave t => rw [found] at pass; cases pass
    | again next =>
      rw [found] at pass
      cases pass with
      | again rel =>
        obtain ⟨t, tail, last⟩ := ih rel
        exact ⟨t, .again found tail, last⟩

theorem never_leaves {I : σ → Prop} (stays : ∀ s, I s → ∃ next, body s = .again next ∧ I next)
    {s t : σ} (start : I s) : ¬ Leaves body s t := by
  intro leaves
  induction leaves with
  | leave last =>
    obtain ⟨next, pass, _⟩ := stays _ start
    exact absurd (last.symm.trans pass) (by simp)
  | again pass _ ih =>
    obtain ⟨next, pass', keep⟩ := stays _ start
    cases Flow.again.inj (pass.symm.trans pass')
    exact ih keep

end LoopBody
