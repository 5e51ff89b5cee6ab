import MoldReplay.ScheduledRuns
import Mathlib.Data.List.Count
import Mathlib.Data.List.Nodup

/- A table of open resources and the calls that open and close them, for any kind of
   resource. -/
namespace ResourceTable
open ScheduledRuns
universe u
variable {ρ : Type u} [DecidableEq ρ]

inductive Call (ρ : Type u) where
  | acquire (r : ρ)
  | release (r : ρ)
  deriving DecidableEq, Repr

def Table.apply (table : List ρ) : Call ρ → List ρ
  | .acquire r => table ++ [r]
  | .release r => table.erase r

/-- What is handed out is new, and what is given back is there. -/
def Table.Allows (table : List ρ) : Call ρ → Prop
  | .acquire r => r ∉ table
  | .release r => r ∈ table

def charge (r : ρ) : Call ρ → Int
  | .acquire r' => if r' = r then 1 else 0
  | .release r' => if r' = r then -1 else 0

def balance (r : ρ) : List (Call ρ) → Int
  | [] => 0
  | call :: calls => charge r call + balance r calls

@[simp] theorem balance_nil (r : ρ) : balance r [] = 0 := rfl

@[simp] theorem balance_cons (r : ρ) (call : Call ρ) (calls : List (Call ρ)) :
    balance r (call :: calls) = charge r call + balance r calls := rfl

theorem singleton_count (r r' : ρ) : ([r'].count r : Int) = if r' = r then 1 else 0 := by
  rw [List.count_singleton]
  split <;> simp_all

theorem table_count {table : List ρ} {calls : List (Call ρ)}
    (allowed : Throughout Table.apply Table.Allows table calls) (r : ρ) :
    ((run Table.apply table calls).count r : Int) = table.count r + balance r calls := by
  induction calls generalizing table with
  | nil => simp [run]
  | cons call rest ih =>
    have tail := ih allowed.2
    have head : ((Table.apply table call).count r : Int) = table.count r + charge r call := by
      cases call with
      | acquire r' =>
        rw [Table.apply, List.count_append, Int.natCast_add, singleton_count]
        rfl
      | release r' =>
        have there : r' ∈ table := allowed.1
        have positive := List.count_pos_iff.mpr there
        rw [Table.apply, List.count_erase, charge]
        by_cases same : r' = r
        · subst same
          simp
          omega
        · simp [same]
    change ((run Table.apply (Table.apply table call) rest).count r : Int) = _
    rw [tail, head, balance_cons]
    omega

theorem released_balance (r : ρ) (rs : List ρ) :
    balance r (rs.map .release) = -(rs.count r : Int) := by
  induction rs with
  | nil => rfl
  | cons first rest ih =>
    rw [List.map_cons, balance_cons, ih, charge, List.count_cons]
    by_cases same : first = r
    · simp only [same, if_true, beq_self_eq_true]
      omega
    · simp [same]

theorem releases_allowed {table rs : List ρ} (held : ∀ r, rs.count r ≤ table.count r) :
    Throughout Table.apply Table.Allows table (rs.map .release) := by
  induction rs generalizing table with
  | nil => trivial
  | cons first rest ih =>
    have there : first ∈ table := by
      have one := held first
      rw [List.count_cons_self] at one
      exact List.count_pos_iff.mp (by omega)
    refine ⟨there, ih fun r => ?_⟩
    have one := held r
    rw [List.count_cons] at one
    rw [Table.apply, List.count_erase]
    by_cases same : first = r
    · simp only [same, beq_self_eq_true, if_true] at one ⊢
      omega
    · simp only [beq_iff_eq, same, if_false] at one ⊢
      omega

theorem table_nodup {calls : List (Call ρ)} (allowed : Throughout Table.apply Table.Allows [] calls) :
    (run Table.apply [] calls).Nodup := by
  refine run_invariant (C := Table.Allows) (fun table call nodup allowed => ?_) List.nodup_nil
    allowed
  cases call with
  | acquire r =>
    rw [Table.apply, ← List.concat_eq_append]
    exact nodup.concat allowed
  | release r => exact nodup.erase r

end ResourceTable
