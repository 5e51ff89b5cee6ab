import MoldReplay.ScheduledRuns

/- Runs in which every agent takes its turn again and again, in any order. A round is a
   stretch of a run with a turn of every agent in it. -/
namespace FairRounds
open ScheduledRuns
universe u v w
variable {σ : Type u} {α : Type v} {ι : Type w}

def EveryTurn (turn : α → Option ι) (actions : List α) : Prop :=
  ∀ i, ∃ a ∈ actions, turn a = some i

/-- So many rounds, one behind the other, and whatever follows. -/
def Rounds (turn : α → Option ι) : Nat → List α → Prop
  | 0, _ => True
  | rounds + 1, actions => ∃ first rest, actions = first ++ rest ∧ EveryTurn turn first ∧
      Rounds turn rounds rest

/-- A measure that no step raises. Before the goal there is an agent whose turn lowers it,
    and who stays the one until it is lower. -/
structure Progress (step : σ → α → σ) (turn : α → Option ι) (I Goal : σ → Prop)
    (measure : σ → Nat) (helps : σ → ι → Prop) : Prop where
  keeps : ∀ s a, I s → I (step s a)
  stays : ∀ s a, I s → Goal s → Goal (step s a)
  neverUp : ∀ s a, I s → measure (step s a) ≤ measure s
  someone : ∀ s, I s → ¬ Goal s → ∃ i, helps s i
  unfinished : ∀ s, I s → ¬ Goal s → 0 < measure s
  lowers : ∀ s a i, I s → helps s i → turn a = some i → measure (step s a) < measure s
  waits : ∀ s a i, I s → helps s i → measure (step s a) < measure s ∨ helps (step s a) i

variable {step : σ → α → σ} {turn : α → Option ι} {I Goal : σ → Prop} {measure : σ → Nat}
  {helps : σ → ι → Prop}

theorem run_never_up (progress : Progress step turn I Goal measure helps) {s : σ}
    (actions : List α) (start : I s) : measure (run step s actions) ≤ measure s := by
  induction actions generalizing s with
  | nil => exact Nat.le_refl _
  | cons a rest ih =>
    exact Nat.le_trans (ih (progress.keeps s a start)) (progress.neverUp s a start)

theorem turn_lowers (progress : Progress step turn I Goal measure helps) {s : σ} {i : ι}
    {actions : List α} (start : I s) (helpful : helps s i)
    (taken : ∃ a ∈ actions, turn a = some i) : measure (run step s actions) < measure s := by
  induction actions generalizing s with
  | nil => simp at taken
  | cons a rest ih =>
    have next := progress.keeps s a start
    have later := run_never_up progress rest next
    change measure (run step (step s a) rest) < measure s
    by_cases now : turn a = some i
    · exact Nat.lt_of_le_of_lt later (progress.lowers s a i start helpful now)
    · rcases progress.waits s a i start helpful with lower | still
      · exact Nat.lt_of_le_of_lt later lower
      · obtain ⟨b, member, turned⟩ := taken
        rcases List.mem_cons.mp member with rfl | behind
        · exact absurd turned now
        · exact Nat.lt_of_lt_of_le (ih next still ⟨b, behind, turned⟩) (progress.neverUp s a start)

/-- A round for every unit of the measure reaches the goal. -/
theorem rounds_reach (progress : Progress step turn I Goal measure helps) {rounds : Nat} {s : σ}
    {actions : List α} (start : I s) (enough : measure s ≤ rounds)
    (fair : Rounds turn rounds actions) : Goal (run step s actions) := by
  have stays : ∀ s a, I s ∧ Goal s → I (step s a) ∧ Goal (step s a) :=
    fun s a h => ⟨progress.keeps s a h.1, progress.stays s a h.1 h.2⟩
  by_cases reached : Goal s
  · exact (run_always stays actions ⟨start, reached⟩).2
  · have more := progress.unfinished s start reached
    induction rounds generalizing s actions with
    | zero => omega
    | succ rounds ih =>
      obtain ⟨first, rest, rfl, everyone, fair⟩ := fair
      have onward : I (run step s first) := run_always progress.keeps first start
      obtain ⟨i, helpful⟩ := progress.someone s start reached
      have lower := turn_lowers progress start helpful (everyone i)
      rw [run_append]
      by_cases now : Goal (run step s first)
      · exact (run_always stays rest ⟨onward, now⟩).2
      · exact ih onward (by omega) fair now (progress.unfinished _ onward now)

theorem turns_finish (measure : σ → Nat) (i : ι) (keeps : ∀ s a, I s → I (step s a))
    (neverUp : ∀ s a, I s → measure (step s a) ≤ measure s)
    (lowers : ∀ s a, I s → measure s ≠ 0 → turn a = some i → measure (step s a) < measure s)
    {rounds : Nat} {s : σ} {actions : List α} (start : I s) (enough : measure s ≤ rounds)
    (fair : Rounds turn rounds actions) : measure (run step s actions) = 0 := by
  have progress : Progress step turn I (fun s => measure s = 0) measure
      (fun s j => j = i ∧ measure s ≠ 0) := {
    keeps := keeps
    stays := fun s a h done => Nat.le_zero.mp (done ▸ neverUp s a h)
    neverUp := neverUp
    someone := fun s _ left => ⟨i, rfl, left⟩
    unfinished := fun s _ left => Nat.pos_of_ne_zero left
    lowers := fun s a j h helpful taken => lowers s a h helpful.2 (helpful.1 ▸ taken)
    waits := by
      intro s a j h helpful
      rcases Nat.lt_or_eq_of_le (neverUp s a h) with lower | same
      · exact Or.inl lower
      · exact Or.inr ⟨helpful.1, same ▸ helpful.2⟩ }
  exact rounds_reach progress start enough fair

theorem rounds_split {first later : Nat} {actions : List α}
    (fair : Rounds turn (first + later) actions) : ∃ begun rest, actions = begun ++ rest ∧
      Rounds turn first begun ∧ Rounds turn later rest := by
  induction first generalizing actions with
  | zero => exact ⟨[], actions, rfl, trivial, by rwa [Nat.zero_add] at fair⟩
  | succ first ih =>
    rw [Nat.succ_add] at fair
    obtain ⟨once, onward, rfl, everyone, fair⟩ := fair
    obtain ⟨begun, rest, rfl, early, late⟩ := ih fair
    exact ⟨once ++ begun, rest, (List.append_assoc ..).symm, ⟨once, begun, rfl, everyone, early⟩,
      late⟩

theorem rounds_fewer {rounds fewer : Nat} {actions : List α} (fair : Rounds turn rounds actions)
    (less : fewer ≤ rounds) : Rounds turn fewer actions := by
  induction fewer generalizing rounds actions with
  | zero => trivial
  | succ fewer ih =>
    obtain ⟨rounds, rfl⟩ := Nat.exists_eq_add_of_lt less
    obtain ⟨first, rest, split, everyone, fair⟩ := fair
    exact ⟨first, rest, split, everyone, ih fair (Nat.le_add_right fewer rounds)⟩

theorem rounds_repeat {round : List α} (everyone : EveryTurn turn round) (rounds : Nat) :
    Rounds turn rounds (List.replicate rounds round).flatten := by
  induction rounds with
  | zero => trivial
  | succ rounds ih =>
    exact ⟨round, (List.replicate rounds round).flatten, by simp [List.replicate_succ], everyone, ih⟩

end FairRounds
