import MoldReplay.Handles
import Mathlib.Data.List.Induction

/- The ledger of descriptors and mappings: how often each is owned is weighed against
   whether it is open. -/
namespace MoldBalance
open ScheduledRuns ResourceTable MoldHandles

/-- How often a resource is owned beyond being open. -/
def drift (s : Process) (r : Resource) : Int := (owned s.objects).count r - s.table.count r

inductive Built (cfg : MapConfig) (found : MapOutcome) :
    Except Exception MemoryMappedFile × List SysCall → Prop where
  | refused (thrown : Exception) (kept : ¬ found.abandons cfg) : Built cfg found (.error thrown, [])
  | closed (thrown : Exception) (valid : 0 ≤ found.opened.fd) (kept : ¬ found.abandons cfg) :
      Built cfg found (.error thrown, [.acquire (.descriptor found.opened.fd),
        .release (.descriptor found.opened.fd)])
  | abandoned (thrown : Exception) (address length : Nat) (valid : 0 ≤ found.opened.fd)
      (mapped : found.mmap = .ok address) (left : found.abandons cfg) :
      Built cfg found (.error thrown, [.acquire (.descriptor found.opened.fd),
        .acquire (.mapping address length), .release (.descriptor found.opened.fd)])
  | hidden (length : Nat) (valid : 0 ≤ found.opened.fd) (mapped : found.mmap = .ok 0)
      (left : found.abandons cfg) :
      Built cfg found (.ok ⟨⟨found.opened.fd⟩, length, 0⟩,
        [.acquire (.descriptor found.opened.fd), .acquire (.mapping 0 length)])
  | made (address length : Nat) (valid : 0 ≤ found.opened.fd) (mapped : found.mmap = .ok address)
      (there : address ≠ 0) (kept : ¬ found.abandons cfg) :
      Built cfg found (.ok ⟨⟨found.opened.fd⟩, length, address⟩,
        [.acquire (.descriptor found.opened.fd), .acquire (.mapping address length)])

def created (object : Except Exception Object) : List Resource :=
  object.toOption.elim [] Object.resources

def Tidy (s : Process) : Action → Prop
  | .wrap fd => 0 ≤ fd → Resource.descriptor fd ∉ s.table
  | .invoke fd _ => 0 ≤ fd → Resource.descriptor fd ∉ s.table
  | .map cfg found => found.possible s.table = true → ¬ found.abandons cfg
  | _ => True

/-- The change of the drift in a step: descriptors only gain owners, mappings only lose
    them, and none does in a tidy step. -/
structure Drifts (s : Process) (a : Action) (change : Resource → Int) : Prop where
  step : ∀ r, drift (s.step a) r = drift s r + change r
  descriptors : ∀ fd, 0 ≤ change (.descriptor fd)
  mappings : ∀ address length, change (.mapping address length) ≤ 0
  none_iff : (∀ r, change r = 0) ↔ Tidy s a

/-- Everything that is open is owned once, and by calls that were all in order. -/
structure Balanced (s : Process) : Prop where
  once : Throughout Table.apply Table.Allows [] s.log
  even : ∀ r, drift s r = 0

structure Leans (s : Process) : Prop where
  descriptors : Throughout Table.apply Table.Allows [] s.log →
    ∀ fd, 0 ≤ drift s (.descriptor fd)
  mappings : Throughout Table.apply Table.Allows [] s.log →
    ∀ address length, drift s (.mapping address length) ≤ 0

variable {s : Process} {r : Resource} {a : Action}

theorem owned_append (xs ys : List (Option Object)) : owned (xs ++ ys) = owned xs ++ owned ys :=
  List.flatMap_append

theorem owned_set {objects : List (Option Object)} {i : Nat} {object : Object}
    (there : objects[i]?.join = some object) (next : Option Object) (r : Resource) :
    ((owned (objects.set i next)).count r : Int) = (owned objects).count r -
      object.resources.count r + (next.elim [] Object.resources).count r := by
  induction objects generalizing i with
  | nil => simp at there
  | cons first rest ih =>
    cases i with
    | zero =>
      have first_eq : first = some object := by simpa using there
      simp only [owned, List.set_cons_zero, List.flatMap_cons, List.count_append, first_eq,
        Option.elim_some]
      omega
    | succ i =>
      have tail := ih (i := i) (by simpa using there)
      simp only [owned, List.set_cons_succ, List.flatMap_cons, List.count_append] at tail ⊢
      omega

theorem cleanup_eq (f : FileDescriptor) : f.cleanup = f.resources.map .release := by
  unfold FileDescriptor.cleanup FileDescriptor.resources
  split <;> rfl

theorem destroy_eq (object : Object) : object.destroy = object.resources.map .release := by
  cases object with
  | descriptor f => exact cleanup_eq f
  | file m =>
    simp only [Object.destroy, Object.resources, MemoryMappedFile.destroy,
      MemoryMappedFile.resources, MemoryMappedFile.cleanup, cleanup_eq, List.map_append]
    split <;> rfl

theorem moved_resources (object : Object) :
    object.move.1.resources = object.resources ∧ object.move.2.resources = [] := by
  cases object with
  | descriptor f => exact ⟨rfl, rfl⟩
  | file m => exact ⟨rfl, rfl⟩

theorem assign_eq {object other object' other' : Object} {calls : List SysCall}
    (assigned : object.assign other = some (object', other', calls)) :
    object'.resources = other.resources ∧ other'.resources = [] ∧ calls = object.destroy := by
  cases object with
  | descriptor f =>
    cases other with
    | descriptor g => cases assigned; exact ⟨rfl, rfl, rfl⟩
    | file m => cases assigned
  | file m =>
    cases other with
    | descriptor g => cases assigned
    | file n => cases assigned; exact ⟨rfl, rfl, rfl⟩

theorem openPath_cases (path : String) (found : OpenOutcome) :
    (∃ thrown, FileDescriptor.openPath path found = (.error thrown, []) ∧
      ¬ (found.isFile = true ∧ 0 ≤ found.fd)) ∨
    (found.isFile = true ∧ 0 ≤ found.fd ∧
      FileDescriptor.openPath path found = (.ok ⟨found.fd⟩, [.acquire (.descriptor found.fd)])) := by
  unfold FileDescriptor.openPath
  cases file : found.isFile with
  | false => exact Or.inl ⟨_, rfl, by simp⟩
  | true =>
    by_cases failed : found.fd < 0
    · exact Or.inl ⟨_, by rw [if_neg (by simp), if_pos failed], by omega⟩
    · exact Or.inr ⟨rfl, Int.not_lt.mp failed, by rw [if_neg (by simp), if_neg failed]⟩

theorem construct_built (cfg : MapConfig) (found : MapOutcome) :
    Built cfg found (MemoryMappedFile.construct cfg found) := by
  unfold MemoryMappedFile.construct
  rcases openPath_cases cfg.path found.opened with ⟨thrown, refused, failed⟩ | ⟨file, valid, result⟩
  · rw [refused]
    exact .refused thrown fun abandons => failed ⟨abandons.1, abandons.2.1⟩
  · have cleaned : (⟨found.opened.fd⟩ : FileDescriptor).cleanup =
        [.release (.descriptor found.opened.fd)] := if_pos valid
    rw [result]
    cases size : found.fileSize with
    | none =>
      simp only [cleaned]
      exact .closed _ valid fun abandons => by simp [MapOutcome.abandons, size] at abandons
    | some length =>
      cases mapped : found.mmap with
      | error errno =>
        simp only [cleaned]
        exact .closed _ valid fun abandons => by simp [MapOutcome.abandons, mapped] at abandons
      | ok address =>
        have made (kept : ¬ (cfg.madviseFlags ≠ 0 ∧ ∃ errno, found.madvise = .error errno)) :
            Built cfg found (.ok ⟨⟨found.opened.fd⟩, length, address⟩,
              [.acquire (.descriptor found.opened.fd), .acquire (.mapping address length)]) := by
          by_cases hidden : address = 0
          · subst hidden
            exact .hidden length valid mapped ⟨file, valid, by simp [size], 0, mapped, Or.inl rfl⟩
          · refine .made address length valid mapped hidden ?_
            rintro ⟨_, _, _, address', mapped', abandons⟩
            rw [mapped] at mapped'
            cases mapped'
            exact abandons.elim hidden kept
        by_cases unasked : cfg.madviseFlags = 0
        · simp only [if_pos unasked]
          exact made fun asked => asked.1 unasked
        · cases advised : found.madvise with
          | error errno =>
            simp only [if_neg unasked, cleaned]
            exact .abandoned _ address length valid mapped
              ⟨file, valid, by simp [size], address, mapped, Or.inr ⟨unasked, errno, advised⟩⟩
          | ok _ =>
            simp only [if_neg unasked]
            exact made fun ⟨_, errno, failed⟩ => by simp [advised] at failed

theorem constructed_drift (s : Process) (object : Except Exception Object) {calls : List SysCall}
    (once : Throughout Table.apply Table.Allows [] (s.log ++ calls)) (r : Resource) :
    drift (s.constructed object calls) r =
      drift s r + (created object).count r - balance r calls := by
  have allowed := ((throughout_append [] s.log calls).mp once).2
  have counted := table_count allowed r
  have more : (owned (s.objects ++ object.toOption.toList.map some)).count r =
      (owned s.objects).count r + (created object).count r := by
    rw [owned_append, List.count_append]
    cases object with
    | error thrown => rfl
    | ok object => simp [owned, created, Except.toOption]
  simp only [drift, Process.constructed, Process.table, run_append, more] at counted ⊢
  omega

theorem drifts_none (same : ∀ r, drift (s.step a) r = drift s r) (tidy : Tidy s a) :
    Drifts s a fun _ => 0 :=
  ⟨fun r => by rw [same, Int.add_zero], fun _ => Int.le_refl 0, fun _ _ => Int.le_refl 0,
    iff_of_true (fun _ => rfl) tidy⟩

theorem adopted_owns (fd : Int) (thrown : Exception) :
    created ((if fd < 0 then .error thrown else .ok ⟨fd⟩ : Except Exception FileDescriptor).map
      Object.descriptor) = if 0 ≤ fd then [.descriptor fd] else [] := by
  by_cases negative : fd < 0
  · rw [if_pos negative, if_neg (by omega)]
    rfl
  · rw [if_neg negative]
    rfl

theorem descriptor_owns {fd : Int} (valid : 0 ≤ fd) :
    created ((Except.ok (⟨fd⟩ : FileDescriptor) : Except Exception FileDescriptor).map
      Object.descriptor) = [.descriptor fd] := if_pos valid

theorem file_owns {fd : Int} {address : Nat} (valid : 0 ≤ fd) (mapped : address ≠ 0)
    (length : Nat) :
    created ((Except.ok (⟨⟨fd⟩, length, address⟩ : MemoryMappedFile) :
      Except Exception MemoryMappedFile).map Object.file) =
        [.mapping address length, .descriptor fd] := by
  simp [created, Except.map, Except.toOption, Object.resources, MemoryMappedFile.resources,
    FileDescriptor.resources, valid, mapped]

theorem left_drifts {calls : List SysCall} {object : Except Exception MemoryMappedFile}
    {cfg : MapConfig} {found : MapOutcome} (address length : Nat)
    (possible : found.possible s.table = true) (left : found.abandons cfg)
    (drifted : ∀ r, drift (s.step (.map cfg found)) r =
      drift s r + (created (object.map .file)).count r - balance r calls)
    (unowned : ∀ r, ((created (object.map .file)).count r : Int) - balance r calls =
      -(if Resource.mapping address length = r then 1 else 0)) :
    ∃ change, Drifts s (.map cfg found) change := by
  refine ⟨fun r => -(if Resource.mapping address length = r then 1 else 0), ?_, ?_, ?_, ?_⟩
  · intro r
    have := drifted r
    have := unowned r
    omega
  · intro fd
    simp
  · intro address' length'
    split <;> decide
  · refine iff_of_false (fun none => ?_) fun tidy => tidy possible left
    simpa using none (.mapping address length)

theorem adopted_drifts {fd : Int} (object : Except Exception Object)
    (adopts : s.step a = s.constructed object (handedOver s.table fd))
    (made : created object = if 0 ≤ fd then [.descriptor fd] else [])
    (tidy : Tidy s a ↔ (0 ≤ fd → Resource.descriptor fd ∉ s.table))
    (once : Throughout Table.apply Table.Allows [] (s.step a).log) :
    ∃ change, Drifts s a change := by
  rw [adopts] at once
  have drifted := constructed_drift s object once
  rw [← adopts, made] at drifted
  by_cases valid : 0 ≤ fd
  · simp only [if_pos valid, singleton_count] at drifted
    by_cases shared : Resource.descriptor fd ∈ s.table
    · have quiet : handedOver s.table fd = [] := if_neg fun new => new.2 shared
      simp only [quiet, balance_nil, Int.sub_zero] at drifted
      refine ⟨fun r => if Resource.descriptor fd = r then 1 else 0, drifted, ?_, ?_, ?_⟩
      · intro fd'
        split <;> decide
      · intro address length
        simp
      · rw [tidy]
        refine iff_of_false (fun none => ?_) fun fresh => fresh valid shared
        simpa using none (.descriptor fd)
    · have opened : handedOver s.table fd = [.acquire (.descriptor fd)] := if_pos ⟨valid, shared⟩
      refine ⟨_, drifts_none (fun r => ?_) (tidy.mpr fun _ => shared)⟩
      have := drifted r
      simp only [opened, balance_cons, balance_nil, charge] at this
      omega
  · have quiet : handedOver s.table fd = [] := if_neg fun new => valid new.1
    refine ⟨_, drifts_none (fun r => ?_) (tidy.mpr fun positive => absurd positive valid)⟩
    have := drifted r
    simp only [quiet, balance_nil, if_neg valid, List.count_nil] at this
    omega

theorem mapped_drifts {cfg : MapConfig} {found : MapOutcome}
    (once : Throughout Table.apply Table.Allows [] (s.step (.map cfg found)).log) :
    ∃ change, Drifts s (.map cfg found) change := by
  by_cases possible : found.possible s.table = true
  · have built := construct_built cfg found
    have stepped : s.step (.map cfg found) =
        s.constructed ((MemoryMappedFile.construct cfg found).1.map .file)
          (MemoryMappedFile.construct cfg found).2 := by
      simp only [Process.step, if_pos possible]
    rw [stepped] at once
    have drifted := constructed_drift s ((MemoryMappedFile.construct cfg found).1.map .file) once
    rw [← stepped] at drifted
    clear stepped once
    generalize MemoryMappedFile.construct cfg found = result at built drifted
    have balanced : ∀ {object : Except Exception MemoryMappedFile} {calls : List SysCall},
        result = (object, calls) →
        (∀ r, ((created (object.map .file)).count r : Int) = balance r calls) →
        ∀ r, drift (s.step (.map cfg found)) r = drift s r := by
      rintro object calls rfl equal r
      have changed := drifted r
      have same := equal r
      dsimp only at changed
      omega
    cases built with
    | refused thrown kept =>
      exact ⟨_, drifts_none (balanced rfl fun r => rfl) fun _ => kept⟩
    | closed thrown valid kept =>
      refine ⟨_, drifts_none (balanced rfl fun r => ?_) fun _ => kept⟩
      simp only [balance_cons, balance_nil, charge]
      change (0 : Int) = _
      split <;> rfl
    | made address length valid mapped there kept =>
      refine ⟨_, drifts_none (balanced rfl fun r => ?_) fun _ => kept⟩
      rw [file_owns valid there, List.count_cons, Int.natCast_add, singleton_count]
      simp only [balance_cons, balance_nil, charge]
      split <;> split <;> simp_all
    | abandoned thrown address length valid mapped left =>
      refine left_drifts address length possible left drifted fun r => ?_
      simp only [balance_cons, balance_nil, charge]
      change (0 : Int) - _ = _
      split <;> split <;> omega
    | hidden length valid mapped left =>
      refine left_drifts 0 length possible left drifted fun r => ?_
      have owns : created ((.ok ⟨⟨found.opened.fd⟩, length, 0⟩ :
          Except Exception MemoryMappedFile).map Object.file) = [.descriptor found.opened.fd] := by
        simp [created, Except.map, Except.toOption, Object.resources, MemoryMappedFile.resources,
          FileDescriptor.resources, valid]
      rw [owns, singleton_count]
      simp only [balance_cons, balance_nil, charge]
      omega
  · have stays : s.step (.map cfg found) = s := by simp only [Process.step, if_neg possible]
    exact ⟨_, drifts_none (fun r => by rw [stays]) fun allowed => absurd allowed possible⟩

theorem opened_drift {path : String} {found : OpenOutcome}
    (once : Throughout Table.apply Table.Allows [] (s.step (.openPath path found)).log)
    (r : Resource) : drift (s.step (.openPath path found)) r = drift s r := by
  by_cases possible : found.possible s.table = true
  · have stepped : s.step (.openPath path found) =
        s.constructed ((FileDescriptor.openPath path found).1.map .descriptor)
          (FileDescriptor.openPath path found).2 := by
      simp only [Process.step, if_pos possible]
    rw [stepped] at once ⊢
    rw [constructed_drift s ((FileDescriptor.openPath path found).1.map .descriptor) once]
    rcases openPath_cases path found with ⟨thrown, refused, _⟩ | ⟨_, valid, result⟩
    · rw [refused]
      change _ + (0 : Int) - 0 = _
      omega
    · simp only [result, descriptor_owns valid, singleton_count, balance_cons, balance_nil, charge]
      omega
  · simp only [Process.step, if_neg possible]

theorem moved_drift (i : Nat) (r : Resource) : drift (s.step (.move i)) r = drift s r := by
  cases there : s.object i with
  | none => simp only [Process.step, there]
  | some other =>
    obtain ⟨taken, emptied⟩ := moved_resources other
    have replaced := owned_set there (some other.move.2) r
    have appended : owned [some other.move.1] = other.move.1.resources := List.append_nil _
    simp only [Process.step, there, drift, Process.table, owned_append, List.count_append, appended,
      taken]
    simp only [Option.elim_some, emptied, List.count_nil] at replaced
    omega

theorem destroyed_drift {i : Nat}
    (once : Throughout Table.apply Table.Allows [] (s.step (.destroy i)).log) (r : Resource) :
    drift (s.step (.destroy i)) r = drift s r := by
  cases there : s.object i with
  | none => simp only [Process.step, there]
  | some object =>
    simp only [Process.step, there] at once ⊢
    have counted := table_count ((throughout_append [] s.log object.destroy).mp once).2 r
    have dropped := owned_set there none r
    simp only [Option.elim_none, List.count_nil] at dropped
    rw [destroy_eq, released_balance] at counted
    simp only [drift, Process.table, run_append, destroy_eq] at counted ⊢
    omega

theorem assigned_drift {i j : Nat}
    (once : Throughout Table.apply Table.Allows [] (s.step (.assign i j)).log) (r : Resource) :
    drift (s.step (.assign i j)) r = drift s r := by
  by_cases same : i = j
  · simp only [Process.step, if_pos same]
  · cases there : s.object i with
    | none => simp only [Process.step, if_neg same, there]
    | some object =>
      cases there' : s.object j with
      | none => simp only [Process.step, if_neg same, there, there']
      | some other =>
        cases assigned : object.assign other with
        | none => simp only [Process.step, if_neg same, there, there', assigned]
        | some result =>
          obtain ⟨object', other', calls⟩ := result
          obtain ⟨taken, emptied, rfl⟩ := assign_eq assigned
          simp only [Process.step, if_neg same, there, there', assigned] at once ⊢
          have counted := table_count ((throughout_append [] s.log object.destroy).mp once).2 r
          have first := owned_set there (some object') r
          have kept : (s.objects.set i (some object'))[j]?.join = some other := by
            rw [List.getElem?_set_ne same]
            exact there'
          have second := owned_set kept (some other') r
          simp only [Option.elim_some, taken, emptied, List.count_nil] at first second
          rw [destroy_eq, released_balance] at counted
          simp only [drift, Process.table, run_append, destroy_eq] at counted ⊢
          omega

/-- No step changes the drift of anything, unless a descriptor gets a second owner or a
    mapping is abandoned. -/
theorem step_drift (s : Process) (a : Action)
    (once : Throughout Table.apply Table.Allows [] (s.step a).log) :
    ∃ change, Drifts s a change := by
  cases a with
  | empty =>
    refine ⟨_, drifts_none (fun r => ?_) trivial⟩
    rw [Process.step, constructed_drift s (.ok (.descriptor {})) once]
    change _ + (0 : Int) - 0 = _
    omega
  | wrap fd =>
    exact adopted_drifts ((FileDescriptor.wrap fd).map .descriptor) rfl (adopted_owns fd _)
      Iff.rfl once
  | invoke fd errno =>
    exact adopted_drifts ((FileDescriptor.invoke fd errno).map .descriptor) rfl (adopted_owns fd _)
      Iff.rfl once
  | openPath path found => exact ⟨_, drifts_none (opened_drift once) trivial⟩
  | map cfg found => exact mapped_drifts once
  | move i => exact ⟨_, drifts_none (moved_drift i) trivial⟩
  | assign i j => exact ⟨_, drifts_none (assigned_drift once) trivial⟩
  | destroy i => exact ⟨_, drifts_none (destroyed_drift once) trivial⟩

theorem object_owned {i : Nat} {object : Object} (there : s.object i = some object)
    (r : Resource) : object.resources.count r ≤ (owned s.objects).count r := by
  have dropped := owned_set there none r
  simp only [Option.elim_none, List.count_nil] at dropped
  omega

theorem destroy_allowed {i : Nat} {object : Object} (there : s.object i = some object)
    (once : Throughout Table.apply Table.Allows [] s.log)
    (backed : ∀ r, (owned s.objects).count r ≤ s.table.count r) :
    Throughout Table.apply Table.Allows [] (s.log ++ object.destroy) := by
  refine (throughout_append _ _ _).mpr ⟨once, ?_⟩
  rw [destroy_eq]
  exact releases_allowed fun r => Nat.le_trans (object_owned there r) (backed r)

theorem descriptor_fresh {table : List Resource} {found : OpenOutcome}
    (possible : found.possible table = true) (valid : 0 ≤ found.fd) :
    Resource.descriptor found.fd ∉ table := by
  have nonneg : ¬ found.fd < 0 := by omega
  simpa [OpenOutcome.possible, nonneg] using possible

theorem mapping_fresh {table : List Resource} {found : MapOutcome} {address : Nat}
    (possible : found.possible table = true) (mapped : found.mmap = .ok address) (length : Nat) :
    Resource.mapping address length ∉ table := by
  intro member
  simp only [MapOutcome.possible, mapped, Bool.and_eq_true, Bool.not_eq_true',
    List.any_eq_false] at possible
  exact possible.2 _ member (by simp [Resource.mapsAt])

theorem construct_allowed {table : List Resource} {cfg : MapConfig} {found : MapOutcome}
    (possible : found.possible table = true) :
    Throughout Table.apply Table.Allows table (MemoryMappedFile.construct cfg found).2 := by
  have built := construct_built cfg found
  have opens : found.opened.possible table = true := (Bool.and_eq_true_iff.mp possible).1
  generalize MemoryMappedFile.construct cfg found = result at built ⊢
  cases built with
  | refused thrown kept => trivial
  | closed thrown valid kept =>
    exact ⟨descriptor_fresh opens valid, by simp [Table.Allows, Table.apply], trivial⟩
  | abandoned thrown address length valid mapped left =>
    have new := mapping_fresh possible mapped length
    exact ⟨descriptor_fresh opens valid, by simp [Table.Allows, Table.apply, new],
      by simp [Table.Allows, Table.apply], trivial⟩
  | hidden length valid mapped left =>
    have new := mapping_fresh possible mapped length
    exact ⟨descriptor_fresh opens valid, by simp [Table.Allows, Table.apply, new], trivial⟩
  | made address length valid mapped there kept =>
    have new := mapping_fresh possible mapped length
    exact ⟨descriptor_fresh opens valid, by simp [Table.Allows, Table.apply, new], trivial⟩

theorem handedOver_allowed (table : List Resource) (fd : Int) :
    Throughout Table.apply Table.Allows table (handedOver table fd) := by
  unfold handedOver
  split
  · rename_i new
    exact ⟨new.2, trivial⟩
  · trivial

theorem step_once (a : Action) (once : Throughout Table.apply Table.Allows [] s.log)
    (backed : ∀ r, (owned s.objects).count r ≤ s.table.count r) :
    Throughout Table.apply Table.Allows [] (s.step a).log := by
  have appended : ∀ {calls : List SysCall}, Throughout Table.apply Table.Allows s.table calls →
      Throughout Table.apply Table.Allows [] (s.log ++ calls) :=
    fun allowed => (throughout_append _ _ _).mpr ⟨once, allowed⟩
  cases a with
  | empty => exact appended trivial
  | wrap fd => exact appended (handedOver_allowed _ fd)
  | invoke fd errno => exact appended (handedOver_allowed _ fd)
  | openPath path found =>
    simp only [Process.step]
    split
    · rename_i possible
      refine appended ?_
      rcases openPath_cases path found with ⟨thrown, refused, _⟩ | ⟨_, valid, result⟩
      · rw [refused]
        trivial
      · rw [result]
        exact ⟨descriptor_fresh possible valid, trivial⟩
    · exact once
  | map cfg found =>
    simp only [Process.step]
    split
    · rename_i possible
      exact appended (construct_allowed possible)
    · exact once
  | move i =>
    simp only [Process.step]
    split <;> exact once
  | assign i j =>
    simp only [Process.step]
    split
    · exact once
    · split
      · rename_i object other there _
        split
        · exact once
        · rename_i object' other' calls assigned
          rw [(assign_eq assigned).2.2]
          exact destroy_allowed there once backed
      · exact once
  | destroy i =>
    simp only [Process.step]
    split
    · exact once
    · rename_i object there
      exact destroy_allowed there once backed

theorem step_log (s : Process) (a : Action) : ∃ calls, (s.step a).log = s.log ++ calls := by
  have same : ∃ calls, s.log = s.log ++ calls := ⟨[], (List.append_nil _).symm⟩
  cases a <;> simp only [Process.step, Process.constructed] <;> repeat' split
  all_goals first | exact same | exact ⟨_, rfl⟩

theorem run_log (s : Process) (actions : List Action) :
    ∃ calls, (run Process.step s actions).log = s.log ++ calls := by
  induction actions using List.reverseRecOn with
  | nil => exact ⟨[], (List.append_nil _).symm⟩
  | append_singleton actions a ih =>
    obtain ⟨calls, before⟩ := ih
    obtain ⟨more, after⟩ := step_log (run Process.step s actions) a
    exact ⟨calls ++ more, by rw [run_snoc, after, before, List.append_assoc]⟩

theorem once_before {s : Process} (actions : List Action)
    (once : Throughout Table.apply Table.Allows [] (run Process.step s actions).log) :
    Throughout Table.apply Table.Allows [] s.log := by
  obtain ⟨calls, log⟩ := run_log s actions
  rw [log] at once
  exact ((throughout_append _ _ _).mp once).1

theorem step_leans (s : Process) (a : Action) (leans : Leans s) : Leans (s.step a) := by
  have drifted : Throughout Table.apply Table.Allows [] (s.step a).log →
      ∃ change, Drifts s a change ∧ Throughout Table.apply Table.Allows [] s.log := by
    intro once
    obtain ⟨change, drifts⟩ := step_drift s a once
    exact ⟨change, drifts, once_before [a] once⟩
  constructor
  · intro once fd
    obtain ⟨change, drifts, before⟩ := drifted once
    rw [drifts.step]
    exact Int.add_nonneg (leans.descriptors before fd) (drifts.descriptors fd)
  · intro once address length
    obtain ⟨change, drifts, before⟩ := drifted once
    rw [drifts.step]
    have := leans.mappings before address length
    have := drifts.mappings address length
    omega

theorem owned_iff_open (even : ∀ r, drift s r = 0) (r : Resource) :
    r ∈ owned s.objects ↔ r ∈ s.table := by
  have none := even r
  unfold drift at none
  rw [← List.count_pos_iff, ← List.count_pos_iff]
  omega

theorem careful_iff_tidy (even : ∀ r, drift s r = 0) (a : Action) : Careful s a ↔ Tidy s a := by
  cases a with
  | wrap fd => simp only [Careful, Tidy, owned_iff_open even]
  | invoke fd errno => simp only [Careful, Tidy, owned_iff_open even]
  | _ => rfl

theorem step_balanced_iff (s : Process) (a : Action) (leans : Leans s) :
    Balanced (s.step a) ↔ Balanced s ∧ Careful s a := by
  constructor
  · intro balanced
    obtain ⟨change, drifts⟩ := step_drift s a balanced.once
    have once := once_before [a] balanced.once
    have sum : ∀ r, drift s r + change r = 0 := fun r => (drifts.step r).symm.trans (balanced.even r)
    have none : ∀ r, change r = 0 := by
      intro r
      have total := sum r
      cases r with
      | descriptor fd =>
        have := leans.descriptors once fd
        have := drifts.descriptors fd
        omega
      | mapping address length =>
        have := leans.mappings once address length
        have := drifts.mappings address length
        omega
    have even : ∀ r, drift s r = 0 := by
      intro r
      have total := sum r
      rwa [none, Int.add_zero] at total
    exact ⟨⟨once, even⟩, (careful_iff_tidy even a).mpr (drifts.none_iff.mp none)⟩
  · rintro ⟨⟨once, even⟩, careful⟩
    have after := step_once a once fun r => by
      have := even r
      unfold drift at this
      omega
    obtain ⟨change, drifts⟩ := step_drift s a after
    have none := drifts.none_iff.mpr ((careful_iff_tidy even a).mp careful)
    exact ⟨after, fun r => by rw [drifts.step, even, none, Int.add_zero]⟩

theorem balanced_released (balanced : Balanced s) : Released s := by
  have opens := owned_iff_open balanced.even
  have fresh : s.table.Nodup := table_nodup balanced.once
  refine ⟨balanced.once, ?_, fun r => (opens r).mp, fun none => ?_⟩
  · refine List.nodup_iff_count_le_one.mpr fun r => ?_
    have few := List.nodup_iff_count_le_one.mp fresh r
    have even := balanced.even r
    unfold drift at even
    omega
  · have empty : owned s.objects = [] := by
      refine List.flatMap_eq_nil_iff.mpr fun object member => ?_
      rw [none object member]
      rfl
    refine List.eq_nil_iff_forall_not_mem.mpr fun r there => ?_
    rw [← opens, empty] at there
    cases there

theorem destroy_object (s : Process) (i : Nat) :
    (s.step (.destroy i)).objects = s.objects.set i none := by
  cases there : s.object i with
  | some object => simp only [Process.step, there]
  | none =>
    simp only [Process.step, there]
    apply List.ext_getElem?
    intro j
    rw [List.getElem?_set]
    split
    · rename_i same
      subst same
      cases at_i : s.objects[i]? with
      | none => rw [if_neg (by simpa using at_i)]
      | some object =>
        have gone : object = none := by simpa [Process.object, at_i] using there
        have inside := (List.getElem?_eq_some_iff.mp at_i).1
        rw [if_pos inside, gone]
    · rfl

theorem dropped_objects (s : Process) (drops : List Nat) :
    (run Process.step s (drops.map .destroy)).objects =
      drops.foldl (fun objects i => objects.set i none) s.objects := by
  induction drops generalizing s with
  | nil => rfl
  | cons i rest ih =>
    change (run Process.step (s.step (.destroy i)) (rest.map .destroy)).objects = _
    rw [ih, destroy_object]
    rfl

theorem dropped_at (drops : List Nat) (objects : List (Option Object)) (i : Nat) :
    (drops.foldl (fun objects i => objects.set i none) objects)[i]? =
      if i ∈ drops then objects[i]?.map fun _ => none else objects[i]? := by
  induction drops generalizing objects with
  | nil => rfl
  | cons first rest ih =>
    rw [List.foldl_cons, ih, List.getElem?_set]
    by_cases same : first = i
    · subst same
      by_cases inside : first < objects.length
      · simp [inside]
      · simp [inside]
    · have other : i ≠ first := Ne.symm same
      simp [same, other]

theorem all_dropped (s : Process) :
    ∀ object ∈ (run Process.step s ((List.range s.objects.length).map .destroy)).objects,
      object = none := by
  intro object member
  obtain ⟨i, at_i⟩ := List.getElem?_of_mem member
  rw [dropped_objects, dropped_at] at at_i
  split at at_i
  · simp at at_i
    exact at_i.2.symm
  · rename_i outside
    have beyond : s.objects.length ≤ i := by simpa using outside
    rw [List.getElem?_eq_none beyond] at at_i
    cases at_i

theorem dropped_drift {drops : List Nat}
    (once : Throughout Table.apply Table.Allows [] (run Process.step s (drops.map .destroy)).log)
    (r : Resource) : drift (run Process.step s (drops.map .destroy)) r = drift s r := by
  induction drops generalizing s with
  | nil => rfl
  | cons i rest ih =>
    have first : Throughout Table.apply Table.Allows [] (s.step (.destroy i)).log :=
      once_before (rest.map .destroy) once
    exact (ih once).trans (destroyed_drift first r)

/-- Whatever is destroyed in which order, it comes out right exactly if all is in balance. -/
theorem released_iff_balanced (s : Process) (leans : Leans s) :
    ReleasedAfter s ↔ Balanced s := by
  constructor
  · intro released
    refine ⟨(released []).once, fun r => ?_⟩
    have last := released (List.range s.objects.length)
    have gone := all_dropped s
    have empty : owned (run Process.step s ((List.range s.objects.length).map .destroy)).objects =
        [] := by
      refine List.flatMap_eq_nil_iff.mpr fun object member => ?_
      rw [gone object member]
      rfl
    rw [← dropped_drift last.once r, drift, empty, last.settled gone]
    rfl
  · intro balanced drops
    induction drops generalizing s with
    | nil => exact balanced_released balanced
    | cons i rest ih =>
      have kept := (step_balanced_iff s (.destroy i) leans).mpr ⟨balanced, trivial⟩
      exact ih (s.step (.destroy i)) (step_leans s _ leans) kept

theorem start_leans : Leans start := ⟨fun _ _ => Int.le_refl 0, fun _ _ _ => Int.le_refl 0⟩

/-- Every descriptor and mapping is given back once, exactly if no constructor takes a
    descriptor that another object owns and none throws with a mapping made. -/
theorem released_once_iff (actions : List Action) :
    ReleasedAfter (run Process.step start actions) ↔
      Throughout Process.step Careful start actions := by
  have leans : Leans (run Process.step start actions) :=
    run_always (fun s a => step_leans s a) actions start_leans
  rw [released_iff_balanced _ leans, run_exactly (fun s a => step_leans s a) step_balanced_iff
    actions start_leans]
  exact and_iff_right ⟨trivial, fun _ => rfl⟩

/-- mmap succeeds and madvise does not: the mapping outlives the constructor. -/
theorem failed_madvise_leaks : ¬ ReleasedAfter (run Process.step start
    [.map { path := "feed.itch", madviseFlags := 999 }
      ⟨⟨true, 3, 0⟩, some 4096, .ok 65536, .error 22⟩]) := by
  intro released
  have left := (released []).settled (by decide)
  exact absurd left (by decide)

end MoldBalance
