import MoldReplay.ResourceTable

/- FileDescriptor and MemoryMappedFile: which objects hold which descriptors and mappings,
   and the system calls their special members make. A wrapped descriptor counts as opened
   when it is handed over. -/
namespace MoldHandles
open ScheduledRuns ResourceTable

inductive Resource where
  | descriptor (fd : Int)
  | mapping (address length : Nat)
  deriving DecidableEq, Repr

abbrev SysCall := Call Resource

/- The constructors that ask for their std::source_location::current().function_name(). -/
inductive Function where
  | fileDescriptorPath
  | fileDescriptorCall
  | memoryMappedFile
  deriving DecidableEq, Repr

/-- What is thrown. A text begins with what the compiler makes the function's name. -/
inductive Exception where
  | invalidArgument (function : Option Function) (what : String)
  | systemError (errno : Nat) (function : Function) (what : String)
  | filesystemError
  deriving DecidableEq, Repr

structure OpenOutcome where
  isFile : Bool
  fd : Int
  errno : Nat

structure FileDescriptor where
  fd : Int := -1
  deriving DecidableEq, Repr

def FileDescriptor.wrap (fd : Int) : Except Exception FileDescriptor :=
  if fd < 0 then .error (.invalidArgument none "util::FileDescriptor given negative fd") else .ok ⟨fd⟩

/-- FileDescriptor(path, flags) -/
def FileDescriptor.openPath (path : String) (found : OpenOutcome) :
    Except Exception FileDescriptor × List SysCall :=
  if !found.isFile then
    (.error (.invalidArgument (some .fileDescriptorPath) (" path is not a file " ++ path)), [])
  else if found.fd < 0 then
    (.error (.systemError found.errno .fileDescriptorPath " failed to open file"), [])
  else (.ok ⟨found.fd⟩, [.acquire (.descriptor found.fd)])

/-- FileDescriptor(syscall), by what the callable returns. -/
def FileDescriptor.invoke (fd : Int) (errno : Nat) : Except Exception FileDescriptor :=
  if fd < 0 then .error (.systemError errno .fileDescriptorCall "") else .ok ⟨fd⟩

def FileDescriptor.cleanup (f : FileDescriptor) : List SysCall :=
  if 0 ≤ f.fd then [.release (.descriptor f.fd)] else []

def FileDescriptor.move (other : FileDescriptor) : FileDescriptor × FileDescriptor :=
  (⟨other.fd⟩, ⟨-1⟩)

def FileDescriptor.assign (f other : FileDescriptor) :
    FileDescriptor × FileDescriptor × List SysCall :=
  (⟨other.fd⟩, ⟨-1⟩, f.cleanup)

structure MapConfig where
  path : String
  -- mmap_flags only go to mmap
  madviseFlags : Int := 0

/- What the calls of the constructor come to. -/
structure MapOutcome where
  opened : OpenOutcome
  -- file_size may throw
  fileSize : Option Nat
  -- the address, or errno
  mmap : Except Nat Nat
  madvise : Except Nat Unit

structure MemoryMappedFile where
  fd : FileDescriptor
  length : Nat
  mappedFile : Nat
  deriving DecidableEq, Repr

def MemoryMappedFile.construct (cfg : MapConfig) (found : MapOutcome) :
    Except Exception MemoryMappedFile × List SysCall :=
  -- when the body throws, the destructor of the member fd_ runs, and that of the object does not
  match FileDescriptor.openPath cfg.path found.opened with
  | (.error thrown, calls) => (.error thrown, calls)
  | (.ok fd, calls) =>
    match found.fileSize with
    | none => (.error .filesystemError, calls ++ fd.cleanup)
    | some length =>
      match found.mmap with
      | .error errno => (.error (.systemError errno .memoryMappedFile ""), calls ++ fd.cleanup)
      | .ok mappedFile =>
        let calls := calls ++ [.acquire (.mapping mappedFile length)]
        if cfg.madviseFlags = 0 then (.ok ⟨fd, length, mappedFile⟩, calls)
        else
          match found.madvise with
          | .error errno => (.error (.systemError errno .memoryMappedFile ""), calls ++ fd.cleanup)
          | .ok () => (.ok ⟨fd, length, mappedFile⟩, calls)

def MemoryMappedFile.cleanup (m : MemoryMappedFile) : List SysCall :=
  if m.mappedFile ≠ 0 then [.release (.mapping m.mappedFile m.length)] else []

def MemoryMappedFile.destroy (m : MemoryMappedFile) : List SysCall := m.cleanup ++ m.fd.cleanup

def MemoryMappedFile.move (other : MemoryMappedFile) : MemoryMappedFile × MemoryMappedFile :=
  match other.fd.move with
  | (fd, emptied) => (⟨fd, other.length, other.mappedFile⟩, ⟨emptied, 0, 0⟩)

def MemoryMappedFile.assign (m other : MemoryMappedFile) :
    MemoryMappedFile × MemoryMappedFile × List SysCall :=
  match m.fd.assign other.fd with
  | (fd, emptied, calls) =>
    (⟨fd, other.length, other.mappedFile⟩, ⟨emptied, 0, 0⟩, m.cleanup ++ calls)

inductive Object where
  | descriptor (f : FileDescriptor)
  | file (m : MemoryMappedFile)
  deriving DecidableEq, Repr

def Object.destroy : Object → List SysCall
  | .descriptor f => f.cleanup
  | .file m => m.destroy

def Object.move : Object → Object × Object
  | .descriptor f => (.descriptor f.move.1, .descriptor f.move.2)
  | .file m => (.file m.move.1, .file m.move.2)

def Object.assign : Object → Object → Option (Object × Object × List SysCall)
  | .descriptor f, .descriptor other =>
    match f.assign other with
    | (f, other, calls) => some (.descriptor f, .descriptor other, calls)
  | .file m, .file other =>
    match m.assign other with
    | (m, other, calls) => some (.file m, .file other, calls)
  | _, _ => none

structure Process where
  -- by number; a destroyed one leaves its number behind
  objects : List (Option Object)
  log : List SysCall

def start : Process := ⟨[], []⟩

def Process.table (s : Process) : List Resource := run Table.apply [] s.log

inductive Action where
  | empty
  | wrap (fd : Int)
  | invoke (fd : Int) (errno : Nat)
  | openPath (path : String) (found : OpenOutcome)
  | map (cfg : MapConfig) (found : MapOutcome)
  | move (i : Nat)
  | assign (i j : Nat)
  | destroy (i : Nat)

def Resource.mapsAt (address : Nat) : Resource → Bool
  | .descriptor _ => false
  | .mapping address' _ => address' == address

/-- open returns no descriptor that is in use. -/
def OpenOutcome.possible (table : List Resource) (found : OpenOutcome) : Bool :=
  decide (found.fd < 0) || !table.contains (.descriptor found.fd)

/-- Neither does mmap return an address that is in use. It returns 0 to a privileged process
    that has MAP_FIXED among its mmap_flags. -/
def MapOutcome.possible (table : List Resource) (found : MapOutcome) : Bool :=
  found.opened.possible table &&
    match found.mmap with
    | .error _ => true
    | .ok address => !table.any (Resource.mapsAt address)

/-- The system call by which a descriptor that is handed over came about, unless it is that
    of another object. -/
def handedOver (table : List Resource) (fd : Int) : List SysCall :=
  if 0 ≤ fd ∧ Resource.descriptor fd ∉ table then [.acquire (.descriptor fd)] else []

def Process.constructed (s : Process) (object : Except Exception Object) (calls : List SysCall) :
    Process :=
  { objects := s.objects ++ object.toOption.toList.map some
    log := s.log ++ calls }

def Process.object (s : Process) (i : Nat) : Option Object := s.objects[i]?.join

/-- An action on an object that is not there, or an outcome that no kernel gives, is
    without effect. -/
def Process.step (s : Process) : Action → Process
  | .empty => s.constructed (.ok (.descriptor {})) []
  | .wrap fd => s.constructed ((FileDescriptor.wrap fd).map .descriptor) (handedOver s.table fd)
  | .invoke fd errno =>
    s.constructed ((FileDescriptor.invoke fd errno).map .descriptor) (handedOver s.table fd)
  | .openPath path found =>
    if found.possible s.table then
      match FileDescriptor.openPath path found with
      | (f, calls) => s.constructed (f.map .descriptor) calls
    else s
  | .map cfg found =>
    if found.possible s.table then
      match MemoryMappedFile.construct cfg found with
      | (m, calls) => s.constructed (m.map .file) calls
    else s
  | .move i =>
    match s.object i with
    | none => s
    | some other =>
      match other.move with
      | (object, other) =>
        { s with objects := s.objects.set i (some other) ++ [some object] }
  | .assign i j =>
    -- this != &other
    if i = j then s
    else
      match s.object i, s.object j with
      | some object, some other =>
        match object.assign other with
        | none => s
        | some (object, other, calls) =>
          { objects := (s.objects.set i (some object)).set j (some other)
            log := s.log ++ calls }
      | _, _ => s
  | .destroy i =>
    match s.object i with
    | none => s
    | some object => { objects := s.objects.set i none, log := s.log ++ object.destroy }

def FileDescriptor.resources (f : FileDescriptor) : List Resource :=
  if 0 ≤ f.fd then [.descriptor f.fd] else []

def MemoryMappedFile.resources (m : MemoryMappedFile) : List Resource :=
  (if m.mappedFile ≠ 0 then [.mapping m.mappedFile m.length] else []) ++ m.fd.resources

def Object.resources : Object → List Resource
  | .descriptor f => f.resources
  | .file m => m.resources

def owned (objects : List (Option Object)) : List Resource :=
  objects.flatMap fun object => object.elim [] Object.resources

/-- No call gives back what is not open, or an mmap with another length; no two live objects
    own the same, and nothing they own is closed; without live objects nothing is open. -/
structure Released (s : Process) : Prop where
  once : Throughout Table.apply Table.Allows [] s.log
  distinct : (owned s.objects).Nodup
  kept : ∀ r ∈ owned s.objects, r ∈ s.table
  settled : (∀ object ∈ s.objects, object = none) → s.table = []

def ReleasedAfter (s : Process) : Prop :=
  ∀ drops : List Nat, Released (run Process.step s (drops.map .destroy))

/-- The constructor of MemoryMappedFile throws when madvise fails, and cleanup takes a mapping
    at address 0 for none. -/
def MapOutcome.abandons (cfg : MapConfig) (found : MapOutcome) : Prop :=
  found.opened.isFile = true ∧ 0 ≤ found.opened.fd ∧ found.fileSize.isSome = true ∧
    ∃ address, found.mmap = .ok address ∧
      (address = 0 ∨ cfg.madviseFlags ≠ 0 ∧ ∃ errno, found.madvise = .error errno)

/-- No descriptor is taken over from an object that lives on, and no mapping is abandoned. -/
def Careful (s : Process) : Action → Prop
  | .wrap fd => 0 ≤ fd → Resource.descriptor fd ∉ owned s.objects
  | .invoke fd _ => 0 ≤ fd → Resource.descriptor fd ∉ owned s.objects
  | .map cfg found => found.possible s.table = true → ¬ found.abandons cfg
  | _ => True

end MoldHandles
