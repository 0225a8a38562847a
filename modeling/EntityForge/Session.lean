import EntityForge.Disk

/-!
What a program does to a disk: one request after the other, each of which may depend on the replies to
those before.

A session is data. `run` plays it against a disk that is a tree; a real disk is another player.
-/

namespace EntityForge

inductive Session (α : Type) where
  | done (result : α)
  | ask (request : Request) (next : request.Reply → Session α)

namespace Session

def bind {α β : Type} : Session α → (α → Session β) → Session β
  | done result, f => f result
  | ask request next, f => ask request fun reply => bind (next reply) f

instance : Monad Session where
  pure := done
  bind := bind

/-- The result, and the disk afterwards. -/
def run {α : Type} : Session α → Disk → α × Disk
  | done result, disk => (result, disk)
  | ask request next, disk =>
    let (reply, disk) := disk.answer request
    run (next reply) disk

theorem run_bind {α β : Type} (s : Session α) (f : α → Session β) (disk : Disk) :
    (s.bind f).run disk = (f (s.run disk).1).run (s.run disk).2 := by
  induction s generalizing disk with
  | done result => rfl
  | ask request next ih => exact ih _ _

/-- A single request. -/
def send (request : Request) : Session request.Reply := ask request done

/-- Whether something is there, links followed. -/
def exists? (path : Path) : Session Bool := do
  match ← send (.probe path) with
  | .ok _ => return true
  | .error _ => return false

def isDirectory (path : Path) : Session Bool := do
  match ← send (.probe path) with
  | .ok directory => return directory
  | .error _ => return false

/-- The first of some paths as a directory, each of which lies in the next one. What is missing above it
is made first; one that is there is left alone. -/
def makeDirectories : List Path → Session (Except FileFault Unit)
  | [] => return .error .noRoot
  | path :: above => do
    if path.components.isEmpty then return .ok ()
    match ← send (.makeDirectory path) with
    | .ok () => return .ok ()
    | .error .notFound =>
      match ← makeDirectories above with
      | .error fault => return .error fault
      | .ok () => settle path (← send (.makeDirectory path))
    | .error fault => settle path (.error fault)
where
  /-- A refusal is no harm where a directory is there already. -/
  settle (path : Path) : Except FileFault Unit → Session (Except FileFault Unit)
    | .ok () => return .ok ()
    | .error fault => do if ← isDirectory path then return .ok () else return .error fault

end Session

end EntityForge
