import EntityForge.Program

/-!
The program on a real disk and terminal.
-/

namespace EntityForge

/-- The fault that an error number stands for. -/
def FileFault.ofNumber? : UInt32 → Option FileFault
  | 1 => some .notPermitted
  | 2 => some .notFound
  | 16 => some .busy
  | 17 => some .alreadyExists
  | 20 => some .notADirectory
  | 21 => some .isADirectory
  | 36 => some .nameTooLong
  | 40 => some .tooManyLinks
  | _ => none

def FileFault.ofError (error : IO.Error) : FileFault :=
  let number? : Option UInt32 :=
    match error with
    | .alreadyExists _ number _ | .otherError number _ | .resourceBusy number _
    | .unsatisfiedConstraints number _ | .noFileOrDirectory _ number _
    | .invalidArgument _ number _ | .permissionDenied _ number _
    | .inappropriateType _ number _ => some number
    | _ => none
  let fault? : Option FileFault := do
    let number ← number?
    -- some numbers come negated
    FileFault.ofNumber? (if number < 0x80000000 then number else 0 - number)
  fault?.getD (.other (toString error))

/-- The reply to an action on the disk. -/
def reply {α : Type} (action : IO α) : IO (Except FileFault α) := do
  try
    return .ok (← action)
  catch error =>
    return .error (.ofError error)

/-- A path can be gone through only if a directory is at its end. -/
def probeDisk (path : Path) : IO Bool := do
  let _ ← IO.FS.realPath path.text
  try
    let _ ← IO.FS.realPath (path.text ++ "/.")
    return true
  catch _ =>
    return false

def Request.perform : (request : Request) → IO request.Reply
  | .probe path => reply (probeDisk path)
  | .read path => reply (IO.FS.readFile path.text)
  | .makeDirectory path => reply (IO.FS.createDir path.text)
  | .write path contents => reply (IO.FS.writeFile path.text contents)
  | .link path new => reply (IO.FS.hardLink path.text new.text)
  | .remove path => reply (IO.FS.removeFile path.text)
  | .rename path new => reply (IO.FS.rename path.text new.text)

/-- A session with the real disk. -/
def Session.play {α : Type} : Session α → IO α
  | done result => pure result
  | ask request next => do
    let reply ← if request.hasNul then pure (.error .nulByte) else request.perform
    play (next reply)

end EntityForge

open EntityForge in
def main (arguments : List String) : IO UInt32 := do
  let setting ← IO.getEnv "RUST_LOG"
  let finish ← (Program.run setting arguments).play
  finish.output.forM fun line => IO.println line
  IO.eprint finish.complaint
  return finish.code
