import Renaming.Command.Run

/-!
# The program

The file system of the machine as a `Disk`, and the entry point.
-/

namespace Renaming

/-- The answer of the machine, in the words in which it is reported. -/
def systemError : IO.Error → SystemError
  | .noFileOrDirectory .. => .notFound
  | .inappropriateType _ 20 _ => .notADirectory
  | .inappropriateType _ 21 _ => .isADirectory
  | .resourceBusy 16 _ => .busy
  | .invalidArgument _ 22 _ => .invalidArgument
  | .invalidArgument _ 36 _ => .nameTooLong
  | .permissionDenied _ code details | .resourceExhausted _ code details
  | .invalidArgument _ code details | .inappropriateType _ code details
  | .noSuchThing _ code details | .alreadyExists _ code details
  | .otherError code details | .resourceBusy code details | .resourceVanished code details
  | .unsupportedOperation code details | .hardwareFault code details
  | .unsatisfiedConstraints code details | .illegalOperation code details =>
    .other s!"{details} (os error {code})"
  | error => .other (toString error)

/-- Does something and catches what the machine answers instead. -/
def attempt {α : Type} (action : IO α) : IO (Except SystemError α) := do
  match ← action.toBaseIO with
  | .ok a => return .ok a
  | .error error => return .error (systemError error)

/-- Makes an empty file under the first name of a row that is not taken. -/
def createUnused (directory : String) : Nat → Nat → IO (Except SystemError String)
  | 0, _ => return .error (.other "too many temporary files exist")
  | tries + 1, number => do
    let digits := toString number
    let zeros := "".pushn '0' (6 - digits.length)
    let path := s!"{directory}/.tmp{zeros}{digits}"
    match ← (IO.FS.Handle.mk path .writeNew).toBaseIO with
    | .ok _ => return .ok path
    | .error (.alreadyExists ..) => createUnused directory tries (number + 1)
    | .error error => return .error (systemError error)

instance : Disk IO where
  Temporary := String
  source path := do
    match ← attempt (IO.FS.Handle.mk (String.ofList path) .read) with
    | .error error => return .error error
    | .ok handle =>
      match ← attempt handle.readBinToEnd with
      | .ok bytes => return .ok (.ofBytes bytes.toList)
      | .error error => return .ok (.unreadable (.system error))
  createTemporary directory := do
    let name := String.ofList directory
    if Path.isAbsolute directory then createUnused name 65536 0
    else
      match ← attempt IO.currentDir with
      | .error error => return .error error
      | .ok home => createUnused s!"{home}/{name}" 65536 0
  pathIn _ path := return path.toList
  append path bytes := attempt do
    let handle ← IO.FS.Handle.mk path .append
    handle.write ⟨bytes.toArray⟩
    handle.flush
  -- the runtime system has no call that waits for the disk
  sync _ := return .ok ()
  moveOver path target := attempt (IO.FS.rename path (String.ofList target))
  remove path := do
    let _ ← attempt (IO.FS.removeFile path)

end Renaming

def main (arguments : List String) : IO UInt32 := do
  let answer : Renaming.Command.Answer ← Renaming.Command.run (arguments.map String.toList)
  (← IO.getStdout).putStr answer.stdout
  (← IO.getStderr).putStr answer.stderr
  return answer.exitCode.toUInt32
