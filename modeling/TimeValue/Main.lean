import TimeValue.Command.Run

/-!
# The program

The arguments, the files and the environment are the system's; the answer to them is
`Command.run`.

## Main definitions

* `Command.systemWorld` — the files and the variables of the system.
* `main` — the program.
-/

namespace TimeValue.Command

/-- Why the system could not open or read a file. -/
def FileFault.ofError : IO.Error → FileFault
  | .noFileOrDirectory .. => .missing
  | .permissionDenied _ number reason => ⟨reason, number.toNat⟩
  | .inappropriateType _ number reason => ⟨reason, number.toNat⟩
  | .invalidArgument _ number reason => ⟨reason, number.toNat⟩
  | .resourceExhausted _ number reason => ⟨reason, number.toNat⟩
  | .hardwareFault number reason => ⟨reason, number.toNat⟩
  | .otherError number reason => ⟨reason, number.toNat⟩
  | error => ⟨toString error, 0⟩

/-- Reads a file of the system. -/
def readSystemFile (path : String) : IO Reading := do
  match ← (IO.FS.Handle.mk path .read).toBaseIO with
  | .error error => return .closed (.ofError error)
  | .ok handle =>
    match ← handle.readBinToEnd.toBaseIO with
    | .error error => return .unreadable (.ofError error)
    | .ok content => return .bytes content.toList

/-- The files and the variables of the system. -/
def systemWorld : IO (World IO) := do
  let pairs ← Variable.all.filterMapM fun v => do
    return (← IO.getEnv v.name).map (v.name, ·)
  return ⟨readSystemFile, fun name => pairs.lookup name⟩

end TimeValue.Command

/-- The program. -/
def main (arguments : List String) : IO UInt32 := do
  let answer ← TimeValue.Command.run (← TimeValue.Command.systemWorld) arguments
  IO.print answer.output
  IO.eprint answer.errors
  return answer.code.toUInt32
