/-!
# What the reading of a file comes to

A file may refuse to be opened, or be opened and then refuse to be read, as a directory does.
Most readers need all of a file; one that goes from record to record is content with what there
is, and finds no records where nothing can be read.

## Main definitions

* `FileFault` — why a file cannot be opened or read.
* `Reading` — what the reading of a file comes to.
* `Reading.complete`, `Reading.available` — the bytes for either kind of reader.
-/

namespace TimeValue.Command

/-! ### Faults -/

/-- Why a file cannot be opened or read, in the words and the number of the system. -/
structure FileFault where
  /-- What the system says. -/
  reason : String
  /-- The number it gives to that. -/
  number : Nat
  deriving DecidableEq, Repr

namespace FileFault

/-- There is no such file. -/
def missing : FileFault :=
  ⟨"No such file or directory", 2⟩

/-- A path goes on after a file that is not a directory. -/
def notDirectory : FileFault :=
  ⟨"Not a directory", 20⟩

/-- A directory has no bytes. -/
def isDirectory : FileFault :=
  ⟨"Is a directory", 21⟩

/-- A path, or a name in it, is too long. -/
def nameTooLong : FileFault :=
  ⟨"File name too long", 36⟩

/-- The text of a fault. -/
def message (fault : FileFault) : String :=
  fault.reason ++ " (os error " ++ toString fault.number ++ ")"

end FileFault

/-! ### Readings -/

/-- What the reading of a file comes to. -/
inductive Reading
  /-- The file cannot be opened. -/
  | closed (fault : FileFault)
  /-- The file is open, but nothing of it can be read. -/
  | unreadable (fault : FileFault)
  /-- The file holds these bytes. -/
  | bytes (content : List UInt8)
  deriving DecidableEq, Repr

namespace Reading

/-- The bytes for a reader who needs all of them. -/
def complete : Reading → Except FileFault (List UInt8)
  | .closed fault => .error fault
  | .unreadable fault => .error fault
  | .bytes content => .ok content

/-- The bytes for a reader who is content with those there are. -/
def available : Reading → Except FileFault (List UInt8)
  | .closed fault => .error fault
  | .unreadable _ => .ok []
  | .bytes content => .ok content

end Reading

end TimeValue.Command
