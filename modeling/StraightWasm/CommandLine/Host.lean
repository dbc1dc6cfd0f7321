/-!
# The host of a run

All that a run needs of the system around it: reading and writing files by path, and two streams to
print on. The same run can thus be carried out by an operating system and by a model of one.
-/

set_option autoImplicit false
set_option relaxedAutoImplicit false

namespace StraightWasm.CommandLine

/-- Why a file could not be read or written. -/
structure FileFault where
  description : String
  code : Nat
  deriving DecidableEq, Repr

namespace FileFault

/-- The fault in words. -/
def message (fault : FileFault) : String :=
  fault.description ++ " (os error " ++ toString fault.code ++ ")"

/-- Nothing has the given name. -/
def missing : FileFault where
  description := "No such file or directory"
  code := 2

/-- The content does not fit into memory. -/
def noMemory : FileFault where
  description := "Cannot allocate memory"
  code := 12

/-- A file stands where a directory is needed. -/
def notDirectory : FileFault where
  description := "Not a directory"
  code := 20

/-- A directory stands where a file is needed. -/
def isDirectory : FileFault where
  description := "Is a directory"
  code := 21

/-- There is no room for what is to be written. -/
def noSpace : FileFault where
  description := "No space left on device"
  code := 28

/-- A name or a path is longer than the file system allows. -/
def nameTooLong : FileFault where
  description := "File name too long"
  code := 36

end FileFault

/-- The services of a host: the bytes of the file at a path, a text written to the file at a path, a
text printed on the output stream and one printed on the error stream. -/
structure Host (m : Type → Type) where
  read : String → m (Except FileFault (List UInt8))
  write : String → String → m (Except FileFault Unit)
  print : String → m Unit
  report : String → m Unit

end StraightWasm.CommandLine
