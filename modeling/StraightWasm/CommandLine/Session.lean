import StraightWasm.CommandLine.Host

/-!
# A host in miniature

A session is a working directory that holds files, and the texts printed so far on the two streams.
Around the working directory stands the usual tree: the root, the directories of the system, and
among these the one of the devices. The working directory lies in a directory of the system. Nothing
else is known of what these directories hold, so that every other name in them is absent, and a file
written there leaves no trace in the session.

Names and paths have a limited length, counted in bytes. A path is measured as a whole before it is
followed, a name only when it is looked up, so that a fault that comes before it on the path is the
one that counts.
-/

set_option autoImplicit false
set_option relaxedAutoImplicit false

namespace StraightWasm.CommandLine

/-- The most bytes that a name may have. -/
def nameLimit : Nat := 255

/-- The most bytes that a path may have. -/
def pathLimit : Nat := 4095

/-- The fault of looking for a name that is not there. A name that could not be there because of its
length is told apart from one that is merely absent. -/
def FileFault.absent (name : String) : FileFault :=
  if nameLimit < name.utf8ByteSize then nameTooLong else missing

/-! ### Devices -/

/-- The devices that every system has. -/
inductive Device where
  /-- Holds nothing, and takes everything. -/
  | null
  /-- Holds zeros without end, and takes everything. -/
  | zero
  /-- Holds zeros without end, and takes nothing. -/
  | full
  /-- The input stream, which is empty in a session. -/
  | input
  /-- The output stream. -/
  | output
  /-- The error stream. -/
  | errors
  deriving DecidableEq, Repr

namespace Device

/-- The device of a name. -/
def named? : String → Option Device
  | "null" => some null
  | "zero" => some zero
  | "full" => some full
  | "stdin" => some input
  | "stdout" => some output
  | "stderr" => some errors
  | _ => none

/-- The bytes that a device holds. -/
def content : Device → Except FileFault (List UInt8)
  | zero | full => .error .noMemory
  | null | input | output | errors => .ok []

end Device

/-! ### Sessions -/

/-- The files of the working directory by name, and what has been printed. -/
structure Session where
  files : List (String × List UInt8)
  output : String := ""
  errors : String := ""
  deriving DecidableEq, Repr

/-- The directories that a path can come to. -/
inductive Place where
  | root
  /-- The directory of the devices. -/
  | devices
  /-- Another directory of the system. -/
  | system
  /-- The working directory. -/
  | home
  deriving DecidableEq, Repr

/-- The directory above a directory. -/
def Place.parent : Place → Place
  | home => system
  | root | devices | system => root

/-- The names of the directories in the root, but for the one of the devices. -/
def systemDirectories : List String :=
  ["bin", "boot", "etc", "home", "lib", "media", "mnt", "opt", "proc", "root", "run", "sbin", "srv",
    "sys", "tmp", "usr", "var"]

/-- What a name in a directory stands for. -/
inductive Entry where
  | directory (place : Place)
  | file (bytes : List UInt8)
  | device (device : Device)
  deriving DecidableEq, Repr

/-- What a path leads to: a directory, or a name in a directory, of a file that may exist or not. -/
inductive Target where
  | directory
  | name (place : Place) (name : String)
  deriving DecidableEq, Repr

namespace Session

/-- What a name stands for in a directory. -/
def entry? (session : Session) (place : Place) (name : String) : Option Entry :=
  match place with
  | .root =>
    if name = "dev" then some (.directory .devices)
    else if name ∈ systemDirectories then some (.directory .system)
    else none
  | .devices => (Device.named? name).map .device
  | .system => none
  | .home => (session.files.lookup name).map .file

/-- Follows the components of a path from a directory. -/
def follow (session : Session) : Place → List String → Except FileFault Target
  | _, [] => .ok .directory
  | place, "." :: rest => follow session place rest
  | place, ".." :: rest => follow session place.parent rest
  | place, name :: rest =>
    match session.entry? place name, rest with
    | some (.directory inner), _ => follow session inner rest
    | _, [] => .ok (.name place name)
    | some _, _ => .error .notDirectory
    | none, _ => .error (.absent name)

/-- What a path leads to. The empty path leads nowhere. -/
def resolve (session : Session) (path : String) : Except FileFault Target :=
  if path = "" then .error .missing
  else if pathLimit < path.utf8ByteSize then .error .nameTooLong
  else
    session.follow (if path.toList.head? = some '/' then .root else .home)
      ((path.splitOn "/").filter (· ≠ ""))

/-- Whether a path ends in a slash, and so asks for a directory. -/
def asksDirectory (path : String) : Bool :=
  path.toList.getLast? == some '/'

/-- The bytes of the file at a path. -/
def read (session : Session) (path : String) : Except FileFault (List UInt8) :=
  match session.resolve path with
  | .error fault => .error fault
  | .ok .directory => .error .isDirectory
  | .ok (.name place name) =>
    match session.entry? place name with
    | none => .error (.absent name)
    | some (.directory _) => .error .isDirectory
    | some (.file bytes) => if asksDirectory path then .error .notDirectory else .ok bytes
    | some (.device device) =>
      if asksDirectory path then .error .notDirectory else device.content

/-- The session after a text has been written to a device. -/
def writeDevice (session : Session) (text : String) : Device → Except FileFault Session
  | .null | .zero | .input => .ok session
  | .full => if text = "" then .ok session else .error .noSpace
  | .output => .ok { session with output := session.output ++ text }
  | .errors => .ok { session with errors := session.errors ++ text }

/-- The session after a text has been written to the file of a name in the working directory. -/
def writeFile (session : Session) (name text : String) : Session :=
  { session with
    files := (name, text.toUTF8.data.toList) :: session.files.filter fun file ↦ file.1 ≠ name }

/-- The session after a text has been written to the file at a path. A path that asks for a
directory is refused before the last name on it is looked up. -/
def write (session : Session) (path text : String) : Except FileFault Session :=
  match session.resolve path with
  | .error fault => .error fault
  | .ok .directory => .error .isDirectory
  | .ok (.name place name) =>
    if asksDirectory path then .error .isDirectory
    else if nameLimit < name.utf8ByteSize then .error .nameTooLong
    else
      match place, session.entry? place name with
      | _, some (.device device) => session.writeDevice text device
      | .home, _ => .ok (session.writeFile name text)
      | _, _ => .ok session

/-- The services of a session that is kept as a state. -/
def host : Host (StateM Session) where
  read path := do pure ((← get).read path)
  write path text := do
    match (← get).write path text with
    | .ok session =>
      set session
      pure (.ok ())
    | .error fault => pure (.error fault)
  print text := modify fun session ↦ { session with output := session.output ++ text }
  report text := modify fun session ↦ { session with errors := session.errors ++ text }

end Session

end StraightWasm.CommandLine
