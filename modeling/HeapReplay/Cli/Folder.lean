import HeapReplay.Cli.Surroundings
import HeapReplay.Text.Lines

/-!
# Files of a folder

The command reads one file and may write another.  Paths are followed from the folder it runs in,
which holds files and no further folders and lies among the temporary files, or from the top of the
system.  What lies outside is known only as far as every system has it: otherwise no file is found
there, and what is written there is not seen.

**Paths are followed part by part**, and the first part that leads nowhere decides the error: behind
a file or a device nothing follows, behind a name that is missing nothing is found.  A slash at the
end asks for a folder.
-/

namespace HeapReplay.Cli

/-- The files of a folder by name. -/
structure Folder where
  files : List (String × List UInt8) := []
deriving DecidableEq, Repr

/-- Where a path leads. -/
inductive Place where
  /-- The folder itself. -/
  | folder
  /-- The top of the system. -/
  | top
  /-- One of the standard folders. -/
  | standard (name : String)
  | device (device : Device)
  /-- A file of the folder. -/
  | file (name : String)
  /-- A name that no file of the folder has. -/
  | free (name : String)
  /-- Any other name outside the folder. -/
  | outside
  /-- A name that no file can get. -/
  | nowhere
deriving DecidableEq, Repr

namespace Folder

/-- The largest number of bytes of a path. -/
def maxPathBytes : Nat := 4095

/-- The largest number of bytes of one part of a path. -/
def maxNameBytes : Nat := 255

/-- The content of a file. -/
def find? (d : Folder) (name : String) : Option (List UInt8) :=
  d.files.lookup name

/-- The place with a name in the folder. -/
def named (d : Folder) (name : String) : Place :=
  if (d.find? name).isSome then .file name else .free name

/-- The place with a name at the top of the system. -/
def namedAtTop (name : String) : Place :=
  if name ∈ standardFolders then .standard name else .outside

/-- The place with a name in a standard folder. -/
def namedIn (standard name : String) : Place :=
  if standard = processFolder then .nowhere
  else
    match if standard = deviceFolder then Device.ofName? name else none with
    | some device => .device device
    | none => .outside

/-- Follows one part of a path.  The parts `.` and `..` stay where they are and go back; the folder
lies among the temporary files, and nothing lies above the top. -/
def enter (d : Folder) (p : Place) (part : String) : Except PathError Place :=
  let within (here back : Place) (named : String → Place) : Except PathError Place :=
    if part = "." then .ok here
    else if part = ".." then .ok back
    else if maxNameBytes < part.utf8ByteSize then .error .nameTooLong
    else .ok (named part)
  match p with
  | .file _ | .device _ => .error .notADirectory
  | .free _ | .outside | .nowhere => .error .notFound
  | .folder => within .folder (.standard temporaryFolder) d.named
  | .top => within .top .top namedAtTop
  | .standard name => within (.standard name) .top (namedIn name)

/-- The parts of a path. -/
def parts (path : String) : List String :=
  (Text.splitOn '/' path).filter (· ≠ "")

/-- Follows some parts of a path from where the path begins. -/
def follow (d : Folder) (path : String) (parts : List String) : Except PathError Place :=
  if path = "" then .error .notFound
  else if maxPathBytes < path.utf8ByteSize then .error .nameTooLong
  else parts.foldlM d.enter (if path.toList.head? = some '/' then .top else .folder)

/-- Whether a path asks for a folder. -/
def endsWithSlash (path : String) : Bool :=
  path.toList.getLast? = some '/'

/-- The content of the file that a path leads to. -/
def read (d : Folder) (path : String) : Except PathError (List UInt8) :=
  match d.follow path (parts path) with
  | .error e => .error e
  | .ok .folder | .ok .top | .ok (.standard _) => .error .isADirectory
  | .ok (.free _) | .ok .outside | .ok .nowhere => .error .notFound
  | .ok (.device device) => if endsWithSlash path then .error .notADirectory else device.read
  | .ok (.file name) =>
    if endsWithSlash path then .error .notADirectory else .ok ((d.find? name).getD [])

/-- The name of the file that is written through a path, which may be a new one, or nothing if it
lies outside.  A path that asks for a folder is refused whatever its last part is, but only if the
parts before lead to a folder. -/
def target (d : Folder) (path : String) : Except PathError (Option String) :=
  if endsWithSlash path then
    match d.follow path ((parts path).dropLast ++ ["."]) with
    | .error e => .error e
    | .ok _ => .error .isADirectory
  else
    match d.follow path (parts path) with
    | .error e => .error e
    | .ok .folder | .ok .top | .ok (.standard _) => .error .isADirectory
    | .ok (.free name) | .ok (.file name) => .ok (some name)
    | .ok (.device device) => device.write.map fun _ => none
    | .ok .outside => .ok none
    | .ok .nowhere => .error .notFound

/-- The folder with a file that has new content. -/
def write (d : Folder) (name : String) (content : List UInt8) : Folder :=
  { files := (name, content) :: d.files.filter (·.1 ≠ name) }

/-- The folder after a content was written through a path, which leaves it as it was if the path
leads elsewhere. -/
def put (d : Folder) (path : String) (content : List UInt8) : Folder :=
  match d.target path with
  | .ok (some name) => d.write name content
  | _ => d

/-- The folder that contents are written to one after another, of which the last one under a name
stays. -/
def ofList (contents : List (String × List UInt8)) : Folder :=
  contents.foldl (fun d (path, content) => d.put path content) {}

end Folder

end HeapReplay.Cli
