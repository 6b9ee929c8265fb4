import HeapReplay.Cli.PathError

/-!
# What every system has

A path may lead out of the folder that the command runs in.  What it finds there depends on the
system, but for two things: the **standard folders** at the top of it, and a few **devices** that
answer the same everywhere.

A device stands where a file could, yet nothing that is written to it can be read again.
-/

namespace HeapReplay.Cli

/-- A device with an answer of its own. -/
inductive Device where
  /-- It is empty, and whatever is written to it is gone. -/
  | null
  /-- It has no end and no space: reading it fills all there is, and writing to it fails. -/
  | full
  /-- The terminal of the process, which runs without one. -/
  | terminal
deriving DecidableEq, Repr

namespace Device

/-- The device with a name in the folder of devices. -/
def ofName? : String → Option Device
  | "null" => some null
  | "full" => some full
  | "tty" => some terminal
  | _ => none

/-- What reading a device gives. -/
def read : Device → Except PathError (List UInt8)
  | null => .ok []
  | full => .error .noSpace
  | terminal => .error .noDevice

/-- What writing a text that is not empty to a device gives. -/
def write : Device → Except PathError Unit
  | null => .ok ()
  | full => .error .noSpace
  | terminal => .error .noDevice

end Device

/-- The folder of devices. -/
def deviceFolder : String := "dev"

/-- The folder of processes, in which nobody makes files. -/
def processFolder : String := "proc"

/-- The folder for temporary files. -/
def temporaryFolder : String := "tmp"

/-- The folders at the top of a system, by the standard for its hierarchy. -/
def standardFolders : List String :=
  ["bin", "boot", deviceFolder, "etc", "home", "lib", "media", "mnt", "opt", processFolder, "root",
    "run", "sbin", "srv", "sys", temporaryFolder, "usr", "var"]

end HeapReplay.Cli
