import ControlClient.Request
import ControlClient.Text.Split

/-!
# A working directory

A directory that holds files and no other directory, and how a path from it is followed: part by part,
where an empty part and `.` stay, `..` leaves the directory, and any other part is the name of a file.
Nothing is known of what lies outside, except that it is no file by any name.

A directory can be opened, but not read.
-/

namespace ControlClient

/-- Files by name. -/
structure Directory where
  files : List (List UInt8 × List UInt8)
deriving DecidableEq, Repr

/-- Why a path cannot be opened. -/
inductive OpenFault where
  /-- It holds a zero byte. -/
  | zeroByte
  | system (e : SystemError)
deriving DecidableEq, Repr

/-- What is wrong with a path, in words. -/
def OpenFault.message : OpenFault → String
  | zeroByte => "file name contained an unexpected NUL byte"
  | system e => e.message

namespace Directory

/-- Where a path leads. -/
inductive Node where
  /-- The directory itself. -/
  | here
  /-- Some directory outside. -/
  | outside
  | file (data : List UInt8)
deriving DecidableEq, Repr

/-- What separates the parts of a path. -/
def slash : UInt8 := 47

/-- The greatest length of a name. -/
def maxName : Nat := 255

/-- The greatest length of a path. -/
def maxPath : Nat := 4095

/-- Follow one part of a path. -/
def follow (d : Directory) (node : Node) (part : List UInt8) : Except SystemError Node :=
  match node with
  | .file _ => .error .notDirectory
  | .here | .outside =>
      if part = [] ∨ part = [46] then .ok node
      else if part = [46, 46] then .ok .outside
      else if part.length > maxName then .error .nameTooLong
      else
        match node, d.files.lookup part with
        | .here, some data => .ok (.file data)
        | _, _ => .error .notFound

/-- Where a path leads from the directory. -/
def resolve (d : Directory) (path : List UInt8) : Except SystemError Node :=
  if path.isEmpty then .error .notFound
  else if path.length > maxPath then .error .nameTooLong
  else
    let start := if path.head? = some slash then Node.outside else .here
    (Text.splitAll slash path).foldlM d.follow start

/-- Open a path. -/
def openPath (d : Directory) (path : List UInt8) : Except OpenFault Content :=
  if path.contains 0 then .error .zeroByte
  else
    match d.resolve path with
    | .ok (.file data) => .ok (.bytes data)
    | .ok _ => .ok (.unreadable .isDirectory)
    | .error e => .error (.system e)

end Directory

end ControlClient
