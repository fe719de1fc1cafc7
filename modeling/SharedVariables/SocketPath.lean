import SharedVariables.Machine

/-! Where a socket lies. A path is followed from the working directory or, if it begins with a
slash, from the root. The usual directories are in the root, with the usual devices; nothing else is
there, except the socket of a broker. -/
namespace SharedVariables

inductive Folder where
  | root
  | top (name : String)
  | working
deriving DecidableEq

namespace Folder

/-- The root has no other parent than itself. -/
def parent : Folder → Folder
  | .root | .top _ => .root
  | .working => .top "tmp"

def topNames : List String :=
  ["bin", "boot", "dev", "etc", "home", "lib", "lib64", "media", "mnt", "opt", "proc", "root",
    "run", "sbin", "srv",
    "sys", "tmp", "usr", "var"]

def child? (d : Folder) (name : String) : Option Folder :=
  if d = .root ∧ name ∈ topNames then some (.top name) else none

end Folder

structure Spot where
  directory : Folder
  name : String
deriving DecidableEq

namespace SocketPath

def devices : List Spot :=
  ["full", "null", "random", "tty", "urandom", "zero"].map fun name => ⟨.top "dev", name⟩

inductive Target where
  | directory (d : Folder)
  | file (spot : Spot)
  /-- A name with a slash after it, as only a directory may have it. -/
  | slashed (spot : Spot)
deriving DecidableEq

/-- Follows the parts of a path. Empty parts and single dots stay where they are, two dots lead up,
and only the name of a directory leads further. -/
def follow (socket : Option Spot) : Folder → List String → Except Fault Target
  | d, [] => .ok (.directory d)
  | d, part :: rest =>
    if part = "" ∨ part = "." then follow socket d rest
    else if part = ".." then follow socket d.parent rest
    else
      match d.child? part with
      | some child => follow socket child rest
      | none =>
        let spot : Spot := ⟨d, part⟩
        if rest = [] then .ok (.file spot)
        else if rest.all (· == "") then .ok (.slashed spot)
        else if socket = some spot ∨ spot ∈ devices then .error Machine.notADirectory
        else .error Machine.noSuchFile

def target (socket : Option Spot) (path : String) : Except Fault Target :=
  let start := if path.startsWith "/" then Folder.root else .working
  follow socket start (path.splitOn "/")

inductive Address where
  /-- Without a name the system chooses an address that no path leads to. -/
  | unnamed
  /-- A path that begins with a zero byte is a name outside the file system. -/
  | detached (name : String)
  | filed (path : String)
deriving DecidableEq

/-- An address has room for 108 bytes, and a zero byte ends a path in the file system. -/
def address (path : String) : Except Fault Address :=
  match path.toList with
  | [] => .ok .unnamed
  | c :: name =>
    if c = '\x00' then
      if 108 < path.utf8ByteSize then
        .error (.io "abstract socket name must be shorter than SUN_LEN")
      else if name = [] then .ok .unnamed
      else .ok (.detached (String.ofList name))
    else if '\x00' ∈ name then .error (.io "paths must not contain interior null bytes")
    else if 108 ≤ path.utf8ByteSize then .error (.io "path must be shorter than SUN_LEN")
    else .ok (.filed path)

/-- Whether a path leads to a directory. The system follows paths of less than 4096 bytes. -/
def isDirectory (path : String) : Bool :=
  match target none path with
  | .ok (.directory _) => path != "" && path.utf8ByteSize < 4096
  | _ => false

/-- Makes a socket where none is. What lies there already is removed first, which a directory does
not allow. -/
def bind (path : String) : Except Fault Address :=
  if isDirectory path then .error Machine.isADirectory
  else
    match address path with
    | .error e => .error e
    | .ok (.filed path) =>
      match target none path with
      | .error e => .error e
      | .ok (.file _) => .ok (.filed path)
      | .ok _ => .error Machine.noSuchFile
    | .ok other => .ok other

def Address.spot? : Address → Option Spot
  | .filed path =>
    match target none path with
    | .ok (.file spot) => some spot
    | _ => none
  | _ => none

def find (broker : Option Address) (path : String) : Except Fault Unit :=
  let socket := broker.bind Address.spot?
  match address path with
  | .error e => .error e
  | .ok .unnamed => .error Machine.invalidArgument
  | .ok (.detached name) =>
    if broker = some (.detached name) then .ok () else .error Machine.refused
  | .ok (.filed path) =>
    match target socket path with
    | .error e => .error e
    | .ok (.directory _) => .error Machine.refused
    | .ok (.file spot) =>
      if socket = some spot then .ok ()
      else if spot ∈ devices then .error Machine.refused
      else .error Machine.noSuchFile
    | .ok (.slashed spot) =>
      if socket = some spot ∨ spot ∈ devices then .error Machine.notADirectory else
        .error Machine.noSuchFile

end SocketPath
end SharedVariables
