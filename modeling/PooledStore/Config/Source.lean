import PooledStore.FileTree
import PooledStore.Log
import PooledStore.Text.Blank
import PooledStore.Config.Settings

/-!
# Configuration sources

Where database settings come from: a file, or a text in memory. `Source.load` reads and parses
them; a file that is not there counts as an empty one. `checkPermissions` reports a file that
others than its owner can reach.
-/

namespace PooledStore.Config

open Log

/-! ## Permissions -/

/-- What a look at a file's permission bits tells. -/
inductive PermissionCheck where
  /-- Only the owner has access. -/
  | restricted
  /-- Others have access; these are all the bits. -/
  | lax (mode : Nat)
  | unknown
  deriving DecidableEq, Repr

/-- A number in octal digits. -/
def octal (n : Nat) : String := String.ofList (Nat.toDigits 8 n)

/-- Looks at the permission bits of a file and reports what may expose its contents. -/
def checkPermissions (files : FileTree) (path : Path) : PermissionCheck × List Event :=
  match files.mode path with
  | .ok mode =>
    let mode := mode &&& 0o777
    if mode &&& 0o077 != 0 then (.lax mode, [.permissionsLax path.display (octal mode)])
    else (.restricted, [])
  | .error e => (.unknown, [.permissionsUnknown path.display e.message])

/-! ## Sources -/

/-- The name of the file with the settings of the database. -/
def fileName : String := "database.conf"

/-- The directory of this file where the environment names none. -/
def systemDirectory : String := "/etc/quire"

/-- The variable that names the directory of this file. -/
def directoryVariable : String := "QUIRE_CONFIG_DIR"

/-- Where the settings of the database come from. -/
inductive Source where
  | file (path : Path)
  /-- A text in memory; the name is for messages. -/
  | inline (name contents : String)
  deriving DecidableEq, Repr

namespace Source

/-- The settings file in a directory. -/
def inDirectory (dir : Path) : Source := .file (dir.join (Path.ofText fileName))

/-- The settings file of the system, in the directory that the environment names unless that is
blank. -/
def system (env : Environment) : Source :=
  let dir := ((env.get? directoryVariable).bind Text.nonBlank?).getD systemDirectory
  inDirectory (Path.ofText dir)

/-- The source's name in messages. -/
def display : Source → String
  | .file path => path.display
  | .inline name _ => name

end Source

/-! ## Loading -/

/-- Why settings could not be had. -/
inductive Error where
  /-- The file is there and cannot be read. -/
  | read (path : Path) (cause : FileError)
  /-- The text is not a document of settings. -/
  | parse (source : String)
  /-- The provider's name is none of the known ones. -/
  | invalidProvider (value source : String)
  deriving DecidableEq, Repr

/-- The error as it is displayed. -/
def Error.message : Error → String
  | .read path cause =>
    "failed to read database configuration file " ++ path.display ++ ": " ++ cause.message
  | .parse source => "invalid database configuration in " ++ source ++ ": " ++ Toml.diagnostic
  | .invalidProvider value source =>
    "invalid database provider specified in " ++ source ++ ": " ++ value

namespace Source

variable [Toml.Parser]

/-- The settings in a text. -/
def decode (s : Source) (contents : String) : Except Error Settings :=
  match Settings.ofText? contents with
  | some settings => .ok settings
  | none => .error (.parse s.display)

/-- Reads the settings. The permission bits of a file that is there are looked at first, which
never changes the result. -/
def load (files : FileTree) (s : Source) : Except Error Settings × List Event :=
  match s with
  | .inline _ contents => (s.decode contents, [])
  | .file path =>
    let checked := if files.holds path then (checkPermissions files path).2 else []
    match files.readText path with
    | .ok contents => (s.decode contents, checked)
    | .error .notFound => (.ok Settings.defaults, checked ++ [.configMissing path.display])
    | .error e => (.error (.read path e), checked)

end Source

end PooledStore.Config
