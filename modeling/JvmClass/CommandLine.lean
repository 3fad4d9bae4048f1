/-
  JvmClass.CommandLine — the command that dumps a class file.

  The command takes a file and options. Without `--name` the class is expected to have the name of
  the file without its last extension. The dump goes to the standard output; a class that is
  refused and a file that cannot be read are reported on the standard error output.
-/

import JvmClass.Dump

namespace JvmClass.CommandLine

/-! ## Requests -/

/-- The last component of a path, none if it is no name. -/
def fileName? (path : List Char) : Option (List Char) :=
  match ((path.splitOn '/').filter fun part => part != [] && part != ['.']).getLast? with
  | some ['.', '.'] => none
  | last => last

/-- The name without its last extension. A dot at the start begins no extension. -/
def stem (name : List Char) : List Char :=
  match (name.reverse.dropWhile (· != '.')).drop 1 with
  | [] => name
  | kept => kept.reverse

structure Request where
  path : String
  /-- The name that the class is expected to have, if it is given. -/
  name : Option String := none
  options : Options := {}

namespace Request

/-- The given name, else the name of the file. -/
def expectedName (r : Request) : String :=
  r.name.getD ((fileName? r.path.toList).elim r.path fun name => String.ofList (stem name))

/-- Both tables that debuggers read. -/
def withDebugTables (o : Options) : Options :=
  { o with lineNumbers := true, localVariables := true }

/-- The request with the options of the arguments. -/
def withArguments? (r : Request) : List String → Option Request
  | [] => some r
  | "--name" :: name :: rest => withArguments? { r with name := some name } rest
  | "--remove-assertions" :: rest =>
    withArguments? { r with options := { r.options with removeAssertions := true } } rest
  | "--debug-tables" :: rest =>
    withArguments? { r with options := withDebugTables r.options } rest
  | "--static-compiler" :: rest =>
    withArguments? { r with options := { r.options with staticCompiler := true } } rest
  | _ => none

/-- The file first, then the options. -/
def ofArguments? : List String → Option Request
  | [] => none
  | path :: rest => withArguments? { path } rest

end Request

/-! ## Reports -/

/-- Why a file cannot be read. -/
inductive FileFault
  | missing
  | denied
  | isDirectory
  deriving DecidableEq

def FileFault.describe : FileFault → String
  | .missing => "Os \x7b code: 2, kind: NotFound, message: \"No such file or directory\" \x7d"
  | .denied => "Os \x7b code: 13, kind: PermissionDenied, message: \"Permission denied\" \x7d"
  | .isDirectory => "Os \x7b code: 21, kind: IsADirectory, message: \"Is a directory\" \x7d"

/-- What the command leaves behind. -/
structure Report where
  exit : UInt8
  stdout : String
  stderr : String
  deriving DecidableEq

def Report.ofLines (lines : List String) : Report :=
  ⟨0, String.join (lines.map (· ++ "\n")), ""⟩

def Report.ofError (description : String) : Report := ⟨1, "", s!"Error: {description}\n"⟩

/-- The report on a request, given what reading its file has led to. -/
def Request.report (r : Request) : Except FileFault (List UInt8) → Report
  | .error fault => .ofError fault.describe
  | .ok bytes =>
    match Dump.ofBytes bytes r.expectedName r.options with
    | .ok lines => .ofLines lines
    | .error e => .ofError e.describe

/-- What a request without a file, or with an unknown option, is answered with. -/
def usage : String :=
  "usage: FILE [--name NAME] [--remove-assertions] [--debug-tables] [--static-compiler]\n"

end JvmClass.CommandLine
