/-
  JvmClass.Dump — a class file as lines of text.

  The class is linked against the standard classes and shown: its flags and version, what it
  extends and implements, its source file, its fields with their constants, its methods with the
  size of their code, and last the classes that linking did not find. A class that cannot be read
  is refused, and nothing of it is shown. Warnings are not shown.
-/

import JvmClass.Class.OfFile
import JvmClass.File.Reader
import JvmClass.Graph.StandardClasses

namespace JvmClass

/-- The constant after the name of its kind. -/
def FieldConstant.describe : FieldConstant → String
  | .boolean value => s!"Boolean({value})"
  | .byte value => s!"Byte({value.toInt})"
  | .char unit => s!"Char({unit.toNat})"
  | .short value => s!"Short({value.toInt})"
  | .int value => s!"Int({value.toInt})"
  | .long value => s!"Long({value.toInt})"
  | .float bits => s!"Float({Decimal.float32Text Decimal.marked bits})"
  | .double bits => s!"Double({Decimal.float64Text Decimal.marked bits})"
  | .string text => s!"String({Text.quoted text})"

/-- The error with the names of its parts. -/
def Error.describe : Error → String
  | .format cls fault =>
    let name := match cls with
      | some name => s!"Some({Text.quoted name})"
      | none => "None"
    s!"ClassFormat \x7b class_name: {name}, message: {Text.quoted fault.message} \x7d"
  | .unsupportedVersion cls version =>
    s!"UnsupportedClassVersion \x7b class_name: {Text.quoted cls}, version: " ++
      s!"Version \x7b minor_version: {version.minor.toNat}, major_version: " ++
      s!"{version.major.toNat} \x7d \x7d"
  | .notImplemented what => s!"NotImplemented({Text.quoted what.message})"

namespace Dump

abbrev GraphClass : Type :=
  Class ClassGraph.HostType (Declaration .ofField) (Declaration .ofMethod)

/-! ## Lines -/

def headLine (c : GraphClass) : String := s!"{c.name} {c.access.text} (version {c.version.text})"

def fieldLine (f : Field) : String :=
  let constant := match f.constant with
    | some constant => s!" = {constant.describe}"
    | none => ""
  s!"  field {f.member.name} {f.member.descriptor} {f.member.access.text}{constant}"

/-- How much code there is, or why it fails when it is run. The instruction after the last one is
    not counted. -/
def bodyText : Body → String
  | .decoded body =>
    s!": {body.instructions.length - 1} instructions, {body.handlers.length} handlers"
  | .invalid fault => s!": deferred verify error: {fault.message}"

def methodLine (m : Method) : String :=
  let body := match m.code with
    | some code => bodyText code.body
    | none => ""
  s!"  method {m.member.name}{m.member.descriptor} {m.member.access.text}{body}"

/-- The classes of the pool that linking has bound to placeholders. -/
def unresolvedClasses (c : GraphClass) : List String :=
  c.pool.constants.filterMap fun (_, entry) =>
    match entry with
    | .cls item => if item.type.value?.any (·.isUnloadable) then some item.name else none
    | _ => none

def unresolvedLines (c : GraphClass) : List String :=
  match unresolvedClasses c with
  | [] => []
  | names => ["  unresolved classes: " ++ String.intercalate ", " names]

def lines (c : GraphClass) : List String :=
  [headLine c] ++ (c.superclass.map (s!"  extends {·}")).toList ++
    c.interfaces.map (s!"  implements {·}") ++ (c.sourcePath.map (s!"  source {·}")).toList ++
    c.fields.map fieldLine ++ c.methods.map methodLine ++ unresolvedLines c

/-! ## Linking -/

/-- The graph with the class in it, and the type of the class. A class whose superclass the graph
    lacks stays out, and its type is a placeholder. -/
def place (g : ClassGraph) (c : GraphClass) : ClassGraph × ClassGraph.HostType :=
  let put (superclass : Option ClassInfo) :=
    let info : ClassInfo := ⟨c.name, superclass, [], c.access, [], []⟩
    (g.add info, .ofClass info)
  match c.superclass with
  | none => put none
  | some name =>
    match g.find? name with
    | some superclass => put superclass
    | none => (g, .unloadable c.name)

/-- The class linked against the standard classes. -/
def linked (c : GraphClass) : GraphClass :=
  let (g, type) := place ClassGraph.empty.seed c
  (c.link g.host type .link).1

/-- The lines for the bytes of a class file; `name` is the name that the class is expected to
    have. -/
def ofBytes (bytes : List UInt8) (name : String) (options : Options) :
    Except Error (List String) := do
  let file ← (ClassFile.parse bytes).mapError Error.ofRead
  let c ← (Class.ofFile file name options []).1
  return lines (linked c)

end Dump

end JvmClass
