/-
  JvmClass.Class.Basic — the model of a class.

  The model has the class itself, its fields and methods, what its attributes say, and the pool,
  which alone changes when the class is linked.
-/

import JvmClass.Class.Field
import JvmClass.Class.Method
import JvmClass.Pool.Link

namespace JvmClass

structure InnerClass where
  inner : Index
  outer : Option Index
  /-- None for anonymous classes. -/
  name : Option String
  access : Access .ofInnerClass
  deriving DecidableEq

/-- The class, and the method by name and descriptor, that a class is declared in. -/
structure EnclosingMethod where
  cls : String
  method : Option (String × String)
  deriving DecidableEq

structure BootstrapMethod where
  handle : Index
  arguments : List Index
  deriving DecidableEq

/-- What a class file says of the class beside its members and attributes. -/
structure ClassHeader where
  version : Version
  access : Access .ofClass
  thisClass : Index
  name : String
  /-- None for the root of the class hierarchy only. -/
  superclass : Option String
  interfaces : List String

/-- What the attributes of a class say. -/
structure ClassAttributes where
  sourceFile : Option String := none
  signature : Option String := none
  enclosingMethod : Option EnclosingMethod := none
  innerClasses : List InnerClass := []
  bootstrapMethods : List BootstrapMethod := []
  annotations : List Annotation := []
  /-- The payload of the annotations on types. -/
  typeAnnotations : Option (List UInt8) := none
  /-- The assembly that the class belongs to. -/
  assembly : Option String := none
  isDeprecated : Bool := false
  /-- Hidden from other assemblies. -/
  isInternal : Bool := false

structure Class (T F M : Type) extends ClassHeader, ClassAttributes where
  fields : List Field
  methods : List Method
  pool : Pool T F M

def ClassHeader.isInterface (c : ClassHeader) : Bool := c.access.has accInterface

namespace Class

variable {T F M : Type}

def field? (c : Class T F M) (name descriptor : String) : Option Field :=
  c.fields.find? (·.member.isNamed name descriptor)

def method? (c : Class T F M) (name descriptor : String) : Option Method :=
  c.methods.find? (·.member.isNamed name descriptor)

/-- The folder of the package, empty or with `/` at its end. -/
def packagePath (c : Class T F M) : List Char :=
  ((c.name.toList.reverse.dropWhile (· != '.')).reverse).map fun x => if x = '.' then '/' else x

/-- The source file with the folder of the package before it. -/
def sourcePath (c : Class T F M) : Option String :=
  c.sourceFile.map fun file => String.ofList (c.packagePath ++ file.toList)

/-- Hides the class from other assemblies: it is not public any more. -/
def hide (c : Class T F M) : Class T F M :=
  { c with isInternal := true, access := c.access.erase accPublic }

/-- Links the pool; `type` is the host's type for the class. -/
def link (c : Class T F M) (host : Host T F M) (type : T) (mode : LoadMode) :
    Class T F M × Array Warning :=
  let l := c.pool.link host c.thisClass ⟨type, mode⟩
  ({ c with pool := l.pool }, l.warnings)

end Class

end JvmClass
