/-
  JvmClass.File.Attribute — attributes of classes, members and method bodies.

  An attribute is a name and a payload of bytes. The model interprets the kinds listed here; some
  of them exist from a certain version on, and in an older class file an attribute of such a kind
  is as unknown as one of any other name (`AttributeKind.classify`).
-/

import JvmClass.Cursor
import JvmClass.File.Constant

namespace JvmClass

structure Attribute where
  name : Index
  info : List UInt8
  deriving DecidableEq

def Attribute.read {ε : Type} (e : ε) : Read ε Attribute := do
  let name ← Read.short e
  let length ← Read.word e
  let info ← Read.exact e length.toNat
  return ⟨name, info⟩

inductive AttributeKind
  | annotationDefault
  | bootstrapMethods
  | code
  | constantValue
  | deprecated
  | enclosingMethod
  | exceptions
  | assembly
  | innerClasses
  | lineNumberTable
  | localVariableTable
  | methodParameters
  | invisibleAnnotations
  | visibleAnnotations
  | visibleParameterAnnotations
  | visibleTypeAnnotations
  | signature
  | sourceFile
  | unknown
  deriving DecidableEq

namespace AttributeKind

/-- The names of the known kinds. -/
def named : List (String × AttributeKind) :=
  [("AnnotationDefault", .annotationDefault), ("BootstrapMethods", .bootstrapMethods),
    ("Code", .code), ("ConstantValue", .constantValue), ("Deprecated", .deprecated),
    ("EnclosingMethod", .enclosingMethod), ("Exceptions", .exceptions),
    ("IKVM.NET.Assembly", .assembly), ("InnerClasses", .innerClasses),
    ("LineNumberTable", .lineNumberTable), ("LocalVariableTable", .localVariableTable),
    ("MethodParameters", .methodParameters),
    ("RuntimeInvisibleAnnotations", .invisibleAnnotations),
    ("RuntimeVisibleAnnotations", .visibleAnnotations),
    ("RuntimeVisibleParameterAnnotations", .visibleParameterAnnotations),
    ("RuntimeVisibleTypeAnnotations", .visibleTypeAnnotations), ("Signature", .signature),
    ("SourceFile", .sourceFile)]

def ofName (name : String) : AttributeKind := (named.lookup name).getD .unknown

/-- A class file of the version can have attributes of the kind. -/
def isDefinedIn (kind : AttributeKind) (version : Version) : Bool :=
  match kind with
  | .annotationDefault | .enclosingMethod | .invisibleAnnotations | .visibleAnnotations
  | .visibleParameterAnnotations | .signature => version.hasJava5Features
  | .bootstrapMethods => version.hasJava7Features
  | .methodParameters | .visibleTypeAnnotations => version.hasJava8Features
  | _ => true

/-- The kind of an attribute of the name in a class file of the version. -/
def classify (name : String) (version : Version) : AttributeKind :=
  let kind := ofName name
  if kind.isDefinedIn version then kind else .unknown

end AttributeKind

end JvmClass
