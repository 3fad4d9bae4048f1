/-
  JvmClass.Class.Build — computations that build the model of a class.

  They change the pool (which constants linking needs, which texts are constants) and collect
  warnings, and fail at the first thing that is wrong. The warnings outlive the failure.
-/

import JvmClass.Fault
import JvmClass.File.Attribute
import JvmClass.Options
import JvmClass.Pool.Basic
import JvmClass.Warning

namespace JvmClass

structure BuildState (T F M : Type) where
  pool : Pool T F M
  warnings : Array Warning

abbrev Build (T F M : Type) := EStateM FormatFault (BuildState T F M)

namespace Build

variable {T F M α : Type}

def pool : Build T F M (Pool T F M) := return (← get).pool

def warn (w : Warning) : Build T F M Unit :=
  modify fun s => { s with warnings := s.warnings.push w }

/-- Linking has to provide for these constants. -/
def require (indices : List Index) : Build T F M Unit :=
  modify fun s => { s with pool := s.pool.requireAll indices }

def exposeTexts : Build T F M Unit := modify fun s => { s with pool := s.pool.exposeTexts }

def text (i : Index) : Build T F M String := do MonadExcept.ofExcept ((← pool).text i)

def className (i : Index) : Build T F M String := do
  MonadExcept.ofExcept ((← pool).className i)

/-- What a payload holds. -/
def read (r : Read FormatFault α) (info : List UInt8) : Build T F M α :=
  MonadExcept.ofExcept (Read.run r info)

/-- The kind of an attribute in a class file of the version. -/
def kindOf (version : Version) (a : Attribute) : Build T F M AttributeKind := do
  return AttributeKind.classify (← text a.name) version

/-- The one index that is all of a payload. -/
def singleIndex (fault : FormatFault) (info : List UInt8) : Build T F M Index :=
  if info.length = 2 then read (Read.short .truncated) info else throw fault

/-- The text at the one index that is all of a payload. -/
def singleText (kind : String) (info : List UInt8) : Build T F M String := do
  text (← singleIndex (.badLength kind) info)

def annotations (info : List UInt8) : Build T F M (List Annotation) := do
  read (← pool).elementConstants.readAnnotations info

end Build

end JvmClass
