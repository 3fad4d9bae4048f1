/-
  JvmClass.Graph.StandardClasses — the classes of the standard library that class files name
  without saying what they are.

  They have the members that linking can ask for and no others.
-/

import JvmClass.Graph.ClassGraph

namespace JvmClass

namespace StandardClasses

def plainClass : UInt16 := accPublic ||| accSuper

def finalClass : UInt16 := accPublic ||| accSuper ||| accFinal

def plainInterface : UInt16 := accPublic ||| accInterface ||| accAbstract

/-- A class without members. -/
def bare (name : String) (superclass : Option ClassInfo) (interfaces : List ClassInfo)
    (access : UInt16) : ClassInfo :=
  ⟨name, superclass, interfaces, .ofBits .ofClass access, [], []⟩

def object : ClassInfo :=
  (bare objectName none [] plainClass)
    |>.withMethod initName "()V" accPublic
    |>.withMethod "hashCode" "()I" (accPublic ||| accNative)
    |>.withMethod "equals" "(Ljava.lang.Object;)Z" accPublic
    |>.withMethod "toString" "()Ljava.lang.String;" accPublic
    |>.withMethod "getClass" "()Ljava.lang.Class;" (accPublic ||| accFinal ||| accNative)

def cloneable : ClassInfo := bare cloneableName object [] plainInterface

def serializable : ClassInfo := bare serializableName object [] plainInterface

def charSequence : ClassInfo :=
  (bare "java.lang.CharSequence" object [] plainInterface)
    |>.withMethod "length" "()I" (accPublic ||| accAbstract)

def string : ClassInfo :=
  (bare stringName object [serializable, charSequence] finalClass)
    |>.withMethod initName "()V" accPublic
    |>.withMethod "length" "()I" accPublic

def classClass : ClassInfo :=
  (bare classClassName object [serializable] finalClass)
    |>.withMethod "desiredAssertionStatus" "()Z" accPublic
    |>.withMethod "getName" "()Ljava.lang.String;" accPublic

def throwable : ClassInfo :=
  (bare throwableName object [serializable] plainClass)
    |>.withMethod initName "()V" accPublic
    |>.withMethod "getMessage" "()Ljava.lang.String;" accPublic

def exception : ClassInfo :=
  (bare "java.lang.Exception" throwable [] plainClass)
    |>.withMethod initName "()V" accPublic

def runtimeException : ClassInfo :=
  (bare "java.lang.RuntimeException" exception [] plainClass)
    |>.withMethod initName "()V" accPublic

def illegalArgumentException : ClassInfo :=
  (bare "java.lang.IllegalArgumentException" runtimeException [] plainClass)
    |>.withMethod initName "()V" accPublic

/-- All of them, each after the classes it refers to. -/
def all : List ClassInfo :=
  [object, cloneable, serializable, charSequence, string, classClass, throwable, exception,
    runtimeException, illegalArgumentException]

end StandardClasses

namespace ClassGraph

/-- The graph with the standard classes added. -/
def seed (g : ClassGraph) : ClassGraph := StandardClasses.all.foldl add g

/-- The classes that the graph has under the names of the standard ones, or the first name that
    it lacks. -/
def standard (g : ClassGraph) : Except String (List ClassInfo) :=
  StandardClasses.all.mapM fun c =>
    match g.find? c.name with
    | some found => .ok found
    | none => .error c.name

end ClassGraph

end JvmClass
