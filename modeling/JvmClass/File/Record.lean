/-
  JvmClass.File.Record — a class file as a record.

  The record follows the binary layout field by field: indices are still numbers and attributes
  still bytes. Slot 0 of the pool is empty, and so is the slot after a long or double.
-/

import JvmClass.File.Attribute

namespace JvmClass

/-- A field or a method. -/
structure MemberInfo where
  access : UInt16
  name : Index
  descriptor : Index
  attributes : List Attribute
  deriving DecidableEq

structure ClassFile where
  version : Version
  constants : List (Option Constant)
  access : UInt16
  thisClass : Index
  /-- Slot 0 stands for no superclass. -/
  superClass : Index
  interfaces : List Index
  fields : List MemberInfo
  methods : List MemberInfo
  attributes : List Attribute
  deriving DecidableEq

end JvmClass
