/-
  JvmClass.File.Reader — class files read from bytes.

  All numbers are big-endian. A list follows its number of items in two bytes, a text its number
  of bytes in two, an attribute payload its number of bytes in four. The pool says how many slots
  it has, the empty slot 0 included; a long or double takes the slot after it too and so cannot be
  the last. Nothing may follow the last attribute.
-/

import JvmClass.File.Record
import JvmClass.Text.ModifiedUtf8

namespace JvmClass

abbrev FileRead := Read ReadFault

namespace FileRead

def byte : FileRead UInt8 := Read.byte .truncated

def short : FileRead UInt16 := Read.short .truncated

def word : FileRead UInt32 := Read.word .truncated

def long : FileRead UInt64 := Read.long .truncated

def counted {α : Type} (read : FileRead α) : FileRead (List α) := Read.counted .truncated read

end FileRead

open FileRead

def Constant.readText : FileRead Constant := do
  let length ← short
  let bytes ← Read.exact .truncated length.toNat
  match Text.ModifiedUtf8.decode bytes with
  | some text => return .utf8 text
  | none => throw (.malformed .illegalText)

def Constant.read : FileRead Constant := do
  let tag ← byte
  match tag with
  | 1 => readText
  | 3 => return .literal (.int (← word).toInt32)
  | 4 => return .literal (.float (← word))
  | 5 => return .literal (.long (← long).toInt64)
  | 6 => return .literal (.double (← long))
  | 7 => return .cls (← short)
  | 8 => return .string (← short)
  | 9 => return .member .field (← short) (← short)
  | 10 => return .member .method (← short) (← short)
  | 11 => return .member .interfaceMethod (← short) (← short)
  | 12 => return .nameAndType (← short) (← short)
  | 15 => return .methodHandle (← byte) (← short)
  | 16 => return .methodType (← short)
  | 17 => do
    let _ ← word
    return .unsupported tag
  | 18 => return .invokeDynamic (← short) (← short)
  | 19 | 20 => do
    let _ ← short
    return .unsupported tag
  | _ => throw (.malformed (.unknownConstant tag))

/-- The constants of so many slots, after those of `acc` (last first). -/
def readSlots (acc : List (Option Constant)) : Nat → FileRead (List (Option Constant))
  | 0 => return acc.reverse
  | 1 => do
    let constant ← Constant.read
    if constant.isWide then throw (.malformed .wideAtEnd)
    return (some constant :: acc).reverse
  | n + 2 => do
    let constant ← Constant.read
    if constant.isWide then readSlots (none :: some constant :: acc) n
    else readSlots (some constant :: acc) (n + 1)

def readConstants : FileRead (List (Option Constant)) := do
  let count ← short
  readSlots [none] (count.toNat - 1)

def MemberInfo.read : FileRead MemberInfo := do
  let access ← short
  let name ← short
  let descriptor ← short
  let attributes ← counted (Attribute.read .truncated)
  return ⟨access, name, descriptor, attributes⟩

/-- The first four bytes of every class file. -/
def fileMagic : UInt32 := 0xCAFEBABE

def ClassFile.read : FileRead ClassFile := do
  let magic ← word
  if magic ≠ fileMagic then throw (.badMagic magic)
  let minor ← short
  let major ← short
  let constants ← readConstants
  let access ← short
  let thisClass ← short
  let superClass ← short
  let interfaces ← counted short
  let fields ← counted MemberInfo.read
  let methods ← counted MemberInfo.read
  let attributes ← counted (Attribute.read .truncated)
  return { version := ⟨major, minor⟩, constants, access, thisClass, superClass, interfaces,
           fields, methods, attributes }

/-- The class file that is the whole of the bytes. -/
def ClassFile.parse (bytes : List UInt8) : Except ReadFault ClassFile :=
  Read.run (do
    let file ← ClassFile.read
    let leftover := (← get).rest.length
    if leftover ≠ 0 then throw (.trailingBytes leftover)
    return file) bytes

end JvmClass
