/-
  JvmClass.Pool.Draft — a constant pool before it is resolved.

  A draft has the constants of the class file slot by slot. Patches overlay it. Text fits a text,
  a class (which it renames) and a string (which becomes a live object); a type fits a class; a
  number fits a number of its kind; an object fits a string. A list of patches applies as a
  whole or not at all. Nothing refers from slot to slot yet but by number.
-/

import JvmClass.Fault
import JvmClass.Name
import JvmClass.Pool.Patch

namespace JvmClass

inductive DraftEntry (T : Type)
  | vacant
  | text (value : String)
  /-- A patch may have given a name (dotted), a type, or both. -/
  | cls (name : Index) (renamed : Option String) (bound : Option T)
  | literal (value : Literal)
  | string (text : Index)
  | live (value : LiveObject)
  | nameAndType (name descriptor : Index)
  | member (kind : MemberKind) (cls nameAndType : Index)
  | methodHandle (kind : UInt8) (reference : Index)
  | methodType (descriptor : Index)
  | invokeDynamic (bootstrap nameAndType : Index)

namespace DraftEntry

variable {T : Type}

def ofConstant : Option Constant → Except FormatFault (DraftEntry T)
  | none => .ok .vacant
  | some (.utf8 value) => .ok (.text value)
  | some (.literal value) => .ok (.literal value)
  | some (.cls a) => .ok (.cls a none none)
  | some (.string a) => .ok (.string a)
  | some (.member kind a b) => .ok (.member kind a b)
  | some (.nameAndType a b) => .ok (.nameAndType a b)
  | some (.methodHandle kind a) => .ok (.methodHandle kind a)
  | some (.methodType a) => .ok (.methodType a)
  | some (.invokeDynamic a b) => .ok (.invokeDynamic a b)
  | some (.unsupported tag) => .error (.badPoolType tag)

/-- The kind as faults name it. -/
def kindName : DraftEntry T → String
  | .vacant => "empty"
  | .text _ => "Utf8"
  | .cls .. => "Class"
  | .literal value => value.kindName
  | .string _ => "String"
  | .live _ => "LiveObject"
  | .nameAndType .. => "NameAndType"
  | .member kind .. => kind.kindName
  | .methodHandle .. => "MethodHandle"
  | .methodType _ => "MethodType"
  | .invokeDynamic .. => "InvokeDynamic"

variable [ToString T]

def misfit (slot : Nat) (e : DraftEntry T) (p : Patch T) : Error :=
  .format none (.badPatch slot p.describe e.kindName)

/-- The entry of a slot with a patch laid over it. -/
def patched (slot : Nat) (e : DraftEntry T) (p : Patch T) : Except Error (DraftEntry T) :=
  match e, p with
  | .text _, .text value => .ok (.text value)
  | .cls name _ _, .text value => .ok (.cls name (some (dotted value)) none)
  | .cls name renamed _, .type t => .ok (.cls name renamed (some t))
  | .literal old, .literal new =>
    if old.kindName = new.kindName then .ok (.literal new) else .error (misfit slot e p)
  | .string _, .text value => .ok (.live (.text value))
  | .string _, .object value => .ok (.live value)
  | .text _, _ | .cls .., _ | .literal _, _ | .string _, _ => .error (misfit slot e p)
  | .vacant, _ => .error (.notImplemented (.patchOfEmptySlot slot))
  | e, _ => .error (.notImplemented (.patchOfItem e.kindName slot))

def patchedWith (slot : Nat) (e : DraftEntry T) : Option (Patch T) → Except Error (DraftEntry T)
  | some p => e.patched slot p
  | none => .ok e

end DraftEntry

structure Draft (T : Type) where
  entries : List (DraftEntry T)

namespace Draft

variable {T : Type}

/-- Number of slots, the empty slot 0 included. -/
def size (d : Draft T) : Nat := d.entries.length

/-- The largest number of slots. -/
def maxSize : Nat := 65535

def ofConstants (constants : List (Option Constant)) : Except FormatFault (Draft T) :=
  if maxSize < constants.length then .error .poolTooLarge
  else
    match constants with
    | some _ :: _ => .error (.badPoolItem 0)
    | _ => return ⟨← constants.mapM DraftEntry.ofConstant⟩

/-- Lays a patch over each slot that has one in the list; `input` is the class they are for. -/
def patch [ToString T] (d : Draft T) (input : String) (patches : List (Option (Patch T))) :
    Except Error (Draft T) :=
  if d.size < patches.length then
    .error (.format (some input) (.tooManyPatches patches.length d.size))
  else
    let padded := patches ++ List.replicate (d.size - patches.length) none
    match (d.entries.zip padded).zipIdx.mapM fun ((e, p), slot) => e.patchedWith slot p with
    | .ok entries => .ok ⟨entries⟩
    | .error e => .error (e.inClass input)

end Draft

end JvmClass
