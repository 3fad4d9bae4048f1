/-
  JvmClass.Pool.Resolve — from drafts to resolved pools.

  Constants are resolved in three rounds, each in the order of the slots: those that refer to
  texts only, then members and call sites, which refer to constants of the first round, then
  method handles, which refer to members. So the order of the slots does not matter: whatever a
  constant may refer to has been resolved in an earlier round.
-/

import JvmClass.Pool.Basic
import JvmClass.Pool.Draft

namespace JvmClass

/-- What names are checked against. -/
structure Rules where
  version : Version
  options : Options

/-- The rounds in which constants are resolved. -/
inductive Round
  | texts
  | members
  | handles
  deriving DecidableEq

namespace DraftEntry

/-- The round of a constant; texts and empty slots need none. -/
def round? {T : Type} : DraftEntry T → Option Round
  | .vacant | .text _ => none
  | .member .. | .invokeDynamic .. => some .members
  | .methodHandle .. => some .handles
  | _ => some .texts

/-- What a slot holds before the first round. -/
def unresolved {T F M : Type} : DraftEntry T → Entry T F M
  | .text value => .text value false
  | _ => .vacant

end DraftEntry

/-- A method handle of the kind may refer to a member of the other kind. -/
def HandleKind.accepts (version : Version) : HandleKind → MemberKind → Bool
  | kind, .field => kind.isField
  | .invokeVirtual, .method | .invokeStatic, .method | .invokeSpecial, .method
  | .newInvokeSpecial, .method => true
  | .invokeInterface, .interfaceMethod => true
  | .invokeStatic, .interfaceMethod | .invokeSpecial, .interfaceMethod =>
    version.hasJava8Features
  | _, _ => false

/-- Only handles that make objects name a constructor, and none names a static initializer. -/
def HandleKind.acceptsName (kind : HandleKind) (name : String) : Bool :=
  match kind with
  | .newInvokeSpecial => name == initName
  | kind => kind.isField || name.toList.head? != some '<'

namespace Pool

variable {T F M : Type} (rules : Rules) (p : Pool T F M)

/-- The constant that the one at `slot` refers to. -/
def referred (slot : Nat) (i : Index) : Except FormatFault (Entry T F M) :=
  let e := p.entry i
  if e.isConstant then .ok e else .error (.badPoolItem slot)

/-- Name and descriptor of a name-and-type constant. -/
def nameAndTypeText (slot : Nat) (i : Index) : Except FormatFault (String × String) := do
  match ← p.referred slot i with
  | .nameAndType name descriptor => return (← p.text name, ← p.text descriptor)
  | _ => throw (.badPoolItem slot)

def referredClassName (slot : Nat) (i : Index) : Except FormatFault String := do
  match ← p.referred slot i with
  | .cls item => return item.name
  | _ => throw (.badPoolItem slot)

/-- A method that code refers to; of the special names, constructors have only theirs. -/
def checkMethod (name descriptor : String) : Except FormatFault Unit :=
  if !isValidMethodDescriptor descriptor then .error (.badMethodDescriptor name descriptor)
  else if isValidMethodName name rules.version then .ok ()
  else if name ≠ initName then .error (.badMethodName name)
  else if !endsInVoid descriptor then .error (.badMethodDescriptor name descriptor)
  else .ok ()

def checkField (name descriptor : String) : Except FormatFault Unit :=
  if !isValidFieldDescriptor descriptor then .error (.badFieldDescriptor descriptor)
  else if !isValidFieldName name rules.version then .error (.badFieldName name)
  else .ok ()

def checkMember : MemberKind → String → String → Except FormatFault Unit
  | .field => checkField rules
  | .method | .interfaceMethod => checkMethod rules

def ofMember (member : MemberRef) : MemberKind → Entry T F M
  | .field => .field member .empty
  | .method => .method ⟨member, .empty, .empty⟩
  | .interfaceMethod => .interfaceMethod ⟨member, .empty, .empty⟩

def resolveClass (name : Index) (bound : Option T) : Except FormatFault (Entry T F M) := do
  let name ← p.text name
  if isValidClassName name rules.version rules.options then
    return .cls ⟨dotted name, false, ⟨bound⟩⟩
  else throw (.badClassName name)

def resolveMember (slot : Nat) (kind : MemberKind) (cls nameAndType : Index) :
    Except FormatFault (Entry T F M) := do
  let className ← p.referredClassName slot cls
  let (name, descriptor) ← p.nameAndTypeText slot nameAndType
  checkMember rules kind name descriptor
  return ofMember ⟨cls, className, name, dotted descriptor⟩ kind

def resolveHandle (slot : Nat) (kind : UInt8) (reference : Index) :
    Except FormatFault (Entry T F M) := do
  match HandleKind.ofByte? kind with
  | none => throw .badMethodHandle
  | some kind =>
    match (← p.referred slot reference).member? with
    | none => throw .badMethodHandle
    | some (memberKind, member) =>
      if !kind.accepts rules.version memberKind then throw .badMethodHandle
      if !kind.acceptsName member.name then throw .badHandleName
      return .methodHandle kind reference

/-- The entry that a draft's entry becomes, once what it refers to is resolved. -/
def resolveEntry (slot : Nat) : DraftEntry T → Except FormatFault (Entry T F M)
  | .vacant => .ok .vacant
  | .text value => .ok (.text value false)
  | .cls _ (some renamed) bound => .ok (.cls ⟨renamed, false, ⟨bound⟩⟩)
  | .cls name none bound => p.resolveClass rules name bound
  | .literal value => .ok (.literal value)
  | .string text => return .string (← p.text text)
  | .live value => .ok (.live value)
  | .nameAndType name descriptor => do
    let _ ← p.text name
    let _ ← p.text descriptor
    return .nameAndType name descriptor
  | .member kind cls nameAndType => p.resolveMember rules slot kind cls nameAndType
  | .methodHandle kind reference => p.resolveHandle rules slot kind reference
  | .methodType descriptor => do
    let descriptor ← p.text descriptor
    if isValidMethodDescriptor descriptor then return .methodType (dotted descriptor) .empty
    else throw .badMethodType
  | .invokeDynamic bootstrap nameAndType => do
    let (name, descriptor) ← p.nameAndTypeText slot nameAndType
    checkMethod rules name descriptor
    return .invokeDynamic bootstrap name (dotted descriptor) .empty

/-- One round over the entries from `slot` on. -/
def resolveRound (rules : Rules) (round : Round) (slot : Nat) (p : Pool T F M) :
    List (DraftEntry T) → Except FormatFault (Pool T F M)
  | [] => .ok p
  | e :: rest =>
    if e.round? = some round then
      match p.resolveEntry rules slot e with
      | .ok resolved =>
        resolveRound rules round (slot + 1) ⟨p.entries.setIfInBounds slot resolved⟩ rest
      | .error fault => .error fault
    else resolveRound rules round (slot + 1) p rest

end Pool

/-- The pool of the draft, if all its constants are as they should be. -/
def Draft.resolve {T : Type} (F M : Type) (d : Draft T) (rules : Rules) :
    Except FormatFault (Pool T F M) := do
  let p₀ : Pool T F M := ⟨(d.entries.map DraftEntry.unresolved).toArray⟩
  let p₁ ← p₀.resolveRound rules .texts 0 d.entries
  let p₂ ← p₁.resolveRound rules .members 0 d.entries
  p₂.resolveRound rules .handles 0 d.entries

end JvmClass
