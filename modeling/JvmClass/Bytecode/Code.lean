/-
  JvmClass.Bytecode.Code — `Code` attributes.

  A body that does not decode, or whose exception handlers do not start and end at instructions,
  is kept as invalid: that matters only once the method is used. Everything else that is wrong
  with the attribute, jumps into the midst of an instruction included, makes the class unusable.
  In a decoded body jumps and handlers refer to instructions by their position in the list.
-/

import JvmClass.Bytecode.Decoder
import JvmClass.Descriptor.Parser
import JvmClass.File.Attribute
import JvmClass.Name
import JvmClass.Options
import JvmClass.Pool.Basic

namespace JvmClass

structure LineNumber where
  start : UInt16
  line : UInt16
  deriving DecidableEq

structure LocalVariable where
  start : UInt16
  length : UInt16
  name : String
  /-- With `.` between the segments of class names. -/
  descriptor : String
  slot : UInt16
  deriving DecidableEq

/-- The debug tables that were asked for and are there. -/
structure DebugTables where
  lineNumbers : Option (List LineNumber) := none
  localVariables : Option (List LocalVariable) := none
  deriving DecidableEq

/-- An exception handler in terms of bytes: it covers those from `start` to before `stop`. -/
structure HandlerRange where
  start : UInt16
  stop : UInt16
  handler : UInt16
  /-- None for handlers of any exception. -/
  catchType : Option Index
  deriving DecidableEq

/-- An exception handler in terms of instructions: it covers those from `first` to `last`. -/
structure ExceptionHandler where
  first : Nat
  last : Nat
  handler : Nat
  catchType : Option Index
  deriving DecidableEq

structure DecodedBody where
  /-- With the final instruction at the end. -/
  instructions : List Instruction
  handlers : List ExceptionHandler
  deriving DecidableEq

inductive Body
  | decoded (body : DecodedBody)
  | invalid (fault : VerifyFault)
  deriving DecidableEq

structure Code where
  maxStack : UInt16
  maxLocals : UInt16
  body : Body
  /-- The local variable of the receiver, if there is one, and of each parameter. -/
  argumentSlots : List Nat
  debug : DebugTables
  deriving DecidableEq

def Code.decoded? (c : Code) : Option DecodedBody :=
  match c.body with
  | .decoded body => some body
  | .invalid _ => none

/-- The code of a method that should have some. -/
def Code.missing (fault : VerifyFault) : Code := ⟨0, 0, .invalid fault, [], {}⟩

/-! ## The parts of the attribute -/

/-- The attribute as it is written, with what needs no decoding checked. -/
structure CodeAttribute where
  maxStack : UInt16
  maxLocals : UInt16
  bytes : List UInt8
  handlers : List HandlerRange
  debug : DebugTables

abbrev FormatRead := Read FormatFault

namespace CodeAttribute

variable {T F M : Type} (pool : Pool T F M)

def short : FormatRead UInt16 := Read.short .truncated

/-- The largest number of bytes of a body. -/
def maxLength : Nat := 65535

def readBytes : FormatRead (List UInt8) := do
  let length ← Read.word .truncated
  if length.toNat = 0 ∨ maxLength < length.toNat then throw (.badCodeLength length.toNat)
  Read.slice .truncated length.toNat

/-- The range is not empty and within the body, and so is the handler. -/
def isRange (length start stop handler : Nat) : Bool :=
  start < stop && stop ≤ length && handler < length

/-- `fault` is for a handler that cannot be. -/
def readHandler (length : Nat) (fault : FormatFault) : FormatRead HandlerRange := do
  let start ← short
  let stop ← short
  let handler ← short
  let catchType ← short
  if !isRange length start.toNat stop.toNat handler.toNat then throw fault
  if catchType = 0 then return ⟨start, stop, handler, none⟩
  if !pool.isClass catchType then throw fault
  return ⟨start, stop, handler, some catchType⟩

def readLineNumber (length : Nat) : FormatRead LineNumber := do
  let start ← short
  let line ← short
  if length ≤ start.toNat then throw .badLineNumber
  return ⟨start, line⟩

def readLineNumbers (length : Nat) : FormatRead (List LineNumber) := do
  let numbers ← Read.counted .truncated (readLineNumber length)
  Read.expectEnd (.leftoverBytes "LineNumberTable")
  return numbers

def readText : FormatRead String := do
  let index ← short
  MonadExcept.ofExcept (pool.text index)

def readLocalVariable : FormatRead LocalVariable := do
  let start ← short
  let length ← short
  let name ← readText pool
  let descriptor ← readText pool
  let slot ← short
  return ⟨start, length, name, dotted descriptor, slot⟩

/-- Bytes may follow the last local variable. -/
def readLocalVariables : FormatRead (List LocalVariable) :=
  Read.counted .truncated (readLocalVariable pool)

/-- The tables with one more attribute of the body; a later table takes the place of an earlier
    one. -/
def addTable (options : Options) (length : Nat) (tables : DebugTables) (a : Attribute) :
    Except FormatFault DebugTables := do
  match AttributeKind.ofName (← pool.text a.name) with
  | .lineNumberTable =>
    if options.lineNumbers then
      return { tables with lineNumbers := ← Read.run (readLineNumbers length) a.info }
    return tables
  | .localVariableTable =>
    if options.localVariables then
      return { tables with localVariables := ← Read.run (readLocalVariables pool) a.info }
    return tables
  | _ => return tables

def readTables (options : Options) (length : Nat) (tables : DebugTables) :
    Nat → FormatRead DebugTables
  | 0 => return tables
  | n + 1 => do
    let a ← Attribute.read .truncated
    let tables ← MonadExcept.ofExcept (addTable pool options length tables a)
    readTables options length tables n

/-- `method` is the name and descriptor, for faults. -/
def read (options : Options) (method : String × String) : FormatRead CodeAttribute := do
  let maxStack ← short
  let maxLocals ← short
  let bytes ← readBytes
  let length := bytes.length
  let handlers ← Read.counted .truncated
    (readHandler pool length (.badExceptionTable method.1 method.2))
  let debug ← readTables pool options length {} (← short).toNat
  Read.expectEnd (.leftoverBytes "Code")
  return { maxStack, maxLocals, bytes, handlers, debug }

end CodeAttribute

/-! ## Arguments -/

/-- The first slot of each value when values of these widths are put in a row from `slot` on. -/
def slotsFrom (slot : Nat) : List Nat → List Nat
  | [] => []
  | width :: rest => slot :: slotsFrom (slot + width) rest

/-- The widths of the arguments, the receiver's included. -/
def argumentWidths (d : MethodDescriptor String) (receiver : Bool) : List Nat :=
  (if receiver then [1] else []) ++ d.parameters.map FieldType.width

def slotsOfArguments (descriptor : String) (receiver : Bool) (maxLocals : UInt16) :
    Except FormatFault (List Nat) :=
  match MethodDescriptor.parse descriptor with
  | .error _ => .error (.badBodyDescriptor descriptor)
  | .ok d =>
    if maxLocals.toNat < d.slots receiver then .error .tooFewLocals
    else .ok (slotsFrom 0 (argumentWidths d receiver))

/-! ## From bytes to positions -/

/-- The position of the instruction that starts at each byte of a body, and of the final one. -/
def offsetMap (length : Nat) (instructions : List Instruction) : Array (Option Nat) :=
  instructions.zipIdx.foldl (fun map (i, position) => map.setIfInBounds i.pc (some position))
    (Array.replicate (length + 1) none)

/-- The position of the instruction that a jump goes to; none beside the body or in the midst of
    an instruction. -/
def targetPosition? (length : Nat) (offsets : Array (Option Nat)) (target : Int) : Option Int :=
  if 0 ≤ target ∧ target < length then
    (offsets[target.toNat]?).join.map Int.ofNat
  else none

def HandlerRange.toHandler (offsets : Array (Option Nat)) (r : HandlerRange) :
    Except VerifyFault ExceptionHandler :=
  let position (pc : UInt16) := (offsets[pc.toNat]?).join
  match position r.start, position r.stop, position r.handler with
  | some first, some stop, some handler => .ok ⟨first, stop - 1, handler, r.catchType⟩
  | _, _, _ => .error (.badHandler r.start.toNat r.stop.toNat r.handler.toNat)

namespace CodeAttribute

/-- The body, and the constants that its instructions refer to. -/
def body (a : CodeAttribute) : Except FormatFault (Body × List Index) :=
  match decodeInstructions a.bytes with
  | .error fault => .ok (.invalid fault, [])
  | .ok raw =>
    let length := a.bytes.length
    let offsets := offsetMap length raw
    match raw.mapM (·.mapTargets? (targetPosition? length offsets)) with
    | none => .error .badTarget
    | some instructions =>
      let constants := instructions.filterMap (·.constant?)
      match a.handlers.mapM (·.toHandler offsets) with
      | .ok handlers => .ok (.decoded ⟨instructions, handlers⟩, constants)
      | .error fault => .ok (.invalid fault, constants)

end CodeAttribute

/-- The code in a payload, and the constants that linking has to provide for it: the classes that
    it catches and all that its instructions refer to. -/
def Code.decode {T F M : Type} (pool : Pool T F M) (options : Options) (name descriptor : String)
    (isStatic : Bool) (info : List UInt8) : Except FormatFault (Code × List Index) := do
  let a ← Read.run (CodeAttribute.read pool options (name, descriptor)) info
  let argumentSlots ← slotsOfArguments descriptor (!isStatic) a.maxLocals
  let (body, constants) ← a.body
  return (⟨a.maxStack, a.maxLocals, body, argumentSlots, a.debug⟩,
    a.handlers.filterMap (·.catchType) ++ constants)

end JvmClass
