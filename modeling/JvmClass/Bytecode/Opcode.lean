/-
  JvmClass.Bytecode.Opcode — the instructions of method bodies.

  Bytes that differ only in where an operand comes from have one opcode: `iconst` also stands for
  `bipush` and `sipush`, `ldc` for its wide forms, a load or store for its short forms, `goto` and
  `jsr` for their wide forms. What the bytes say otherwise is in the format of the operands
  (`OperandFormat`). The prefix `wide` is no instruction of its own.
-/

namespace JvmClass

inductive Opcode
  | nop | aconstNull | iconst | lconst0 | lconst1 | fconst0 | fconst1 | fconst2 | dconst0
  | dconst1 | ldc | iload | lload | fload | dload | aload | iaload | laload | faload | daload
  | aaload | baload | caload | saload | istore | lstore | fstore | dstore | astore | iastore
  | lastore | fastore | dastore | aastore | bastore | castore | sastore | pop | pop2 | dup
  | dupX1 | dupX2 | dup2 | dup2X1 | dup2X2 | swap | iadd | ladd | fadd | dadd | isub | lsub
  | fsub | dsub | imul | lmul | fmul | dmul | idiv | ldiv | fdiv | ddiv | irem | lrem | frem
  | drem | ineg | lneg | fneg | dneg | ishl | lshl | ishr | lshr | iushr | lushr | iand | land
  | ior | lor | ixor | lxor | iinc | i2l | i2f | i2d | l2i | l2f | l2d | f2i | f2l | f2d | d2i
  | d2l | d2f | i2b | i2c | i2s | lcmp | fcmpl | fcmpg | dcmpl | dcmpg | ifeq | ifne | iflt
  | ifge | ifgt | ifle | ifIcmpeq | ifIcmpne | ifIcmplt | ifIcmpge | ifIcmpgt | ifIcmple
  | ifAcmpeq | ifAcmpne | goto | jsr | ret | tableswitch | lookupswitch | ireturn | lreturn
  | freturn | dreturn | areturn | returnVoid | getstatic | putstatic | getfield | putfield
  | invokevirtual | invokespecial | invokestatic | invokeinterface | invokedynamic | new
  | newarray | anewarray | arraylength | athrow | checkcast | instanceof | monitorenter
  | monitorexit | multianewarray | ifnull | ifnonnull
  deriving DecidableEq

namespace Opcode

/-- The operand is the target of a jump. -/
def isBranch : Opcode → Bool
  | .ifeq | .ifne | .iflt | .ifge | .ifgt | .ifle | .ifIcmpeq | .ifIcmpne | .ifIcmplt
  | .ifIcmpge | .ifIcmpgt | .ifIcmple | .ifAcmpeq | .ifAcmpne | .goto | .jsr | .ifnull
  | .ifnonnull => true
  | _ => false

def isSwitch : Opcode → Bool
  | .tableswitch | .lookupswitch => true
  | _ => false

/-- The operand is a slot of the constant pool. -/
def hasConstant : Opcode → Bool
  | .ldc | .getstatic | .putstatic | .getfield | .putfield | .invokevirtual | .invokespecial
  | .invokestatic | .invokeinterface | .invokedynamic | .new | .anewarray | .checkcast
  | .instanceof | .multianewarray => true
  | _ => false

def name : Opcode → String
  | .nop => "Nop"
  | .aconstNull => "AConstNull"
  | .iconst => "IConst"
  | .lconst0 => "LConst0"
  | .lconst1 => "LConst1"
  | .fconst0 => "FConst0"
  | .fconst1 => "FConst1"
  | .fconst2 => "FConst2"
  | .dconst0 => "DConst0"
  | .dconst1 => "DConst1"
  | .ldc => "Ldc"
  | .iload => "ILoad"
  | .lload => "LLoad"
  | .fload => "FLoad"
  | .dload => "DLoad"
  | .aload => "ALoad"
  | .iaload => "IALoad"
  | .laload => "LALoad"
  | .faload => "FALoad"
  | .daload => "DALoad"
  | .aaload => "AALoad"
  | .baload => "BALoad"
  | .caload => "CALoad"
  | .saload => "SALoad"
  | .istore => "IStore"
  | .lstore => "LStore"
  | .fstore => "FStore"
  | .dstore => "DStore"
  | .astore => "AStore"
  | .iastore => "IAStore"
  | .lastore => "LAStore"
  | .fastore => "FAStore"
  | .dastore => "DAStore"
  | .aastore => "AAStore"
  | .bastore => "BAStore"
  | .castore => "CAStore"
  | .sastore => "SAStore"
  | .pop => "Pop"
  | .pop2 => "Pop2"
  | .dup => "Dup"
  | .dupX1 => "DupX1"
  | .dupX2 => "DupX2"
  | .dup2 => "Dup2"
  | .dup2X1 => "Dup2X1"
  | .dup2X2 => "Dup2X2"
  | .swap => "Swap"
  | .iadd => "IAdd"
  | .ladd => "LAdd"
  | .fadd => "FAdd"
  | .dadd => "DAdd"
  | .isub => "ISub"
  | .lsub => "LSub"
  | .fsub => "FSub"
  | .dsub => "DSub"
  | .imul => "IMul"
  | .lmul => "LMul"
  | .fmul => "FMul"
  | .dmul => "DMul"
  | .idiv => "IDiv"
  | .ldiv => "LDiv"
  | .fdiv => "FDiv"
  | .ddiv => "DDiv"
  | .irem => "IRem"
  | .lrem => "LRem"
  | .frem => "FRem"
  | .drem => "DRem"
  | .ineg => "INeg"
  | .lneg => "LNeg"
  | .fneg => "FNeg"
  | .dneg => "DNeg"
  | .ishl => "IShl"
  | .lshl => "LShl"
  | .ishr => "IShr"
  | .lshr => "LShr"
  | .iushr => "IUShr"
  | .lushr => "LUShr"
  | .iand => "IAnd"
  | .land => "LAnd"
  | .ior => "IOr"
  | .lor => "LOr"
  | .ixor => "IXor"
  | .lxor => "LXor"
  | .iinc => "IInc"
  | .i2l => "I2L"
  | .i2f => "I2F"
  | .i2d => "I2D"
  | .l2i => "L2I"
  | .l2f => "L2F"
  | .l2d => "L2D"
  | .f2i => "F2I"
  | .f2l => "F2L"
  | .f2d => "F2D"
  | .d2i => "D2I"
  | .d2l => "D2L"
  | .d2f => "D2F"
  | .i2b => "I2B"
  | .i2c => "I2C"
  | .i2s => "I2S"
  | .lcmp => "LCmp"
  | .fcmpl => "FCmpL"
  | .fcmpg => "FCmpG"
  | .dcmpl => "DCmpL"
  | .dcmpg => "DCmpG"
  | .ifeq => "IfEq"
  | .ifne => "IfNe"
  | .iflt => "IfLt"
  | .ifge => "IfGe"
  | .ifgt => "IfGt"
  | .ifle => "IfLe"
  | .ifIcmpeq => "IfICmpEq"
  | .ifIcmpne => "IfICmpNe"
  | .ifIcmplt => "IfICmpLt"
  | .ifIcmpge => "IfICmpGe"
  | .ifIcmpgt => "IfICmpGt"
  | .ifIcmple => "IfICmpLe"
  | .ifAcmpeq => "IfACmpEq"
  | .ifAcmpne => "IfACmpNe"
  | .goto => "Goto"
  | .jsr => "Jsr"
  | .ret => "Ret"
  | .tableswitch => "TableSwitch"
  | .lookupswitch => "LookupSwitch"
  | .ireturn => "IReturn"
  | .lreturn => "LReturn"
  | .freturn => "FReturn"
  | .dreturn => "DReturn"
  | .areturn => "AReturn"
  | .returnVoid => "Return"
  | .getstatic => "GetStatic"
  | .putstatic => "PutStatic"
  | .getfield => "GetField"
  | .putfield => "PutField"
  | .invokevirtual => "InvokeVirtual"
  | .invokespecial => "InvokeSpecial"
  | .invokestatic => "InvokeStatic"
  | .invokeinterface => "InvokeInterface"
  | .invokedynamic => "InvokeDynamic"
  | .new => "New"
  | .newarray => "NewArray"
  | .anewarray => "ANewArray"
  | .arraylength => "ArrayLength"
  | .athrow => "AThrow"
  | .checkcast => "CheckCast"
  | .instanceof => "InstanceOf"
  | .monitorenter => "MonitorEnter"
  | .monitorexit => "MonitorExit"
  | .multianewarray => "MultiANewArray"
  | .ifnull => "IfNull"
  | .ifnonnull => "IfNonNull"

end Opcode

/-- What follows the byte of an opcode. -/
inductive OperandFormat
  | plain
  /-- The byte itself says the operand. -/
  | implied (operand : Int)
  /-- A local variable in one byte, in two after `wide`. -/
  | slot
  /-- A signed number in one byte. -/
  | byte
  /-- A signed number in two bytes. -/
  | short
  /-- A constant in one byte. -/
  | constantByte
  /-- A constant in two bytes. -/
  | constant
  /-- A local variable and a signed number, in one byte each, in two each after `wide`. -/
  | increment
  /-- A constant, the number of arguments, and a byte that is ignored. -/
  | interfaceCall
  /-- A constant and two bytes that are ignored. -/
  | dynamicCall
  /-- A constant and the number of dimensions. -/
  | dimensions
  /-- The code of an element type. -/
  | arrayType
  /-- A signed offset in two bytes. -/
  | branch
  /-- A signed offset in four bytes. -/
  | wideBranch
  | tableSwitch
  | lookupSwitch
  /-- The prefix before an instruction with wide operands. -/
  | wide
  deriving DecidableEq

/-- The opcodes and formats by byte; the bytes after the last one are reserved. -/
def opcodeTable : Array (Opcode × OperandFormat) := #[
  (.nop, .plain), (.aconstNull, .plain), (.iconst, .implied (-1)), (.iconst, .implied 0),
  (.iconst, .implied 1), (.iconst, .implied 2), (.iconst, .implied 3), (.iconst, .implied 4),
  (.iconst, .implied 5), (.lconst0, .plain), (.lconst1, .plain), (.fconst0, .plain),
  (.fconst1, .plain), (.fconst2, .plain), (.dconst0, .plain), (.dconst1, .plain),
  (.iconst, .byte), (.iconst, .short), (.ldc, .constantByte), (.ldc, .constant),
  (.ldc, .constant), (.iload, .slot), (.lload, .slot), (.fload, .slot), (.dload, .slot),
  (.aload, .slot), (.iload, .implied 0), (.iload, .implied 1), (.iload, .implied 2),
  (.iload, .implied 3), (.lload, .implied 0), (.lload, .implied 1), (.lload, .implied 2),
  (.lload, .implied 3), (.fload, .implied 0), (.fload, .implied 1), (.fload, .implied 2),
  (.fload, .implied 3), (.dload, .implied 0), (.dload, .implied 1), (.dload, .implied 2),
  (.dload, .implied 3), (.aload, .implied 0), (.aload, .implied 1), (.aload, .implied 2),
  (.aload, .implied 3), (.iaload, .plain), (.laload, .plain), (.faload, .plain),
  (.daload, .plain), (.aaload, .plain), (.baload, .plain), (.caload, .plain),
  (.saload, .plain), (.istore, .slot), (.lstore, .slot), (.fstore, .slot), (.dstore, .slot),
  (.astore, .slot), (.istore, .implied 0), (.istore, .implied 1), (.istore, .implied 2),
  (.istore, .implied 3), (.lstore, .implied 0), (.lstore, .implied 1), (.lstore, .implied 2),
  (.lstore, .implied 3), (.fstore, .implied 0), (.fstore, .implied 1), (.fstore, .implied 2),
  (.fstore, .implied 3), (.dstore, .implied 0), (.dstore, .implied 1), (.dstore, .implied 2),
  (.dstore, .implied 3), (.astore, .implied 0), (.astore, .implied 1), (.astore, .implied 2),
  (.astore, .implied 3), (.iastore, .plain), (.lastore, .plain), (.fastore, .plain),
  (.dastore, .plain), (.aastore, .plain), (.bastore, .plain), (.castore, .plain),
  (.sastore, .plain), (.pop, .plain), (.pop2, .plain), (.dup, .plain), (.dupX1, .plain),
  (.dupX2, .plain), (.dup2, .plain), (.dup2X1, .plain), (.dup2X2, .plain), (.swap, .plain),
  (.iadd, .plain), (.ladd, .plain), (.fadd, .plain), (.dadd, .plain), (.isub, .plain),
  (.lsub, .plain), (.fsub, .plain), (.dsub, .plain), (.imul, .plain), (.lmul, .plain),
  (.fmul, .plain), (.dmul, .plain), (.idiv, .plain), (.ldiv, .plain), (.fdiv, .plain),
  (.ddiv, .plain), (.irem, .plain), (.lrem, .plain), (.frem, .plain), (.drem, .plain),
  (.ineg, .plain), (.lneg, .plain), (.fneg, .plain), (.dneg, .plain), (.ishl, .plain),
  (.lshl, .plain), (.ishr, .plain), (.lshr, .plain), (.iushr, .plain), (.lushr, .plain),
  (.iand, .plain), (.land, .plain), (.ior, .plain), (.lor, .plain), (.ixor, .plain),
  (.lxor, .plain), (.iinc, .increment), (.i2l, .plain), (.i2f, .plain), (.i2d, .plain),
  (.l2i, .plain), (.l2f, .plain), (.l2d, .plain), (.f2i, .plain), (.f2l, .plain),
  (.f2d, .plain), (.d2i, .plain), (.d2l, .plain), (.d2f, .plain), (.i2b, .plain),
  (.i2c, .plain), (.i2s, .plain), (.lcmp, .plain), (.fcmpl, .plain), (.fcmpg, .plain),
  (.dcmpl, .plain), (.dcmpg, .plain), (.ifeq, .branch), (.ifne, .branch), (.iflt, .branch),
  (.ifge, .branch), (.ifgt, .branch), (.ifle, .branch), (.ifIcmpeq, .branch),
  (.ifIcmpne, .branch), (.ifIcmplt, .branch), (.ifIcmpge, .branch), (.ifIcmpgt, .branch),
  (.ifIcmple, .branch), (.ifAcmpeq, .branch), (.ifAcmpne, .branch), (.goto, .branch),
  (.jsr, .branch), (.ret, .slot), (.tableswitch, .tableSwitch), (.lookupswitch, .lookupSwitch),
  (.ireturn, .plain), (.lreturn, .plain), (.freturn, .plain), (.dreturn, .plain),
  (.areturn, .plain), (.returnVoid, .plain), (.getstatic, .constant), (.putstatic, .constant),
  (.getfield, .constant), (.putfield, .constant), (.invokevirtual, .constant),
  (.invokespecial, .constant), (.invokestatic, .constant), (.invokeinterface, .interfaceCall),
  (.invokedynamic, .dynamicCall), (.new, .constant), (.newarray, .arrayType),
  (.anewarray, .constant), (.arraylength, .plain), (.athrow, .plain), (.checkcast, .constant),
  (.instanceof, .constant), (.monitorenter, .plain), (.monitorexit, .plain), (.nop, .wide),
  (.multianewarray, .dimensions), (.ifnull, .branch), (.ifnonnull, .branch),
  (.goto, .wideBranch), (.jsr, .wideBranch)]

def Opcode.ofByte? (byte : UInt8) : Option (Opcode × OperandFormat) := opcodeTable[byte.toNat]?

end JvmClass
