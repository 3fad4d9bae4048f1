/-
  JvmClass.Access — access flags.

  Classes, methods, fields and inner class entries each have flags of their own in a common
  16-bit field. A set of flags never holds a bit that its holder does not define: such bits are
  dropped when the set is made (`Access.ofBits`).
-/

namespace JvmClass

/-- What the flags belong to. -/
inductive Holder
  | ofClass
  | ofMethod
  | ofField
  | ofInnerClass
  deriving DecidableEq

abbrev accPublic : UInt16 := 0x0001
abbrev accPrivate : UInt16 := 0x0002
abbrev accProtected : UInt16 := 0x0004
abbrev accStatic : UInt16 := 0x0008
abbrev accFinal : UInt16 := 0x0010
abbrev accSuper : UInt16 := 0x0020
abbrev accSynchronized : UInt16 := 0x0020
abbrev accVolatile : UInt16 := 0x0040
abbrev accBridge : UInt16 := 0x0040
abbrev accTransient : UInt16 := 0x0080
abbrev accVarargs : UInt16 := 0x0080
abbrev accNative : UInt16 := 0x0100
abbrev accInterface : UInt16 := 0x0200
abbrev accAbstract : UInt16 := 0x0400
abbrev accStrict : UInt16 := 0x0800
abbrev accSynthetic : UInt16 := 0x1000
abbrev accAnnotation : UInt16 := 0x2000
abbrev accEnum : UInt16 := 0x4000

/-- The three visibility flags together. -/
abbrev accVisibility : UInt16 := 0x0007

/-- The flags of a holder with their names, in ascending order of the bits. -/
def Holder.flags : Holder → List (String × UInt16)
  | .ofClass =>
    [("PUBLIC", accPublic), ("FINAL", accFinal), ("SUPER", accSuper),
      ("INTERFACE", accInterface), ("ABSTRACT", accAbstract), ("SYNTHETIC", accSynthetic),
      ("ANNOTATION", accAnnotation), ("ENUM", accEnum)]
  | .ofMethod =>
    [("PUBLIC", accPublic), ("PRIVATE", accPrivate), ("PROTECTED", accProtected),
      ("STATIC", accStatic), ("FINAL", accFinal), ("SYNCHRONIZED", accSynchronized),
      ("BRIDGE", accBridge), ("VARARGS", accVarargs), ("NATIVE", accNative),
      ("ABSTRACT", accAbstract), ("STRICT", accStrict), ("SYNTHETIC", accSynthetic)]
  | .ofField =>
    [("PUBLIC", accPublic), ("PRIVATE", accPrivate), ("PROTECTED", accProtected),
      ("STATIC", accStatic), ("FINAL", accFinal), ("VOLATILE", accVolatile),
      ("TRANSIENT", accTransient), ("SYNTHETIC", accSynthetic), ("ENUM", accEnum)]
  | .ofInnerClass =>
    [("PUBLIC", accPublic), ("PRIVATE", accPrivate), ("PROTECTED", accProtected),
      ("STATIC", accStatic), ("FINAL", accFinal), ("INTERFACE", accInterface),
      ("ABSTRACT", accAbstract), ("SYNTHETIC", accSynthetic), ("ANNOTATION", accAnnotation),
      ("ENUM", accEnum)]

/-- All bits that the holder defines. -/
def Holder.mask : Holder → UInt16
  | .ofClass => 0x7631
  | .ofMethod => 0x1DFF
  | .ofField => 0x50DF
  | .ofInnerClass => 0x761F

theorem Holder.mask_eq (h : Holder) : h.mask = h.flags.foldl (fun m f => m ||| f.2) 0 := by
  cases h <;> decide

structure Access (h : Holder) where
  bits : UInt16
  deriving DecidableEq

namespace Access

variable {h : Holder}

def ofBits (h : Holder) (bits : UInt16) : Access h := ⟨bits &&& h.mask⟩

/-- Every flag of `flags` is set. -/
def has (a : Access h) (flags : UInt16) : Bool := a.bits &&& flags == flags

/-- Some flag of `flags` is set. -/
def hasAny (a : Access h) (flags : UInt16) : Bool := a.bits &&& flags != 0

def insert (a : Access h) (flags : UInt16) : Access h := ⟨a.bits ||| flags⟩

def erase (a : Access h) (flags : UInt16) : Access h := ⟨a.bits &&& ~~~flags⟩

/-- The names of the flags that are set, in ascending order of the bits. -/
def names (a : Access h) : List String :=
  (h.flags.filter fun f => a.has f.2).map (·.1)

/-- The flags as a line of text: the names between bars, `(empty)` for none. -/
def text (a : Access h) : String :=
  match a.names with
  | [] => "(empty)"
  | names => String.intercalate " | " names

end Access

/-- At most one of public, private and protected may be declared. -/
def hasConflictingVisibility (bits : UInt16) : Bool :=
  let v := bits &&& accVisibility
  v != 0 && v != accPublic && v != accPrivate && v != accProtected

end JvmClass
