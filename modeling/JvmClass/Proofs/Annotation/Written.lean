/-
  JvmClass.Proofs.Annotation.Written — annotations as they are written.

  A written value is a tree whose leaves are indices: those of constants, and of the names that it is made of.
  It has its bytes (`WrittenValue.bytes`) and, given the constants, a value (`WrittenValue.valueIn`). Any tree
  can be written whose lists are not too long for their numbers; which names are readable depends on the
  constants (`WrittenValue.Fits`). A level takes a byte, so the bytes bound the depth
  (`WrittenValue.Fits.within`).
-/

import JvmClass.Annotation
import JvmClass.Proofs.Cursor
import Mathlib.Data.List.Flatten

namespace JvmClass

/-! ## Leaves -/

/-- The kinds of values that are made of one constant. -/
inductive LeafTag
  | boolean
  | byte
  | char
  | short
  | int
  | float
  | long
  | double
  | string
  | cls

def LeafTag.letter : LeafTag → Char
  | boolean => 'Z'
  | byte => 'B'
  | char => 'C'
  | short => 'S'
  | int => 'I'
  | float => 'F'
  | long => 'J'
  | double => 'D'
  | string => 's'
  | cls => 'c'

/-- The byte before a value, which says its kind. -/
def tagByte (letter : Char) : UInt8 := letter.toNat.toUInt8

def IsTag (t : UInt8) : Prop :=
  (∃ tag : LeafTag, t = tagByte tag.letter) ∨ t = tagByte 'e' ∨ t = tagByte '@' ∨ t = tagByte '['

namespace ElementConstants

variable (constants : ElementConstants) (i : Index)

def int? : Option Int32 :=
  match constants.literal? i with
  | some (.int value) => some value
  | _ => none

def float? : Option UInt32 :=
  match constants.literal? i with
  | some (.float bits) => some bits
  | _ => none

def long? : Option Int64 :=
  match constants.literal? i with
  | some (.long value) => some value
  | _ => none

def double? : Option UInt64 :=
  match constants.literal? i with
  | some (.double bits) => some bits
  | _ => none

/-- The value that a constant is for the tag; integers are narrowed. None if the constant is missing or of
    another kind. -/
def leaf? : LeafTag → Option ElementValue
  | .boolean => (constants.int? i).map fun value => .boolean (value != 0)
  | .byte => (constants.int? i).map fun value => .byte value.toInt8
  | .char => (constants.int? i).map fun value => .char value.toUInt32.toUInt16
  | .short => (constants.int? i).map fun value => .short value.toInt16
  | .int => (constants.int? i).map .int
  | .float => (constants.float? i).map .float
  | .long => (constants.long? i).map .long
  | .double => (constants.double? i).map .double
  | .string => (constants.text? i).map .string
  | .cls => (constants.text? i).map .cls

def enum? (type const : Index) : Option ElementValue :=
  (constants.text? type).bind fun t => (constants.text? const).map fun c => .enum t c

/-- The index of a name that can be read. -/
def IsReadable : Prop := (constants.text? i).isSome = true

def nameAt : String := (constants.text? i).getD ""

end ElementConstants

/-! ## Trees -/

inductive WrittenValue
  | leaf (tag : LeafTag) (constant : Index)
  | enum (type const : Index)
  | nested (type : Index) (elements : List (Index × WrittenValue))
  | array (values : List WrittenValue)

structure WrittenAnnotation where
  type : Index
  elements : List (Index × WrittenValue)

namespace WrittenValue

def bytes : WrittenValue → List UInt8
  | leaf tag constant => tagByte tag.letter :: shortBytes constant
  | enum type const => tagByte 'e' :: (shortBytes type ++ shortBytes const)
  | nested type elements =>
    tagByte '@' :: (shortBytes type ++ (shortBytes elements.length.toUInt16 ++ bytesOfElements elements))
  | array values => tagByte '[' :: (shortBytes values.length.toUInt16 ++ bytesOfAll values)
where
  bytesOfElements : List (Index × WrittenValue) → List UInt8
    | [] => []
    | (name, value) :: rest => shortBytes name ++ value.bytes ++ bytesOfElements rest
  bytesOfAll : List WrittenValue → List UInt8
    | [] => []
    | value :: rest => value.bytes ++ bytesOfAll rest

/-- The value that is read. -/
def valueIn (constants : ElementConstants) : WrittenValue → ElementValue
  | leaf tag constant => (constants.leaf? constant tag).getD .unreadable
  | enum type const => (constants.enum? type const).getD .unreadable
  | nested type elements => .nested (constants.nameAt type) (elementsIn elements)
  | array values => .array (valuesIn values)
where
  elementsIn : List (Index × WrittenValue) → List (String × ElementValue)
    | [] => []
    | (name, value) :: rest => (constants.nameAt name, value.valueIn constants) :: elementsIn rest
  valuesIn : List WrittenValue → List ElementValue
    | [] => []
    | value :: rest => value.valueIn constants :: valuesIn rest

/-- A name and a value. -/
def elementBytes (e : Index × WrittenValue) : List UInt8 := shortBytes e.1 ++ e.2.bytes

def elementIn (constants : ElementConstants) (e : Index × WrittenValue) : String × ElementValue :=
  (constants.nameAt e.1, e.2.valueIn constants)

end WrittenValue

namespace WrittenAnnotation

def bytes (a : WrittenAnnotation) : List UInt8 := shortBytes a.type ++ listBytes WrittenValue.elementBytes a.elements

/-- The annotation that is read. -/
def valueIn (constants : ElementConstants) (a : WrittenAnnotation) : Annotation :=
  ⟨constants.nameAt a.type, a.elements.map (WrittenValue.elementIn constants)⟩

end WrittenAnnotation

namespace WrittenValue

theorem bytesOfElements_eq (elements : List (Index × WrittenValue)) :
    bytes.bytesOfElements elements = elements.flatMap elementBytes := by
  induction elements with
  | nil => rfl
  | cons e rest ih => rw [bytes.bytesOfElements, ih, List.flatMap_cons, elementBytes]

theorem bytesOfAll_eq (values : List WrittenValue) : bytes.bytesOfAll values = values.flatMap bytes := by
  induction values with
  | nil => rfl
  | cons v rest ih => rw [bytes.bytesOfAll, ih, List.flatMap_cons]

theorem elementsIn_eq (constants : ElementConstants) (elements : List (Index × WrittenValue)) :
    valueIn.elementsIn constants elements = elements.map (elementIn constants) := by
  induction elements with
  | nil => rfl
  | cons e rest ih => rw [valueIn.elementsIn, ih, List.map_cons, elementIn]

theorem valuesIn_eq (constants : ElementConstants) (values : List WrittenValue) :
    valueIn.valuesIn constants values = values.map (valueIn constants) := by
  induction values with
  | nil => rfl
  | cons v rest ih => rw [valueIn.valuesIn, ih, List.map_cons]

variable (type : Index) (elements : List (Index × WrittenValue)) (values : List WrittenValue)

@[simp] theorem bytes_nested :
    (nested type elements).bytes = tagByte '@' :: WrittenAnnotation.bytes ⟨type, elements⟩ := by
  rw [bytes, bytesOfElements_eq]
  rfl

@[simp] theorem bytes_array : (array values).bytes = tagByte '[' :: listBytes bytes values := by
  rw [bytes, bytesOfAll_eq]
  rfl

@[simp] theorem valueIn_nested (constants : ElementConstants) : (nested type elements).valueIn constants =
    .nested (constants.nameAt type) (elements.map (elementIn constants)) := by
  rw [valueIn, elementsIn_eq]

@[simp] theorem valueIn_array (constants : ElementConstants) :
    (array values).valueIn constants = .array (values.map (valueIn constants)) := by
  rw [valueIn, valuesIn_eq]

/-- A constant that the value is made of is missing or of another kind. -/
def Lacks (constants : ElementConstants) : WrittenValue → Prop
  | leaf tag constant => constants.leaf? constant tag = none
  | enum type const => constants.text? type = none ∨ constants.text? const = none
  | nested .. => False
  | array .. => False

/-- Just those values are replaced that lack a constant. -/
theorem valueIn_eq_unreadable_iff {constants : ElementConstants} {w : WrittenValue} :
    w.valueIn constants = .unreadable ↔ w.Lacks constants := by
  have hmap {α : Type} {o : Option α} {f : α → ElementValue} (hf : ∀ a, f a ≠ .unreadable) :
      (o.map f).getD .unreadable = .unreadable ↔ o.map f = none := by
    cases o with
    | none => exact iff_of_true rfl rfl
    | some a => exact iff_of_false (hf a) fun h => nomatch h
  cases w with
  | leaf tag constant => cases tag <;> exact hmap fun _ h => nomatch h
  | enum type const =>
    rw [valueIn, Lacks, ElementConstants.enum?]
    cases constants.text? type with
    | none => exact iff_of_true rfl (.inl rfl)
    | some t =>
      cases constants.text? const with
      | none => exact iff_of_true rfl (.inr rfl)
      | some c => exact iff_of_false (fun h => nomatch h) fun h => h.elim (fun h => nomatch h) fun h => nomatch h
  | nested type elements =>
    rw [valueIn_nested]
    exact iff_of_false (fun h => nomatch h) not_false
  | array values =>
    rw [valueIn_array]
    exact iff_of_false (fun h => nomatch h) not_false

/-! ## What can be written -/

/-- No list in the value is too long for its number, and all names are readable. -/
inductive Fits (Readable : Index → Prop) : WrittenValue → Prop
  | leaf (tag : LeafTag) (constant : Index) : Fits Readable (leaf tag constant)
  | enum (type const : Index) : Fits Readable (enum type const)
  | nested {type : Index} {elements : List (Index × WrittenValue)} (readable : Readable type)
      (length : elements.length < 0x10000) (names : ∀ e ∈ elements, Readable e.1)
      (values : ∀ e ∈ elements, e.2.Fits Readable) : Fits Readable (nested type elements)
  | array {items : List WrittenValue} (length : items.length < 0x10000)
      (values : ∀ v ∈ items, v.Fits Readable) : Fits Readable (array items)

/-- The same of values with less than `depth` levels. -/
def FitsWithin (Readable : Index → Prop) : Nat → WrittenValue → Prop
  | 0, _ => False
  | _ + 1, leaf .. => True
  | _ + 1, enum .. => True
  | depth + 1, nested type elements =>
    Readable type ∧ ListFits (fun e => Readable e.1 ∧ FitsWithin Readable depth e.2) elements
  | depth + 1, array values => ListFits (FitsWithin Readable depth) values

variable {Readable Readable' : Index → Prop} {w : WrittenValue} {depth : Nat}

theorem Fits.mono (h : ∀ i, Readable i → Readable' i) (hw : w.Fits Readable) : w.Fits Readable' := by
  induction hw with
  | leaf tag constant => exact .leaf tag constant
  | enum type const => exact .enum type const
  | nested readable length names _ ih => exact .nested (h _ readable) length (fun e he => h _ (names e he)) ih
  | array length _ ih => exact .array length ih

theorem FitsWithin.fits (h : w.FitsWithin Readable depth) : w.Fits Readable := by
  induction depth generalizing w with
  | zero => exact h.elim
  | succ depth ih =>
    cases w with
    | leaf tag constant => exact .leaf tag constant
    | enum type const => exact .enum type const
    | nested type elements =>
      obtain ⟨htype, hlength, helements⟩ := h
      exact .nested htype hlength (fun e he => (helements e he).1) fun e he => ih (helements e he).2
    | array values => exact .array h.1 fun v hv => ih (h.2 v hv)

/-- What is written as one of a list is no longer than the list. -/
theorem length_le_of_mem {α : Type} (bytes : α → List UInt8) {items : List α} {a : α} (ha : a ∈ items) :
    (bytes a).length ≤ (items.flatMap bytes).length := by
  have hsublist := (List.singleton_sublist.mpr ha).flatMap bytes
  rw [List.flatMap_singleton] at hsublist
  exact hsublist.length_le

theorem length_elementBytes (e : Index × WrittenValue) : (elementBytes e).length = 2 + e.2.bytes.length := by
  rw [elementBytes, List.length_append, length_shortBytes]

theorem exists_succ_of_length_le (h : w.bytes.length ≤ depth) : ∃ k, depth = k + 1 := by
  have hpos : 0 < w.bytes.length := by cases w <;> exact Nat.succ_pos _
  exact ⟨depth - 1, by omega⟩

/-- A level takes a byte. -/
theorem Fits.within (h : w.Fits Readable) (hlength : w.bytes.length ≤ depth) : w.FitsWithin Readable depth := by
  induction h generalizing depth with
  | leaf tag constant =>
    obtain ⟨depth, rfl⟩ := exists_succ_of_length_le hlength
    trivial
  | enum type const =>
    obtain ⟨depth, rfl⟩ := exists_succ_of_length_le hlength
    trivial
  | @nested type elements readable length names _ ih =>
    obtain ⟨depth, rfl⟩ := exists_succ_of_length_le hlength
    simp only [bytes_nested, WrittenAnnotation.bytes, listBytes, List.length_cons, List.length_append] at hlength
    refine ⟨readable, length, fun e he => ⟨names e he, ih e he ?_⟩⟩
    have hone := length_le_of_mem elementBytes he
    rw [length_elementBytes] at hone
    omega
  | @array items length _ ih =>
    obtain ⟨depth, rfl⟩ := exists_succ_of_length_le hlength
    simp only [bytes_array, listBytes, List.length_cons, List.length_append] at hlength
    refine ⟨length, fun v hv => ih v hv ?_⟩
    have hone := length_le_of_mem bytes hv
    omega

end WrittenValue

namespace WrittenAnnotation

variable {Readable Readable' : Index → Prop} {a : WrittenAnnotation} {depth : Nat}

/-- The names are readable, there are not too many elements for their number, and the values are as told. -/
def Consists (Readable : Index → Prop) (Value : WrittenValue → Prop) (a : WrittenAnnotation) : Prop :=
  Readable a.type ∧ ListFits (fun e => Readable e.1 ∧ Value e.2) a.elements

def Fits (Readable : Index → Prop) : WrittenAnnotation → Prop := Consists Readable (WrittenValue.Fits Readable)

theorem Consists.mono {Value Value' : WrittenValue → Prop} (h : a.Consists Readable Value)
    (hname : ∀ i, Readable i → Readable' i) (hvalue : ∀ e ∈ a.elements, Value e.2 → Value' e.2) :
    a.Consists Readable' Value' := by
  obtain ⟨htype, hlength, helements⟩ := h
  exact ⟨hname _ htype, hlength, fun e he => ⟨hname _ (helements e he).1, hvalue e he (helements e he).2⟩⟩

theorem length_bytes (a : WrittenAnnotation) :
    a.bytes.length = 4 + (a.elements.flatMap WrittenValue.elementBytes).length := by
  simp only [bytes, listBytes, List.length_append, length_shortBytes]
  omega

theorem Fits.within (h : a.Fits Readable) (hlength : a.bytes.length ≤ depth) :
    a.Consists Readable (WrittenValue.FitsWithin Readable depth) := by
  refine h.mono (fun _ => id) fun e he hvalue => hvalue.within ?_
  have hone := WrittenValue.length_le_of_mem WrittenValue.elementBytes he
  rw [length_bytes] at hlength
  rw [WrittenValue.length_elementBytes] at hone
  omega

end WrittenAnnotation

end JvmClass
