/-
  JvmClass.Proofs.Class.Uses — the constants that a class file makes use of.

  Code uses the constants that its instructions have as operands and the classes that it catches; a
  class uses its inner classes with their outer classes, and what its bootstrap methods are made of
  (`ClassFile.Uses`). All this is said of how the payloads of the attributes are written, not of what
  building the class makes of them; only the names of attributes are matters of the pool, and those
  never change. A payload is written in one way (`CodeLayout.parts_of_written`, `listBytes_append_inj`),
  so the uses are those of whichever reading succeeds:
  - `Attribute.mem_constants_decode`: decoding asks for just the constants that the code uses.
  - `InnerClassInfo.run_readAll_eq_ok`, `BootstrapMethod.run_readAll_eq_ok`: the other two payloads are
    read exactly if they are written so, bootstrap methods only of constants that will do.
-/

import JvmClass.Class.Attributes
import JvmClass.Proofs.Bytecode.Acceptance
import JvmClass.Proofs.Pool.Preparation

namespace JvmClass

variable {T F M : Type}

/-! ## How uses are written -/

/-- The constant among the operands. -/
def Operands.constant? {format : OperandFormat} : Operands format → Option Index
  | constantByte n => some n.toNat.toUInt16
  | constant n | interfaceCall n _ _ | dynamicCall n _ | dimensions n _ => some n
  | _ => none

def InnerClassInfo.bytes (e : InnerClassInfo) : List UInt8 :=
  shortBytes e.inner ++ shortBytes e.outer ++ shortBytes e.name ++ shortBytes e.access

def BootstrapMethod.bytes (m : BootstrapMethod) : List UInt8 :=
  shortBytes m.handle ++ listBytes shortBytes m.arguments

/-- There are few enough arguments for their number. -/
def BootstrapMethod.Fits (m : BootstrapMethod) : Prop := m.arguments.length < 0x10000

namespace Attribute

variable (p : Pool T F M) (version : Version) (a : Attribute)

/-- The attribute is code that has the constant as the operand of an instruction, as far as its bytes are
    instructions, or that catches the class. -/
inductive CodeUses : Index → Prop
  | operand {l : CodeLayout} {ws : List Written} {w : Written} {i : Index} (name : p.text a.name = .ok "Code")
      (fits : l.Fits) (written : l.written = a.info) (spell : Written.Spell ws l.bytes) (mem : w ∈ ws)
      (constant : w.operands.constant? = some i) : CodeUses i
  | caught {l : CodeLayout} {h : HandlerEntry} (name : p.text a.name = .ok "Code") (fits : l.Fits)
      (written : l.written = a.info) (mem : h ∈ l.handlers) (particular : h.catchType ≠ 0) : CodeUses h.catchType

/-- The attribute, as one of a class file of the version, says that the class uses the constant. -/
inductive ClassUses : Index → Prop
  | inner {entries : List InnerClassInfo} {e : InnerClassInfo} (name : p.text a.name = .ok "InnerClasses")
      (few : entries.length < 0x10000) (written : listBytes InnerClassInfo.bytes entries = a.info) (mem : e ∈ entries) :
      ClassUses e.inner
  | outer {entries : List InnerClassInfo} {e : InnerClassInfo} (name : p.text a.name = .ok "InnerClasses")
      (few : entries.length < 0x10000) (written : listBytes InnerClassInfo.bytes entries = a.info) (mem : e ∈ entries)
      (particular : e.outer ≠ 0) : ClassUses e.outer
  | bootstrap {methods : List BootstrapMethod} {m : BootstrapMethod} {i : Index}
      (name : p.text a.name = .ok "BootstrapMethods") (since : 51 ≤ version.major)
      (fits : ListFits BootstrapMethod.Fits methods) (written : listBytes BootstrapMethod.bytes methods = a.info)
      (mem : m ∈ methods) (part : i = m.handle ∨ i ∈ m.arguments) : ClassUses i

/-- What the attribute is by its name, in a class file of the version. -/
def IsKind (kind : AttributeKind) : Prop := ∃ name, p.text a.name = .ok name ∧ .classify name version = kind

end Attribute

/-- The class in the file uses the constant. -/
def ClassFile.Uses (file : ClassFile) (p : Pool T F M) (i : Index) : Prop :=
  (∃ method ∈ file.methods, ∃ a ∈ method.attributes, a.CodeUses p i) ∨
    ∃ a ∈ file.attributes, a.ClassUses p file.version i

/-! ## Kinds by their names -/

namespace Attribute

variable {p : Pool T F M} {version : Version} {a : Attribute}

/-- An attribute is of one kind. -/
theorem IsKind.eq {kind kind' : AttributeKind} (h : a.IsKind p version kind) (h' : a.IsKind p version kind') :
    kind = kind' := by
  obtain ⟨name, hname, rfl⟩ := h
  obtain ⟨name', hname', rfl⟩ := h'
  rw [hname] at hname'
  cases hname'
  rfl

/-- An attribute is of a kind that a single name stands for if it has the name, and files of the version
    can have the kind. -/
theorem isKind_iff_named {own : String} {kind : AttributeKind} (hown : AttributeKind.ofName own = kind)
    (honly : ∀ e ∈ AttributeKind.named, e.2 = kind → e.1 = own) (hkind : kind ≠ .unknown) :
    a.IsKind p version kind ↔ p.text a.name = .ok own ∧ kind.isDefinedIn version = true := by
  unfold IsKind AttributeKind.classify
  constructor
  · rintro ⟨name, hname, h⟩
    by_cases hdefined : (AttributeKind.ofName name).isDefinedIn version = true
    · rw [if_pos hdefined] at h
      exact ⟨(AttributeKind.ofName_eq_iff hown honly hkind).mp h ▸ hname, h ▸ hdefined⟩
    · rw [if_neg hdefined] at h
      exact absurd h.symm hkind
  · rintro ⟨hname, hdefined⟩
    exact ⟨own, hname, by rw [hown, if_pos hdefined]⟩

theorem isKind_code_iff : a.IsKind p version .code ↔ p.text a.name = .ok "Code" :=
  (isKind_iff_named (by decide) (by decide) (by decide)).trans (and_iff_left rfl)

theorem isKind_innerClasses_iff : a.IsKind p version .innerClasses ↔ p.text a.name = .ok "InnerClasses" :=
  (isKind_iff_named (by decide) (by decide) (by decide)).trans (and_iff_left rfl)

theorem isKind_bootstrapMethods_iff :
    a.IsKind p version .bootstrapMethods ↔ p.text a.name = .ok "BootstrapMethods" ∧ 51 ≤ version.major :=
  (isKind_iff_named (by decide) (by decide) (by decide)).trans (and_congr_right' decide_eq_true_iff)

end Attribute

/-! ## What never changes -/

section Frozen

variable {p q : Pool T F M} (h : q.frozen = p.frozen)
include h

theorem Pool.text_of_frozen (i : Index) : q.text i = p.text i := by
  rw [text, text, text?_of_frozen h]

theorem Attribute.isKind_of_frozen {a : Attribute} {version : Version} {kind : AttributeKind} :
    a.IsKind q version kind ↔ a.IsKind p version kind := by
  unfold IsKind
  rw [Pool.text_of_frozen h]

theorem BootstrapMethod.readAll_of_frozen : readAll q = readAll p := by
  have hhandle (i : Index) : isHandle (q.entry i) = isHandle (p.entry i) :=
    Pool.congr_of_frozen isHandle (fun e => by cases e <;> rfl) h i
  have hloadable (i : Index) : q.isLoadable i = p.isLoadable i :=
    Pool.congr_of_frozen Entry.isLoadable (fun e => by cases e <;> rfl) h i
  unfold readAll read readArgument
  simp only [hhandle, hloadable]

theorem Attribute.CodeUses.of_frozen {a : Attribute} {i : Index} (hi : a.CodeUses q i) : a.CodeUses p i := by
  have htext := Pool.text_of_frozen h a.name
  cases hi with
  | operand name fits written spell mem constant => exact .operand (htext ▸ name) fits written spell mem constant
  | caught name fits written mem particular => exact .caught (htext ▸ name) fits written mem particular

theorem Attribute.ClassUses.of_frozen {a : Attribute} {version : Version} {i : Index}
    (hi : a.ClassUses q version i) : a.ClassUses p version i := by
  have htext := Pool.text_of_frozen h a.name
  cases hi with
  | inner name few written mem => exact .inner (htext ▸ name) few written mem
  | outer name few written mem particular => exact .outer (htext ▸ name) few written mem particular
  | bootstrap name since fits written mem part => exact .bootstrap (htext ▸ name) since fits written mem part

theorem Attribute.codeUses_of_frozen {a : Attribute} {i : Index} : a.CodeUses q i ↔ a.CodeUses p i :=
  ⟨.of_frozen h, .of_frozen h.symm⟩

theorem Attribute.classUses_of_frozen {a : Attribute} {version : Version} {i : Index} :
    a.ClassUses q version i ↔ a.ClassUses p version i :=
  ⟨.of_frozen h, .of_frozen h.symm⟩

theorem ClassFile.uses_of_frozen {file : ClassFile} {i : Index} : file.Uses q i ↔ file.Uses p i := by
  simp only [Uses, Attribute.codeUses_of_frozen h, Attribute.classUses_of_frozen h]

end Frozen

/-! ## Code -/

/-- The bytes after the opcode hold the index of a constant. -/
def OperandFormat.holdsConstant : OperandFormat → Bool
  | .constantByte | .constant | .interfaceCall | .dynamicCall | .dimensions => true
  | _ => false

/-- The opcodes of the table with a constant are those whose operand is the index of one. -/
theorem Opcode.hasConstant_eq_holdsConstant {byte : UInt8} {opcode : Opcode} {format : OperandFormat}
    (h : Opcode.ofByte? byte = some (opcode, format)) : opcode.hasConstant = format.holdsConstant := by
  have htable : ∀ e ∈ opcodeTable.toList, e.1.hasConstant = e.2.holdsConstant := by decide +kernel
  exact htable _ (Array.mem_toList_iff.mpr (Array.mem_of_getElem? h))

namespace Written

theorem constant?_instruction (w : Written) (pc : Nat) : (w.instruction pc).constant? = w.operands.constant? := by
  obtain ⟨byte, opcode, format, known, operands⟩ := w
  have hopcode := Opcode.hasConstant_eq_holdsConstant known
  cases operands with
  -- After `wide` the opcode is that of the instruction behind it.
  | wideSlot modified opcode' known' n =>
    have hmodified := Opcode.hasConstant_eq_holdsConstant known'
    simp [instruction, Operands.instruction, Instruction.constant?, Operands.constant?, hmodified,
      OperandFormat.holdsConstant]
  | wideIncrement modified opcode' known' index amount =>
    have hmodified := Opcode.hasConstant_eq_holdsConstant known'
    simp [instruction, Operands.instruction, Instruction.constant?, Operands.constant?, hmodified,
      OperandFormat.holdsConstant]
  | _ =>
    simp [instruction, Operands.instruction, Instruction.constant?, Operands.constant?, hopcode,
      OperandFormat.holdsConstant]

theorem filterMap_constant?_instructionsFrom (pc : Nat) (ws : List Written) :
    (instructionsFrom pc ws).filterMap (·.constant?) = ws.filterMap (·.operands.constant?) := by
  induction ws generalizing pc with
  | nil => rfl
  | cons w ws ih => simp only [instructionsFrom, List.filterMap_cons, constant?_instruction, ih]

end Written

/-- The constants of a body are those among the operands of its instructions, if it is written of such. -/
theorem mem_bodyConstants_iff {bytes : List UInt8} {i : Index} : i ∈ bodyConstants bytes ↔
    ∃ ws, Written.Spell ws bytes ∧ ∃ w ∈ ws, w.operands.constant? = some i := by
  have hconstants {ws : List Written} (hspell : Written.Spell ws bytes) :
      bodyConstants bytes = ws.filterMap (·.operands.constant?) := by
    rw [bodyConstants, decodeInstructions_eq_ok.mpr ⟨ws, hspell, rfl⟩]
    show (Written.decoded ws bytes).filterMap (·.constant?) = _
    rw [Written.decoded, List.filterMap_append, Written.filterMap_constant?_instructionsFrom]
    exact List.append_nil _
  constructor
  · intro hi
    cases hdecoded : decodeInstructions bytes with
    | error fault =>
      rw [bodyConstants, hdecoded] at hi
      cases hi
    | ok is =>
      obtain ⟨ws, hspell, -⟩ := decodeInstructions_eq_ok.mp hdecoded
      rw [hconstants hspell] at hi
      exact ⟨ws, hspell, List.mem_filterMap.mp hi⟩
  · rintro ⟨ws, hspell, hi⟩
    rw [hconstants hspell]
    exact List.mem_filterMap.mpr hi

theorem CodeLayout.mem_catchTypes_iff {l : CodeLayout} {i : Index} :
    i ∈ l.catchTypes ↔ ∃ h ∈ l.handlers, h.catchType = i ∧ i ≠ 0 := by
  simp only [catchTypes, List.mem_filter, List.mem_map, decide_eq_true_eq]
  constructor
  · rintro ⟨⟨h, hh, hcatch⟩, hi⟩
    exact ⟨h, hh, hcatch, hi⟩
  · rintro ⟨h, hh, hcatch, hi⟩
    exact ⟨⟨h, hh, hcatch⟩, hi⟩

/-- Decoding asks for the classes that are caught and the constants of the body. -/
theorem CodeLayout.exists_of_decode {p : Pool T F M} {options : Options} {name descriptor : String} {isStatic : Bool}
    {info : List UInt8} {code : Code} {constants : List Index}
    (h : Code.decode p options name descriptor isStatic info = .ok (code, constants)) :
    ∃ l : CodeLayout, l.Fits ∧ l.written = info ∧ constants = l.catchTypes ++ bodyConstants l.bytes := by
  obtain ⟨l, hl, rfl⟩ := exists_acceptable_of_decode h
  obtain ⟨a, slots, hyields, hslots⟩ := hl.exists_decode
  rw [decode_written hl.toIsLegal hyields hslots, Except.map_eq_ok] at h
  obtain ⟨⟨body, operands⟩, hbody, h⟩ := h
  cases h
  refine ⟨l, hl.fits, rfl, ?_⟩
  rw [CodeAttribute.constants_body hbody, hyields.bytes]

/-- What decoding asks for is what the code uses. -/
theorem Attribute.mem_constants_decode {p : Pool T F M} {a : Attribute} {options : Options}
    {name descriptor : String} {isStatic : Bool} {code : Code} {constants : List Index}
    (h : Code.decode p options name descriptor isStatic a.info = .ok (code, constants))
    (hname : p.text a.name = .ok "Code") {i : Index} : i ∈ constants ↔ a.CodeUses p i := by
  obtain ⟨l, hl, hwritten, rfl⟩ := CodeLayout.exists_of_decode h
  rw [List.mem_append, CodeLayout.mem_catchTypes_iff, mem_bodyConstants_iff]
  constructor
  · rintro (⟨handler, hhandler, rfl, hparticular⟩ | ⟨ws, hspell, w, hw, hconstant⟩)
    · exact .caught hname hl hwritten hhandler hparticular
    · exact .operand hname hl hwritten hspell hw hconstant
  · rintro (⟨-, hl', hwritten', hspell, hw, hconstant⟩ | ⟨-, hl', hwritten', hhandler, hparticular⟩)
    · obtain ⟨hbytes, -⟩ := CodeLayout.parts_of_written hl hl' (hwritten.trans hwritten'.symm)
      exact .inr ⟨_, hbytes ▸ hspell, _, hw, hconstant⟩
    · obtain ⟨-, hhandlers⟩ := CodeLayout.parts_of_written hl hl' (hwritten.trans hwritten'.symm)
      exact .inl ⟨_, hhandlers ▸ hhandler, rfl, hparticular⟩

/-! ## Inner classes -/

open Read

namespace InnerClassInfo

theorem read_inverts : Inverts read (fun _ => True) bytes := by
  refine ⟨fun {c e c'} => ?_⟩
  simp only [read, bind_eq_ok, (short_decodes _).inverts.eq_ok, true_and, pure_eq_ok, bytes, Cursor.takes_append]
  constructor
  · rintro ⟨inner, m₁, h₁, outer, m₂, h₂, name, m₃, h₃, access, m₄, h₄, rfl, rfl⟩
    exact ⟨m₃, ⟨m₂, ⟨m₁, h₁, h₂⟩, h₃⟩, h₄⟩
  · rintro ⟨m₃, ⟨m₂, ⟨m₁, h₁, h₂⟩, h₃⟩, h₄⟩
    exact ⟨e.inner, m₁, h₁, e.outer, m₂, h₂, e.name, m₃, h₃, e.access, c', h₄, rfl, rfl⟩

theorem length_bytes (e : InnerClassInfo) : e.bytes.length = 8 := rfl

theorem length_listBytes (entries : List InnerClassInfo) :
    (listBytes bytes entries).length = 2 + 8 * entries.length := by
  simp [listBytes, length_shortBytes, List.length_flatMap, length_bytes, Nat.mul_comm]

/-- The payload is read exactly if it is written of the entries and nothing else. -/
theorem run_readAll_eq_ok {info : List UInt8} {entries : List InnerClassInfo} :
    Read.run (readAll info) info = .ok entries ↔ entries.length < 0x10000 ∧ listBytes bytes entries = info := by
  simp only [run_eq_ok, readAll, bind_eq_ok, (short_decodes _).inverts.eq_ok, true_and, ite_throw_eq_ok,
    read_inverts.many]
  constructor
  · rintro ⟨c', count, m, hcount, hlength, hn, -, ht⟩
    obtain ⟨hfew, rfl⟩ := toNat_short_eq_iff.mp hn.symm
    have hinfo : info = listBytes bytes entries ++ c'.rest := (hcount.trans ht).rest
    have hend : c'.rest = [] := by
      have htotal := congrArg List.length hinfo
      rw [List.length_append, length_listBytes] at htotal
      exact List.eq_nil_of_length_eq_zero (by omega)
    exact ⟨hfew, by rw [hinfo, hend, List.append_nil]⟩
  · rintro ⟨hfew, rfl⟩
    obtain ⟨m, hcount, ht⟩ := Cursor.takes_append.mp (Cursor.takes_all (listBytes bytes entries))
    have hn := toNat_short_eq_iff.mpr ⟨hfew, rfl⟩
    exact ⟨_, _, m, hcount, by rw [length_listBytes, hn, not_not], hn.symm, fun _ _ => trivial, ht⟩

end InnerClassInfo

/-! ## Bootstrap methods -/

namespace BootstrapMethod

variable {p : Pool T F M}

/-- The method is given by a method handle and constants that can be loaded. -/
structure IsLegal (p : Pool T F M) (m : BootstrapMethod) : Prop where
  handle : ∃ kind reference, p.entry m.handle = .methodHandle kind reference
  arguments : ∀ i ∈ m.arguments, p.isLoadable i = true

theorem isHandle_iff {e : Entry T F M} : isHandle e = true ↔ ∃ kind reference, e = .methodHandle kind reference := by
  cases e <;> simp [isHandle]

theorem readArgument_inverts : Inverts (readArgument p) (fun i => p.isLoadable i = true) shortBytes := by
  refine ⟨fun {c i c'} => ?_⟩
  simp only [readArgument, bind_eq_ok, (short_decodes _).inverts.eq_ok, true_and]
  constructor
  · rintro ⟨argument, m, ht, h⟩
    by_cases hloadable : p.isLoadable argument = true
    · rw [if_pos hloadable, pure_eq_ok] at h
      obtain ⟨rfl, rfl⟩ := h
      exact ⟨hloadable, ht⟩
    · rw [if_neg hloadable] at h
      exact (throw_eq_ok.mp h).elim
  · rintro ⟨hloadable, ht⟩
    exact ⟨i, c', ht, by rw [if_pos hloadable, pure_eq_ok]; exact ⟨rfl, rfl⟩⟩

theorem read_inverts : Inverts (read p) (fun m => m.Fits ∧ m.IsLegal p) bytes := by
  refine ⟨fun {c method c'} => ?_⟩
  simp only [read, bind_eq_ok, (short_decodes _).inverts.eq_ok, true_and, ite_throw_eq_ok, Bool.not_eq_true',
    Bool.not_eq_false, isHandle_iff, (readArgument_inverts.counted _).eq_ok, pure_eq_ok, bytes, Cursor.takes_append]
  constructor
  · rintro ⟨handle, m, h₁, hhandle, arguments, m', ⟨hfits, h₂⟩, rfl, rfl⟩
    exact ⟨⟨hfits.1, hhandle, hfits.2⟩, m, h₁, h₂⟩
  · rintro ⟨⟨hfits, hhandle, harguments⟩, m, h₁, h₂⟩
    exact ⟨method.handle, m, h₁, hhandle, method.arguments, c', ⟨⟨hfits, harguments⟩, h₂⟩, rfl, rfl⟩

/-- The payload is read exactly if it is written of legal methods and nothing else. -/
theorem run_readAll_eq_ok {info : List UInt8} {methods : List BootstrapMethod} :
    Read.run (readAll p) info = .ok methods ↔
      ListFits (fun m => m.Fits ∧ m.IsLegal p) methods ∧ listBytes bytes methods = info := by
  simp only [run_eq_ok, readAll, bind_eq_ok, (read_inverts.counted _).eq_ok, expectEnd_eq_ok, pure_eq_ok]
  constructor
  · rintro ⟨c', _, m, ⟨hfits, ht⟩, _, _, ⟨hend, rfl⟩, rfl, rfl⟩
    have hrest := ht.rest
    rw [hend, List.append_nil] at hrest
    exact ⟨hfits, hrest.symm⟩
  · rintro ⟨hfits, rfl⟩
    exact ⟨_, methods, _, ⟨hfits, Cursor.takes_all _⟩, (), _, ⟨rfl, rfl⟩, rfl, rfl⟩

theorem bytes_append_inj {m m' : BootstrapMethod} {rest rest' : List UInt8} (hm : m.Fits) (hm' : m'.Fits)
    (h : m.bytes ++ rest = m'.bytes ++ rest') : m = m' ∧ rest = rest' := by
  obtain ⟨handle, arguments⟩ := m
  obtain ⟨handle', arguments'⟩ := m'
  simp only [bytes, List.append_assoc] at h
  obtain ⟨hhandle, htail⟩ := shortBytes_append_inj h
  obtain ⟨harguments, hrest⟩ := listBytes_append_inj (fun _ _ => shortBytes_append_inj)
    ⟨hm, fun _ _ => trivial⟩ ⟨hm', fun _ _ => trivial⟩ htail
  subst hhandle harguments
  exact ⟨rfl, hrest⟩

/-- A payload is written of one list of methods. -/
theorem eq_of_listBytes {methods methods' : List BootstrapMethod} (h : ListFits Fits methods)
    (h' : ListFits Fits methods') (heq : listBytes bytes methods = listBytes bytes methods') : methods = methods' := by
  have happend : listBytes bytes methods ++ [] = listBytes bytes methods' ++ [] := congrArg (· ++ []) heq
  exact (listBytes_append_inj bytes_append_inj h h' happend).1

end BootstrapMethod

end JvmClass
