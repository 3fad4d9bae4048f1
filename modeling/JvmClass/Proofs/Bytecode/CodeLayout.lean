/-
  JvmClass.Proofs.Bytecode.CodeLayout — what a payload with code is made of.

  `CodeLayout.written` writes the parts of a payload one after the other: the two limits, the bytes of
  the body with their number, the exception handlers and the attributes. A payload is read exactly if
  it is written so from parts that are in order (`CodeAttribute.run_read_eq_ok`), of which the bytes of
  the body are only counted. Tables that were asked for are in order if they are written so themselves
  (`Attribute.IsReadable`); bytes may follow the last local variable.
-/

import JvmClass.Proofs.Bytecode.Targets
import JvmClass.Proofs.File.Layout

namespace JvmClass

open Read

variable {T F M : Type}

/-! ## Exception handlers -/

/-- An exception handler as it is written. -/
structure HandlerEntry where
  start : UInt16
  stop : UInt16
  handler : UInt16
  /-- Zero for handlers of any exception. -/
  catchType : Index

namespace HandlerEntry

def bytes (h : HandlerEntry) : List UInt8 :=
  shortBytes h.start ++ shortBytes h.stop ++ shortBytes h.handler ++ shortBytes h.catchType

/-- The range is not empty, it and the handler lie in a body of that length, and what is caught in
    particular is a class. -/
structure IsLegal (p : Pool T F M) (length : Nat) (h : HandlerEntry) : Prop where
  start_lt : h.start.toNat < h.stop.toNat
  stop_le : h.stop.toNat ≤ length
  handler_lt : h.handler.toNat < length
  caught : h.catchType = 0 ∨ p.isClass h.catchType = true

def range (h : HandlerEntry) : HandlerRange :=
  ⟨h.start, h.stop, h.handler, if h.catchType = 0 then none else some h.catchType⟩

theorem bytes_append_inj {h h' : HandlerEntry} {rest rest' : List UInt8} (heq : h.bytes ++ rest = h'.bytes ++ rest') :
    h = h' ∧ rest = rest' := by
  obtain ⟨start, stop, handler, catchType⟩ := h
  obtain ⟨start', stop', handler', catchType'⟩ := h'
  simp only [bytes, List.append_assoc] at heq
  obtain ⟨hstart, hfrom⟩ := shortBytes_append_inj heq
  obtain ⟨hstop, hbehind⟩ := shortBytes_append_inj hfrom
  obtain ⟨hhandler, hlast⟩ := shortBytes_append_inj hbehind
  obtain ⟨hcatch, hrest⟩ := shortBytes_append_inj hlast
  subst hstart hstop hhandler hcatch
  exact ⟨rfl, hrest⟩

end HandlerEntry

namespace CodeAttribute

variable {p : Pool T F M} {options : Options} {length : Nat} {info : List UInt8}

theorem readHandler_decodes (fault : FormatFault) : Decodes (readHandler p length fault)
    (fun h : { h : HandlerEntry // h.IsLegal p length } => h.val.range) fun h => h.val.bytes := by
  refine ⟨fun {c r c'} => ?_⟩
  simp only [readHandler, CodeAttribute.short, bind_eq_ok, (short_decodes _).inverts.eq_ok, true_and,
    ite_throw_eq_ok]
  constructor
  · rintro ⟨start, m₁, h₁, stop, m₂, h₂, handler, m₃, h₃, catchType, m₄, h₄, hrange, h⟩
    obtain ⟨⟨hstart, hstop⟩, hhandler⟩ :
        (start.toNat < stop.toNat ∧ stop.toNat ≤ length) ∧ handler.toNat < length := by
      simpa [isRange] using hrange
    have ht := ((h₁.trans h₂).trans h₃).trans h₄
    by_cases hany : catchType = 0
    · rw [if_pos hany, pure_eq_ok] at h
      obtain ⟨rfl, rfl⟩ := h
      exact ⟨⟨⟨start, stop, handler, catchType⟩, ⟨hstart, hstop, hhandler, .inl hany⟩⟩,
        by simp only [HandlerEntry.range, if_pos hany], ht⟩
    · rw [if_neg hany, ite_throw_eq_ok, pure_eq_ok] at h
      obtain ⟨hclass, rfl, rfl⟩ := h
      exact ⟨⟨⟨start, stop, handler, catchType⟩, ⟨hstart, hstop, hhandler, .inr (by simpa using hclass)⟩⟩,
        by simp only [HandlerEntry.range, if_neg hany], ht⟩
  · rintro ⟨⟨⟨start, stop, handler, catchType⟩, ⟨hstart, hstop, hhandler, hcaught⟩⟩, rfl, ht⟩
    simp only [HandlerEntry.bytes, Cursor.takes_append] at ht
    obtain ⟨m₃, ⟨m₂, ⟨m₁, h₁, h₂⟩, h₃⟩, h₄⟩ := ht
    have hrange : isRange length start.toNat stop.toNat handler.toNat = true := by
      simpa [isRange] using ⟨⟨hstart, hstop⟩, hhandler⟩
    refine ⟨start, m₁, h₁, stop, m₂, h₂, handler, m₃, h₃, catchType, c', h₄, by simp [hrange], ?_⟩
    by_cases hany : catchType = 0
    · rw [if_pos hany, pure_eq_ok]
      exact ⟨by simp only [HandlerEntry.range, if_pos hany], rfl⟩
    · rw [if_neg hany, ite_throw_eq_ok, pure_eq_ok]
      exact ⟨by simpa using hcaught.resolve_left hany, by simp only [HandlerEntry.range, if_neg hany], rfl⟩

end CodeAttribute

/-! ## Debug tables -/

def LineNumber.bytes (n : LineNumber) : List UInt8 := shortBytes n.start ++ shortBytes n.line

/-- A local variable as it is written. -/
structure VariableEntry where
  start : UInt16
  length : UInt16
  name : Index
  descriptor : Index
  slot : UInt16

namespace VariableEntry

def bytes (v : VariableEntry) : List UInt8 :=
  shortBytes v.start ++ shortBytes v.length ++ shortBytes v.name ++ shortBytes v.descriptor ++ shortBytes v.slot

/-- The name and the descriptor are texts of the pool. -/
structure IsReadable (p : Pool T F M) (v : VariableEntry) : Prop where
  name : ∃ text, p.text v.name = .ok text
  descriptor : ∃ text, p.text v.descriptor = .ok text

def localVariable (p : Pool T F M) (v : VariableEntry) : LocalVariable :=
  ⟨v.start, v.length, (p.text? v.name).getD "", dotted ((p.text? v.descriptor).getD ""), v.slot⟩

end VariableEntry

theorem Pool.text_eq_ok_iff {p : Pool T F M} {i : Index} {text : String} :
    p.text i = .ok text ↔ p.text? i = some text := by
  unfold Pool.text
  cases p.text? i <;> simp

namespace CodeAttribute

variable {p : Pool T F M} {options : Options} {length : Nat} {info : List UInt8}

theorem readLineNumber_inverts :
    Inverts (readLineNumber length) (fun n => n.start.toNat < length) LineNumber.bytes := by
  refine ⟨fun {c n c'} => ?_⟩
  simp only [readLineNumber, CodeAttribute.short, bind_eq_ok, (short_decodes _).inverts.eq_ok, true_and,
    ite_throw_eq_ok, pure_eq_ok, LineNumber.bytes, Cursor.takes_append, Nat.not_le]
  constructor
  · rintro ⟨start, m, h₁, line, m', h₂, hstart, rfl, rfl⟩
    exact ⟨hstart, m, h₁, h₂⟩
  · rintro ⟨hstart, m, h₁, h₂⟩
    exact ⟨n.start, m, h₁, n.line, c', h₂, hstart, rfl, rfl⟩

theorem readLocalVariable_decodes : Decodes (readLocalVariable p)
    (fun v : { v : VariableEntry // v.IsReadable p } => v.val.localVariable p) fun v => v.val.bytes := by
  refine ⟨fun {c a c'} => ?_⟩
  simp only [readLocalVariable, readText, CodeAttribute.short, bind_eq_ok, (short_decodes _).inverts.eq_ok, true_and,
    ofExcept_eq_ok, pure_eq_ok]
  constructor
  · rintro ⟨start, m₁, h₁, length, m₂, h₂, name, _, ⟨i, m₃, h₃, hname, rfl⟩, descriptor, _,
      ⟨j, m₄, h₄, hdescriptor, rfl⟩, slot, m₅, h₅, rfl, rfl⟩
    refine ⟨⟨⟨start, length, i, j, slot⟩, ⟨⟨name, hname⟩, ⟨descriptor, hdescriptor⟩⟩⟩, ?_,
      (((h₁.trans h₂).trans h₃).trans h₄).trans h₅⟩
    simp only [VariableEntry.localVariable, Pool.text_eq_ok_iff.mp hname, Pool.text_eq_ok_iff.mp hdescriptor,
      Option.getD_some]
  · rintro ⟨⟨⟨start, length, i, j, slot⟩, ⟨⟨name, hname⟩, ⟨descriptor, hdescriptor⟩⟩⟩, rfl, ht⟩
    simp only [VariableEntry.bytes, Cursor.takes_append] at ht
    obtain ⟨m₄, ⟨m₃, ⟨m₂, ⟨m₁, h₁, h₂⟩, h₃⟩, h₄⟩, h₅⟩ := ht
    refine ⟨start, m₁, h₁, length, m₂, h₂, name, m₃, ⟨i, m₃, h₃, hname, rfl⟩, descriptor, m₄,
      ⟨j, m₄, h₄, hdescriptor, rfl⟩, slot, c', h₅, ?_, rfl⟩
    simp only [VariableEntry.localVariable, Pool.text_eq_ok_iff.mp hname, Pool.text_eq_ok_iff.mp hdescriptor,
      Option.getD_some]

/-- A table of line numbers has nothing behind them. -/
theorem run_readLineNumbers_eq_ok {numbers : List LineNumber} : Read.run (readLineNumbers length) info = .ok numbers ↔
    ListFits (fun n => n.start.toNat < length) numbers ∧ info = listBytes LineNumber.bytes numbers := by
  simp only [run_eq_ok, readLineNumbers, bind_eq_ok, (readLineNumber_inverts.counted _).eq_ok, expectEnd_eq_ok,
    pure_eq_ok]
  constructor
  · rintro ⟨c, _, _, ⟨hfits, ht⟩, _, _, ⟨hend, rfl⟩, rfl, rfl⟩
    have hrest := ht.rest
    rw [hend, List.append_nil] at hrest
    exact ⟨hfits, hrest⟩
  · rintro ⟨hfits, rfl⟩
    exact ⟨_, _, _, ⟨hfits, Cursor.takes_all _⟩, (), _, ⟨rfl, rfl⟩, rfl, rfl⟩

theorem run_readLocalVariables_eq_ok {vs : List LocalVariable} :
    Read.run (readLocalVariables p) info = .ok vs ↔ ∃ entries rest, ListFits (·.IsReadable p) entries ∧
      entries.map (·.localVariable p) = vs ∧ info = listBytes VariableEntry.bytes entries ++ rest := by
  simp only [run_eq_ok, readLocalVariables, readLocalVariable_decodes.counted_checked]
  constructor
  · rintro ⟨c, entries, hfits, hvs, ht⟩
    exact ⟨entries, c.rest, hfits, hvs, ht.rest⟩
  · rintro ⟨entries, rest, hfits, hvs, rfl⟩
    exact ⟨⟨_, rest⟩, entries, hfits, hvs, rfl, (Nat.zero_add _).symm⟩

end CodeAttribute

theorem AttributeKind.mem_named {name : String} {kind : AttributeKind} (h : ofName name = kind)
    (hkind : kind ≠ .unknown) : (name, kind) ∈ named := by
  unfold ofName at h
  cases hlookup : named.lookup name with
  | none =>
    rw [hlookup] at h
    exact absurd h.symm hkind
  | some found =>
    rw [hlookup] at h
    obtain rfl : found = kind := h
    obtain ⟨before, after, heq, -⟩ := List.lookup_eq_some_iff.mp hlookup
    rw [heq]
    exact List.mem_append_right _ List.mem_cons_self

/-- A kind that a single name stands for. -/
theorem AttributeKind.ofName_eq_iff {name own : String} {kind : AttributeKind} (hown : ofName own = kind)
    (honly : ∀ e ∈ named, e.2 = kind → e.1 = own) (hkind : kind ≠ .unknown) : ofName name = kind ↔ name = own := by
  constructor
  · intro h
    exact honly _ (mem_named h hkind) rfl
  · rintro rfl
    exact hown

theorem AttributeKind.ofName_eq_lineNumberTable_iff {name : String} :
    ofName name = .lineNumberTable ↔ name = "LineNumberTable" :=
  ofName_eq_iff (by decide) (by decide) (by decide)

theorem AttributeKind.ofName_eq_localVariableTable_iff {name : String} :
    ofName name = .localVariableTable ↔ name = "LocalVariableTable" :=
  ofName_eq_iff (by decide) (by decide) (by decide)

/-- The name of the attribute can be read, and so can what it holds if it is a table that is asked for. -/
structure Attribute.IsReadable (p : Pool T F M) (options : Options) (length : Nat) (a : Attribute) : Prop where
  name : ∃ name, p.text a.name = .ok name
  lineNumbers : options.lineNumbers = true → p.text a.name = .ok "LineNumberTable" →
    ∃ numbers, ListFits (fun n : LineNumber => n.start.toNat < length) numbers ∧
      a.info = listBytes LineNumber.bytes numbers
  /-- Bytes may follow the last local variable. -/
  localVariables : options.localVariables = true → p.text a.name = .ok "LocalVariableTable" →
    ∃ entries rest, ListFits (VariableEntry.IsReadable p) entries ∧
      a.info = listBytes VariableEntry.bytes entries ++ rest

namespace CodeAttribute

variable {p : Pool T F M} {options : Options} {length : Nat}

/-- The next table is taken exactly if its attribute can be read, whatever the tables before it. -/
theorem exists_addTable_eq_ok {tables : DebugTables} {a : Attribute} :
    (∃ tables', addTable p options length tables a = .ok tables') ↔ a.IsReadable p options length := by
  unfold addTable
  simp only [Except.bind_eq_ok]
  constructor
  · rintro ⟨tables', name, hname, h⟩
    refine ⟨⟨name, hname⟩, fun hasked hkind => ?_, fun hasked hkind => ?_⟩
    · rw [hname, Except.ok.injEq] at hkind
      rw [AttributeKind.ofName_eq_lineNumberTable_iff.mpr hkind] at h
      simp only [if_pos hasked, Except.bind_eq_ok, run_readLineNumbers_eq_ok] at h
      obtain ⟨numbers, hnumbers, -⟩ := h
      exact ⟨numbers, hnumbers⟩
    · rw [hname, Except.ok.injEq] at hkind
      rw [AttributeKind.ofName_eq_localVariableTable_iff.mpr hkind] at h
      simp only [if_pos hasked, Except.bind_eq_ok, run_readLocalVariables_eq_ok] at h
      obtain ⟨_, ⟨entries, rest, hfits, -, hinfo⟩, -⟩ := h
      exact ⟨entries, rest, hfits, hinfo⟩
  · intro h
    obtain ⟨name, hname⟩ := h.name
    cases hkind : AttributeKind.ofName name with
    | lineNumberTable =>
      obtain rfl := AttributeKind.ofName_eq_lineNumberTable_iff.mp hkind
      by_cases hasked : options.lineNumbers = true
      · obtain ⟨numbers, hnumbers⟩ := h.lineNumbers hasked hname
        refine ⟨{ tables with lineNumbers := some numbers }, _, hname, ?_⟩
        simp only [hkind, if_pos hasked, Except.bind_eq_ok]
        exact ⟨numbers, run_readLineNumbers_eq_ok.mpr hnumbers, rfl⟩
      · refine ⟨tables, _, hname, ?_⟩
        simp only [hkind, if_neg hasked]
        rfl
    | localVariableTable =>
      obtain rfl := AttributeKind.ofName_eq_localVariableTable_iff.mp hkind
      by_cases hasked : options.localVariables = true
      · obtain ⟨entries, rest, hfits, hinfo⟩ := h.localVariables hasked hname
        refine ⟨{ tables with localVariables := some (entries.map (·.localVariable p)) }, _, hname, ?_⟩
        simp only [hkind, if_pos hasked, Except.bind_eq_ok]
        exact ⟨_, run_readLocalVariables_eq_ok.mpr ⟨entries, rest, hfits, rfl, hinfo⟩, rfl⟩
      · refine ⟨tables, _, hname, ?_⟩
        simp only [hkind, if_neg hasked]
        rfl
    | _ => exact ⟨tables, _, hname, by rw [hkind]; rfl⟩

theorem exists_addTables_eq_ok {tables : DebugTables} {attributes : List Attribute} :
    (∃ t, attributes.foldlM (addTable p options length) tables = .ok t) ↔
      ∀ a ∈ attributes, a.IsReadable p options length := by
  refine List.exists_foldlM_eq_ok_iff ?_
  intro _ _
  exact exists_addTable_eq_ok

theorem readTables_eq_ok {tables t : DebugTables} {n : Nat} {c c' : Cursor} :
    readTables p options length tables n c = .ok t c' ↔ ∃ attributes : List Attribute, attributes.length = n ∧
      (∀ a ∈ attributes, a.Fits) ∧ attributes.foldlM (addTable p options length) tables = .ok t ∧
      c.Takes (attributes.flatMap Attribute.bytes) c' := by
  induction n generalizing tables c with
  | zero =>
    simp only [readTables, pure_eq_ok]
    constructor
    · rintro ⟨rfl, hc⟩
      exact ⟨[], rfl, List.forall_mem_nil _, rfl, Cursor.takes_nil.mpr hc⟩
    · rintro ⟨attributes, hn, -, hfold, ht⟩
      obtain rfl := List.eq_nil_of_length_eq_zero hn
      exact ⟨Except.pure_eq_ok.mp hfold, Cursor.takes_nil.mp ht⟩
  | succ n ih =>
    simp only [readTables, bind_eq_ok, (Attribute.read_inverts _).eq_ok, ofExcept_eq_ok, ih]
    constructor
    · rintro ⟨a, m, ⟨ha, hm⟩, tables', _, ⟨hadd, rfl⟩, attributes, hn, hfit, hfold, ht⟩
      refine ⟨a :: attributes, congrArg (· + 1) hn, List.forall_mem_cons.mpr ⟨ha, hfit⟩, ?_, hm.trans ht⟩
      rw [List.foldlM_cons, Except.bind_eq_ok]
      exact ⟨tables', hadd, hfold⟩
    · rintro ⟨attributes, hn, hfit, hfold, ht⟩
      cases attributes with
      | nil => cases hn
      | cons a attributes =>
        obtain ⟨m, hm, ht⟩ := Cursor.takes_append.mp ht
        obtain ⟨ha, hfit⟩ := List.forall_mem_cons.mp hfit
        rw [List.foldlM_cons, Except.bind_eq_ok] at hfold
        obtain ⟨tables', hadd, hfold⟩ := hfold
        exact ⟨a, m, ⟨ha, hm⟩, tables', m, ⟨hadd, rfl⟩, attributes, Nat.succ.inj hn, hfit, hfold, ht⟩

end CodeAttribute

/-! ## The whole payload -/

/-- The parts of a payload. -/
structure CodeLayout where
  maxStack : UInt16
  maxLocals : UInt16
  bytes : List UInt8
  handlers : List HandlerEntry
  attributes : List Attribute

namespace CodeLayout

def written (l : CodeLayout) : List UInt8 :=
  shortBytes l.maxStack ++ shortBytes l.maxLocals ++ (wordBytes l.bytes.length.toUInt32 ++ l.bytes) ++
    listBytes HandlerEntry.bytes l.handlers ++ listBytes Attribute.bytes l.attributes

/-- There are few enough of all parts for the numbers before them. -/
structure Fits (l : CodeLayout) : Prop where
  bytes : l.bytes.length < 0x100000000
  handlers : l.handlers.length < 0x10000
  attributes : ListFits Attribute.Fits l.attributes

/-- A payload has one body and one table of handlers. -/
theorem parts_of_written {l l' : CodeLayout} (hl : l.Fits) (hl' : l'.Fits) (h : l.written = l'.written) :
    l.bytes = l'.bytes ∧ l.handlers = l'.handlers := by
  simp only [written, List.append_assoc] at h
  obtain ⟨-, h⟩ := shortBytes_append_inj h
  obtain ⟨-, h⟩ := shortBytes_append_inj h
  obtain ⟨hcount, h⟩ := wordBytes_append_inj h
  have hlength := (toNat_word_eq_iff.mpr ⟨hl.bytes, rfl⟩).symm.trans (toNat_word_eq_iff.mpr ⟨hl'.bytes, hcount⟩)
  obtain ⟨hbytes, h⟩ := List.append_inj h hlength
  obtain ⟨hhandlers, -⟩ := listBytes_append_inj (fun _ _ heq => HandlerEntry.bytes_append_inj heq)
    ⟨hl.handlers, fun _ _ => trivial⟩ ⟨hl'.handlers, fun _ _ => trivial⟩ h
  exact ⟨hbytes, hhandlers⟩

/-- The parts are in order. Of the bytes of the body only the number matters. -/
structure IsLegal (p : Pool T F M) (options : Options) (l : CodeLayout) : Prop where
  length_pos : 0 < l.bytes.length
  length_le : l.bytes.length ≤ CodeAttribute.maxLength
  handlers : ListFits (HandlerEntry.IsLegal p l.bytes.length) l.handlers
  attributes : ListFits (fun a => a.Fits ∧ a.IsReadable p options l.bytes.length) l.attributes

theorem IsLegal.fits {p : Pool T F M} {options : Options} {l : CodeLayout} (h : l.IsLegal p options) : l.Fits where
  bytes := Nat.lt_of_le_of_lt h.length_le (by decide)
  handlers := h.handlers.1
  attributes := ⟨h.attributes.1, fun a ha => (h.attributes.2 a ha).1⟩

/-- What the parts are read as. -/
structure Yields (p : Pool T F M) (options : Options) (l : CodeLayout) (a : CodeAttribute) : Prop where
  maxStack : a.maxStack = l.maxStack
  maxLocals : a.maxLocals = l.maxLocals
  bytes : a.bytes = l.bytes
  handlers : a.handlers = l.handlers.map HandlerEntry.range
  debug : l.attributes.foldlM (CodeAttribute.addTable p options l.bytes.length) {} = .ok a.debug

theorem IsLegal.exists_yields {p : Pool T F M} {options : Options} {l : CodeLayout} (h : l.IsLegal p options) :
    ∃ a, l.Yields p options a := by
  obtain ⟨debug, hdebug⟩ := CodeAttribute.exists_addTables_eq_ok.mpr fun a ha => (h.attributes.2 a ha).2
  exact ⟨⟨l.maxStack, l.maxLocals, l.bytes, l.handlers.map HandlerEntry.range, debug⟩, ⟨rfl, rfl, rfl, rfl, hdebug⟩⟩

end CodeLayout

namespace CodeAttribute

variable {p : Pool T F M} {options : Options} {method : String × String} {info : List UInt8} {a : CodeAttribute}

theorem readBytes_eq_ok {bytes : List UInt8} {c c' : Cursor} : readBytes c = .ok bytes c' ↔
    (0 < bytes.length ∧ bytes.length ≤ maxLength) ∧ c.Takes (wordBytes bytes.length.toUInt32 ++ bytes) c' := by
  simp only [readBytes, bind_eq_ok, (word_decodes _).inverts.eq_ok, true_and, ite_throw_eq_ok, slice_eq_ok,
    Cursor.takes_append]
  constructor
  · rintro ⟨n, m, hm, hrange, hn, ht⟩
    obtain ⟨-, rfl⟩ := toNat_word_eq_iff.mp hn.symm
    exact ⟨by omega, m, hm, ht⟩
  · rintro ⟨⟨hpos, hle⟩, m, hm, ht⟩
    have hn : bytes.length.toUInt32.toNat = bytes.length := by
      refine toNat_word_eq_iff.mpr ⟨?_, rfl⟩
      unfold maxLength at hle
      omega
    exact ⟨_, m, hm, by omega, hn.symm, ht⟩

/-- A payload can be read exactly if it is written from legal parts. -/
theorem run_read_eq_ok : Read.run (read p options method) info = .ok a ↔
    ∃ l : CodeLayout, l.IsLegal p options ∧ l.written = info ∧ l.Yields p options a := by
  simp only [run_eq_ok, read, CodeAttribute.short, bind_eq_ok, (short_decodes _).inverts.eq_ok, true_and,
    readBytes_eq_ok, (readHandler_decodes _).counted_checked, readTables_eq_ok, expectEnd_eq_ok, pure_eq_ok]
  constructor
  · rintro ⟨_, maxStack, _, h₁, maxLocals, _, h₂, bytes, _, ⟨hlength, h₃⟩, _, _, ⟨handlers, hhandlers, rfl, h₄⟩,
      count, _, h₅, debug, _, ⟨attributes, hcount, hfit, hfold, h₆⟩, _, _, ⟨hend, rfl⟩, rfl, rfl⟩
    obtain ⟨hlt, rfl⟩ := toNat_short_eq_iff.mp hcount.symm
    have hread := exists_addTables_eq_ok.mp ⟨debug, hfold⟩
    refine ⟨⟨maxStack, maxLocals, bytes, handlers, attributes⟩,
      ⟨hlength.1, hlength.2, hhandlers, ⟨hlt, fun a ha => ⟨hfit a ha, hread a ha⟩⟩⟩, ?_, ⟨rfl, rfl, rfl, rfl, hfold⟩⟩
    have hrest := ((((h₁.trans h₂).trans h₃).trans h₄).trans (h₅.trans h₆)).rest
    rw [hend, List.append_nil] at hrest
    exact hrest.symm
  · rintro ⟨l, hlegal, rfl, hyields⟩
    have ht := Cursor.takes_all l.written
    simp only [CodeLayout.written, Cursor.takes_append] at ht
    obtain ⟨_, ⟨_, ⟨_, ⟨_, h₁, h₂⟩, _, h₃, h₃'⟩, h₄⟩, hattributes⟩ := ht
    obtain ⟨_, h₅, h₆⟩ := Cursor.takes_append.mp hattributes
    have hcount := toNat_short_eq_iff.mpr ⟨hlegal.attributes.1, rfl⟩
    obtain ⟨maxStack, maxLocals, bytes, handlers, debug⟩ := a
    obtain ⟨rfl, rfl, rfl, rfl, hfold⟩ := hyields
    exact ⟨_, _, _, h₁, _, _, h₂, _, _, ⟨⟨hlegal.length_pos, hlegal.length_le⟩, h₃.trans h₃'⟩, _, _,
      ⟨_, hlegal.handlers, rfl, h₄⟩, _, _, h₅, _, _,
      ⟨_, hcount.symm, fun a ha => (hlegal.attributes.2 a ha).1, hfold, h₆⟩, (), _, ⟨rfl, rfl⟩, rfl, rfl⟩

end CodeAttribute

end JvmClass
