/-
  JvmClass.Proofs.Bytecode.DebugTables — code with and without its debug tables.

  The attributes of a body are read to their end whether their payloads are asked for or not, so what a
  payload with code is made of does not depend on the tables that are asked for, and neither does the rest
  of the code.
  - `CodeAttribute.run_read_eq_error`: where the parts are in order but for a table, the fault is that of
    the table.
  - `Code.decode_withoutTables`: code that is decoded with tables is decoded without them.
  - `Code.exists_tableFails`: if the tables are what makes the difference, it is the payload of one.
-/

import JvmClass.Proofs.Bytecode.Acceptance

namespace JvmClass

open Read

variable {T F M : Type}

/-- The options with these debug tables asked for, and no others. -/
def Options.withTables (o : Options) (lineNumbers localVariables : Bool) : Options :=
  { o with lineNumbers, localVariables }

def Code.withoutTables (c : Code) : Code := { c with debug := ⟨none, none⟩ }

/-- The attribute is a debug table that is asked for, and its payload cannot be read. -/
inductive Attribute.TableFails (p : Pool T F M) (options : Options) (length : Nat) (a : Attribute)
    (fault : FormatFault) : Prop
  | lineNumbers : options.lineNumbers = true → p.text a.name = .ok "LineNumberTable" →
      Read.run (CodeAttribute.readLineNumbers length) a.info = .error fault → TableFails p options length a fault
  | localVariables : options.localVariables = true → p.text a.name = .ok "LocalVariableTable" →
      Read.run (CodeAttribute.readLocalVariables p) a.info = .error fault → TableFails p options length a fault

namespace CodeAttribute

variable {p : Pool T F M} {options : Options} {length : Nat}

/-! ## One table -/

theorem addTable_withoutTables {tables : DebugTables} {a : Attribute} (hname : ∃ name, p.text a.name = .ok name) :
    addTable p (options.withTables false false) length tables a = .ok tables := by
  obtain ⟨name, hname⟩ := hname
  unfold addTable
  rw [Except.bind_eq_ok]
  refine ⟨name, hname, ?_⟩
  split <;> rfl

theorem tableFails_of_addTable {tables : DebugTables} {a : Attribute} {fault : FormatFault}
    (hname : ∃ name, p.text a.name = .ok name) (h : addTable p options length tables a = .error fault) :
    a.TableFails p options length fault := by
  obtain ⟨name, hname⟩ := hname
  unfold addTable at h
  rw [Except.bind_eq_error, hname] at h
  rcases h with h | ⟨_, hread, h⟩
  · cases h
  cases hread
  cases hkind : AttributeKind.ofName name with
  | lineNumberTable =>
    obtain rfl := AttributeKind.ofName_eq_lineNumberTable_iff.mp hkind
    by_cases hasked : options.lineNumbers = true
    · simp only [hkind, if_pos hasked, Except.bind_eq_error] at h
      rcases h with h | ⟨_, -, h⟩
      · exact .lineNumbers hasked hname h
      · cases h
    · simp only [hkind, if_neg hasked] at h
      cases h
  | localVariableTable =>
    obtain rfl := AttributeKind.ofName_eq_localVariableTable_iff.mp hkind
    by_cases hasked : options.localVariables = true
    · simp only [hkind, if_pos hasked, Except.bind_eq_error] at h
      rcases h with h | ⟨_, -, h⟩
      · exact .localVariables hasked hname h
      · cases h
    · simp only [hkind, if_neg hasked] at h
      cases h
  | _ =>
    rw [hkind] at h
    cases h

/-! ## All tables -/

theorem addTables_withoutTables {tables : DebugTables} {attributes : List Attribute}
    (hnames : ∀ a ∈ attributes, ∃ name, p.text a.name = .ok name) :
    attributes.foldlM (addTable p (options.withTables false false) length) tables = .ok tables := by
  induction attributes with
  | nil => rfl
  | cons a attributes ih =>
    obtain ⟨ha, hrest⟩ := List.forall_mem_cons.mp hnames
    rw [List.foldlM_cons, addTable_withoutTables ha]
    exact ih hrest

/-- The first table that fails is where reading stops. -/
theorem readTables_eq_error {attributes : List Attribute} (hfit : ∀ a ∈ attributes, a.Fits) {tables : DebugTables}
    {c c' : Cursor} (ht : c.Takes (attributes.flatMap Attribute.bytes) c') {fault : FormatFault}
    (h : attributes.foldlM (addTable p options length) tables = .error fault) :
    ∃ m, readTables p options length tables attributes.length c = .error fault m := by
  induction attributes generalizing tables c with
  | nil => cases h
  | cons a attributes ih =>
    obtain ⟨ha, hfit⟩ := List.forall_mem_cons.mp hfit
    obtain ⟨m, hm, ht⟩ := Cursor.takes_append.mp ht
    have hread : Attribute.read FormatFault.truncated c = .ok a m := (Attribute.read_inverts _).eq_ok.mpr ⟨ha, hm⟩
    rw [List.foldlM_cons, Except.bind_eq_error] at h
    simp only [List.length_cons, readTables, bind_eq_error]
    rcases h with h | ⟨tables', htables, h⟩
    · refine ⟨m, .inr ⟨a, m, hread, .inl ?_⟩⟩
      rw [h]
      rfl
    · obtain ⟨m', hm'⟩ := ih hfit ht h
      exact ⟨m', .inr ⟨a, m, hread, .inr ⟨tables', m, ofExcept_eq_ok.mpr ⟨htables, rfl⟩, hm'⟩⟩⟩

variable {method : String × String} {l : CodeLayout}

/-- With parts that are in order for some options, all that can be wrong for others is a table. -/
theorem run_read_eq_error {o : Options} (hl : l.IsLegal p o) {fault : FormatFault}
    (h : l.attributes.foldlM (addTable p options l.bytes.length) {} = .error fault) :
    Read.run (read p options method) l.written = .error fault := by
  have ht := Cursor.takes_all l.written
  simp only [CodeLayout.written, Cursor.takes_append] at ht
  obtain ⟨_, ⟨_, ⟨_, ⟨_, h₁, h₂⟩, _, h₃, h₃'⟩, h₄⟩, hattributes⟩ := ht
  obtain ⟨c, h₅, h₆⟩ := Cursor.takes_append.mp hattributes
  have hcount := toNat_short_eq_iff.mpr ⟨hl.attributes.1, rfl⟩
  obtain ⟨m, hm⟩ := readTables_eq_error (fun a ha => (hl.attributes.2 a ha).1) h₆ h
  have hshort {n : UInt16} {c c' : Cursor} (ht : c.Takes (shortBytes n) c') :
      (Read.short .truncated : FormatRead UInt16) c = .ok n c' := (short_decodes _).inverts.eq_ok.mpr ⟨trivial, ht⟩
  have hbytes := readBytes_eq_ok.mpr ⟨⟨hl.length_pos, hl.length_le⟩, h₃.trans h₃'⟩
  have hhandlers := ((readHandler_decodes (.badExceptionTable method.1 method.2)).counted_checked .truncated).mpr
    ⟨_, hl.handlers, rfl, h₄⟩
  have hread : read p options method (Cursor.ofBytes l.written) = .error fault m := by
    simp only [read, CodeAttribute.short, bind_eq_error]
    refine .inr ⟨_, _, hshort h₁, .inr ⟨_, _, hshort h₂, .inr ⟨_, _, hbytes, .inr ⟨_, _, hhandlers, .inr ⟨_, _,
      hshort h₅, .inl ?_⟩⟩⟩⟩⟩
    rw [hcount]
    exact hm
  rw [Read.run, EStateM.run, hread]

end CodeAttribute

/-! ## Code -/

variable {p : Pool T F M} {options o : Options} {name descriptor : String} {isStatic : Bool} {info : List UInt8}

theorem CodeLayout.IsLegal.withoutTables {l : CodeLayout} (h : l.IsLegal p options) :
    l.IsLegal p (o.withTables false false) where
  length_pos := h.length_pos
  length_le := h.length_le
  handlers := h.handlers
  attributes := by
    refine ⟨h.attributes.1, fun a ha => ?_⟩
    obtain ⟨hfit, hreadable⟩ := h.attributes.2 a ha
    exact ⟨hfit, hreadable.name, (fun hasked => nomatch hasked), (fun hasked => nomatch hasked)⟩

theorem CodeLayout.Yields.withoutTables {l : CodeLayout} {a : CodeAttribute} (hl : l.IsLegal p options)
    (h : l.Yields p options a) : l.Yields p (o.withTables false false) { a with debug := {} } where
  maxStack := h.maxStack
  maxLocals := h.maxLocals
  bytes := h.bytes
  handlers := h.handlers
  debug := CodeAttribute.addTables_withoutTables fun a ha => (hl.attributes.2 a ha).2.name

/-- Without tables the same is decoded but for them, and the same constants are asked for. -/
theorem Code.decode_withoutTables {code : Code} {marks : List Index}
    (h : decode p options name descriptor isStatic info = .ok (code, marks)) :
    decode p (o.withTables false false) name descriptor isStatic info = .ok (code.withoutTables, marks) := by
  simp only [decode, Except.bind_eq_ok, Except.pure_eq_ok] at h ⊢
  obtain ⟨a, hread, slots, hslots, ⟨body, constants⟩, hbody, heq⟩ := h
  obtain ⟨l, hl, hwritten, hyields⟩ := CodeAttribute.run_read_eq_ok.mp hread
  cases heq
  refine ⟨{ a with debug := {} }, ?_, slots, hslots, (body, constants), hbody, rfl⟩
  exact CodeAttribute.run_read_eq_ok.mpr ⟨l, hl.withoutTables, hwritten, hyields.withoutTables hl⟩

/-- Code that is decoded without tables only has a table whose payload cannot be read, and fails for it. -/
theorem Code.exists_tableFails {fault : FormatFault} {result : Code × List Index}
    (hfails : decode p options name descriptor isStatic info = .error fault)
    (hok : decode p (o.withTables false false) name descriptor isStatic info = .ok result) :
    ∃ l : CodeLayout, l.IsLegal p (o.withTables false false) ∧ l.written = info ∧
      ∃ a ∈ l.attributes, a.TableFails p options l.bytes.length fault := by
  simp only [decode, Except.bind_eq_ok] at hok
  obtain ⟨a, hread, slots, hslots, ⟨body, constants⟩, hbody, -⟩ := hok
  obtain ⟨l, hl, rfl, hyields⟩ := CodeAttribute.run_read_eq_ok.mp hread
  refine ⟨l, hl, rfl, ?_⟩
  cases hfold : l.attributes.foldlM (CodeAttribute.addTable p options l.bytes.length) {} with
  | error fault' =>
    obtain ⟨t, ht, tables, htable⟩ := List.exists_of_foldlM_eq_error hfold
    have hread' : Read.run (CodeAttribute.read p options (name, descriptor)) l.written = .error fault' :=
      CodeAttribute.run_read_eq_error hl hfold
    rw [decode, hread'] at hfails
    cases hfails
    exact ⟨t, ht, CodeAttribute.tableFails_of_addTable (hl.attributes.2 t ht).2.name htable⟩
  | ok debug =>
    -- All tables can be read, so nothing else is left to fail.
    have hreadable := CodeAttribute.exists_addTables_eq_ok.mp ⟨debug, hfold⟩
    have hl' : l.IsLegal p options :=
      { hl with attributes := ⟨hl.attributes.1, fun t ht => ⟨(hl.attributes.2 t ht).1, hreadable t ht⟩⟩ }
    have hyields' : l.Yields p options { a with debug } := { hyields with debug := hfold }
    have hslots' := hyields.maxLocals ▸ hslots
    rw [CodeLayout.decode_written hl' hyields' hslots'] at hfails
    have hbody' : ({ a with debug } : CodeAttribute).body = .ok (body, constants) := hbody
    rw [hbody'] at hfails
    cases hfails

end JvmClass
