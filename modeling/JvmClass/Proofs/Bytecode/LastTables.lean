/-
  JvmClass.Proofs.Bytecode.LastTables — of several debug tables the last one is kept.

  The attributes of a body may hold any number of tables of line numbers and of local variables, among each
  other and among attributes of other names. Each is read, and takes the place of the one before it
  (`CodeAttribute.addTables_eq_ok`).
  - `debug_tables_are_the_last`: so the entries of all of them are there exactly if all but the last one
    of each kind are empty.
  - `earlier_debug_tables_are_lost`: entries can be lost.
-/

import JvmClass.Proofs.Bytecode.CodeLayout

namespace JvmClass

open Read

variable {T F M α : Type}

/-- What the attributes of the name hold, in order. -/
def payloadsNamed (p : Pool T F M) (name : String) (read : FormatRead α) (attributes : List Attribute) :
    Except FormatFault (List α) :=
  (attributes.filter fun a => p.text? a.name = some name).mapM fun a => Read.run read a.info

/-- The entries of all tables, if there is one at all. -/
def joined (tables : List (List α)) : Option (List α) := if tables.isEmpty then none else some tables.flatten

theorem getLast?_eq_joined_iff {tables : List (List α)} :
    tables.getLast? = joined tables ↔ tables.dropLast.flatten = [] := by
  rcases List.eq_nil_or_concat tables with rfl | ⟨before, last, rfl⟩
  · exact iff_of_true rfl rfl
  · simp [joined]

namespace CodeAttribute

variable {p : Pool T F M} {options : Options} {length : Nat}

/-- What one more attribute makes of the tables. -/
inductive TableStep (p : Pool T F M) (length : Nat) (tables : DebugTables) (a : Attribute) : DebugTables → Prop
  | lineNumbers {numbers : List LineNumber} : p.text? a.name = some "LineNumberTable" →
      Read.run (readLineNumbers length) a.info = .ok numbers →
      TableStep p length tables a { tables with lineNumbers := some numbers }
  | localVariables {locals : List LocalVariable} : p.text? a.name = some "LocalVariableTable" →
      Read.run (readLocalVariables p) a.info = .ok locals →
      TableStep p length tables a { tables with localVariables := some locals }
  | other : p.text? a.name ≠ some "LineNumberTable" → p.text? a.name ≠ some "LocalVariableTable" →
      TableStep p length tables a tables

theorem tableStep_of_addTable (hlines : options.lineNumbers = true) (hvariables : options.localVariables = true)
    {tables tables' : DebugTables} {a : Attribute} (h : addTable p options length tables a = .ok tables') :
    TableStep p length tables a tables' := by
  unfold addTable at h
  rw [Except.bind_eq_ok] at h
  obtain ⟨name, hname, h⟩ := h
  rw [Pool.text_eq_ok_iff] at hname
  cases hkind : AttributeKind.ofName name with
  | lineNumberTable =>
    simp only [hkind, if_pos hlines, Except.bind_eq_ok, Except.pure_eq_ok] at h
    obtain ⟨numbers, hread, rfl⟩ := h
    exact .lineNumbers (AttributeKind.ofName_eq_lineNumberTable_iff.mp hkind ▸ hname) hread
  | localVariableTable =>
    simp only [hkind, if_pos hvariables, Except.bind_eq_ok, Except.pure_eq_ok] at h
    obtain ⟨locals, hread, rfl⟩ := h
    exact .localVariables (AttributeKind.ofName_eq_localVariableTable_iff.mp hkind ▸ hname) hread
  | _ =>
    rw [hkind] at h
    cases h
    refine .other (fun hline => ?_) fun hvariable => ?_
    · rw [hname, Option.some.injEq, ← AttributeKind.ofName_eq_lineNumberTable_iff, hkind] at hline
      cases hline
    · rw [hname, Option.some.injEq, ← AttributeKind.ofName_eq_localVariableTable_iff, hkind] at hvariable
      cases hvariable

/-- Each table takes the place of the one before it. -/
theorem addTables_eq_ok (hlines : options.lineNumbers = true) (hvariables : options.localVariables = true)
    {attributes : List Attribute} {tables tables' : DebugTables}
    (h : attributes.foldlM (addTable p options length) tables = .ok tables') : ∃ ls vs,
      payloadsNamed p "LineNumberTable" (readLineNumbers length) attributes = .ok ls ∧
      payloadsNamed p "LocalVariableTable" (readLocalVariables p) attributes = .ok vs ∧
      tables'.lineNumbers = ls.getLast?.or tables.lineNumbers ∧
      tables'.localVariables = vs.getLast?.or tables.localVariables := by
  induction attributes generalizing tables with
  | nil =>
    cases Except.pure_eq_ok.mp h
    exact ⟨[], [], rfl, rfl, rfl, rfl⟩
  | cons a attributes ih =>
    rw [List.foldlM_cons, Except.bind_eq_ok] at h
    obtain ⟨first, hfirst, h⟩ := h
    obtain ⟨ls, vs, hls, hvs, hlast, hlast'⟩ := ih h
    cases tableStep_of_addTable hlines hvariables hfirst with
    | @lineNumbers numbers hname hread =>
      refine ⟨numbers :: ls, vs, List.mapM_filter_cons_eq_ok (decide_eq_true hname) hread hls, ?_, ?_, hlast'⟩
      · rw [payloadsNamed, List.filter_cons_of_neg (by simp [hname])]
        exact hvs
      · rw [hlast, List.getLast?_cons]
        cases ls.getLast? <;> rfl
    | @localVariables locals hname hread =>
      refine ⟨ls, locals :: vs, ?_, List.mapM_filter_cons_eq_ok (decide_eq_true hname) hread hvs, hlast, ?_⟩
      · rw [payloadsNamed, List.filter_cons_of_neg (by simp [hname])]
        exact hls
      · rw [hlast', List.getLast?_cons]
        cases vs.getLast? <;> rfl
    | other hline hvariable =>
      refine ⟨ls, vs, ?_, ?_, hlast, hlast'⟩
      · rw [payloadsNamed, List.filter_cons_of_neg (by simp [hline])]
        exact hls
      · rw [payloadsNamed, List.filter_cons_of_neg (by simp [hvariable])]
        exact hvs

end CodeAttribute

/-- However a payload is made up, if it is decoded with both kinds of tables asked for, all tables among its
    attributes have been read, and the last one of each kind is there. It has the entries of all exactly if
    those before it are empty. -/
theorem debug_tables_are_the_last {p : Pool T F M} {options : Options} {name descriptor : String} {isStatic : Bool}
    {info : List UInt8} {code : Code} {marks : List Index} (hlines : options.lineNumbers = true)
    (hvariables : options.localVariables = true)
    (h : Code.decode p options name descriptor isStatic info = .ok (code, marks)) :
    (∃ l : CodeLayout, l.IsLegal p options ∧ l.written = info) ∧
    ∀ l : CodeLayout, l.IsLegal p options → l.written = info → ∃ ls vs,
      payloadsNamed p "LineNumberTable" (CodeAttribute.readLineNumbers l.bytes.length) l.attributes = .ok ls ∧
      payloadsNamed p "LocalVariableTable" (CodeAttribute.readLocalVariables p) l.attributes = .ok vs ∧
      code.debug.lineNumbers = ls.getLast? ∧ code.debug.localVariables = vs.getLast? ∧
      (code.debug.lineNumbers = joined ls ↔ ls.dropLast.flatten = []) ∧
      (code.debug.localVariables = joined vs ↔ vs.dropLast.flatten = []) := by
  simp only [Code.decode, Except.bind_eq_ok, Except.pure_eq_ok] at h
  obtain ⟨a, hread, slots, -, ⟨body, constants⟩, -, heq⟩ := h
  cases heq
  obtain ⟨l, hl, hwritten, -⟩ := CodeAttribute.run_read_eq_ok.mp hread
  refine ⟨⟨l, hl, hwritten⟩, fun l' hl' hwritten' => ?_⟩
  obtain ⟨a', ha'⟩ := hl'.exists_yields
  have hread' : Read.run (CodeAttribute.read p options (name, descriptor)) info = .ok a' :=
    CodeAttribute.run_read_eq_ok.mpr ⟨l', hl', hwritten', ha'⟩
  obtain rfl : a' = a := Except.ok.inj (hread'.symm.trans hread)
  obtain ⟨ls, vs, hls, hvs, hlast, hlast'⟩ := CodeAttribute.addTables_eq_ok hlines hvariables ha'.debug
  rw [Option.or_none] at hlast hlast'
  exact ⟨ls, vs, hls, hvs, hlast, hlast', hlast ▸ getLast?_eq_joined_iff, hlast' ▸ getLast?_eq_joined_iff⟩

def tablesPool : Pool Unit Unit Unit :=
  ⟨#[.vacant, .text "LineNumberTable" false, .text "LocalVariableTable" false, .text "x" false, .text "I" false,
    .text "Note" false]⟩

/-- Two instructions, the lines of which are in two tables, with a variable in the first of two other ones. -/
def dividedLayout : CodeLayout :=
  ⟨0, 1, [0x00, 0xB1], [], [⟨1, [0, 1, 0, 0, 0, 5]⟩, ⟨2, [0, 1, 0, 0, 0, 2, 0, 3, 0, 4, 0, 0]⟩, ⟨5, [7]⟩,
    ⟨1, [0, 1, 0, 1, 0, 6]⟩, ⟨2, [0, 0]⟩]⟩

theorem decode_dividedLayout : Code.decode tablesPool { lineNumbers := true, localVariables := true } "f" "()V" true
    dividedLayout.written = .ok (⟨0, 1, .decoded ⟨[{ pc := 0, opcode := .nop }, { pc := 1, opcode := .returnVoid },
      Instruction.final 2], []⟩, [], ⟨some [⟨1, 6⟩], some []⟩⟩, []) := by decide +kernel

/-- The line of the first instruction is lost, and so is the variable. -/
theorem earlier_debug_tables_are_lost : ∃ code marks,
    Code.decode tablesPool { lineNumbers := true, localVariables := true } "f" "()V" true dividedLayout.written =
      .ok (code, marks) ∧ code.debug = ⟨some [⟨1, 6⟩], some []⟩ ∧
    payloadsNamed tablesPool "LineNumberTable" (CodeAttribute.readLineNumbers 2) dividedLayout.attributes =
      .ok [[⟨0, 5⟩], [⟨1, 6⟩]] ∧
    payloadsNamed tablesPool "LocalVariableTable" (CodeAttribute.readLocalVariables tablesPool)
      dividedLayout.attributes = .ok [[⟨0, 2, "x", "I", 0⟩], []] :=
  ⟨_, _, decode_dividedLayout, rfl, by decide +kernel, by decide +kernel⟩

theorem debug_tables_are_the_last_divided : ∃ code marks, ∃ l : CodeLayout, ∃ ls vs,
    Code.decode tablesPool { lineNumbers := true, localVariables := true } "f" "()V" true dividedLayout.written =
      .ok (code, marks) ∧ l.written = dividedLayout.written ∧
    payloadsNamed tablesPool "LineNumberTable" (CodeAttribute.readLineNumbers l.bytes.length) l.attributes = .ok ls ∧
    payloadsNamed tablesPool "LocalVariableTable" (CodeAttribute.readLocalVariables tablesPool) l.attributes = .ok vs ∧
    code.debug = ⟨some [⟨1, 6⟩], some []⟩ ∧ ls.getLast? = some [⟨1, 6⟩] ∧ vs.getLast? = some [] := by
  obtain ⟨⟨l, hl, hwritten⟩, htables⟩ := debug_tables_are_the_last rfl rfl decode_dividedLayout
  obtain ⟨ls, vs, hls, hvs, hlast, hlast', -⟩ := htables l hl hwritten
  exact ⟨_, _, l, ls, vs, decode_dividedLayout, hwritten, hls, hvs, rfl, hlast.symm, hlast'.symm⟩

end JvmClass
