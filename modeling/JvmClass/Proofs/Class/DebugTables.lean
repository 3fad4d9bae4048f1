/-
  JvmClass.Proofs.Class.DebugTables — debug tables influence nothing but themselves.

  A class is built with the debug tables that are asked for, and without any, side by side. Each part comes
  out the same but for the tables in its code (`Build.Pares`): the same constants are marked and the same
  warnings arise, and where building succeeds only without tables, the payload of a table is to blame.
  What is put together from such computations is one.
  - `Method.pares_withAttribute`: code is all that makes a difference among the attributes of a method.
  - `withoutAssertions_withoutTables`: assertions are taken out of the members alike.
  - `debug_tables_influence_nothing_else`: so the class is the same but for its tables.
-/

import JvmClass.Proofs.Bytecode.DebugTables
import JvmClass.Proofs.Class.AssertionSkipping

namespace JvmClass

variable {T F M α β : Type}

/-! ## Without tables -/

def Method.withoutTables (m : Method) : Method := { m with code := m.code.map Code.withoutTables }

def Class.withoutTables (c : Class T F M) : Class T F M := { c with methods := c.methods.map Method.withoutTables }

def DeclaringClass.withoutTables (cls : DeclaringClass) : DeclaringClass :=
  { cls with options := cls.options.withTables false false }

/-- The attribute holds code that is in order but for a table that is asked for, whose payload cannot be
    read. -/
structure Attribute.CodeFails (p : Pool T F M) (options : Options) (a : Attribute) (fault : FormatFault) : Prop where
  name : p.text a.name = .ok "Code"
  table : ∃ l : CodeLayout, l.IsLegal p (options.withTables false false) ∧ l.written = a.info ∧
    ∃ t ∈ l.attributes, t.TableFails p options l.bytes.length fault

def MemberInfo.TableFails (p : Pool T F M) (options : Options) (m : MemberInfo) (fault : FormatFault) : Prop :=
  ∃ a ∈ m.attributes, a.CodeFails p options fault

/-- The payload of a debug table of a method cannot be read. -/
def ClassFile.TableFails (p : Pool T F M) (options : Options) (file : ClassFile) (fault : FormatFault) : Prop :=
  ∃ m ∈ file.methods, m.TableFails p options fault

/-! ## Two runs -/

namespace Build

/-- From each state whose pool is like `p`, the second computation has the pared answer of the first and
    leaves the same state; if it alone has an answer, the first one fails for one of these faults. -/
structure Pares (p : Pool T F M) (blamed : FormatFault → Prop) (pare : α → α) (x y : Build T F M α) : Prop where
  eq_ok : ∀ s a s', s.pool.frozen = p.frozen → x s = .ok a s' → y s = .ok (pare a) s'
  blame : ∀ s fault s' a s'', s.pool.frozen = p.frozen → x s = .error fault s' → y s = .ok a s'' → blamed fault

namespace Pares

variable {p : Pool T F M} {blamed blamed' : FormatFault → Prop} {pare : α → α} {pare' : β → β} {x y : Build T F M α}
  {f g : α → Build T F M β} {P : α → Prop}

theorem mono (h : Pares p blamed pare x y) (hblamed : ∀ fault, blamed fault → blamed' fault) :
    Pares p blamed' pare x y where
  eq_ok := h.eq_ok
  blame s fault s' a s'' hs hx hy := hblamed fault (h.blame s fault s' a s'' hs hx hy)

theorem of_eq (h : y = pare <$> x) : Pares p blamed pare x y where
  eq_ok s a s' _ hx := by
    rw [h]
    show EStateM.map pare x s = _
    rw [EStateM.map, hx]
  blame s fault s' a s'' _ hx hy := by
    rw [h] at hy
    change EStateM.map pare x s = _ at hy
    rw [EStateM.map, hx] at hy
    cases hy

theorem pure (a : α) : Pares p blamed pare (Pure.pure a) (Pure.pure (pare a)) := of_eq rfl

theorem throw (fault : FormatFault) : Pares p blamed pare (MonadExcept.throw fault) (MonadExcept.throw fault) :=
  of_eq rfl

theorem ofExcept {e e' : Except FormatFault α} (hok : ∀ a, e = .ok a → e' = .ok (pare a))
    (herror : ∀ fault a, e = .error fault → e' = .ok a → blamed fault) :
    Pares p blamed pare (MonadExcept.ofExcept e) (MonadExcept.ofExcept e') := by
  cases e with
  | ok a =>
    rw [hok a rfl]
    exact of_eq rfl
  | error fault =>
    refine ⟨fun s a s' _ h => (nomatch h), fun s fault' s' a s'' _ h h' => ?_⟩
    cases h
    exact herror fault a rfl (ofExcept_eq_ok.mp h').1

theorem bind (hx : Pares p blamed pare x y) (hkeeps : Ensures p x P)
    (hf : ∀ a, P a → Pares p blamed pare' (f a) (g (pare a))) : Pares p blamed pare' (x >>= f) (y >>= g) where
  eq_ok s b s' hs h := by
    obtain ⟨a, m, ha, hb⟩ := bind_eq_ok.mp h
    obtain ⟨hP, hm⟩ := hkeeps s a m hs ha
    exact bind_eq_ok.mpr ⟨pare a, m, hx.eq_ok s a m hs ha, (hf a hP).eq_ok m b s' hm hb⟩
  blame s fault s' b s'' hs h hok := by
    obtain ⟨a', m', ha', hb⟩ := bind_eq_ok.mp hok
    rcases bind_eq_error.mp h with hfault | ⟨a, m, ha, hfault⟩
    · exact hx.blame s fault s' a' m' hs hfault ha'
    · obtain ⟨hP, hm⟩ := hkeeps s a m hs ha
      cases (hx.eq_ok s a m hs ha).symm.trans ha'
      exact (hf a hP).blame _ fault s' b s'' hm hfault hb

/-- What comes first is the same. -/
theorem after (hkeeps : Ensures p x P) (hf : ∀ a, P a → Pares p blamed pare' (f a) (g a)) :
    Pares p blamed pare' (x >>= f) (x >>= g) :=
  have hsame : Pares p blamed id x x := of_eq (id_map x).symm
  hsame.bind hkeeps hf

theorem ite {c : Prop} [Decidable c] {x' y' : Build T F M α} (h : Pares p blamed pare x y)
    (h' : Pares p blamed pare x' y') : Pares p blamed pare (if c then x else x') (if c then y else y') := by
  by_cases hc : c
  · rw [if_pos hc, if_pos hc]
    exact h
  · rw [if_neg hc, if_neg hc]
    exact h'

theorem check {c : Prop} [Decidable c] {fault : FormatFault} {f g : β → Build T F M α} (h : Pares p blamed pare x y) :
    Pares p blamed pare (if c then MonadExcept.throw fault >>= f else x)
      (if c then MonadExcept.throw fault >>= g else y) := ite (of_eq rfl) h

theorem foldlM {ι : Type} {f g : α → ι → Build T F M α} {l : List ι}
    (hf : ∀ a, ∀ i ∈ l, Pares p blamed pare (f a i) (g (pare a) i)) (hkeeps : ∀ a i, Ensures p (f a i) fun _ => True)
    (a : α) : Pares p blamed pare (l.foldlM f a) (l.foldlM g (pare a)) := by
  induction l generalizing a with
  | nil => exact pure a
  | cons i l ih =>
    rw [List.foldlM_cons, List.foldlM_cons]
    refine (hf a i List.mem_cons_self).bind (hkeeps a i) fun a' _ => ?_
    exact ih (fun a j hj => hf a j (List.mem_cons_of_mem i hj)) a'

theorem mapM {ι : Type} {f g : ι → Build T F M α} {l : List ι} (hf : ∀ i ∈ l, Pares p blamed pare (f i) (g i))
    (hkeeps : ∀ i, Ensures p (f i) fun _ => True) :
    Pares p blamed (List.map pare) (l.mapM f) (l.mapM g) := by
  induction l with
  | nil => exact of_eq rfl
  | cons i l ih =>
    rw [List.mapM_cons, List.mapM_cons]
    refine (hf i List.mem_cons_self).bind (hkeeps i) fun a _ => ?_
    exact (ih fun j hj => hf j (List.mem_cons_of_mem i hj)).bind (.mapM hkeeps l) fun as _ => pure (a :: as)

end Pares

end Build

open Build (Pares Quiet Ensures)

variable {p : Pool T F M}

/-! ## Methods -/

namespace Method

variable {blamed : FormatFault → Prop}

theorem pares_withInvisible (cls : DeclaringClass) (m : Method) (a : Annotation) :
    Pares p blamed withoutTables (m.withInvisible cls a) (m.withoutTables.withInvisible cls.withoutTables a) := by
  refine .ite (.ite ?_ ?_) (.ite (.ite ?_ ?_) (.ite ?_ ?_))
  · exact .after (Quiet.warn _).ensures fun _ _ => .pure m
  · exact .pure { m with member := m.member.hide }
  · exact .pure { m with markers := { m.markers with moduleInitializer := true } }
  · exact .after (Quiet.warn _).ensures fun _ _ => .pure m
  · have hstatic : m.withoutTables.isStatic = m.isStatic := rfl
    rw [hstatic]
    split
    · exact .pure { m with compareAndSet := some _ }
    · exact .after (Quiet.warn _).ensures fun _ _ => .pure m
  · exact .pure m

theorem pares_decode (m : Method) (options : Options) {a : Attribute} (hname : p.text a.name = .ok "Code")
    {q : Pool T F M} (hq : q.frozen = p.frozen) :
    Pares p (a.CodeFails p options) (Prod.map Code.withoutTables id)
      (MonadExcept.ofExcept (Code.decode q options m.member.name m.member.descriptor m.isStatic a.info))
      (MonadExcept.ofExcept (Code.decode q (options.withTables false false) m.member.name m.member.descriptor m.isStatic
        a.info)) := by
  rw [Code.decode_of_frozen hq, Code.decode_of_frozen hq]
  refine .ofExcept (fun ⟨code, constants⟩ h => Code.decode_withoutTables h) fun fault result hfails hok => ?_
  exact ⟨hname, Code.exists_tableFails hfails hok⟩

/-- Of the attributes of a method only code makes a difference. -/
theorem pares_withAttribute (cls : DeclaringClass) (m : Method) (a : Attribute) :
    Pares p (a.CodeFails p cls.options) withoutTables (m.withAttribute cls a)
      (m.withoutTables.withAttribute cls.withoutTables a) := by
  refine .after (Build.ensures_kindOf p cls.version a) fun kind hkind => ?_
  refine .after (Member.quiet_withAttribute? _ _ _).ensures fun member _ => ?_
  cases member with
  | some member =>
    exact .ite (.pure { m with member, markers := member.annotations.foldl withTrusted m.markers })
      (.pure { m with member })
  | none =>
    have hcode : m.withoutTables.code.isSome = m.code.isSome := Option.isSome_map
    cases kind with
    | code =>
      dsimp only
      rw [hcode]
      have hname := Attribute.isKind_code_iff.mp hkind
      -- The pool that is met has more marks than `p`, which decoding does not see.
      refine .check <| .after .pool fun q hq => ?_
      refine (pares_decode m cls.options hname hq).bind (Quiet.ofExcept _).ensures fun decoded _ => ?_
      exact .after (Build.marks_require _).ensures fun _ _ => .pure { m with code := some decoded.1 }
    | exceptions =>
      exact .check <| .after (quiet_readExceptions _).ensures fun names _ =>
        .pure { m with declaredExceptions := some names }
    | visibleParameterAnnotations =>
      exact .after .pool fun q _ => .after (quiet_readWhole _ _ _).ensures fun lists _ =>
        .pure { m with parameterAnnotations := some lists }
    | annotationDefault =>
      exact .after .pool fun q _ => .after (quiet_readWhole _ _ _).ensures fun value _ =>
        .pure { m with annotationDefault := some value }
    | methodParameters => exact .check <| .after .pool fun q _ => .pure { m with parameters := readParameters q a.info }
    | invisibleAnnotations =>
      exact .after (Quiet.annotations _).ensures fun as _ =>
        .foldlM (fun m a _ => pares_withInvisible cls m a) (fun m a => (quiet_withInvisible cls m a).ensures) m
    | _ => exact .pure m

theorem withCodeChecked_withoutTables (cls : DeclaringClass) (m : Method) :
    m.withoutTables.withCodeChecked cls.withoutTables = (m.withCodeChecked cls).map withoutTables := by
  have hcode : m.withoutTables.code.isSome = m.code.isSome := Option.isSome_map
  simp only [withCodeChecked, hcode, apply_ite (Except.map withoutTables)]
  rfl

theorem pares_build (cls : DeclaringClass) (info : MemberInfo) :
    Pares p (info.TableFails p cls.options) withoutTables (build cls info) (build cls.withoutTables info) := by
  have hattribute (m : Method) (a : Attribute) (ha : a ∈ info.attributes) : Pares p (info.TableFails p cls.options)
      withoutTables (m.withAttribute cls a) (m.withoutTables.withAttribute cls.withoutTables a) :=
    (pares_withAttribute cls m a).mono fun fault h => ⟨a, ha, h⟩
  have hkeeps (m : Method) (a : Attribute) : Ensures p (m.withAttribute cls a) fun _ => True :=
    (marks_withAttribute cls m a).ensures
  refine .after (Quiet.text _).ensures fun name _ => .after (Quiet.text _).ensures fun written _ => ?_
  refine .after (Quiet.ofExcept _).ensures fun _ _ => ?_
  have haccess : access? name (dotted written) info.access cls.withoutTables.version cls.withoutTables.isInterface =
      access? name (dotted written) info.access cls.version cls.isInterface := rfl
  dsimp only
  rw [haccess]
  cases access? name (dotted written) info.access cls.version cls.isInterface with
  | none => exact .throw _
  | some access =>
    refine (Pares.foldlM hattribute hkeeps _).bind (.foldlM (fun m a _ => hkeeps m a) _ trivial) fun m _ => ?_
    rw [withCodeChecked_withoutTables]
    refine .of_eq ?_
    cases m.withCodeChecked cls <;> rfl

end Method

/-! ## Classes -/

theorem Method.withoutAssertions?_withoutTables (pool : Pool T F M) (thisClass : String) (fields : List Field)
    (m : Method) : m.withoutTables.withoutAssertions? pool thisClass fields =
      (m.withoutAssertions? pool thisClass fields).map (Prod.map id withoutTables) := by
  cases hcode : m.code with
  | none => simp [withoutTables, withoutAssertions?, hcode]
  | some code =>
    have hdecoded : code.withoutTables.decoded? = code.decoded? := rfl
    simp only [withoutTables, withoutAssertions?, hcode, hdecoded, Option.map_some, Option.bind_eq_bind,
      Option.bind_some]
    cases code.decoded? with
    | none => rfl
    | some body =>
      simp only [Option.bind_some]
      cases removeAssertions pool thisClass (hasStaticFinal fields) body <;> rfl

theorem withoutAssertions_withoutTables (pool : Pool T F M) (thisClass : String) (fields : List Field)
    (methods : List Method) : withoutAssertions pool thisClass fields (methods.map Method.withoutTables) =
      (withoutAssertions pool thisClass fields methods).map id (List.map Method.withoutTables) := by
  have hinitializer : (Method.isClassInitializer ∘ Method.withoutTables) = Method.isClassInitializer := rfl
  simp only [withoutAssertions, List.find?_map, hinitializer]
  cases methods.find? Method.isClassInitializer with
  | none => rfl
  | some m =>
    simp only [Option.map_some, Method.withoutAssertions?_withoutTables]
    cases m.withoutAssertions? pool thisClass fields with
    | none => rfl
    | some changed => exact Prod.ext rfl (modifyFirst_map (fun _ => rfl) methods _)

namespace Class

variable {file : ClassFile} {options : Options}

theorem pares_buildMethods (cls : DeclaringClass) : Pares p (file.TableFails p cls.options)
    (List.map Method.withoutTables) (buildMethods cls file) (buildMethods cls.withoutTables file) := by
  have hkeeps (info : MemberInfo) : Ensures p (Method.build cls info) fun _ => True :=
    (Method.marks_build cls info).ensures
  have hmethod (info : MemberInfo) (hinfo : info ∈ file.methods) : Pares p (file.TableFails p cls.options)
      Method.withoutTables (Method.build cls info) (Method.build cls.withoutTables info) :=
    (Method.pares_build cls info).mono fun fault h => ⟨info, hinfo, h⟩
  refine (Pares.mapM hmethod hkeeps).bind (.mapM hkeeps _) fun methods _ => ?_
  have hkeys : (methods.map Method.withoutTables).map (·.member.key) = methods.map (·.member.key) := List.map_map
  rw [hkeys]
  exact .check (.pure methods)

theorem pares_complete (header : ClassHeader) (members : List Field × List Method) :
    Pares p (file.TableFails p options) withoutTables (complete file options header members)
      (complete file (options.withTables false false) header (members.map id (List.map Method.withoutTables))) := by
  refine .after (ClassAttributes.marks_build header.version options _).ensures fun attributes _ => ?_
  refine .after .pool fun pool _ => ?_
  exact .check (.pure _)

theorem pares_build : Pares p (file.TableFails p options) withoutTables (build file options : Build T F M (Class T F M))
      (build file (options.withTables false false)) := by
  rw [build_eq_complete, build_eq_complete]
  refine .after .pool fun q _ => .after (Quiet.ofExcept _).ensures fun header _ => ?_
  refine .after (quiet_buildFields _ file).ensures fun fields _ => ?_
  let cls : DeclaringClass :=
    { name := header.name, version := header.version, isInterface := header.isInterface, options }
  refine (pares_buildMethods cls).bind (marks_buildMethods cls file).ensures fun methods _ => ?_
  refine .after .pool fun resolved _ => ?_
  by_cases hremove : options.removeAssertions = true
  · have hremove' : (options.withTables false false).removeAssertions = true := hremove
    rw [if_pos hremove, if_pos hremove', withoutAssertions_withoutTables]
    exact pares_complete header _
  · have hremove' : ¬(options.withTables false false).removeAssertions = true := hremove
    rw [if_neg hremove, if_neg hremove']
    exact pares_complete header (fields, methods)

/-- A class is made of the file without its debug tables if one is made with them, and they are all that
    can keep it from being made. -/
theorem ofFile_withoutTables [ToString T] (file : ClassFile) (input : String) (options : Options)
    (patches : List (Option (Patch T))) :
    let full : Except Error (Class T F M) × Array Warning := ofFile file input options patches
    let plain := ofFile file input (options.withTables false false) patches
    (∀ c, full.1 = .ok c → plain = (.ok c.withoutTables, full.2)) ∧ ∀ c e, plain.1 = .ok c → full.1 = .error e →
      ∃ (p : Pool T F M) (fault : FormatFault), resolvePool file input options patches = .ok p ∧
        e = .format (some input) fault ∧ file.TableFails p options fault := by
  have hrelaxed : (options.withTables false false).relaxedClassNames = options.relaxedClassNames := rfl
  unfold ofFile
  rw [resolvePool_congr hrelaxed]
  by_cases hsupported : (!file.version.isSupported) = true
  · rw [if_pos hsupported, if_pos hsupported]
    exact ⟨fun c hc => (nomatch hc), fun c e hc => nomatch hc⟩
  rw [if_neg hsupported, if_neg hsupported]
  cases (resolvePool file input options patches : Except Error (Pool T F M)) with
  | error e => exact ⟨fun c hc => (nomatch hc), fun c e hc => nomatch hc⟩
  | ok p =>
    have hpares : Pares p (file.TableFails p options) withoutTables (build file options : Build T F M (Class T F M))
        (build file (options.withTables false false)) := pares_build
    dsimp only [EStateM.run]
    cases hfull : build file options ⟨p, #[]⟩ with
    | ok c s =>
      rw [hpares.eq_ok _ _ _ rfl hfull]
      refine ⟨fun c' hc => ?_, fun c' e _ he => nomatch he⟩
      cases hc
      rfl
    | error fault s =>
      refine ⟨fun c hc => (nomatch hc), fun c e hplain he => ?_⟩
      cases he
      cases hrun : build file (options.withTables false false) ⟨p, #[]⟩ with
      | ok c' s' => exact ⟨p, fault, rfl, rfl, hpares.blame _ _ _ _ _ rfl hfull hrun⟩
      | error fault' s' =>
        rw [hrun] at hplain
        cases hplain

end Class

/-- If a class is made with debug tables, one is made without them: the same class but for its tables, with
    the same warnings. If one is made only without them, the fault is that of the payload of a table that
    was asked for. -/
theorem debug_tables_influence_nothing_else [ToString T] (file : ClassFile) (input : String) (o : Options)
    (patches : List (Option (Patch T))) (hlines : o.lineNumbers = false) (hvariables : o.localVariables = false)
    (lineNumbers localVariables : Bool) :
    let options := o.withTables lineNumbers localVariables
    let full : Except Error (Class T F M) × Array Warning := Class.ofFile file input options patches
    let plain := Class.ofFile file input o patches
    (∀ c, full.1 = .ok c → plain = (.ok c.withoutTables, full.2)) ∧ ∀ c e, plain.1 = .ok c → full.1 = .error e →
      ∃ (p : Pool T F M) (fault : FormatFault), Class.resolvePool file input options patches = .ok p ∧
        e = .format (some input) fault ∧ file.TableFails p options fault := by
  have hplain : (o.withTables lineNumbers localVariables).withTables false false = o := by
    cases o
    cases hlines
    cases hvariables
    rfl
  have h := Class.ofFile_withoutTables (F := F) (M := M) file input (o.withTables lineNumbers localVariables) patches
  rwa [hplain] at h

/-- A class with a method that returns at once, and a table of line numbers with this payload for it. -/
def tabledFile (table : List UInt8) : ClassFile :=
  { version := Version.java8
    constants := [none, some (.cls 2), some (.utf8 "A"), some (.cls 4), some (.utf8 "java/lang/Object"),
      some (.utf8 "m"), some (.utf8 "()V"), some (.utf8 "Code"), some (.utf8 "LineNumberTable")]
    access := 0x21
    thisClass := 1
    superClass := 3
    interfaces := []
    fields := []
    methods := [⟨0x1, 5, 6, [⟨7, [0, 0, 0, 1, 0, 0, 0, 1, 0xB1, 0, 0, 0, 1, 0, 8, 0, 0, 0, 6] ++ table⟩]⟩]
    attributes := [] }

/-- The instruction of the first table is there, that of the second is past the end of the code. -/
theorem debug_tables_influence_nothing_else_lineNumbers :
    let options := ({} : Options).withTables true false
    let file := tabledFile [0, 1, 0, 0, 0, 7]
    let file' := tabledFile [0, 1, 0, 1, 0, 7]
    ∃ (c c' : Class Nat Nat Nat) (p : Pool Nat Nat Nat) (fault : FormatFault),
      (Class.ofFile file "A" options []).1 = .ok c ∧ (Class.ofFile file "A" {} []).1 = .ok c.withoutTables ∧
      c.methods.map (fun m => m.code.map (·.debug.lineNumbers)) = [some (some [⟨0, 7⟩])] ∧
      (Class.ofFile file' "A" {} []).1 = .ok c' ∧
      (Class.ofFile file' "A" options [] : Except Error (Class Nat Nat Nat) × _).1 = .error (.format (some "A") fault) ∧
      file'.TableFails p options fault := by
  intro options file file'
  have hlines : ((Class.ofFile file "A" options [] : Except Error (Class Nat Nat Nat) × _).1.toOption.map fun c =>
      c.methods.map fun m => m.code.map (·.debug.lineNumbers)) = some [some (some [⟨0, 7⟩])] := by decide +kernel
  have hplain' : (Class.ofFile file' "A" {} [] : Except Error (Class Nat Nat Nat) × _).1.toOption.isSome = true := by
    decide +kernel
  have hfull' : (Class.ofFile file' "A" options [] : Except Error (Class Nat Nat Nat) × _).1.toOption.isNone = true :=
    by decide +kernel
  obtain ⟨c, hc, hlines⟩ := Option.map_eq_some_iff.mp hlines
  obtain ⟨c', hc'⟩ := Option.isSome_iff_exists.mp hplain'
  obtain ⟨e, he⟩ := Except.toOption_eq_none_iff.mp (Option.isNone_iff_eq_none.mp hfull')
  rw [Except.toOption_eq_some_iff] at hc hc'
  have hsame := (debug_tables_influence_nothing_else (F := Nat) (M := Nat) file "A" {} [] rfl rfl true false).1 c hc
  obtain ⟨p, fault, -, rfl, hfails⟩ :=
    (debug_tables_influence_nothing_else (F := Nat) (M := Nat) file' "A" {} [] rfl rfl true false).2 c' e hc' he
  exact ⟨c, c', p, fault, hc, congrArg Prod.fst hsame, hlines, hc', he, hfails⟩

end JvmClass
