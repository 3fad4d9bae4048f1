/-
  JvmClass.Proofs.Class.Ensuring — what holds of the parts that a class is built of.

  A computation ensures a property if all it returns has it, and if it leaves in place what never
  changes of the pool (`Build.Ensures`). What is checked of the constants that a part refers to
  therefore still holds when the class is complete. A fold ensures what each of its steps keeps
  (`Build.Ensures.foldlM`).
  - `Field.ensures_build`: the constant of a field is of the field's type.
  - `Method.ensures_build`: a method has code exactly if it should, and its code is what is decoded or
    missing. Code catches classes only (`Code.decodes_catchesClasses`).
  - `ClassAttributes.ensures_build`: inner classes and bootstrap methods are what they should be.
-/

import JvmClass.Proofs.Class.Provision

namespace JvmClass

variable {T F M α β : Type}

/-! ## Computations that ensure a property -/

namespace Build

/-- If the pool has what never changes in common with `p`, what is returned has the property, and the
    pool is still such. -/
def Ensures (p : Pool T F M) (x : Build T F M α) (P : α → Prop) : Prop :=
  ∀ s a s', s.pool.frozen = p.frozen → x s = .ok a s' → P a ∧ s'.pool.frozen = p.frozen

variable {p : Pool T F M} {P : α → Prop} {Q : β → Prop}

theorem Marks.ensures {x : Build T F M α} {needs : Pool T F M → Index → Prop} (hx : x.Marks needs) :
    Ensures p x fun _ => True :=
  fun s a s' hs h => ⟨trivial, (hx s a s' h).frozen.trans hs⟩

theorem Quiet.ensures {x : Build T F M α} (hx : x.Quiet) : Ensures p x fun _ => True := Marks.ensures hx

/-- The kind of an attribute is what its name says. -/
theorem ensures_kindOf (p : Pool T F M) (version : Version) (a : Attribute) :
    Ensures p (kindOf version a) fun kind => a.IsKind p version kind := by
  intro s kind s' hs h
  obtain ⟨hkind, rfl⟩ := kindOf_eq_ok.mp h
  exact ⟨(Attribute.isKind_of_frozen hs).mp hkind, hs⟩

namespace Ensures

theorem pure {a : α} (ha : P a) : Ensures p (Pure.pure a) P := by
  intro s b s' hs h
  obtain ⟨rfl, rfl⟩ := pure_eq_ok.mp h
  exact ⟨ha, hs⟩

theorem throw (fault : FormatFault) : Ensures p (MonadExcept.throw fault) P :=
  fun _ _ _ _ h => (throw_eq_ok.mp h).elim

theorem ofExcept {x : Except FormatFault α} (hx : ∀ a, x = .ok a → P a) : Ensures p (MonadExcept.ofExcept x) P := by
  intro s a s' hs h
  obtain ⟨ha, rfl⟩ := ofExcept_eq_ok.mp h
  exact ⟨hx a ha, hs⟩

theorem pool : Ensures p Build.pool fun q => q.frozen = p.frozen := by
  intro s q s' hs h
  obtain ⟨rfl, rfl⟩ := pool_eq_ok.mp h
  exact ⟨hs, hs⟩

theorem bind {x : Build T F M α} {f : α → Build T F M β} (hx : Ensures p x P) (hf : ∀ a, P a → Ensures p (f a) Q) :
    Ensures p (x >>= f) Q := by
  intro s b s' hs h
  obtain ⟨a, m, ha, hb⟩ := bind_eq_ok.mp h
  obtain ⟨hP, hm⟩ := hx s a m hs ha
  exact hf a hP m b s' hm hb

theorem check {c : Prop} [Decidable c] {fault : FormatFault} {f : α → Build T F M β} {next : Build T F M β}
    (hnext : ¬c → Ensures p next Q) : Ensures p (if c then MonadExcept.throw fault >>= f else next) Q := by
  intro s b s' hs h
  obtain ⟨hc, h⟩ := ite_throw_eq_ok.mp h
  exact hnext hc s b s' hs h

/-- What every step keeps, a fold keeps. -/
theorem foldlM {f : β → α → Build T F M β} (hf : ∀ b a, Q b → Ensures p (f b a) Q) (l : List α) {b : β} (hb : Q b) :
    Ensures p (l.foldlM f b) Q := by
  induction l generalizing b with
  | nil => exact pure hb
  | cons a l ih =>
    rw [List.foldlM_cons]
    exact (hf b a hb).bind fun b' hb' => ih hb'

theorem mapM {f : α → Build T F M β} (hf : ∀ a, Ensures p (f a) Q) (l : List α) :
    Ensures p (l.mapM f) fun bs => ∀ b ∈ bs, Q b := by
  induction l with
  | nil => exact pure fun b hb => nomatch hb
  | cons a l ih =>
    rw [List.mapM_cons]
    exact (hf a).bind fun b hb => ih.bind fun bs hbs => pure (List.forall_mem_cons.mpr ⟨hb, hbs⟩)

end Ensures

end Build

open Build (Ensures Quiet)

/-! ## Fields -/

/-- The fields with this descriptor may have the constant. -/
def FieldConstant.descriptor : FieldConstant → String
  | .boolean _ => "Z"
  | .byte _ => "B"
  | .char _ => "C"
  | .short _ => "S"
  | .int _ => "I"
  | .long _ => "J"
  | .float _ => "F"
  | .double _ => "D"
  | .string _ => "Ljava.lang.String;"

/-- The constant of the field, if it has one, is of the kind that its descriptor asks for. -/
def Field.HasOwnConstant (f : Field) : Prop := ∀ c, f.constant = some c → c.descriptor = f.member.descriptor

/-- No attribute changes the descriptor of a member. -/
theorem Member.ensures_withAttribute? {p : Pool T F M} {h : Holder} (m : Member h) (kind : AttributeKind)
    (info : List UInt8) :
    Ensures p (m.withAttribute? kind info) fun o => ∀ m', o = some m' → m'.descriptor = m.descriptor := by
  unfold withAttribute?
  split
  · split
    · exact .pure fun _ h => by
        cases h
        rfl
    · exact .throw _
  · exact (Quiet.singleText _ _).ensures.bind fun _ _ => .pure fun _ h => by
      cases h
      rfl
  · exact (Quiet.annotations _).ensures.bind fun _ _ => .pure fun _ h => by
      cases h
      rfl
  · exact Quiet.exposeTexts.ensures.bind fun _ _ => .pure fun _ h => by
      cases h
      rfl
  · exact .pure fun _ h => nomatch h

namespace Field

variable {p : Pool T F M}

theorem descriptor_of_constantOf? {descriptor : String} {e : Entry T F M} {c : FieldConstant}
    (h : constantOf? descriptor e = some c) : c.descriptor = descriptor := by
  unfold constantOf? at h
  split at h
  · split at h <;> (cases h; try rfl)
  all_goals
    first
    | cases h
    | split at h
      · cases h
        exact Eq.symm ‹_›
      · cases h

theorem descriptor_of_readConstant {descriptor : String} {e : Entry T F M} {c : FieldConstant}
    (h : readConstant descriptor e = .ok c) : c.descriptor = descriptor := by
  unfold readConstant at h
  split at h
  · rename_i c' hc
    cases h
    exact descriptor_of_constantOf? hc
  · split at h <;> cases h

theorem ensures_withInvisible (cls : DeclaringClass) {f : Field} (a : Annotation) (hf : f.HasOwnConstant) :
    Ensures p (f.withInvisible cls a) HasOwnConstant := by
  unfold withInvisible
  split
  · exact .pure hf
  split
  · split
    · exact (Quiet.warn _).ensures.bind fun _ _ => .pure hf
    split
    · exact .pure hf
    · exact (Quiet.warn _).ensures.bind fun _ _ => .pure hf
  · exact .pure hf

theorem ensures_withAttribute (cls : DeclaringClass) {f : Field} (a : Attribute) (hf : f.HasOwnConstant) :
    Ensures p (f.withAttribute cls a) HasOwnConstant := by
  refine (Quiet.kindOf _ _).ensures.bind fun kind _ => (Member.ensures_withAttribute? _ _ _).bind fun member hm => ?_
  split
  · rename_i member
    refine .pure fun c hc => ?_
    rw [hm member rfl]
    exact hf c hc
  split
  · refine (Quiet.singleIndex _ _).ensures.bind fun _ _ => Ensures.pool.bind fun _ _ => ?_
    refine (Ensures.ofExcept fun c => descriptor_of_readConstant).bind fun c hc => .pure fun c' hc' => ?_
    cases hc'
    exact hc
  · exact (Quiet.annotations _).ensures.bind fun _ _ => .foldlM (fun f a => ensures_withInvisible cls a) _ hf
  · exact .pure hf

theorem ensures_build (cls : DeclaringClass) (info : MemberInfo) : Ensures p (build cls info) HasOwnConstant := by
  refine (Quiet.text _).ensures.bind fun name _ => (Quiet.text _).ensures.bind fun descriptor _ => ?_
  refine .check fun _ => .check fun _ => .check fun _ => .foldlM (fun f a => ensures_withAttribute cls a) _ ?_
  exact fun c hc => nomatch hc

end Field

/-! ## Methods -/

/-- The range covers something and lies in a body of that length, with its handler, and what is caught is
    a class. -/
structure HandlerRange.IsLegal (p : Pool T F M) (length : Nat) (r : HandlerRange) : Prop where
  start_lt : r.start.toNat < r.stop.toNat
  stop_le : r.stop.toNat ≤ length
  handler_lt : r.handler.toNat < length
  caught : ∀ i, r.catchType = some i → p.isClass i = true

/-- What is caught is a class of the pool. -/
def Code.CatchesClasses (p : Pool T F M) (code : Code) : Prop :=
  ∀ body, code.decoded? = some body → ∀ h ∈ body.handlers, ∀ i, h.catchType = some i → p.isClass i = true

theorem HandlerEntry.IsLegal.range {p : Pool T F M} {length : Nat} {h : HandlerEntry} (hh : h.IsLegal p length) :
    h.range.IsLegal p length where
  start_lt := hh.start_lt
  stop_le := hh.stop_le
  handler_lt := hh.handler_lt
  caught i hi := by
    by_cases hany : h.catchType = 0
    · simp [HandlerEntry.range, hany] at hi
    · simp only [HandlerEntry.range, if_neg hany, Option.some.injEq] at hi
      exact hi ▸ hh.caught.resolve_left hany

namespace CodeAttribute

variable {p : Pool T F M} {options : Options} {method : String × String} {info : List UInt8} {a : CodeAttribute}

theorem legal_of_read (h : Read.run (read p options method) info = .ok a) :
    ∀ r ∈ a.handlers, r.IsLegal p a.bytes.length := by
  obtain ⟨l, hl, -, hyields⟩ := run_read_eq_ok.mp h
  intro r hr
  rw [hyields.handlers] at hr
  obtain ⟨entry, hentry, rfl⟩ := List.mem_map.mp hr
  rw [hyields.bytes]
  exact (hl.handlers.2 entry hentry).range

/-- The handlers of a decoded body are those of the attribute, one by one. -/
theorem handlers_of_body {body : DecodedBody} {constants : List Index} (h : a.body = .ok (.decoded body, constants)) :
    ∃ offsets, a.handlers.mapM (·.toHandler offsets) = .ok body.handlers := by
  unfold CodeAttribute.body at h
  split at h
  · cases h
  simp only at h
  split at h
  · cases h
  split at h
  · rename_i hmap
    cases h
    exact ⟨_, hmap⟩
  · cases h

end CodeAttribute

theorem HandlerRange.catchType_of_toHandler {offsets : Array (Option Nat)} {r : HandlerRange} {h : ExceptionHandler}
    (hr : r.toHandler offsets = .ok h) : h.catchType = r.catchType := by
  unfold toHandler at hr
  simp only at hr
  split at hr
  · cases hr
    rfl
  · cases hr

theorem Code.catchesClasses_of_decode {p : Pool T F M} {options : Options} {name descriptor : String} {isStatic : Bool}
    {info : List UInt8} {code : Code} {constants : List Index}
    (h : Code.decode p options name descriptor isStatic info = .ok (code, constants)) : code.CatchesClasses p := by
  intro body hbody handler hhandler i hi
  obtain ⟨a, bodyConstants, hread, hof⟩ := Code.decode_eq_decoded h (Code.decoded?_eq_some_iff.mp hbody)
  obtain ⟨offsets, hmap⟩ := CodeAttribute.handlers_of_body hof
  rw [List.mapM_eq_ok_iff] at hmap
  obtain ⟨r, hr, hhandler⟩ := List.mem_map.mp (hmap ▸ List.mem_map_of_mem hhandler)
  rw [HandlerRange.catchType_of_toHandler hhandler] at hi
  exact (CodeAttribute.legal_of_read hread r hr).caught i hi

theorem Code.catchesClasses_of_frozen {p q : Pool T F M} (h : q.frozen = p.frozen) {code : Code}
    (hcode : code.CatchesClasses q) : code.CatchesClasses p := by
  intro body hbody handler hhandler i hi
  rw [← hcode body hbody handler hhandler i hi]
  exact (Pool.congr_of_frozen Entry.isClass Entry.isClass_frozen h i).symm

/-- The code of the method, if it has some, catches classes only. -/
def Method.CatchesClasses (p : Pool T F M) (m : Method) : Prop := ∀ code, m.code = some code → code.CatchesClasses p

/-- The code of the method has the property, and no assertions have been taken out of it. -/
structure Method.IsFresh (P : Code → Prop) (m : Method) : Prop where
  code : ∀ code, m.code = some code → P code
  unmarked : m.markers.hasAssertions = false

/-- All code that is decoded with a pool like this one has the property. -/
def Code.Decodes (p : Pool T F M) (P : Code → Prop) : Prop :=
  ∀ q : Pool T F M, q.frozen = p.frozen → ∀ options name descriptor isStatic info code constants,
    Code.decode q options name descriptor isStatic info = .ok (code, constants) → P code

theorem Code.decodes_catchesClasses (p : Pool T F M) : Code.Decodes p (Code.CatchesClasses p) :=
  fun _ hq _ _ _ _ _ _ _ h => catchesClasses_of_frozen hq (catchesClasses_of_decode h)

theorem Code.catchesClasses_missing (p : Pool T F M) (fault : VerifyFault) : (Code.missing fault).CatchesClasses p :=
  fun _ hbody => nomatch hbody

namespace Method

variable {p : Pool T F M} {P : Code → Prop}

theorem hasAssertions_withTrusted (m : Markers) (a : Annotation) :
    (withTrusted m a).hasAssertions = m.hasAssertions := by
  unfold withTrusted
  split_ifs <;> rfl

theorem hasAssertions_foldl_withTrusted (annotations : List Annotation) (m : Markers) :
    (annotations.foldl withTrusted m).hasAssertions = m.hasAssertions := by
  induction annotations generalizing m with
  | nil => rfl
  | cons a annotations ih => exact (ih _).trans (hasAssertions_withTrusted m a)

theorem ensures_withInvisible (cls : DeclaringClass) {m : Method} (a : Annotation) (hm : m.IsFresh P) :
    Ensures p (m.withInvisible cls a) (IsFresh P) := by
  unfold withInvisible
  split
  · split
    · exact (Quiet.warn _).ensures.bind fun _ _ => .pure hm
    · exact .pure ⟨hm.code, hm.unmarked⟩
  split
  · split
    · exact .pure ⟨hm.code, hm.unmarked⟩
    · exact (Quiet.warn _).ensures.bind fun _ _ => .pure hm
  split
  · split
    · exact .pure ⟨hm.code, hm.unmarked⟩
    · exact (Quiet.warn _).ensures.bind fun _ _ => .pure hm
  · exact .pure hm

theorem ensures_withAttribute (hdecodes : Code.Decodes p P) (cls : DeclaringClass) {m : Method} (a : Attribute)
    (hm : m.IsFresh P) : Ensures p (m.withAttribute cls a) (IsFresh P) := by
  refine (Quiet.kindOf _ _).ensures.bind fun kind _ => ?_
  refine (Member.quiet_withAttribute? _ _ _).ensures.bind fun member _ => ?_
  split
  · split
    · exact .pure ⟨hm.code, (hasAssertions_foldl_withTrusted _ _).trans hm.unmarked⟩
    · exact .pure ⟨hm.code, hm.unmarked⟩
  split
  · refine .check fun _ => Ensures.pool.bind fun q hq => ?_
    refine (Ensures.ofExcept fun _ hdecode => hdecodes q hq _ _ _ _ _ _ _ hdecode).bind fun decoded hdecoded => ?_
    refine (Build.marks_require _).ensures.bind fun _ _ => .pure ⟨fun code hcode => ?_, hm.unmarked⟩
    cases hcode
    exact hdecoded
  · exact .check fun _ => (quiet_readExceptions _).ensures.bind fun _ _ => .pure ⟨hm.code, hm.unmarked⟩
  · exact Ensures.pool.bind fun _ _ => (quiet_readWhole _ _ _).ensures.bind fun _ _ => .pure ⟨hm.code, hm.unmarked⟩
  · exact Ensures.pool.bind fun _ _ => (quiet_readWhole _ _ _).ensures.bind fun _ _ => .pure ⟨hm.code, hm.unmarked⟩
  · exact .check fun _ => Ensures.pool.bind fun _ _ => .pure ⟨hm.code, hm.unmarked⟩
  · exact (Quiet.annotations _).ensures.bind fun _ _ => .foldlM (fun m a => ensures_withInvisible cls a) _ hm
  · exact .pure hm

/-- The method has code exactly if it is neither abstract nor native. -/
def IsCoded (m : Method) : Prop := m.code = none ↔ m.isAbstract = true ∨ m.isNative = true

theorem isCoded_of_withCodeChecked {cls : DeclaringClass} {m m' : Method} (h : m.withCodeChecked cls = .ok m') :
    m'.IsCoded := by
  unfold withCodeChecked at h
  by_cases hbodiless : (m.isAbstract || m.isNative) = true
  · rw [if_pos hbodiless] at h
    split at h
    · cases h
    · cases h
      rename_i hcode
      rw [Bool.not_eq_true, Option.isSome_eq_false_iff, Option.isNone_iff_eq_none] at hcode
      exact iff_of_true hcode (Bool.or_eq_true _ _ ▸ hbodiless)
  · rw [if_neg hbodiless] at h
    have hnone : ¬(m.isAbstract = true ∨ m.isNative = true) := fun hor => hbodiless (Bool.or_eq_true _ _ ▸ hor)
    split at h
    · cases h
      rename_i hcode
      refine iff_of_false (fun heq => ?_) hnone
      rw [heq] at hcode
      cases hcode
    split at h
    · cases h
      exact iff_of_false (fun heq => nomatch heq) hnone
    · cases h

theorem isFresh_of_withCodeChecked {cls : DeclaringClass} {m m' : Method} (hmissing : ∀ fault, P (.missing fault))
    (hm : m.IsFresh P) (h : m.withCodeChecked cls = .ok m') : m'.IsFresh P := by
  unfold withCodeChecked at h
  split at h
  · split at h
    · cases h
    · cases h
      exact hm
  split at h
  · cases h
    exact hm
  split at h
  · cases h
    refine ⟨fun code hcode => ?_, hm.unmarked⟩
    cases hcode
    exact hmissing _
  · cases h

theorem ensures_build (hdecodes : Code.Decodes p P) (hmissing : ∀ fault, P (.missing fault)) (cls : DeclaringClass)
    (info : MemberInfo) : Ensures p (build cls info) fun m => m.IsCoded ∧ m.IsFresh P := by
  refine (Quiet.text _).ensures.bind fun name _ => (Quiet.text _).ensures.bind fun descriptor _ => ?_
  refine (Quiet.ofExcept _).ensures.bind fun _ _ => ?_
  dsimp only
  split
  · exact .throw _
  · refine (Ensures.foldlM (Q := IsFresh P) (fun m a => ensures_withAttribute hdecodes cls a) _ ?_).bind fun m hm => ?_
    · exact ⟨fun code hcode => (nomatch hcode), rfl⟩
    · exact .ofExcept fun m' hm' => ⟨isCoded_of_withCodeChecked hm', isFresh_of_withCodeChecked hmissing hm hm'⟩

end Method

/-! ## Attributes of classes -/

/-- The entry is about a class, and about another one that it lies in if it says so. -/
structure InnerClass.IsLegal (p : Pool T F M) (c : InnerClass) : Prop where
  inner : p.isClass c.inner = true
  outer : ∀ i, c.outer = some i → p.isClass i = true ∧ i ≠ c.inner

/-- The attributes refer to constants of the right kinds. -/
structure ClassAttributes.AreLegal (p : Pool T F M) (c : ClassAttributes) : Prop where
  innerClasses : ∀ i ∈ c.innerClasses, i.IsLegal p
  bootstrapMethods : ∀ m ∈ c.bootstrapMethods, m.IsLegal p

section Frozen

variable {p q : Pool T F M} (h : q.frozen = p.frozen)
include h

theorem Pool.isClass_of_frozen (i : Index) : q.isClass i = p.isClass i :=
  congr_of_frozen Entry.isClass Entry.isClass_frozen h i

theorem Pool.isLoadable_of_frozen (i : Index) : q.isLoadable i = p.isLoadable i :=
  congr_of_frozen Entry.isLoadable (fun e => by cases e <;> rfl) h i

theorem InnerClass.IsLegal.of_frozen {c : InnerClass} (hc : c.IsLegal q) : c.IsLegal p where
  inner := Pool.isClass_of_frozen h _ ▸ hc.inner
  outer i hi := Pool.isClass_of_frozen h i ▸ hc.outer i hi

theorem BootstrapMethod.IsLegal.of_frozen {m : BootstrapMethod} (hm : m.IsLegal q) : m.IsLegal p where
  handle := by
    obtain ⟨kind, reference, hhandle⟩ := hm.handle
    have hentry := Pool.entry_of_frozen h m.handle
    rw [hhandle] at hentry
    exact ⟨kind, reference, Entry.eq_methodHandle_of_frozen hentry.symm⟩
  arguments i hi := Pool.isLoadable_of_frozen h i ▸ hm.arguments i hi

end Frozen

theorem InnerClassInfo.legal_of_check {p : Pool T F M} {e : InnerClassInfo} {c : InnerClass} (h : e.check p = .ok c) :
    c.IsLegal p := by
  unfold check at h
  split at h
  · cases h
  rename_i hinner
  split at h
  · cases h
  rename_i houter
  split at h
  · cases h
  split at h
  · cases h
  rename_i hdistinct
  cases h
  refine ⟨by simpa using hinner, fun i hi => ?_⟩
  by_cases hzero : e.outer = 0
  · simp [hzero] at hi
  · simp only [if_neg hzero, Option.some.injEq] at hi
    subst hi
    exact ⟨by simpa [hzero] using houter, fun heq => hdistinct heq.symm⟩

section Attributes

variable {p : Pool T F M}

theorem ensures_readInnerClasses (info : List UInt8) :
    Ensures p (readInnerClasses info) fun cs => ∀ c ∈ cs, c.IsLegal p := by
  refine (Quiet.read _ _).ensures.bind fun entries _ => Ensures.pool.bind fun q hq => ?_
  have hcheck : ∀ classes, entries.mapM (InnerClassInfo.check q) = .ok classes → ∀ c ∈ classes, c.IsLegal p := by
    intro classes hclasses c hc
    rw [List.mapM_eq_ok_iff] at hclasses
    obtain ⟨e, -, he⟩ := List.mem_map.mp (hclasses ▸ List.mem_map_of_mem hc)
    exact (InnerClassInfo.legal_of_check he).of_frozen hq
  exact (Ensures.ofExcept hcheck).bind fun classes hclasses =>
    (Build.marks_require _).ensures.bind fun _ _ => .pure hclasses

theorem ensures_readBootstrapMethods (info : List UInt8) :
    Ensures p (readBootstrapMethods info) fun ms => ∀ m ∈ ms, m.IsLegal p := by
  refine Ensures.pool.bind fun q hq => ?_
  have hread : ∀ methods, Read.run (BootstrapMethod.readAll q) info = .ok methods → ∀ m ∈ methods, m.IsLegal p :=
    fun methods hmethods m hm => ((BootstrapMethod.run_readAll_eq_ok.mp hmethods).1.2 m hm).2.of_frozen hq
  exact (Ensures.ofExcept hread).bind fun methods hmethods =>
    (Build.marks_require _).ensures.bind fun _ _ => .pure hmethods

namespace ClassAttributes

theorem ensures_withAttribute (version : Version) (options : Options) {c : ClassAttributes} (a : Attribute)
    (hc : c.AreLegal p) : Ensures p (c.withAttribute version options a) (AreLegal p) := by
  refine (Quiet.kindOf _ _).ensures.bind fun kind _ => ?_
  split
  · split
    · exact .pure ⟨hc.innerClasses, hc.bootstrapMethods⟩
    · exact .throw _
  · exact (Quiet.singleText _ _).ensures.bind fun _ _ => .pure ⟨hc.innerClasses, hc.bootstrapMethods⟩
  · exact (ensures_readInnerClasses _).bind fun _ hinner => .pure ⟨hinner, hc.bootstrapMethods⟩
  · exact (Quiet.singleText _ _).ensures.bind fun _ _ => .pure ⟨hc.innerClasses, hc.bootstrapMethods⟩
  · exact (quiet_readEnclosingMethod _).ensures.bind fun _ _ => .pure ⟨hc.innerClasses, hc.bootstrapMethods⟩
  · exact (Quiet.annotations _).ensures.bind fun _ _ => .pure ⟨hc.innerClasses, hc.bootstrapMethods⟩
  · refine (Quiet.annotations _).ensures.bind fun _ _ => ?_
    dsimp only
    split
    · exact .pure ⟨hc.innerClasses, hc.bootstrapMethods⟩
    · exact .pure hc
  · exact (ensures_readBootstrapMethods _).bind fun _ hmethods => .pure ⟨hc.innerClasses, hmethods⟩
  · exact Quiet.exposeTexts.ensures.bind fun _ _ => .pure ⟨hc.innerClasses, hc.bootstrapMethods⟩
  · exact (Quiet.singleText _ _).ensures.bind fun _ _ => .pure ⟨hc.innerClasses, hc.bootstrapMethods⟩
  · exact .pure hc

theorem ensures_build (version : Version) (options : Options) (attributes : List Attribute) :
    Ensures p (build version options attributes) (AreLegal p) :=
  .foldlM (fun _ a => ensures_withAttribute version options a) _ ⟨fun _ h => (nomatch h), fun _ h => (nomatch h)⟩

end ClassAttributes

end Attributes

end JvmClass
