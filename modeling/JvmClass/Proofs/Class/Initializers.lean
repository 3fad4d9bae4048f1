/-
  JvmClass.Proofs.Class.Initializers — which methods pass for the static initializer of a class.

  A method passes for the static initializer by its name and descriptor alone. Before version 51 such a
  method is made static whatever it declares; from then on only if it declares so, and one that does not
  is an ordinary method, which nothing runs when the class is initialized.
  - `initializers_are_as_declared`: such a method is static exactly if it declares so or the version is
    older. Assertions are taken out of one of them at most, and out of no other method.
  - `instance_method_loses_assertions`: they are also taken out of one that is not static.
-/

import JvmClass.Proofs.Class.Origin

namespace JvmClass

variable {T F M : Type}

/-! ## Flags -/

theorem Access.has_insert {h : Holder} (a : Access h) {flags inserted : UInt16} (hin : inserted &&& flags = flags) :
    (a.insert inserted).has flags = true := by
  have hbits : (a.bits ||| inserted) &&& flags = flags := by
    rw [← UInt16.toBitVec_inj] at hin ⊢
    ext i hi
    have hbit := congrArg (·[i]) hin
    simp only [UInt16.toBitVec_and, UInt16.toBitVec_or, BitVec.getElem_and, BitVec.getElem_or] at hbit ⊢
    rw [Bool.and_or_distrib_right, hbit, Bool.or_eq_right_iff_imp, Bool.and_eq_true]
    exact And.right
  rw [Access.has, Access.insert, hbits, beq_self_eq_true]

namespace Method

theorem has_accStatic_initializerAccess (a : Access .ofMethod) : (initializerAccess a).has accStatic = true :=
  Access.has_insert _ (by decide)

/-- A method by the name and descriptor of a static initializer is static if it declares so, or if the
    version does not ask for it. -/
theorem has_accStatic_of_access? {bits : UInt16} {version : Version} {inInterface : Bool} {access : Access .ofMethod}
    (h : access? clinitName "()V" bits version inInterface = some access) : access.has accStatic =
      (!version.hasJava7Features || (Access.ofBits .ofMethod bits).has accStatic) := by
  have hinitializer : isInitializer clinitName "()V" version (.ofBits .ofMethod bits) =
      (!version.hasJava7Features || (Access.ofBits .ofMethod bits).has accStatic) := rfl
  have hcases := access?_cases h
  rw [hinitializer] at hcases
  split at hcases
  · rename_i hinit
    rw [hcases, has_accStatic_initializerAccess, hinit]
  · rename_i hordinary
    rw [Bool.not_eq_true] at hordinary
    rw [hcases, hordinary]
    exact (Bool.or_eq_false_iff.mp hordinary).2

/-- The method passes for the static initializer, and the class file says whether it is one. -/
theorem IsTakenFrom.isStatic_iff {p : Pool T F M} {cls : DeclaringClass} {info : MemberInfo} {m : Method}
    {ws : List Warning} (h : IsTakenFrom p cls info m ws) (hm : m.isClassInitializer = true) :
    m.isStatic = true ↔ (cls.version.hasJava7Features = true → info.declares accStatic = true) := by
  obtain ⟨m₀, visible, invisible, htaken⟩ := h
  obtain ⟨hname, hdescriptor, hstatic⟩ := htaken.kept
  obtain ⟨_, _, access, -, -, haccess, hm₀⟩ := declared?_eq_some_iff.mp htaken.declared
  obtain ⟨hclinit, hvoid⟩ := Member.isNamed_iff.mp hm
  rw [hname, hm₀] at hclinit
  rw [hdescriptor, hm₀] at hvoid
  dsimp only at hclinit hvoid
  rw [hclinit, hvoid] at haccess
  rw [hstatic, hm₀, isStatic, has_accStatic_of_access? haccess, MemberInfo.declares]
  cases cls.version.hasJava7Features <;> simp

end Method

theorem exists_getElem?_of_forall₂ {α β : Type} {R : α → β → Prop} {l : List α} {l' : List β} (h : List.Forall₂ R l l')
    {k : Nat} {b : β} (hb : l'[k]? = some b) : ∃ a, l[k]? = some a ∧ R a b := by
  induction h generalizing k with
  | nil => cases hb
  | cons head _ ih =>
    cases k with
    | zero =>
      cases hb
      exact ⟨_, rfl, head⟩
    | succ k => exact ih hb

namespace Class

variable {file : ClassFile} {input : String} {options : Options} {patches : List (Option (Patch T))} {c : Class T F M}

theorem isStatic_iff_of_ofFile [ToString T] (h : (ofFile file input options patches).1 = .ok c) :
    List.Forall₂ (fun info m => m.isClassInitializer = true →
      (m.isStatic = true ↔ (c.version.hasJava7Features = true → info.declares accStatic = true)))
      file.methods c.methods := by
  obtain ⟨p, s, ts, -, hcomes⟩ := comesFrom_of_ofFile (Prod.ext h rfl)
  rw [← hcomes.entries, List.forall₂_map_left_iff]
  exact hcomes.methods.imp fun t m htaken => htaken.isStatic_iff

/-- The class is the one with its assertions, or the question of one method is skipped in it, which passes
    for the static initializer. -/
theorem exists_kept_of_ofFile [ToString T] (h : (ofFile file input options patches).1 = .ok c) : ∃ kept : Class T F M,
    (ofFile file input { options with removeAssertions := false } patches).1 = .ok kept ∧
      (c = kept ∨ options.removeAssertions = true ∧ ∃ k j m, kept.methods[k]? = some m ∧ m.isClassInitializer = true ∧
        c = kept.skipQuestion k j) := by
  cases hremove : options.removeAssertions with
  | false =>
    have hoptions : { options with removeAssertions := false } = options := by rw [← hremove]
    exact ⟨c, hoptions ▸ h, .inl rfl⟩
  | true =>
    have hoptions : { { options with removeAssertions := false } with removeAssertions := true } = options := by
      rw [← hremove]
    rw [← hoptions, ofFile_removing rfl, Prod.map_fst, Except.map_eq_ok] at h
    obtain ⟨kept, hkept, rfl⟩ := h
    have hfresh := isFresh_of_ofFile rfl hkept
    refine ⟨kept, hkept, ?_⟩
    by_cases hasked : ∃ k j field, kept.AskedFor k j field
    · obtain ⟨k, j, field, hasked⟩ := hasked
      obtain ⟨m, _, _, hm, hname, hdescriptor, -⟩ := hasked.initializer
      exact .inr ⟨rfl, k, j, m, hm, Member.isNamed_iff.mpr ⟨hname, hdescriptor⟩,
        withoutQuestion_of_askedFor hfresh hasked⟩
    · exact .inl (withoutQuestion_of_not_askedFor hfresh hasked)

end Class

/-- A method that passes for the static initializer is static exactly if it declares so or if the version does
    not ask for it. The class with its assertions is the same but for the question of one such method, be
    it static or not, and for the field that holds the answer. -/
theorem initializers_are_as_declared [ToString T] {file : ClassFile} {input : String} {options : Options}
    {patches : List (Option (Patch T))} {c : Class T F M}
    (h : (Class.ofFile file input options patches).1 = .ok c) :
    List.Forall₂ (fun info m => m.isClassInitializer = true →
        (m.isStatic = true ↔ (c.version.hasJava7Features = true → info.declares accStatic = true)))
      file.methods c.methods ∧
    ∃ kept : Class T F M, (Class.ofFile file input { options with removeAssertions := false } patches).1 = .ok kept ∧
      (c = kept ∨ options.removeAssertions = true ∧ ∃ k j info m, file.methods[k]? = some info ∧
        kept.methods[k]? = some m ∧ m.isClassInitializer = true ∧
        (m.isStatic = true ↔ (c.version.hasJava7Features = true → info.declares accStatic = true)) ∧
        c = kept.skipQuestion k j) := by
  refine ⟨Class.isStatic_iff_of_ofFile h, ?_⟩
  obtain ⟨kept, hkept, hsame | ⟨hremove, k, j, m, hm, hinitializer, hskipped⟩⟩ := Class.exists_kept_of_ofFile h
  · exact ⟨kept, hkept, .inl hsame⟩
  · obtain ⟨info, hinfo, hstatic⟩ := exists_getElem?_of_forall₂ (Class.isStatic_iff_of_ofFile hkept) hm
    have hversion : c.version = kept.version := by
      rw [hskipped]
      rfl
    rw [hversion]
    exact ⟨kept, hkept, .inr ⟨hremove, k, j, info, m, hinfo, hm, hinitializer, hstatic hinitializer, hskipped⟩⟩

/-- A class that asks for assertions in a method by the name of the static initializer which is not static,
    and so has a variable for its object. -/
def instanceFile : ClassFile :=
  { askingFile with
    methods := askingFile.methods.map fun m => { m with
      access := 0
      attributes := m.attributes.map fun a => { a with info := [0, 1, 0, 1] ++ a.info.drop 4 } } }

/-- The method is not static, but its question is gone and the field is true from the start. -/
theorem instance_method_loses_assertions : ∃ (c : Class Nat Nat Nat) (m : Method),
    (Class.ofFile instanceFile "A" { removeAssertions := true } []).1 = .ok c ∧ m ∈ c.methods ∧
      m.isClassInitializer = true ∧ m.isStatic = false ∧ m.markers.hasAssertions = true ∧
      c.fields.map (·.constant) = [some (.boolean true)] := by
  have houtline : ((Class.ofFile instanceFile "A" { removeAssertions := true } [] :
      Except Error (Class Nat Nat Nat) × _).1.toOption.map fun c =>
        (c.methods.map fun m => (m.isClassInitializer, m.isStatic, m.markers.hasAssertions), c.fields.map (·.constant))) =
      some ([(true, false, true)], [some (.boolean true)]) := by decide +kernel
  obtain ⟨c, hc, houtline⟩ := Option.map_eq_some_iff.mp houtline
  rw [Prod.mk.injEq] at houtline
  obtain ⟨m, hm, hmarked⟩ := List.map_eq_singleton_iff.mp houtline.1
  simp only [Prod.mk.injEq] at hmarked
  exact ⟨c, m, Except.toOption_eq_some_iff.mp hc, hm ▸ List.mem_singleton_self m, hmarked.1, hmarked.2.1, hmarked.2.2,
    houtline.2⟩

theorem initializers_are_as_declared_instance : ∃ (c kept : Class Nat Nat Nat) (k j : Nat) (m : Method),
    (Class.ofFile instanceFile "A" { removeAssertions := true } []).1 = .ok c ∧
      (Class.ofFile instanceFile "A" {} []).1 = .ok kept ∧ kept.methods[k]? = some m ∧ m.isClassInitializer = true ∧
      m.isStatic = false ∧ c = kept.skipQuestion k j := by
  have hremoved : ((Class.ofFile instanceFile "A" { removeAssertions := true } [] :
      Except Error (Class Nat Nat Nat) × _).1.toOption.map fun c => (c.version, c.fields.map (·.constant))) =
        some (Version.java8, [some (.boolean true)]) := by decide +kernel
  have hkept : ((Class.ofFile instanceFile "A" {} [] : Except Error (Class Nat Nat Nat) × _).1.toOption.map fun c =>
      c.fields.map (·.constant)) = some [none] := by decide +kernel
  obtain ⟨c, hc, hfields⟩ := Option.map_eq_some_iff.mp hremoved
  rw [Except.toOption_eq_some_iff] at hc
  rw [Prod.mk.injEq] at hfields
  obtain ⟨-, kept, hrun, hsame | ⟨-, k, j, info, m, hinfo, hm, hinitializer, hstatic, hskipped⟩⟩ :=
    initializers_are_as_declared hc
  · rw [hrun, ← hsame] at hkept
    cases hfields.2.symm.trans (Option.some.inj hkept)
  · refine ⟨c, kept, k, j, m, hc, hrun, hm, hinitializer, ?_, hskipped⟩
    have hdeclared : ∀ info ∈ instanceFile.methods, info.declares accStatic = false := by decide
    rw [hfields.1, hdeclared info (List.mem_of_getElem? hinfo)] at hstatic
    rw [← Bool.not_eq_true, hstatic]
    decide

end JvmClass
