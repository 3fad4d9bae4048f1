/-
  JvmClass.Proofs.Pool.Leniency — lenient rules accept whatever strict ones do.

  Rules get more lenient with the version of the class file and when class names are relaxed
  (`Rules.Below`). What they say of a constant only ever turns from a refusal into an acceptance:
  - no identifier holds a character that is reserved (`isIdentifierPart_reserved`), so a name made of
    identifiers is one that avoids those characters, wherever the scan of it starts
    (`isValidClassName_of_below`);
  - a kind of method handle that may refer to a member still may (`HandleKind.accepts_of_below`).
  What a constant is resolved to does not depend on the rules at all, so pools that resolve by strict
  rules resolve to the same items by lenient ones (`resolve_of_below`).
-/

import JvmClass.Proofs.Descriptor.ClassName
import JvmClass.Proofs.Pool.Locality
import JvmClass.Proofs.Pool.Upkeep

namespace JvmClass

/-- The second rules are those of the same version or a newer one, and relax class names if the first do. -/
structure Rules.Below (rules rules' : Rules) : Prop where
  version : rules.version ≤ rules'.version
  relaxed : rules.options.relaxedClassNames = true → rules'.options.relaxedClassNames = true

/-! ## Versions -/

namespace Version

variable {v w : Version} (h : v ≤ w)
include h

theorem major_le : v.major ≤ w.major := by
  rw [UInt16.le_iff_toNat_le]
  have := le_iff.mp h
  omega

theorem hasJava5Features_of_le (hv : v.hasJava5Features = true) : w.hasJava5Features = true :=
  decide_eq_true (UInt16.le_trans (of_decide_eq_true hv) (major_le h))

theorem hasJava8Features_of_le (hv : v.hasJava8Features = true) : w.hasJava8Features = true :=
  decide_eq_true (UInt16.le_trans (of_decide_eq_true hv) (major_le h))

end Version

/-! ## Names -/

/-- Where the scan of a class name asks for identifiers, it would find nothing wrong without. -/
theorem mayFollow_of_strict {prev c : Char} (h : mayFollow true prev c = true) : mayFollow false prev c = true := by
  have hne {d : Char} (hd : d ∈ methodReserved) (hc : isIdentifierPart c = true) : c ≠ d := by
    intro heq
    rw [heq, isIdentifierPart_reserved hd] at hc
    cases hc
  simp only [mayFollow, if_true, Bool.or_eq_true, Bool.and_eq_true, beq_iff_eq, bne_iff_ne] at h
  rcases h with hc | ⟨rfl, hprev⟩
  · simp [mayFollow, hne (d := '.') (by decide) hc, hne (d := ';') (by decide) hc, hne (d := '[') (by decide) hc,
      hne (d := '/') (by decide) hc]
  · simp [mayFollow, hprev]

/-- Nothing stands before the first character, so a slash may. -/
theorem mayFollow_first {c : Char} (h : isIdentifierStart c = true ∨ c = '/') :
    mayFollow true '\x00' c = true := by
  rcases h with h | rfl
  · rw [mayFollow, if_pos rfl, isIdentifierPart_of_start h, Bool.true_or]
  · rfl

theorem isClassNameTail_of_strict {prev : Char} {s : List Char} (h : isClassNameTail true prev s = true) :
    isClassNameTail false prev s = true := by
  induction s generalizing prev with
  | nil => rfl
  | cons c s ih =>
    rw [isClassNameTail, Bool.and_eq_true] at h ⊢
    exact ⟨mayFollow_of_strict h.1, ih h.2⟩

section Names

variable {s : String}

theorem isNameAvoiding_of_le {reserved : List Char} {v w : Version} (hle : v ≤ w)
    (h : isNameAvoiding reserved v s = true) : isNameAvoiding reserved w s = true := by
  simp only [isNameAvoiding, Bool.and_eq_true, Bool.or_eq_true] at h ⊢
  exact ⟨h.1, h.2.imp_left (Version.hasJava5Features_of_le hle)⟩

/-- A class name that is made of identifiers, or an array type whose class has such a name, is accepted
    without asking for them: the scan may start one character earlier. -/
theorem isValidClassName_of_below {rules rules' : Rules} (hbelow : rules.Below rules')
    (h : isValidClassName s rules.version rules.options = true) :
    isValidClassName s rules'.version rules'.options = true := by
  have hstrict : (!rules'.version.hasJava5Features && !rules'.options.relaxedClassNames) = true →
      (!rules.version.hasJava5Features && !rules.options.relaxedClassNames) = true := by
    simp only [Bool.and_eq_true, Bool.not_eq_true', ← Bool.not_eq_true]
    exact fun ⟨hversion, hrelaxed⟩ => ⟨fun hv => hversion (Version.hasJava5Features_of_le hbelow.version hv),
      fun ho => hrelaxed (hbelow.relaxed ho)⟩
  unfold isValidClassName at h ⊢
  generalize (!rules.version.hasJava5Features && !rules.options.relaxedClassNames) = strict at h hstrict
  generalize (!rules'.version.hasJava5Features && !rules'.options.relaxedClassNames) = strict' at hstrict
  cases strict' with
  | true =>
    rw [hstrict rfl] at h
    exact h
  | false =>
    cases strict with
    | false => exact h
    | true =>
      dsimp only at h ⊢
      split at h
      · cases h
      · rw [Bool.and_eq_true] at h ⊢
        exact ⟨h.1, isClassNameTail_of_strict h.2⟩
      · rename_i first rest _
        simp only [if_true, Bool.and_eq_true, Bool.or_eq_true, beq_iff_eq] at h
        simp only [Bool.false_eq_true, if_false]
        obtain ⟨hfirst, htail⟩ := h
        refine isClassNameTail_of_strict ?_
        rw [isClassNameTail, htail, Bool.and_true]
        exact mayFollow_first hfirst

end Names

/-! ## Constants -/

section Constants

variable {T F M : Type} {rules rules' : Rules} (hbelow : rules.Below rules')
include hbelow

theorem HandleKind.accepts_of_below {kind : HandleKind} {memberKind : MemberKind}
    (h : kind.accepts rules.version memberKind = true) : kind.accepts rules'.version memberKind = true := by
  have hjava8 := Version.hasJava8Features_of_le hbelow.version
  cases memberKind with
  | field => exact h
  | method => cases kind <;> exact h
  | interfaceMethod =>
    cases kind with
    | invokeStatic => exact hjava8 h
    | invokeSpecial => exact hjava8 h
    | _ => exact h

theorem MethodFits.of_below {name descriptor : String} (h : MethodFits rules name descriptor) :
    MethodFits rules' name descriptor :=
  ⟨h.1, h.2.imp_left (isNameAvoiding_of_le hbelow.version)⟩

theorem MemberKind.Fits.of_below {kind : MemberKind} {name descriptor : String} (h : kind.Fits rules name descriptor) :
    kind.Fits rules' name descriptor := by
  cases kind with
  | field => exact ⟨h.1, isNameAvoiding_of_le hbelow.version h.2⟩
  | method => exact MethodFits.of_below hbelow h
  | interfaceMethod => exact MethodFits.of_below hbelow h

theorem Draft.Fits.of_below {d : Draft T} {c : DraftEntry T} (h : d.Fits rules c) : d.Fits rules' c := by
  cases c with
  | cls name renamed bound =>
    cases renamed with
    | some renamed => trivial
    | none => exact ⟨h.1, isValidClassName_of_below hbelow h.2⟩
  | member kind cls nameAndType =>
    obtain ⟨hcls, hnameAndType, hfits⟩ := h
    exact ⟨hcls, hnameAndType, hfits.of_below hbelow⟩
  | invokeDynamic bootstrap nameAndType => exact ⟨h.1, h.2.of_below hbelow⟩
  | methodHandle byte reference =>
    obtain ⟨kind, memberKind, cls, nameAndType, hkind, hreference, haccepts, hname⟩ := h
    exact ⟨kind, memberKind, cls, nameAndType, hkind, hreference, HandleKind.accepts_of_below hbelow haccepts, hname⟩
  | _ => exact h

/-- Newer versions and relaxed class names only ever accept more, with the same items: pools, patched or
    not, and names of fields, methods and classes. -/
theorem resolve_of_below :
    (∀ (d : Draft T) (p : Pool T F M), d.resolve F M rules = .ok p → d.resolve F M rules' = .ok p) ∧
    ∀ s, (isValidFieldName s rules.version = true → isValidFieldName s rules'.version = true) ∧
      (isValidMethodName s rules.version = true → isValidMethodName s rules'.version = true) ∧
      (isValidClassName s rules.version rules.options = true →
        isValidClassName s rules'.version rules'.options = true) := by
  refine ⟨?_, fun s => ⟨isNameAvoiding_of_le hbelow.version, isNameAvoiding_of_le hbelow.version,
    isValidClassName_of_below hbelow⟩⟩
  intro d p hresolve
  obtain ⟨hfits, rfl⟩ := Draft.resolve_eq_ok_iff.mp hresolve
  exact Draft.resolve_eq_ok_iff.mpr ⟨fun c hc => (hfits c hc).of_below hbelow, rfl⟩

end Constants

theorem resolve_of_below_template :
    Rules.Below ⟨⟨48, 0⟩, {}⟩ ⟨Version.java8, {}⟩ ∧
      ∃ p : Pool Nat Unit Unit, (templateDraft "name").resolve Unit Unit ⟨⟨48, 0⟩, {}⟩ = .ok p ∧
        (templateDraft "name").resolve Unit Unit ⟨Version.java8, {}⟩ = .ok p := by
  have hbelow : Rules.Below ⟨⟨48, 0⟩, {}⟩ ⟨Version.java8, {}⟩ := ⟨by decide, id⟩
  have hresolve : (templateDraft "name").resolve Unit Unit ⟨⟨48, 0⟩, {}⟩ = .ok (templateDraft "name").resolved :=
    Draft.resolve_of_isSome (by decide +kernel)
  exact ⟨hbelow, _, hresolve, (resolve_of_below hbelow).1 _ _ hresolve⟩

end JvmClass
