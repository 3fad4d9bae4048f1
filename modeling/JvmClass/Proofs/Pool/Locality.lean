/-
  JvmClass.Proofs.Pool.Locality — resolution looks at one slot at a time.

  Whether a constant is as it should be is a matter of the draft alone: of what its slot says, and
  of what the slots say that it refers to, wherever they are (`Draft.Fits`). So is what it is
  resolved to (`Draft.item`). The rounds only see to it that a constant finds resolved whatever it
  looks at: a constant looks at constants of lower rank only, and before its round those are all in
  place (`Draft.Reached`).
  - `Pool.resolveEntry_eq_ok_iff`: in its round a constant resolves exactly if it fits, to its item.
  - `Draft.resolveRound_eq_ok_iff`: a round succeeds exactly if all constants of the round fit.
  - `Draft.resolve_eq_ok_iff`: a draft resolves exactly if all its constants fit, to their items.
-/

import JvmClass.Proofs.Pool.Resolution

namespace JvmClass

variable {T F M : Type} {rules : Rules}

/-! ## What the slots of a draft say -/

namespace Draft

/-- A slot that is not there is like an empty one. -/
def entry (d : Draft T) (i : Index) : DraftEntry T := d.entries[i.toNat]?.getD .vacant

def text? (d : Draft T) (i : Index) : Option String :=
  match d.entry i with
  | .text value => some value
  | _ => none

def HasText (d : Draft T) (i : Index) : Prop := (d.text? i).isSome = true

/-- Empty if there is none. -/
def text (d : Draft T) (i : Index) : String := (d.text? i).getD ""

def IsClass (d : Draft T) (i : Index) : Prop := ∃ name renamed bound, d.entry i = .cls name renamed bound

/-- The name that a patch has given, else the text of the name. -/
def className (d : Draft T) (i : Index) : String :=
  match d.entry i with
  | .cls name renamed _ => renamed.getD (dotted (d.text name))
  | _ => ""

/-- A name-and-type constant, with both its texts. -/
def IsNameAndType (d : Draft T) (i : Index) : Prop :=
  ∃ name descriptor, d.entry i = .nameAndType name descriptor ∧ d.HasText name ∧ d.HasText descriptor

def memberName (d : Draft T) (i : Index) : String :=
  match d.entry i with
  | .nameAndType name _ => d.text name
  | _ => ""

def memberDescriptor (d : Draft T) (i : Index) : String :=
  match d.entry i with
  | .nameAndType _ descriptor => d.text descriptor
  | _ => ""

end Draft

/-! ## When a constant is as it should be -/

def FieldFits (rules : Rules) (name descriptor : String) : Prop :=
  isValidFieldDescriptor descriptor = true ∧ isValidFieldName name rules.version = true

/-- Of the special names only that of constructors is one to refer to, and those return nothing. -/
def MethodFits (rules : Rules) (name descriptor : String) : Prop :=
  isValidMethodDescriptor descriptor = true ∧
    (isValidMethodName name rules.version = true ∨ name = initName ∧ endsInVoid descriptor = true)

def MemberKind.Fits (rules : Rules) : MemberKind → String → String → Prop
  | .field => FieldFits rules
  | .method | .interfaceMethod => MethodFits rules

namespace Draft

/-- The constant is as it should be. The order of the slots does not come into it. -/
def Fits (rules : Rules) (d : Draft T) : DraftEntry T → Prop
  | .vacant | .text _ | .literal _ | .live _ | .cls _ (some _) _ => True
  | .cls name none _ => d.HasText name ∧ isValidClassName (d.text name) rules.version rules.options = true
  | .string text => d.HasText text
  | .nameAndType name descriptor => d.HasText name ∧ d.HasText descriptor
  | .methodType descriptor => d.HasText descriptor ∧ isValidMethodDescriptor (d.text descriptor) = true
  | .member kind cls nameAndType =>
    d.IsClass cls ∧ d.IsNameAndType nameAndType ∧
      kind.Fits rules (d.memberName nameAndType) (d.memberDescriptor nameAndType)
  | .invokeDynamic _ nameAndType =>
    d.IsNameAndType nameAndType ∧ MethodFits rules (d.memberName nameAndType) (d.memberDescriptor nameAndType)
  | .methodHandle byte reference =>
    ∃ kind memberKind cls nameAndType, HandleKind.ofByte? byte = some kind ∧
      d.entry reference = .member memberKind cls nameAndType ∧ kind.accepts rules.version memberKind = true ∧
      kind.acceptsName (d.memberName nameAndType) = true

/-- What the constant is resolved to. -/
def item (d : Draft T) : DraftEntry T → Entry T F M
  | .vacant => .vacant
  | .text value => .text value false
  | .cls name renamed bound => .cls ⟨renamed.getD (dotted (d.text name)), false, ⟨bound⟩⟩
  | .literal value => .literal value
  | .string text => .string (d.text text)
  | .live value => .live value
  | .nameAndType name descriptor => .nameAndType name descriptor
  | .member kind cls nameAndType =>
    Pool.ofMember ⟨cls, d.className cls, d.memberName nameAndType, dotted (d.memberDescriptor nameAndType)⟩ kind
  | .methodHandle byte reference =>
    match HandleKind.ofByte? byte with
    | some kind => .methodHandle kind reference
    | none => .vacant
  | .methodType descriptor => .methodType (dotted (d.text descriptor)) .empty
  | .invokeDynamic bootstrap nameAndType =>
    .invokeDynamic bootstrap (d.memberName nameAndType) (dotted (d.memberDescriptor nameAndType)) .empty

/-- The pool of all items. -/
def resolved (d : Draft T) : Pool T F M := ⟨(d.entries.map d.item).toArray⟩

end Draft

/-! ## What an item says of its constant -/

namespace Draft

variable {d : Draft T} {c : DraftEntry T}

theorem item_eq_text_iff {value : String} {exposed : Bool} :
    (d.item c : Entry T F M) = .text value exposed ↔ c = .text value ∧ exposed = false := by
  cases c with
  | text value' => simp [item, eq_comm]
  | member kind cls nameAndType => cases kind <;> simp [item, Pool.ofMember]
  | methodHandle byte reference =>
    simp only [item]
    split <;> simp
  | _ => simp [item]

theorem item_eq_cls_iff {x : ClassEntry T} :
    (d.item c : Entry T F M) = .cls x ↔ ∃ name renamed bound,
      c = .cls name renamed bound ∧ x = ⟨renamed.getD (dotted (d.text name)), false, ⟨bound⟩⟩ := by
  cases c with
  | cls name renamed bound =>
    constructor
    · intro h
      cases h
      exact ⟨name, renamed, bound, rfl, rfl⟩
    · rintro ⟨_, _, _, h, rfl⟩
      cases h
      rfl
  | member kind cls nameAndType => cases kind <;> simp [item, Pool.ofMember]
  | methodHandle byte reference =>
    simp only [item]
    split <;> simp
  | _ => simp [item]

theorem item_eq_nameAndType_iff {name descriptor : Index} :
    (d.item c : Entry T F M) = .nameAndType name descriptor ↔ c = .nameAndType name descriptor := by
  cases c with
  | member kind cls nameAndType => cases kind <;> simp [item, Pool.ofMember]
  | methodHandle byte reference =>
    simp only [item]
    split <;> simp
  | _ => simp [item]

theorem member?_item_eq_some_iff {kind : MemberKind} {m : MemberRef} :
    (d.item c : Entry T F M).member? = some (kind, m) ↔ ∃ cls nameAndType, c = .member kind cls nameAndType ∧
      m = ⟨cls, d.className cls, d.memberName nameAndType, dotted (d.memberDescriptor nameAndType)⟩ := by
  cases c with
  | member kind' cls nameAndType =>
    constructor
    · intro h
      refine ⟨cls, nameAndType, ?_⟩
      cases kind' <;> cases h <;> exact ⟨rfl, rfl⟩
    · rintro ⟨_, _, h, rfl⟩
      cases h
      cases kind <;> rfl
  | methodHandle byte reference =>
    simp only [item]
    split <;> simp [Entry.member?]
  | _ => simp [item, Entry.member?]

end Draft

/-! ## Ranks -/

def Round.rank : Round → Nat
  | .texts => 1
  | .members => 2
  | .handles => 3

/-- Texts, which need no round, are of the lowest rank. -/
def DraftEntry.rank (c : DraftEntry T) : Nat := (c.round?.map Round.rank).getD 0

theorem DraftEntry.round?_eq_some_iff {c : DraftEntry T} {round : Round} :
    c.round? = some round ↔ c.rank = round.rank := by
  cases round <;> cases c <;> simp [round?, rank, Round.rank]

/-- The items of all constants of lower rank are in place. Others may be. -/
def Draft.Reached (d : Draft T) (rank : Nat) (p : Pool T F M) : Prop :=
  ∀ i, p.entry i = d.item (d.entry i) ∨ p.entry i = .vacant ∧ rank ≤ (d.entry i).rank

namespace Draft.Reached

variable {d : Draft T} {p : Pool T F M} {rank slot : Nat} {i : Index}

theorem entry_eq (hp : d.Reached rank p) (hi : (d.entry i).rank < rank) : p.entry i = d.item (d.entry i) := by
  rcases hp i with h | ⟨-, h⟩
  · exact h
  · omega

/-- A constant that is there is an item. -/
theorem item_eq (hp : d.Reached rank p) {e : Entry T F M} (hi : p.entry i = e) (he : e ≠ .vacant) :
    d.item (d.entry i) = e := by
  rcases hp i with h | ⟨h, -⟩
  · rw [← h, hi]
  · exact absurd (hi.symm.trans h) he

theorem text_eq_ok_iff (hp : d.Reached rank p) (hrank : 0 < rank) {value : String} :
    p.text i = .ok value ↔ d.HasText i ∧ value = d.text i := by
  rw [Pool.text_eq_ok]
  unfold HasText Draft.text text?
  constructor
  · rintro ⟨exposed, hi⟩
    obtain ⟨hc, -⟩ := item_eq_text_iff.mp (hp.item_eq hi (by simp))
    simp [hc]
  · rintro ⟨hsome, rfl⟩
    cases hc : d.entry i with
    | text value =>
      refine ⟨false, ?_⟩
      rw [hp.entry_eq (by rw [hc]; exact hrank), hc]
      rfl
    | _ => simp [hc] at hsome

theorem cls_iff (hp : d.Reached rank p) (hrank : 1 < rank) {x : ClassEntry T} :
    p.entry i = .cls x ↔ ∃ name renamed bound, d.entry i = .cls name renamed bound ∧
      x = ⟨renamed.getD (dotted (d.text name)), false, ⟨bound⟩⟩ := by
  rw [← item_eq_cls_iff (F := F) (M := M)]
  constructor
  · intro hi
    exact hp.item_eq hi (by simp)
  · intro hi
    obtain ⟨name, renamed, bound, hc, -⟩ := item_eq_cls_iff.mp hi
    rw [hp.entry_eq (by rw [hc]; exact hrank), hi]

theorem nameAndType_iff (hp : d.Reached rank p) (hrank : 1 < rank) {name descriptor : Index} :
    p.entry i = .nameAndType name descriptor ↔ d.entry i = .nameAndType name descriptor := by
  rw [← item_eq_nameAndType_iff (F := F) (M := M) (d := d)]
  constructor
  · intro hi
    exact hp.item_eq hi (by simp)
  · intro hi
    have hc := item_eq_nameAndType_iff.mp hi
    rw [hp.entry_eq (by rw [hc]; exact hrank), hi]

theorem member?_iff (hp : d.Reached rank p) (hrank : 2 < rank) {kind : MemberKind} {m : MemberRef} :
    (p.entry i).member? = some (kind, m) ↔ ∃ cls nameAndType, d.entry i = .member kind cls nameAndType ∧
      m = ⟨cls, d.className cls, d.memberName nameAndType, dotted (d.memberDescriptor nameAndType)⟩ := by
  rw [← member?_item_eq_some_iff (F := F) (M := M)]
  constructor
  · intro hi
    rw [hp.item_eq rfl]
    · exact hi
    · intro hvacant
      rw [hvacant] at hi
      cases hi
  · intro hi
    obtain ⟨cls, nameAndType, hc, -⟩ := member?_item_eq_some_iff.mp hi
    rw [hp.entry_eq (by rw [hc]; exact hrank), hi]

end Draft.Reached

/-! ## One constant in its round -/

theorem Entry.isConstant_of_member? {e : Entry T F M} {m : MemberKind × MemberRef} (h : e.member? = some m) :
    e.isConstant = true := by
  cases e with
  | field _ _ => rfl
  | method _ => rfl
  | interfaceMethod _ => rfl
  | _ => cases h

namespace Pool

variable {p : Pool T F M} {slot : Nat} {i : Index}

theorem referred_eq_ok_iff {e : Entry T F M} : p.referred slot i = .ok e ↔ p.entry i = e ∧ e.isConstant = true := by
  unfold referred
  simp only
  split
  · rename_i hconstant
    constructor
    · intro h
      cases h
      exact ⟨rfl, hconstant⟩
    · rintro ⟨rfl, -⟩
      rfl
  · rename_i hconstant
    refine iff_of_false (fun h => nomatch h) ?_
    rintro ⟨rfl, h⟩
    exact hconstant h

theorem referredClassName_eq_ok_iff {name : String} :
    p.referredClassName slot i = .ok name ↔ ∃ x, p.entry i = .cls x ∧ x.name = name := by
  simp only [referredClassName, Except.bind_eq_ok, referred_eq_ok_iff]
  constructor
  · rintro ⟨e, ⟨hi, -⟩, h⟩
    cases e with
    | cls x => exact ⟨x, hi, Except.ok.inj h⟩
    | _ => cases h
  · rintro ⟨x, hi, rfl⟩
    exact ⟨.cls x, ⟨hi, rfl⟩, rfl⟩

theorem nameAndTypeText_eq_ok_iff {name descriptor : String} :
    p.nameAndTypeText slot i = .ok (name, descriptor) ↔
      ∃ n t, p.entry i = .nameAndType n t ∧ p.text n = .ok name ∧ p.text t = .ok descriptor := by
  simp only [nameAndTypeText, Except.bind_eq_ok, referred_eq_ok_iff]
  constructor
  · rintro ⟨e, ⟨hi, -⟩, h⟩
    cases e with
    | nameAndType n t =>
      simp only [Except.bind_eq_ok, Except.pure_eq_ok] at h
      obtain ⟨_, hn, _, ht, h⟩ := h
      cases h
      exact ⟨n, t, hi, hn, ht⟩
    | _ => cases h
  · rintro ⟨n, t, hi, hn, ht⟩
    refine ⟨_, ⟨hi, rfl⟩, ?_⟩
    simp only [Except.bind_eq_ok, Except.pure_eq_ok]
    exact ⟨name, hn, descriptor, ht, rfl⟩

theorem checkField_eq_ok_iff {name descriptor : String} :
    checkField rules name descriptor = .ok () ↔ FieldFits rules name descriptor := by
  unfold checkField FieldFits
  by_cases hdescriptor : isValidFieldDescriptor descriptor = true
  · by_cases hname : isValidFieldName name rules.version = true <;> simp [hdescriptor, hname]
  · simp [hdescriptor]

theorem checkMethod_eq_ok_iff {name descriptor : String} :
    checkMethod rules name descriptor = .ok () ↔ MethodFits rules name descriptor := by
  unfold checkMethod MethodFits
  by_cases hdescriptor : isValidMethodDescriptor descriptor = true
  · by_cases hname : isValidMethodName name rules.version = true
    · simp [hdescriptor, hname]
    · by_cases hinit : name = initName
      · rw [hinit] at hname
        by_cases hvoid : endsInVoid descriptor = true <;> simp [hdescriptor, hname, hinit, hvoid]
      · simp [hdescriptor, hname, hinit]
  · simp [hdescriptor]

theorem checkMember_eq_ok_iff {kind : MemberKind} {name descriptor : String} :
    checkMember rules kind name descriptor = .ok () ↔ kind.Fits rules name descriptor := by
  cases kind with
  | field => exact checkField_eq_ok_iff
  | method => exact checkMethod_eq_ok_iff
  | interfaceMethod => exact checkMethod_eq_ok_iff

variable {d : Draft T} {rank : Nat}

theorem nameAndTypeText_eq_ok_iff_of_reached (hp : d.Reached rank p) (hrank : 1 < rank) {name descriptor : String} :
    p.nameAndTypeText slot i = .ok (name, descriptor) ↔
      d.IsNameAndType i ∧ name = d.memberName i ∧ descriptor = d.memberDescriptor i := by
  rw [nameAndTypeText_eq_ok_iff]
  simp only [hp.nameAndType_iff hrank, hp.text_eq_ok_iff (Nat.zero_lt_of_lt hrank), Draft.IsNameAndType]
  constructor
  · rintro ⟨n, t, hi, ⟨hn, rfl⟩, ht, rfl⟩
    refine ⟨⟨n, t, hi, hn, ht⟩, ?_, ?_⟩
    · simp only [Draft.memberName, hi]
    · simp only [Draft.memberDescriptor, hi]
  · rintro ⟨⟨n, t, hi, hn, ht⟩, rfl, rfl⟩
    refine ⟨n, t, hi, ⟨hn, ?_⟩, ht, ?_⟩
    · simp only [Draft.memberName, hi]
    · simp only [Draft.memberDescriptor, hi]

theorem resolveClass_eq_ok_iff (hp : d.Reached rank p) (hrank : 0 < rank) {name : Index} {bound : Option T}
    {e : Entry T F M} :
    p.resolveClass rules name bound = .ok e ↔
      d.Fits rules (.cls name none bound) ∧ e = d.item (.cls name none bound) := by
  simp only [resolveClass, Except.bind_eq_ok, hp.text_eq_ok_iff hrank]
  constructor
  · rintro ⟨_, ⟨hname, rfl⟩, h⟩
    split at h
    · rename_i hvalid
      cases h
      exact ⟨⟨hname, hvalid⟩, rfl⟩
    · cases h
  · rintro ⟨⟨hname, hvalid⟩, rfl⟩
    refine ⟨_, ⟨hname, rfl⟩, ?_⟩
    rw [if_pos hvalid]
    rfl

theorem resolveMember_eq_ok_iff (hp : d.Reached rank p) (hrank : 1 < rank) {kind : MemberKind}
    {cls nameAndType : Index} {e : Entry T F M} :
    p.resolveMember rules slot kind cls nameAndType = .ok e ↔
      d.Fits rules (.member kind cls nameAndType) ∧ e = d.item (.member kind cls nameAndType) := by
  simp only [resolveMember, Except.bind_eq_ok, Except.pure_eq_ok, referredClassName_eq_ok_iff, hp.cls_iff hrank]
  constructor
  · rintro ⟨_, ⟨x, ⟨name, renamed, bound, hcls, rfl⟩, rfl⟩, ⟨n, t⟩, htext, _, hcheck, rfl⟩
    obtain ⟨hnameAndType, rfl, rfl⟩ := (nameAndTypeText_eq_ok_iff_of_reached hp hrank).mp htext
    refine ⟨⟨⟨name, renamed, bound, hcls⟩, hnameAndType, checkMember_eq_ok_iff.mp hcheck⟩, ?_⟩
    simp only [Draft.item, Draft.className, hcls]
  · rintro ⟨⟨⟨name, renamed, bound, hcls⟩, hnameAndType, hfits⟩, rfl⟩
    refine ⟨_, ⟨_, ⟨name, renamed, bound, hcls, rfl⟩, rfl⟩, (_, _),
      (nameAndTypeText_eq_ok_iff_of_reached hp hrank).mpr ⟨hnameAndType, rfl, rfl⟩, (),
      checkMember_eq_ok_iff.mpr hfits, ?_⟩
    simp only [Draft.item, Draft.className, hcls]

theorem resolveHandle_eq_ok_iff (hp : d.Reached rank p) (hrank : 2 < rank) {byte : UInt8} {e : Entry T F M} :
    p.resolveHandle rules slot byte i = .ok e ↔
      d.Fits rules (.methodHandle byte i) ∧ e = d.item (.methodHandle byte i) := by
  unfold resolveHandle
  constructor
  · intro h
    split at h
    · cases h
    rename_i kind hkind
    simp only [Except.bind_eq_ok, referred_eq_ok_iff] at h
    obtain ⟨e', ⟨rfl, -⟩, h⟩ := h
    split at h
    · cases h
    rename_i memberKind m hm
    simp only [Except.ite_throw_eq_ok, Except.pure_eq_ok, Bool.not_eq_true', Bool.not_eq_false] at h
    obtain ⟨haccepts, hname, rfl⟩ := h
    obtain ⟨cls, nameAndType, hi, rfl⟩ := (hp.member?_iff hrank).mp hm
    exact ⟨⟨kind, memberKind, cls, nameAndType, hkind, hi, haccepts, hname⟩, by simp only [Draft.item, hkind]⟩
  · rintro ⟨⟨kind, memberKind, cls, nameAndType, hkind, hi, haccepts, hname⟩, rfl⟩
    have hm := (hp.member?_iff hrank).mpr ⟨cls, nameAndType, hi, rfl⟩
    have hreferred : p.referred slot i = .ok (p.entry i) :=
      referred_eq_ok_iff.mpr ⟨rfl, Entry.isConstant_of_member? hm⟩
    simp only [hkind, hreferred, Draft.item]
    rw [Except.bind_eq_ok]
    refine ⟨_, rfl, ?_⟩
    simp only [hm, Except.ite_throw_eq_ok, Except.pure_eq_ok, haccepts, hname]
    simp

/-- What a constant looks at is in place in its round, so it resolves exactly if it fits. -/
theorem resolveEntry_eq_ok_iff {c : DraftEntry T} {e : Entry T F M} (hp : d.Reached c.rank p) :
    p.resolveEntry rules slot c = .ok e ↔ d.Fits rules c ∧ e = d.item c := by
  have one : 0 < 1 := by omega
  cases c with
  | vacant => simp [resolveEntry, Draft.Fits, Draft.item, eq_comm]
  | text value => simp [resolveEntry, Draft.Fits, Draft.item, eq_comm]
  | literal value => simp [resolveEntry, Draft.Fits, Draft.item, eq_comm]
  | live value => simp [resolveEntry, Draft.Fits, Draft.item, eq_comm]
  | cls name renamed bound =>
    cases renamed with
    | some renamed => simp [resolveEntry, Draft.Fits, Draft.item, eq_comm]
    | none => exact resolveClass_eq_ok_iff hp one
  | string text =>
    simp only [resolveEntry, Except.bind_eq_ok, Except.pure_eq_ok, hp.text_eq_ok_iff one]
    constructor
    · rintro ⟨_, ⟨htext, rfl⟩, rfl⟩
      exact ⟨htext, rfl⟩
    · rintro ⟨htext, rfl⟩
      exact ⟨_, ⟨htext, rfl⟩, rfl⟩
  | nameAndType name descriptor =>
    simp only [resolveEntry, Except.bind_eq_ok, Except.pure_eq_ok, hp.text_eq_ok_iff one]
    constructor
    · rintro ⟨_, ⟨hname, -⟩, _, ⟨hdescriptor, -⟩, rfl⟩
      exact ⟨⟨hname, hdescriptor⟩, rfl⟩
    · rintro ⟨⟨hname, hdescriptor⟩, rfl⟩
      exact ⟨_, ⟨hname, rfl⟩, _, ⟨hdescriptor, rfl⟩, rfl⟩
  | member kind cls nameAndType => exact resolveMember_eq_ok_iff hp (Nat.lt_succ_self 1)
  | methodHandle byte reference => exact resolveHandle_eq_ok_iff hp (Nat.lt_succ_self 2)
  | methodType descriptor =>
    simp only [resolveEntry, Except.bind_eq_ok, hp.text_eq_ok_iff one]
    constructor
    · rintro ⟨_, ⟨htext, rfl⟩, h⟩
      split at h
      · rename_i hvalid
        cases h
        exact ⟨⟨htext, hvalid⟩, rfl⟩
      · cases h
    · rintro ⟨⟨htext, hvalid⟩, rfl⟩
      refine ⟨_, ⟨htext, rfl⟩, ?_⟩
      rw [if_pos hvalid]
      rfl
  | invokeDynamic bootstrap nameAndType =>
    simp only [resolveEntry, Except.bind_eq_ok, Except.pure_eq_ok]
    constructor
    · rintro ⟨⟨n, t⟩, htext, _, hcheck, rfl⟩
      obtain ⟨hnameAndType, rfl, rfl⟩ := (nameAndTypeText_eq_ok_iff_of_reached hp (Nat.lt_succ_self 1)).mp htext
      exact ⟨⟨hnameAndType, checkMethod_eq_ok_iff.mp hcheck⟩, rfl⟩
    · rintro ⟨⟨hnameAndType, hfits⟩, rfl⟩
      exact ⟨(_, _), (nameAndTypeText_eq_ok_iff_of_reached hp (Nat.lt_succ_self 1)).mpr ⟨hnameAndType, rfl, rfl⟩, (),
        checkMethod_eq_ok_iff.mpr hfits, rfl⟩

end Pool

/-! ## The rounds -/

namespace Draft

variable {d : Draft T}

theorem lt_size {k : Nat} {c : DraftEntry T} (hk : d.entries[k]? = some c) : k < d.size :=
  (List.getElem?_eq_some_iff.mp hk).1

/-- The pool when the round of a rank has come to a slot: what is of lower rank is resolved, and what is
    of this rank and in an earlier slot. -/
def filled (d : Draft T) (rank slot : Nat) : Pool T F M :=
  ⟨(d.entries.zipIdx.map fun (c, k) =>
    if c.rank < rank ∨ c.rank = rank ∧ k < slot then d.item c else .vacant).toArray⟩

theorem getElem?_filled (rank slot k : Nat) :
    (d.filled rank slot : Pool T F M).entries[k]? = d.entries[k]?.map fun c =>
      if c.rank < rank ∨ c.rank = rank ∧ k < slot then d.item c else .vacant := by
  simp [filled, List.getElem?_zipIdx, Function.comp_def]

theorem reached_filled (rank slot : Nat) : d.Reached rank (d.filled rank slot : Pool T F M) := by
  intro i
  unfold Pool.entry entry
  rw [getElem?_filled]
  cases d.entries[i.toNat]? with
  | none => exact .inl rfl
  | some c =>
    simp only [Option.map_some, Option.getD_some]
    split
    · exact .inl rfl
    · exact .inr ⟨rfl, by omega⟩

/-- Only the slot that the round has come to matters for the next one. -/
theorem filled_congr {rank slot rank' slot' : Nat}
    (h : ∀ k c, d.entries[k]? = some c →
      (c.rank < rank ∨ c.rank = rank ∧ k < slot ↔ c.rank < rank' ∨ c.rank = rank' ∧ k < slot')) :
    (d.filled rank slot : Pool T F M) = d.filled rank' slot' := by
  have hentries : (d.filled rank slot : Pool T F M).entries = (d.filled rank' slot').entries := by
    apply Array.ext_getElem?
    intro k
    rw [getElem?_filled, getElem?_filled]
    cases hk : d.entries[k]? with
    | none => rfl
    | some c => simp only [Option.map_some, h k c hk]
  exact congrArg Pool.mk hentries

/-- A round is over when it has come to the end, and the next one may start. -/
theorem filled_size (rank : Nat) : (d.filled rank d.size : Pool T F M) = d.filled (rank + 1) 0 := by
  apply filled_congr
  intro k c hk
  have := lt_size hk
  omega

/-- A slot of another round is passed over. -/
theorem filled_skip {rank slot : Nat} {c : DraftEntry T} (hc : d.entries[slot]? = some c) (hrank : c.rank ≠ rank) :
    (d.filled rank slot : Pool T F M) = d.filled rank (slot + 1) := by
  apply filled_congr
  intro k c' hk
  by_cases hslot : k = slot
  · subst hslot
    cases hc.symm.trans hk
    omega
  · omega

/-- A slot of the round takes its item. -/
theorem filled_set {rank slot : Nat} {c : DraftEntry T} (hc : d.entries[slot]? = some c) (hrank : c.rank = rank) :
    (⟨(d.filled rank slot : Pool T F M).entries.setIfInBounds slot (d.item c)⟩ : Pool T F M) =
      d.filled rank (slot + 1) := by
  have hentries : (d.filled rank slot : Pool T F M).entries.setIfInBounds slot (d.item c) =
      (d.filled rank (slot + 1)).entries := by
    apply Array.ext_getElem?
    intro k
    rw [Array.getElem?_setIfInBounds, getElem?_filled, getElem?_filled]
    by_cases hslot : slot = k
    · subst hslot
      have hlt : slot < (d.filled rank slot : Pool T F M).entries.size := by
        simpa [filled, size] using lt_size hc
      simp only [if_true, if_pos hlt, hc, Option.map_some, hrank, Nat.lt_irrefl, false_or, true_and,
        Nat.lt_succ_self]
    · have : k < slot + 1 ↔ k < slot := by omega
      simp only [hslot, if_false, this]
  exact congrArg Pool.mk hentries

theorem resolveRound_eq_ok_iff {round : Round} {slot : Nat} {rest : List (DraftEntry T)} {p : Pool T F M}
    (hrest : d.entries.drop slot = rest) :
    (d.filled round.rank slot).resolveRound rules round slot rest = .ok p ↔
      (∀ c ∈ rest, c.round? = some round → d.Fits rules c) ∧ p = d.filled round.rank d.size := by
  induction rest generalizing slot with
  | nil =>
    have hsize : d.size ≤ slot := List.drop_eq_nil_iff.mp hrest
    have hend : (d.filled round.rank slot : Pool T F M) = d.filled round.rank d.size := by
      apply filled_congr
      intro k c hk
      have := lt_size hk
      omega
    simp [Pool.resolveRound, hend, eq_comm]
  | cons c rest ih =>
    have hc : d.entries[slot]? = some c := by
      rw [← List.head?_drop, hrest]
      rfl
    have hrest' : d.entries.drop (slot + 1) = rest := by
      rw [← List.tail_drop, hrest]
      rfl
    unfold Pool.resolveRound
    by_cases hround : c.round? = some round
    · have hrank := DraftEntry.round?_eq_some_iff.mp hround
      have hreached : d.Reached c.rank (d.filled round.rank slot : Pool T F M) := hrank ▸ reached_filled _ _
      have hone (e : Entry T F M) : (d.filled round.rank slot : Pool T F M).resolveEntry rules slot c = .ok e ↔
          d.Fits rules c ∧ e = d.item c := Pool.resolveEntry_eq_ok_iff hreached
      rw [if_pos hround]
      split
      · rename_i e he
        obtain ⟨hfits, rfl⟩ := (hone e).mp he
        rw [filled_set hc hrank, ih hrest']
        simp [hround, hfits]
      · rename_i fault hfault
        have hmisfit : ¬ d.Fits rules c := by
          intro hfits
          rw [(hone _).mpr ⟨hfits, rfl⟩] at hfault
          cases hfault
        simp [hround, hmisfit]
    · have hrank : c.rank ≠ round.rank := fun h => hround (DraftEntry.round?_eq_some_iff.mpr h)
      rw [if_neg hround, filled_skip hc hrank, ih hrest']
      simp [hround]

theorem unresolved_eq_filled (d : Draft T) :
    (⟨(d.entries.map DraftEntry.unresolved).toArray⟩ : Pool T F M) = d.filled 1 0 := by
  have hentries : (d.entries.map DraftEntry.unresolved).toArray = (d.filled 1 0 : Pool T F M).entries := by
    apply Array.ext_getElem?
    intro k
    rw [Resolving.getElem?_unresolved, getElem?_filled]
    congr 1
    funext c
    cases c <;> rfl
  exact congrArg Pool.mk hentries

theorem filled_four (d : Draft T) : (d.filled 4 0 : Pool T F M) = d.resolved := by
  have hentries : (d.filled 4 0 : Pool T F M).entries = d.resolved.entries := by
    apply Array.ext_getElem?
    intro k
    rw [getElem?_filled, resolved, List.getElem?_toArray, List.getElem?_map]
    congr 1
    funext c
    cases c <;> rfl
  exact congrArg Pool.mk hentries

theorem reached_resolved (d : Draft T) : d.Reached 4 (d.resolved : Pool T F M) :=
  filled_four (F := F) (M := M) d ▸ reached_filled 4 0

/-- A draft resolves exactly if each of its constants is as it should be, and then each slot has its item. -/
theorem resolve_eq_ok_iff {p : Pool T F M} :
    d.resolve F M rules = .ok p ↔ (∀ c ∈ d.entries, d.Fits rules c) ∧ p = d.resolved := by
  have hround (round : Round) (p : Pool T F M) :
      (d.filled round.rank 0).resolveRound rules round 0 d.entries = .ok p ↔
        (∀ c ∈ d.entries, c.round? = some round → d.Fits rules c) ∧ p = d.filled round.rank d.size :=
    resolveRound_eq_ok_iff rfl
  simp only [filled_size, Round.rank] at hround
  simp only [resolve, Except.bind_eq_ok, unresolved_eq_filled]
  constructor
  · rintro ⟨p₁, h₁, p₂, h₂, h₃⟩
    obtain ⟨hfits₁, rfl⟩ := (hround .texts p₁).mp h₁
    obtain ⟨hfits₂, rfl⟩ := (hround .members p₂).mp h₂
    obtain ⟨hfits₃, rfl⟩ := (hround .handles p).mp h₃
    refine ⟨?_, filled_four d⟩
    intro c hc
    cases hcase : c.round? with
    | none =>
      cases c with
      | vacant => trivial
      | text value => trivial
      | _ => cases hcase
    | some round =>
      cases round with
      | texts => exact hfits₁ c hc hcase
      | members => exact hfits₂ c hc hcase
      | handles => exact hfits₃ c hc hcase
  · rintro ⟨hfits, rfl⟩
    have hall (round : Round) : ∀ c ∈ d.entries, c.round? = some round → d.Fits rules c :=
      fun c hc _ => hfits c hc
    exact ⟨_, (hround .texts _).mpr ⟨hall .texts, rfl⟩, _, (hround .members _).mpr ⟨hall .members, rfl⟩,
      (hround .handles _).mpr ⟨hall .handles, (filled_four d).symm⟩⟩

theorem resolve_of_isSome (h : (d.resolve F M rules).toOption.isSome = true) :
    d.resolve F M rules = .ok d.resolved := by
  cases hresolve : d.resolve F M rules with
  | error fault =>
    rw [hresolve] at h
    cases h
  | ok p => rw [(resolve_eq_ok_iff.mp hresolve).2]

end Draft

end JvmClass
