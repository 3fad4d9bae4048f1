/-
  JvmClass.Proofs.Pool.Sound — pools whose constants can be relied on.

  What a constant is made of never changes; what linking finds out about it does (`Entry.frozen`).
  Whether a constant is sound is a matter of the first only, its own and that of the constants it
  refers to, so it holds in any pool that keeps those (`Entry.Sound.transfer`).
-/

import JvmClass.Pool.Resolve

namespace JvmClass

variable {T F M : Type} {rules : Rules} {p q : Pool T F M}

/-! ## What never changes -/

/-- The entry with nothing exposed, required or bound. -/
def Entry.frozen : Entry T F M → Entry T F M
  | .text value _ => .text value false
  | .cls item => .cls ⟨item.name, false, .empty⟩
  | .field member _ => .field member .empty
  | .method item => .method ⟨item.member, .empty, .empty⟩
  | .interfaceMethod item => .interfaceMethod ⟨item.member, .empty, .empty⟩
  | .methodType descriptor _ => .methodType descriptor .empty
  | .invokeDynamic bootstrap name descriptor _ => .invokeDynamic bootstrap name descriptor .empty
  | e => e

def Pool.frozen (p : Pool T F M) : Pool T F M := ⟨p.entries.map Entry.frozen⟩

/-- The text of the slot, whether programs may address it or not. -/
def Entry.text? : Entry T F M → Option String
  | .text value _ => some value
  | _ => none

/-- Where the first pool has a constant, the second has the same one. -/
def Pool.Keeps (p q : Pool T F M) : Prop := ∀ i, p.entry i ≠ .vacant → (q.entry i).frozen = (p.entry i).frozen

/-- The name-and-type constant has this name and, dotted, this descriptor. -/
def Pool.Describes (p : Pool T F M) (i : Index) (name descriptor : String) : Prop :=
  ∃ n d raw, p.entry i = .nameAndType n d ∧ p.text n = .ok name ∧ p.text d = .ok raw ∧ descriptor = dotted raw

namespace Entry

@[simp] theorem member?_frozen (e : Entry T F M) : e.frozen.member? = e.member? := by cases e <;> rfl

@[simp] theorem text?_frozen (e : Entry T F M) : e.frozen.text? = e.text? := by cases e <;> rfl

theorem eq_cls_of_frozen {e : Entry T F M} {item : ClassEntry T} (h : e.frozen = (Entry.cls item).frozen) :
    ∃ item', e = .cls item' ∧ item'.name = item.name := by
  cases e with
  | cls item' =>
    injection h with h
    injection h with hname
    exact ⟨item', rfl, hname⟩
  | _ => cases h

theorem eq_text_of_frozen {e : Entry T F M} {value : String} {exposed : Bool}
    (h : e.frozen = (Entry.text value exposed).frozen) : ∃ exposed', e = .text value exposed' := by
  cases e with
  | text value' exposed' =>
    injection h with h
    exact ⟨exposed', by rw [h]⟩
  | _ => cases h

theorem eq_nameAndType_of_frozen {e : Entry T F M} {name descriptor : Index}
    (h : e.frozen = (Entry.nameAndType name descriptor).frozen) : e = .nameAndType name descriptor := by
  cases e with
  | nameAndType name' descriptor' => exact h
  | _ => cases h

theorem eq_vacant_of_frozen {e : Entry T F M} (h : e.frozen = .vacant) : e = .vacant := by
  cases e with
  | vacant => rfl
  | _ => cases h

end Entry

namespace Pool

theorem className_eq_ok {i : Index} {name : String} :
    p.className i = .ok name ↔ ∃ item, p.entry i = .cls item ∧ item.name = name := by
  unfold className class?
  cases p.entry i with
  | cls item =>
    constructor
    · intro h
      cases h
      exact ⟨item, rfl, rfl⟩
    · intro ⟨_, h, hname⟩
      cases h
      exact congrArg Except.ok hname
  | _ => exact iff_of_false (fun h => nomatch h) fun ⟨_, h, _⟩ => nomatch h

theorem text_eq_ok {i : Index} {value : String} :
    p.text i = .ok value ↔ ∃ exposed, p.entry i = .text value exposed := by
  unfold text text?
  cases p.entry i with
  | text value' exposed =>
    constructor
    · intro h
      cases h
      exact ⟨exposed, rfl⟩
    · intro ⟨_, h⟩
      cases h
      rfl
  | _ => exact iff_of_false (fun h => nomatch h) fun ⟨_, h⟩ => nomatch h

theorem Keeps.trans {r : Pool T F M} (hk : Keeps p q) (hk' : Keeps q r) : Keeps p r := by
  intro i hi
  have hfrozen := hk i hi
  have hq : q.entry i ≠ .vacant := by
    intro hq
    rw [hq] at hfrozen
    exact hi (Entry.eq_vacant_of_frozen hfrozen.symm)
  exact (hk' i hq).trans hfrozen

theorem Keeps.className (hk : Keeps p q) {i : Index} {name : String} (h : p.className i = .ok name) :
    q.className i = .ok name := by
  obtain ⟨item, hi, hname⟩ := className_eq_ok.mp h
  have hfrozen := hk i (by rw [hi]; exact fun h => nomatch h)
  rw [hi] at hfrozen
  obtain ⟨item', hi', hname'⟩ := Entry.eq_cls_of_frozen hfrozen
  exact className_eq_ok.mpr ⟨item', hi', hname'.trans hname⟩

theorem Keeps.text (hk : Keeps p q) {i : Index} {value : String} (h : p.text i = .ok value) : q.text i = .ok value := by
  obtain ⟨exposed, hi⟩ := text_eq_ok.mp h
  have hfrozen := hk i (by rw [hi]; exact fun h => nomatch h)
  rw [hi] at hfrozen
  exact text_eq_ok.mpr (Entry.eq_text_of_frozen hfrozen)

theorem Keeps.describes (hk : Keeps p q) {i : Index} {name descriptor : String} (h : p.Describes i name descriptor) :
    q.Describes i name descriptor := by
  obtain ⟨n, d, raw, hi, hn, hd, hraw⟩ := h
  have hfrozen := hk i (by rw [hi]; exact fun h => nomatch h)
  rw [hi] at hfrozen
  exact ⟨n, d, raw, Entry.eq_nameAndType_of_frozen hfrozen, hk.text hn, hk.text hd, hraw⟩

theorem Keeps.member? (hk : Keeps p q) {i : Index} {member : MemberKind × MemberRef}
    (h : (p.entry i).member? = some member) : (q.entry i).member? = some member := by
  have hfrozen := hk i (by intro hi; rw [hi] at h; cases h)
  rw [← Entry.member?_frozen, hfrozen, Entry.member?_frozen, h]

end Pool

/-! ## Soundness -/

/-- Name and descriptor of a field. -/
def FieldSound (rules : Rules) (name descriptor : String) : Prop :=
  isValidFieldDescriptor descriptor = true ∧ '/' ∉ descriptor.toList ∧ isValidFieldName name rules.version = true

/-- Name and descriptor of a method; a constructor returns nothing. -/
def MethodSound (rules : Rules) (name descriptor : String) : Prop :=
  isValidMethodDescriptor descriptor = true ∧ '/' ∉ descriptor.toList ∧
    (isValidMethodName name rules.version = true ∨
      name = initName ∧ ∃ parameters, descriptor.toList = parameters ++ [')', 'V'])

/-- The handles that there may be: four kinds on fields of any name, one on constructors, and others on methods
    whose names do not begin like those of initializers. On methods of interfaces there is one kind, from
    version 52 on three. -/
theorem HandleKind.accepts_iff {version : Version} {kind : HandleKind} {memberKind : MemberKind} {name : String} :
    kind.accepts version memberKind = true ∧ kind.acceptsName name = true ↔
      (memberKind = .field ∧ kind ∈ [.getField, .getStatic, .putField, .putStatic]) ∨
      (memberKind = .method ∧ kind = .newInvokeSpecial ∧ name = "<init>") ∨
      (name.toList.head? ≠ some '<' ∧
        ((memberKind = .method ∧ kind ∈ [.invokeVirtual, .invokeStatic, .invokeSpecial]) ∨
          (memberKind = .interfaceMethod ∧
            (kind = .invokeInterface ∨ 52 ≤ version.major ∧ kind ∈ [.invokeStatic, .invokeSpecial])))) := by
  cases kind <;> cases memberKind <;>
    simp [accepts, acceptsName, isField, initName, Version.hasJava8Features, and_comm]

/-- What the entry refers to is there, and its names and descriptors are as the rules ask. -/
def Entry.Sound (rules : Rules) (p : Pool T F M) : Entry T F M → Prop
  | .field m _ => p.className m.cls = .ok m.className ∧ FieldSound rules m.name m.descriptor
  | .method ⟨m, _, _⟩ => p.className m.cls = .ok m.className ∧ MethodSound rules m.name m.descriptor
  | .interfaceMethod ⟨m, _, _⟩ => p.className m.cls = .ok m.className ∧ MethodSound rules m.name m.descriptor
  | .methodHandle kind reference => ∃ memberKind m, (p.entry reference).member? = some (memberKind, m) ∧
      kind.accepts rules.version memberKind = true ∧ kind.acceptsName m.name = true
  | .nameAndType name descriptor => (∃ s, p.text name = .ok s) ∧ ∃ s, p.text descriptor = .ok s
  | .methodType descriptor _ => isValidMethodDescriptor descriptor = true ∧ '/' ∉ descriptor.toList
  | .invokeDynamic _ name descriptor _ => MethodSound rules name descriptor
  | .vacant | .text .. | .cls _ | .literal _ | .string _ | .live _ => True

/-- What a constant of a draft comes to: texts take the place of their slots. -/
inductive DraftEntry.Becomes (p : Pool T F M) : DraftEntry T → Entry T F M → Prop
  | vacant : Becomes p .vacant .vacant
  | text (value : String) : Becomes p (.text value) (.text value false)
  | cls {name : Index} {s : String} (bound : Option T) : p.text name = .ok s →
      Becomes p (.cls name none bound) (.cls ⟨dotted s, false, .empty⟩)
  | renamed (name : Index) (renamed : String) (bound : Option T) :
      Becomes p (.cls name (some renamed) bound) (.cls ⟨renamed, false, .empty⟩)
  | literal (value : Literal) : Becomes p (.literal value) (.literal value)
  | string {text : Index} {s : String} : p.text text = .ok s → Becomes p (.string text) (.string s)
  | live (value : LiveObject) : Becomes p (.live value) (.live value)
  | nameAndType (name descriptor : Index) : Becomes p (.nameAndType name descriptor) (.nameAndType name descriptor)
  | member {nameAndType : Index} (m : MemberRef) (kind : MemberKind) : p.Describes nameAndType m.name m.descriptor →
      Becomes p (.member kind m.cls nameAndType) (Pool.ofMember m kind)
  | methodHandle {byte : UInt8} {kind : HandleKind} (reference : Index) : HandleKind.ofByte? byte = some kind →
      Becomes p (.methodHandle byte reference) (.methodHandle kind reference)
  | methodType {descriptor : Index} {s : String} : p.text descriptor = .ok s →
      Becomes p (.methodType descriptor) (.methodType (dotted s) .empty)
  | invokeDynamic {nameAndType : Index} {name descriptor : String} (bootstrap : Index) :
      p.Describes nameAndType name descriptor →
      Becomes p (.invokeDynamic bootstrap nameAndType) (.invokeDynamic bootstrap name descriptor .empty)

/-- A pool made from a draft: each constant is what that of the draft comes to, so that a text has its
    slot for itself, and each is sound. -/
structure Pool.Sound (rules : Rules) (d : Draft T) (p : Pool T F M) : Prop where
  size : p.size = d.size
  vacant : p.entry 0 = .vacant
  entries : ∀ (slot : Nat) (e : Entry T F M), p.entries[slot]? = some e → e.Sound rules p
  constants : ∀ (slot : Nat) (c : DraftEntry T), d.entries[slot]? = some c →
    ∃ e, p.entries[slot]? = some e ∧ c.Becomes p e.frozen

namespace Entry

theorem sound_frozen {e : Entry T F M} : e.frozen.Sound rules p ↔ e.Sound rules p := by
  cases e <;> exact Iff.rfl

theorem Sound.keeps (hk : Pool.Keeps p q) {e : Entry T F M} (h : e.Sound rules p) : e.Sound rules q := by
  cases e with
  | field m _ => exact ⟨hk.className h.1, h.2⟩
  | method item => exact ⟨hk.className h.1, h.2⟩
  | interfaceMethod item => exact ⟨hk.className h.1, h.2⟩
  | methodHandle kind reference =>
    obtain ⟨memberKind, m, hm, hkind⟩ := h
    exact ⟨memberKind, m, hk.member? hm, hkind⟩
  | nameAndType name descriptor =>
    obtain ⟨⟨s, hs⟩, t, ht⟩ := h
    exact ⟨⟨s, hk.text hs⟩, t, hk.text ht⟩
  | _ => exact h

/-- Only what never changes matters to soundness. -/
theorem Sound.transfer (hk : Pool.Keeps p q) {e e' : Entry T F M} (he : e'.frozen = e.frozen) (h : e.Sound rules p) :
    e'.Sound rules q := by
  rw [← sound_frozen, he, sound_frozen]
  exact h.keeps hk

end Entry

theorem DraftEntry.Becomes.eq_vacant {e : Entry T F M} (h : (DraftEntry.vacant : DraftEntry T).Becomes p e) :
    e = .vacant := by
  cases h
  rfl

theorem DraftEntry.Becomes.keeps (hk : Pool.Keeps p q) {c : DraftEntry T} {e : Entry T F M} (h : c.Becomes p e) :
    c.Becomes q e := by
  cases h with
  | vacant => exact .vacant
  | text value => exact .text value
  | cls bound hs => exact .cls bound (hk.text hs)
  | renamed name renamed bound => exact .renamed name renamed bound
  | literal value => exact .literal value
  | string hs => exact .string (hk.text hs)
  | live value => exact .live value
  | nameAndType name descriptor => exact .nameAndType name descriptor
  | member m kind h => exact .member m kind (hk.describes h)
  | methodHandle reference hkind => exact .methodHandle reference hkind
  | methodType hs => exact .methodType (hk.text hs)
  | invokeDynamic bootstrap h => exact .invokeDynamic bootstrap (hk.describes h)

namespace Pool

theorem frozen_entry (p : Pool T F M) (i : Index) : p.frozen.entry i = (p.entry i).frozen := by
  unfold frozen entry
  rw [Array.getElem?_map]
  cases p.entries[i.toNat]? <;> rfl

theorem entry_of_frozen (h : q.frozen = p.frozen) (i : Index) : (q.entry i).frozen = (p.entry i).frozen := by
  rw [← frozen_entry, h, frozen_entry]

/-- What can be told of an entry with nothing exposed, required or bound is the same in both pools. -/
theorem congr_of_frozen {α : Type} (f : Entry T F M → α) (hf : ∀ e, f e.frozen = f e) (h : q.frozen = p.frozen)
    (i : Index) : f (q.entry i) = f (p.entry i) := by
  rw [← hf, entry_of_frozen h, hf]

theorem text?_of_frozen (h : q.frozen = p.frozen) (i : Index) : q.text? i = p.text? i :=
  congr_of_frozen Entry.text? Entry.text?_frozen h i

theorem keeps_of_frozen (h : q.frozen = p.frozen) : Keeps p q := fun i _ => entry_of_frozen h i

theorem vacant_of_frozen (h : q.frozen = p.frozen) {i : Index} (hi : p.entry i = .vacant) : q.entry i = .vacant := by
  apply Entry.eq_vacant_of_frozen
  rw [entry_of_frozen h, hi]
  rfl

theorem getElem?_of_frozen (h : q.frozen = p.frozen) {slot : Nat} {e : Entry T F M} (he : q.entries[slot]? = some e) :
    ∃ e', p.entries[slot]? = some e' ∧ e.frozen = e'.frozen := by
  have hslot : q.frozen.entries[slot]? = p.frozen.entries[slot]? := by rw [h]
  simp only [frozen, Array.getElem?_map, he, Option.map_some] at hslot
  obtain ⟨e', he', hfrozen⟩ := Option.map_eq_some_iff.mp hslot.symm
  exact ⟨e', he', hfrozen.symm⟩

theorem size_of_frozen (h : q.frozen = p.frozen) : q.size = p.size := by
  have hsize : q.frozen.entries.size = p.frozen.entries.size := by rw [h]
  simp only [frozen, Array.size_map] at hsize
  exact hsize

/-- A pool that differs in nothing that never changes is as sound. -/
theorem Sound.of_frozen {d : Draft T} (hp : Sound rules d p) (h : q.frozen = p.frozen) : Sound rules d q where
  size := (size_of_frozen h).trans hp.size
  entries := by
    intro slot e he
    obtain ⟨e', he', hfrozen⟩ := getElem?_of_frozen h he
    exact (hp.entries slot e' he').transfer (keeps_of_frozen h) hfrozen
  vacant := vacant_of_frozen h hp.vacant
  constants := by
    intro slot c hc
    obtain ⟨e, he, hbecomes⟩ := hp.constants slot c hc
    obtain ⟨e', he', hfrozen⟩ := getElem?_of_frozen h.symm he
    refine ⟨e', he', ?_⟩
    rw [← hfrozen]
    exact hbecomes.keeps (keeps_of_frozen h)

end Pool

end JvmClass
