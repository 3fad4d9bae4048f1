/-
  JvmClass.Proofs.Pool.Growth — what is known of a constant stays known.

  Whatever is done to a resolved pool, a constant keeps what it is made of, the types, signatures
  and bindings that it has, and its mark (`Entry.Grows`). Each kind of change has that effect on an
  entry, so each step has it on the pool (`Upkeep.grows_apply`), and so has any run of steps
  (`Upkeep.grows_foldl`).
-/

import JvmClass.Proofs.Pool.Preparation

namespace JvmClass

variable {T F M : Type}

/-! ## Entries -/

namespace Entry

def fieldBinding? : Entry T F M → Option (FieldBinding T F)
  | .field _ binding => binding.value?
  | _ => none

/-- What a method or a call site is bound to by its descriptor alone. -/
def signature? : Entry T F M → Option (Signature T)
  | .method item => item.signature.value?
  | .interfaceMethod item => item.signature.value?
  | .methodType _ signature => signature.value?
  | .invokeDynamic _ _ _ signature => signature.value?
  | _ => none

def methodBinding? : Entry T F M → Option (MethodBinding M)
  | .method item => item.binding.value?
  | .interfaceMethod item => item.binding.value?
  | _ => none

/-- The second entry is the first one with more known of it, and no less. -/
structure Grows (e e' : Entry T F M) : Prop where
  frozen : e'.frozen = e.frozen
  required : e.isRequired = true → e'.isRequired = true
  type : ∀ t, e.type? = some t → e'.type? = some t
  fieldBinding : ∀ b, e.fieldBinding? = some b → e'.fieldBinding? = some b
  signature : ∀ s, e.signature? = some s → e'.signature? = some s
  methodBinding : ∀ b, e.methodBinding? = some b → e'.methodBinding? = some b

namespace Grows

theorem refl (e : Entry T F M) : e.Grows e :=
  ⟨rfl, id, fun _ => id, fun _ => id, fun _ => id, fun _ => id⟩

theorem trans {e e' e'' : Entry T F M} (h : e.Grows e') (h' : e'.Grows e'') : e.Grows e'' where
  frozen := h'.frozen.trans h.frozen
  required := h'.required ∘ h.required
  type t := h'.type t ∘ h.type t
  fieldBinding b := h'.fieldBinding b ∘ h.fieldBinding b
  signature s := h'.signature s ∘ h.signature s
  methodBinding b := h'.methodBinding b ∘ h.methodBinding b

theorem expose (e : Entry T F M) : e.Grows e.expose := by
  cases e <;> exact ⟨rfl, id, fun _ => id, fun _ => id, fun _ => id, fun _ => id⟩

theorem requireLink (e : Entry T F M) : e.Grows e.requireLink := by
  cases e with
  | cls item => exact ⟨rfl, fun _ => rfl, fun _ => id, fun _ => id, fun _ => id, fun _ => id⟩
  | _ => exact refl _

theorem bindType (e : Entry T F M) (t : T) : e.Grows (e.bindType t) := by
  cases e with
  | cls item =>
    refine ⟨rfl, id, ?_, fun _ => id, fun _ => id, fun _ => id⟩
    intro u hu
    rw [Entry.type?] at hu
    rw [Entry.bindType, Entry.type?, SetOnce.commit_snd, hu, Option.getD_some]
  | _ => exact refl _

end Grows

end Entry

theorem SetOnce.value?_fill_of_eq_some {α : Type} {cell : SetOnce α} {a : α} {candidate : Unit → α}
    (h : cell.value? = some a) : (cell.fill candidate).value? = some a := by
  rw [fill_of_value?_eq_some h, h]

section Linked

variable (host : Host T F M) (asking : Asking T)

theorem ClassEntry.type_linked (item : ClassEntry T) {t : T} (h : item.type.value? = some t) :
    (item.linked host asking).type.value? = some t := by
  unfold linked
  split
  · exact SetOnce.value?_fill_of_eq_some h
  · exact h

theorem ClassEntry.linkRequired_linked (item : ClassEntry T) :
    (item.linked host asking).linkRequired = item.linkRequired := by
  unfold linked
  split <;> rfl

theorem Linking.signature_linkMethod (item : MethodEntry T M) (holder : T) {s : Signature T}
    (h : item.signature.value? = some s) : (linkMethod host asking item holder).signature.value? = some s := by
  unfold linkMethod
  simp only
  split <;> exact SetOnce.value?_fill_of_eq_some h

theorem Linking.binding_linkMethod (item : MethodEntry T M) (holder : T) {b : MethodBinding M}
    (h : item.binding.value? = some b) : (linkMethod host asking item holder).binding.value? = some b := by
  unfold linkMethod
  simp only
  split
  · exact h
  · exact SetOnce.value?_fill_of_eq_some h

theorem Entry.Grows.linked (type? : Index → Option T) (e : Entry T F M) :
    e.Grows (e.linked host asking type?) := by
  cases e with
  | cls item =>
    refine ⟨?_, ?_, fun t => item.type_linked host asking, fun _ => id, fun _ => id, fun _ => id⟩
    · exact congrArg (fun name => cls ⟨name, false, .empty⟩) item.name_linked
    · exact (item.linkRequired_linked host asking).trans
  | field m binding =>
    rw [Entry.linked]
    split
    · exact ⟨rfl, id, fun _ => id, fun b => SetOnce.value?_fill_of_eq_some, fun _ => id, fun _ => id⟩
    · exact refl _
  | method item =>
    rw [Entry.linked]
    split
    · rename_i holder _
      refine ⟨?_, id, fun _ => id, fun _ => id, ?_, ?_⟩
      · exact congrArg (fun m => method ⟨m, .empty, .empty⟩) (Linking.member_linkMethod item holder)
      · exact fun s => Linking.signature_linkMethod host asking item holder
      · exact fun b => Linking.binding_linkMethod host asking item holder
    · exact refl _
  | interfaceMethod item =>
    rw [Entry.linked]
    split
    · exact ⟨rfl, id, fun _ => id, fun _ => id, fun s => SetOnce.value?_fill_of_eq_some,
        fun b => SetOnce.value?_fill_of_eq_some⟩
    · exact refl _
  | methodType descriptor signature =>
    exact ⟨rfl, id, fun _ => id, fun _ => id, fun s => SetOnce.value?_fill_of_eq_some, fun _ => id⟩
  | invokeDynamic bootstrap name descriptor signature =>
    exact ⟨rfl, id, fun _ => id, fun _ => id, fun s => SetOnce.value?_fill_of_eq_some, fun _ => id⟩
  | _ => exact refl _

end Linked

/-! ## Pools -/

/-- Each slot grows, and there are no others. -/
structure Pool.Grows (p q : Pool T F M) : Prop where
  size : q.size = p.size
  entries : ∀ i, (p.entry i).Grows (q.entry i)

namespace Pool.Grows

variable {p q r : Pool T F M}

theorem refl (p : Pool T F M) : p.Grows p := ⟨rfl, fun i => .refl (p.entry i)⟩

theorem trans (h : p.Grows q) (h' : q.Grows r) : p.Grows r :=
  ⟨h'.size.trans h.size, fun i => (h.entries i).trans (h'.entries i)⟩

theorem bindSelf (p : Pool T F M) (i : Index) (t : T) : p.Grows (p.bindSelf i t) := by
  refine ⟨size_modify i _, ?_⟩
  intro j
  rw [entry_bindSelf]
  split
  · exact .bindType _ t
  · exact .refl _

theorem link (hp : p.Addressable) (host : Host T F M) (thisClass : Index) (asking : Asking T) :
    p.Grows (p.link host thisClass asking).pool := by
  rw [hp.pool_link]
  refine (bindSelf p thisClass asking.type).trans ⟨size_linked, ?_⟩
  intro i
  rw [entry_linked]
  exact .linked host asking _ _

end Pool.Grows

namespace Upkeep

variable {p : Pool T F M}

theorem grows_apply (hp : p.Addressable) (u : Upkeep T F M) : p.Grows (u.apply p) := by
  cases u with
  | exposeTexts =>
    refine ⟨Array.size_map, ?_⟩
    intro i
    rw [apply, Pool.entry_exposeTexts]
    exact .expose _
  | require k =>
    refine ⟨Pool.size_of_frozen (frozen_apply p (.require k)), ?_⟩
    intro i
    rw [apply, Pool.entry_require]
    split
    · exact .requireLink _
    · exact .refl _
  | bindSelf k t => exact .bindSelf p k t
  | link host thisClass asking => exact .link hp host thisClass asking

theorem addressable_foldl (hp : p.Addressable) (us : List (Upkeep T F M)) : (us.foldl apply p).Addressable :=
  hp.of_frozen (frozen_foldl p us)

theorem grows_foldl (hp : p.Addressable) (us : List (Upkeep T F M)) : p.Grows (us.foldl apply p) := by
  induction us generalizing p with
  | nil => exact .refl p
  | cons u us ih =>
    rw [List.foldl_cons]
    exact (grows_apply hp u).trans (ih (hp.of_frozen (frozen_apply p u)))

end Upkeep

end JvmClass
