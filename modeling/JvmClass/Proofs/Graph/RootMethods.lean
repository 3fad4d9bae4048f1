/-
  JvmClass.Proofs.Graph.RootMethods — references to interface methods that the root class declares.

  A method that no interface has may be one of the root of the class hierarchy. It is looked for by name and
  descriptor alone, so what is bound is what the root declares, whatever its flags
  (`MethodBinding.isOfInterface_ofInterface`). As far as what the root declares is public, so is what is
  bound; the root among the standard classes declares nothing else (`has_accPublic_of_standard_root`), but a
  graph can have another root, whose protected method is bound as well (`protected_method_of_root_is_bound`).

  `root_methods_are_bound_whatever_their_flags` says so of every reference in every pool.
-/

import JvmClass.Graph.StandardClasses
import JvmClass.Proofs.Pool.Growth

namespace JvmClass

/-- The class that the graph has for the root declares this method. -/
def ClassGraph.RootDeclares (g : ClassGraph) (name descriptor : String) (m : Declaration .ofMethod) : Prop :=
  ∃ root, g.find? objectName = some root ∧ root.declaredMethod? name descriptor = some m

/-- All methods of the root among the standard classes are public. -/
theorem ClassGraph.has_accPublic_of_standard_root {g : ClassGraph}
    (h : g.find? objectName = some StandardClasses.object) {name descriptor : String} {m : Declaration .ofMethod}
    (hm : g.RootDeclares name descriptor m) : m.access.has accPublic = true := by
  obtain ⟨root, hroot, hdeclared⟩ := hm
  obtain rfl : StandardClasses.object = root := Option.some.inj (h.symm.trans hroot)
  have hall : ∀ m ∈ StandardClasses.object.methods, m.access.has accPublic = true := by decide +kernel
  exact hall m (List.mem_of_find?_eq_some hdeclared)

/-! ## What is bound -/

namespace MethodBinding

/-- The binding of a reference through an interface of this type: to what the lookup through the interface
    finds; if there is nothing, to what the root declares. -/
structure IsOfInterface (g : ClassGraph) (holder : GraphType ClassInfo) (name descriptor : String)
    (b : MethodBinding (Declaration .ofMethod)) : Prop where
  special : b.special = b.method
  found : ∀ m, g.findInterfaceMethod? holder name descriptor = some m → b.method = some m
  fallback : g.findInterfaceMethod? holder name descriptor = none →
    ∀ m, b.method = some m ↔ g.RootDeclares name descriptor m

variable {g : ClassGraph} {holder : GraphType ClassInfo} {member : MemberRef}

/-- In a placeholder nothing is found either way. -/
theorem method_ofInterface : (ofInterface g.host member holder).method =
    (g.findInterfaceMethod? holder member.name member.descriptor).or
      ((g.find? objectName).bind (·.declaredMethod? member.name member.descriptor)) := by
  have hown : (if g.host.isUnloadable holder then none
      else g.host.findInterfaceMethod holder member.name member.descriptor) =
        g.findInterfaceMethod? holder member.name member.descriptor := by
    cases holder <;> rfl
  have hroot : g.host.findMethod g.host.objectType member.name member.descriptor false =
      (g.find? objectName).bind (·.declaredMethod? member.name member.descriptor) := by
    show g.findMethod? g.objectType _ _ _ = _
    unfold ClassGraph.objectType
    cases g.find? objectName with
    | none => rfl
    | some root =>
      show root.findMethod? _ _ false = root.declaredMethod? _ _
      rw [ClassInfo.findMethod?, if_neg Bool.false_ne_true, List.findSome?_singleton]
  simp only [ofInterface, hown, hroot]

theorem isOfInterface_ofInterface :
    (ofInterface g.host member holder).IsOfInterface g holder member.name member.descriptor := by
  refine ⟨rfl, fun m hm => ?_, fun hnone m => ?_⟩
  · rw [method_ofInterface, hm, Option.some_or]
  · rw [method_ofInterface, hnone, Option.none_or, Option.bind_eq_some_iff]
    rfl

theorem IsOfInterface.has_accPublic_iff {name descriptor : String} {b : MethodBinding (Declaration .ofMethod)}
    (h : b.IsOfInterface g holder name descriptor) (hnone : g.findInterfaceMethod? holder name descriptor = none) :
    (∀ m, b.method = some m → m.access.has accPublic = true) ↔
      ∀ m, g.RootDeclares name descriptor m → m.access.has accPublic = true :=
  forall_congr' fun m => by rw [h.fallback hnone m]

end MethodBinding

/-- A binding through an interface that was not there before is of the type that the class has then. -/
theorem Pool.methodBinding?_link {T F M : Type} {p : Pool T F M} (hp : p.Addressable) {host : Host T F M}
    {thisClass : Index} {asking : Asking T} {i : Index} {item : MethodEntry T M}
    (hi : p.entry i = .interfaceMethod item) (hbefore : item.binding.value? = none) {b : MethodBinding M}
    (h : ((p.link host thisClass asking).pool.entry i).methodBinding? = some b) :
    ∃ holder, ((p.link host thisClass asking).pool.entry item.member.cls).type? = some holder ∧
      b = .ofInterface host item.member holder := by
  have hself : (p.bindSelf thisClass asking.type).entry i = .interfaceMethod item := by
    rw [entry_bindSelf, hi]
    split <;> rfl
  rw [hp.entry_link, hself, Entry.linked] at h
  cases htype : ((p.link host thisClass asking).pool.entry item.member.cls).type? with
  | none =>
    rw [htype] at h
    cases hbefore.symm.trans h
  | some holder =>
    rw [htype] at h
    refine ⟨holder, rfl, ?_⟩
    have hfilled : (Linking.linkInterfaceMethod host asking item holder).binding.value? = some b := h
    rw [Linking.linkInterfaceMethod, SetOnce.fill_value?] at hfilled
    have hempty : (Linking.linkSignature host asking item).binding.value? = none := hbefore
    rw [hempty, Option.getD_none] at hfilled
    exact (Option.some.inj hfilled).symm

/-- Whatever has been done to a resolved pool before: if linking it against a graph binds a reference to an
    interface method, then to what the lookup through the interface finds, or else to what the root declares.
    So in the second case what is bound is public exactly if what the root declares is, as it always is where
    the root is that of the standard classes. -/
theorem root_methods_are_bound_whatever_their_flags {constants : List (Option Constant)}
    {patchings : List (String × List (Option (Patch ClassGraph.HostType)))} {rules : Rules}
    {draft patched : Draft ClassGraph.HostType}
    {p : Pool ClassGraph.HostType (Declaration .ofField) (Declaration .ofMethod)}
    (hbuild : Draft.ofConstants constants = .ok draft) (hpatch : draft.patchAll patchings = .ok patched)
    (hresolve : patched.resolve _ _ rules = .ok p)
    (us : List (Upkeep ClassGraph.HostType (Declaration .ofField) (Declaration .ofMethod))) (g : ClassGraph)
    (thisClass : Index) (asking : Asking ClassGraph.HostType) (i : Index)
    (item : MethodEntry ClassGraph.HostType (Declaration .ofMethod)) (b : MethodBinding (Declaration .ofMethod))
    (hitem : (us.foldl Upkeep.apply p).entry i = .interfaceMethod item) (hbefore : item.binding.value? = none)
    (hafter : (((us.foldl Upkeep.apply p).link g.host thisClass asking).pool.entry i).methodBinding? = some b) :
    ∃ holder, (((us.foldl Upkeep.apply p).link g.host thisClass asking).pool.entry item.member.cls).type? = some holder ∧
      b.IsOfInterface g holder item.member.name item.member.descriptor ∧
      (g.findInterfaceMethod? holder item.member.name item.member.descriptor = none →
        ((∀ m, b.method = some m → m.access.has accPublic = true) ↔
          ∀ m, g.RootDeclares item.member.name item.member.descriptor m → m.access.has accPublic = true) ∧
        (g.find? objectName = some StandardClasses.object → ∀ m, b.method = some m → m.access.has accPublic = true)) := by
  have haddressable := Upkeep.addressable_foldl (Pool.addressable_of_resolve hbuild hpatch hresolve) us
  obtain ⟨holder, hholder, rfl⟩ := Pool.methodBinding?_link haddressable hitem hbefore hafter
  have hbound : (MethodBinding.ofInterface g.host item.member holder).IsOfInterface g holder item.member.name
      item.member.descriptor := MethodBinding.isOfInterface_ofInterface
  refine ⟨holder, hholder, hbound, fun hnone => ⟨hbound.has_accPublic_iff hnone, fun hstandard m hm => ?_⟩⟩
  exact ClassGraph.has_accPublic_of_standard_root hstandard ((hbound.fallback hnone m).mp hm)

namespace Copying

open StandardClasses

/-- A reference to a method that the interface `p.I` does not declare. -/
def constants (name descriptor : String) : List (Option Constant) :=
  [none, some (.member .interfaceMethod 2 4), some (.cls 3), some (.utf8 "p/I"), some (.nameAndType 5 6),
    some (.utf8 name), some (.utf8 descriptor)]

def draft (name descriptor : String) : Draft ClassGraph.HostType :=
  ⟨[.vacant, .member .interfaceMethod 2 4, .cls 3 none none, .text "p/I", .nameAndType 5 6, .text name,
    .text descriptor]⟩

/-- A root with a method for its subclasses only. -/
def root : ClassInfo := object.withMethod "clone" "()Ljava.lang.Object;" accProtected

def interface (root : ClassInfo) : ClassInfo := bare "p.I" root [] plainInterface

def graph (root : ClassInfo) : ClassGraph := ⟨[interface root, root]⟩

/-- The pool of the reference, and its state once it is linked. -/
def pool (name descriptor : String) : Pool ClassGraph.HostType (Declaration .ofField) (Declaration .ofMethod) :=
  (draft name descriptor).resolved

def linked (name descriptor : String) (root : ClassInfo) :
    Pool ClassGraph.HostType (Declaration .ofField) (Declaration .ofMethod) :=
  (((pool name descriptor).require 1).link (graph root).host 0 ⟨.void, .link⟩).pool

end Copying

open Copying in
/-- The class of the reference has a type, whose lookup finds no such method, and the reference is bound. -/
theorem Copying.exists_binding {name descriptor found : String} {root : ClassInfo} {m : Declaration .ofMethod}
    (h : ((linked name descriptor root).entry 2).type?.map
        (fun holder => (graph root).findInterfaceMethod? holder name found) = some none ∧
      ((linked name descriptor root).entry 1).methodBinding?.map (·.method) = some (some m)) :
    ∃ holder b, ((linked name descriptor root).entry 2).type? = some holder ∧
      (graph root).findInterfaceMethod? holder name found = none ∧
      ((linked name descriptor root).entry 1).methodBinding? = some b ∧ b.method = some m := by
  obtain ⟨holder, hholder, hnone⟩ := Option.map_eq_some_iff.mp h.1
  obtain ⟨b, hb, hm⟩ := Option.map_eq_some_iff.mp h.2
  exact ⟨holder, b, hholder, hnone, hb, hm⟩

open Copying in
/-- The protected method is bound, which no interface has. -/
theorem protected_method_of_root_is_bound : ∃ holder b m,
    Draft.ofConstants (constants "clone" "()Ljava/lang/Object;") = .ok (draft "clone" "()Ljava/lang/Object;") ∧
    (draft "clone" "()Ljava/lang/Object;").resolve _ _ ⟨Version.java8, {}⟩ = .ok (pool "clone" "()Ljava/lang/Object;") ∧
    ((linked "clone" "()Ljava/lang/Object;" root).entry 2).type? = some holder ∧
    (graph root).findInterfaceMethod? holder "clone" "()Ljava.lang.Object;" = none ∧
    ((linked "clone" "()Ljava/lang/Object;" root).entry 1).methodBinding? = some b ∧ b.method = some m ∧
    (graph root).RootDeclares "clone" "()Ljava.lang.Object;" m ∧ m.access.has accPublic = false := by
  have houtline : ((linked "clone" "()Ljava/lang/Object;" root).entry 2).type?.map
        (fun holder => (graph root).findInterfaceMethod? holder "clone" "()Ljava.lang.Object;") = some none ∧
      ((linked "clone" "()Ljava/lang/Object;" root).entry 1).methodBinding?.map (·.method) =
        some (some ⟨objectName, "clone", "()Ljava.lang.Object;", .ofBits .ofMethod accProtected⟩) := by decide +kernel
  obtain ⟨holder, b, hholder, hnone, hb, hm⟩ := exists_binding houtline
  exact ⟨holder, b, _, rfl, Draft.resolve_of_isSome (by decide +kernel), hholder, hnone, hb, hm,
    ⟨root, rfl, by decide +kernel⟩, by decide +kernel⟩

open Copying in
/-- Through the same interface, below the root of the standard classes, a public method is bound. -/
theorem root_methods_are_bound_whatever_their_flags_standard : ∃ b m,
    ((linked "hashCode" "()I" StandardClasses.object).entry 1).methodBinding? = some b ∧ b.method = some m ∧
      (graph StandardClasses.object).RootDeclares "hashCode" "()I" m ∧ m.access.has accPublic = true := by
  have houtline : ((linked "hashCode" "()I" StandardClasses.object).entry 2).type?.map
        (fun holder => (graph StandardClasses.object).findInterfaceMethod? holder "hashCode" "()I") = some none ∧
      ((linked "hashCode" "()I" StandardClasses.object).entry 1).methodBinding?.map (·.method) =
        some (some ⟨objectName, "hashCode", "()I", .ofBits .ofMethod (accPublic ||| accNative)⟩) := by decide +kernel
  obtain ⟨holder, b, hholder, hnone, hb, hm⟩ := exists_binding houtline
  have hbuild : Draft.ofConstants (constants "hashCode" "()I") = .ok (draft "hashCode" "()I") := rfl
  have hpatch : (draft "hashCode" "()I").patchAll [] = .ok (draft "hashCode" "()I") := rfl
  have hresolve : (draft "hashCode" "()I").resolve (Declaration .ofField) (Declaration .ofMethod)
      ⟨Version.java8, {}⟩ = .ok (pool "hashCode" "()I") := Draft.resolve_of_isSome (by decide +kernel)
  have hitem : ((pool "hashCode" "()I").require 1).entry 1 =
      .interfaceMethod ⟨⟨2, "p.I", "hashCode", "()I"⟩, .empty, .empty⟩ := by cbv
  obtain ⟨holder', hholder', hbound, hpublic⟩ := root_methods_are_bound_whatever_their_flags hbuild hpatch hresolve
    [.require 1] (graph StandardClasses.object) 0 ⟨.void, .link⟩ 1 _ b hitem rfl hb
  obtain rfl : holder = holder' := Option.some.inj (hholder.symm.trans hholder')
  exact ⟨b, _, hb, hm, (hbound.fallback hnone _).mp hm, (hpublic hnone).2 rfl _ hm⟩

end JvmClass
