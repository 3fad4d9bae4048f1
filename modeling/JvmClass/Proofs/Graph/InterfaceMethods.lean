/-
  JvmClass.Proofs.Graph.InterfaceMethods — which of the declarations of an interface method is found.

  The lookup goes depth first through the interfaces, the last one of each list first, and takes the
  first declaration that it meets. It does not compare declarations: an interface that is listed after one
  that extends it is met before it, and so what it declares is found although the other declares it again
  (`overridden_method_is_found`).

  What it does keep to is the way on which it comes to a declaration: none of the classes on it declares the
  method (`Walk.Finds.way`). So an interface that every way to the declaration passes through does not
  override it (`interface_method_is_not_overridden_on_its_way`).
-/

import JvmClass.Proofs.Graph.Members

namespace JvmClass

namespace Walk

variable {α : Type} {w : Walk} {has : ClassInfo → Option α} {start c : ClassInfo} {m : α}

/-- The first class of the orders of several is the first in the order of one of them. -/
theorem exists_finds_of_flatMap {cs before after : List ClassInfo} (hc : has c = some m)
    (horder : cs.flatMap w.order = before ++ c :: after) (hbefore : ∀ d ∈ before, has d = none) :
    ∃ p ∈ cs, w.Finds has p c m := by
  induction cs generalizing before with
  | nil => simp at horder
  | cons p cs ih =>
    rw [List.flatMap_cons, List.append_eq_append_iff] at horder
    rcases horder with ⟨rest, rfl, hrest⟩ | ⟨rest, hp, hrest⟩
    · obtain ⟨q, hq, hfinds⟩ := ih hrest fun d hd => hbefore d (List.mem_append_right _ hd)
      exact ⟨q, List.mem_cons_of_mem _ hq, hfinds⟩
    · cases rest with
      | nil =>
        -- the order of `p` ends just before `c`
        obtain ⟨q, hq, hfinds⟩ := @ih [] hrest.symm (fun _ h => nomatch h)
        exact ⟨q, List.mem_cons_of_mem _ hq, hfinds⟩
      | cons c' rest =>
        obtain ⟨rfl, -⟩ := List.cons_eq_cons.mp hrest
        exact ⟨p, List.mem_cons_self, hc, before, rest, hp, hbefore⟩

/-- A walk comes to what it finds without passing another class that has something. -/
theorem Finds.way (h : w.Finds has start c m) :
    Relation.ReflTransGen (fun a b => b ∈ w.next a ∧ has a = none) start c := by
  induction start using w.induction with
  | step start ih =>
    obtain ⟨hc, before, after, horder, hbefore⟩ := h
    rw [order_eq] at horder
    cases before with
    | nil =>
      obtain ⟨rfl, -⟩ := List.cons_eq_cons.mp horder
      exact .refl
    | cons d before =>
      obtain ⟨rfl, hnext⟩ := List.cons_eq_cons.mp horder
      rw [List.forall_mem_cons] at hbefore
      obtain ⟨p, hp, hfinds⟩ := exists_finds_of_flatMap hc hnext hbefore.2
      exact .head ⟨hp, hbefore.1⟩ (ih p hp hfinds)

end Walk

namespace ClassInfo

theorem findInterfaceMethod?_eq_some_iff {c : ClassInfo} {name descriptor : String} {m : Declaration .ofMethod} :
    c.findInterfaceMethod? name descriptor = some m ↔
      ∃ d, Walk.interfaces.Finds (·.declaredMethod? name descriptor) c d m := by
  rw [findInterfaceMethod?_eq, Walk.findSome?_order_eq_some_iff]

/-- Over interfaces, `start` leads to the class by a way that does not pass through `avoided`. -/
def ReachesAround (start avoided : ClassInfo) : ClassInfo → Prop :=
  Relation.ReflTransGen (fun c d => d ∈ c.interfaces ∧ c ≠ avoided) start

end ClassInfo

/-- The method that is found for an interface is the first declaration in the order of the lookup, depth
    first and the last interface of each list first. Another interface with the declaring one above it
    declares the method again only if there is a way to the declaring one around it. -/
theorem interface_method_is_not_overridden_on_its_way {g : ClassGraph} {t : GraphType ClassInfo}
    {name descriptor : String} {m : Declaration .ofMethod}
    (h : g.host.findInterfaceMethod t name descriptor = some m) :
    ∃ start c, g.StartsAt t start ∧ start.ReachesOverInterfaces c ∧
      Walk.interfaces.Finds (·.declaredMethod? name descriptor) start c m ∧
      ∀ d, d ≠ c → d.ReachesOverInterfaces c → ¬start.ReachesAround d c →
        ¬∃ m' ∈ d.methods, m'.IsOf name descriptor := by
  have hfind : (g.memberHolder? t).bind (·.findInterfaceMethod? name descriptor) = some m := h
  obtain ⟨start, hstart, hfind⟩ := Option.bind_eq_some_iff.mp hfind
  obtain ⟨c, hfinds⟩ := ClassInfo.findInterfaceMethod?_eq_some_iff.mp hfind
  have hway := hfinds.way
  have hstarts := ClassGraph.memberHolder?_eq_some_iff.mp hstart
  refine ⟨start, c, hstarts, ?_, hfinds, fun d _ _ haround hdeclares => haround ?_⟩
  · exact Relation.ReflTransGen.mono (fun _ _ h => List.mem_reverse.mp h.1) _ _ hway
  · -- a class on the way does not declare the method, so it is not `d`
    refine Relation.ReflTransGen.mono (fun a b hab => ⟨List.mem_reverse.mp hab.1, fun heq => ?_⟩) _ _ hway
    have hsome : (d.declaredMethod? name descriptor).isSome = true := isSome_find?_iff.mpr hdeclares
    rw [← heq, hab.2] at hsome
    cases hsome

open Overriding in
/-- From the interface that extends both, the first declaration is found although it is declared again. -/
theorem overridden_method_is_found : graph.host.isInterface (.ofClass crew) = true ∧
    graph.host.findInterfaceMethod (.ofClass crew) "run" "()V" = runner.declaredMethod? "run" "()V" ∧
    (runner.declaredMethod? "run" "()V").isSome = true ∧ (worker.declaredMethod? "run" "()V").isSome = true ∧
    worker ∈ crew.interfaces ∧ runner ∈ worker.interfaces ∧ worker ≠ runner := by
  refine ⟨by decide, by decide, by decide, by decide, List.mem_cons_self, List.mem_cons_self, fun heq => ?_⟩
  exact absurd (congrArg ClassInfo.name heq) (by decide)

open Overriding in
/-- The interface that declares the method again is passed by; for an array the root is asked. -/
theorem interface_method_is_not_overridden_on_its_way_crew :
    (∃ c, crew.ReachesOverInterfaces c ∧ c.declaredMethod? "run" "()V" = runner.declaredMethod? "run" "()V" ∧
      (worker.ReachesOverInterfaces c → crew.ReachesAround worker c)) ∧
    ∃ c, StandardClasses.object.ReachesOverInterfaces c ∧ c.declaredMethod? "hashCode" "()I" =
      some ⟨"java.lang.Object", "hashCode", "()I", .ofBits .ofMethod (accPublic ||| accNative)⟩ := by
  have hfound : graph.host.findInterfaceMethod (.ofClass crew) "run" "()V" =
      some ⟨"Runner", "run", "()V", .ofBits .ofMethod (accPublic ||| accAbstract)⟩ := by decide
  have harray : graph.host.findInterfaceMethod (.ref (.primitiveArray 0 .int)) "hashCode" "()I" =
      some ⟨"java.lang.Object", "hashCode", "()I", .ofBits .ofMethod (accPublic ||| accNative)⟩ := by decide
  refine ⟨?_, ?_⟩
  · obtain ⟨start, c, hstart, hreach, hfinds, hover⟩ := interface_method_is_not_overridden_on_its_way hfound
    cases hstart
    refine ⟨c, hreach, hfinds.1, fun hworker => ?_⟩
    by_contra haround
    refine hover worker ?_ hworker haround ⟨_, List.mem_cons_self, rfl, rfl⟩
    intro heq
    exact absurd (heq ▸ hfinds.1) (by decide)
  · obtain ⟨start, c, hstart, hreach, hfinds, -⟩ := interface_method_is_not_overridden_on_its_way harray
    have hroot := ClassGraph.memberHolder?_eq_some_iff.mpr hstart
    obtain rfl : StandardClasses.object = start := Option.some.inj hroot
    exact ⟨c, hreach, hfinds.1⟩

end JvmClass
