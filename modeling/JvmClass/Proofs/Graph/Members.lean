/-
  JvmClass.Proofs.Graph.Members — the lookups of members find what there is to find.

  A lookup goes from a class on to others, depth first, and asks each of them for the member. What it
  goes on to, and in which order, makes a `Walk`: to the superclass; to the interfaces and then the
  superclass, for fields; to the interfaces alone, the last first, for methods of interfaces. All its
  classes stand in one list (`Walk.order`), which holds those that the class leads to and no others
  (`Walk.mem_order_iff`), and the lookup returns the member of the first that has one
  (`findField?_eq`, `findMethod?_eq`, `findInterfaceMethod?_eq`). The list ends, since each step leaves
  less of the hierarchy above.

  `member_lookups_are_exact` says so of every type of every graph, also of the two lookups that are loops:
  one holds a class (`askSuperclass`), the other a stack of classes and no record of those it has met
  (`popInterface`). On the way the stack stands for the orders of its classes, one after another
  (`run_popInterface`). A lookup starts at the class that the type is, and for an array at the root of the
  graph (`ClassGraph.StartsAt`).
-/

import JvmClass.Graph.ClassGraph
import JvmClass.Proofs.Graph.SubtypeOrder

namespace JvmClass

/-! ## Walks -/

/-- The classes that a lookup goes on to from each class, in this order. -/
structure Walk where
  next : ClassInfo → List ClassInfo
  next_subset : ∀ c, ∀ p ∈ next c, p ∈ c.parents true

namespace Walk

variable {α : Type} {w : Walk} {has : ClassInfo → Option α} {c d : ClassInfo} {m : α}

/-- The class, and then all that it leads to, depth first. -/
def order (w : Walk) (c : ClassInfo) : List ClassInfo :=
  c :: (w.next c).attach.flatMap fun p => w.order p.1
termination_by c.weight
decreasing_by exact ClassInfo.weight_lt_of_parent (w.next_subset c p.1 p.2)

theorem order_eq (w : Walk) (c : ClassInfo) : w.order c = c :: (w.next c).flatMap w.order := by
  rw [order, List.flatMap_subtype fun _ _ => rfl, List.unattach_attach]

/-- The second class is the first one, or the walk comes to it. -/
def Leads (w : Walk) : ClassInfo → ClassInfo → Prop := Relation.ReflTransGen fun c d => d ∈ w.next c

/-- What holds of a class if it holds of those that the walk goes on to holds of all classes. -/
theorem induction (w : Walk) {motive : ClassInfo → Prop} (step : ∀ c, (∀ p ∈ w.next c, motive p) → motive c)
    (c : ClassInfo) : motive c := by
  induction hweight : c.weight using Nat.strongRecOn generalizing c with
  | _ n ih =>
    refine step c fun p hp => ih p.weight ?_ p rfl
    exact hweight ▸ ClassInfo.weight_lt_of_parent (w.next_subset c p hp)

theorem mem_order_iff : d ∈ w.order c ↔ w.Leads c d := by
  induction c using w.induction with
  | step c ih =>
    rw [order_eq, List.mem_cons, List.mem_flatMap]
    constructor
    · intro h
      rcases h with rfl | ⟨p, hp, hd⟩
      · exact .refl
      · exact .head hp ((ih p hp).mp hd)
    · intro h
      rcases Relation.ReflTransGen.cases_head h with heq | ⟨p, hp, hd⟩
      · exact .inl heq.symm
      · exact .inr ⟨p, hp, (ih p hp).mpr hd⟩

/-- Of the classes that the walk comes to from `start`, `c` is the first that has something, and has `m`. -/
def Finds (w : Walk) (has : ClassInfo → Option α) (start c : ClassInfo) (m : α) : Prop :=
  has c = some m ∧ ∃ before after, w.order start = before ++ c :: after ∧ ∀ d ∈ before, has d = none

theorem findSome?_order_eq_some_iff :
    (w.order c).findSome? has = some m ↔ ∃ d, w.Finds has c d m := by
  rw [List.findSome?_eq_some_iff]
  constructor
  · intro ⟨before, d, after, horder, hd, hbefore⟩
    exact ⟨d, hd, before, after, horder, hbefore⟩
  · intro ⟨d, hd, before, after, horder, hbefore⟩
    exact ⟨before, d, after, horder, hd, hbefore⟩

theorem isSome_findSome?_order_iff :
    ((w.order c).findSome? has).isSome = true ↔ ∃ d, w.Leads c d ∧ (has d).isSome = true := by
  simp only [List.findSome?_isSome_iff, mem_order_iff]

/-- Classes whose lookups each return the first of their order, asked in turn. -/
theorem findSome?_flatMap_order {find : ClassInfo → Option α} {cs : List ClassInfo}
    (h : ∀ p ∈ cs, find p = (w.order p).findSome? has) : cs.findSome? find = (cs.flatMap w.order).findSome? has := by
  induction cs with
  | nil => rfl
  | cons p cs ih =>
    rw [List.forall_mem_cons] at h
    rw [List.findSome?_cons, h.1, ih h.2, List.flatMap_cons, List.findSome?_append]
    cases (w.order p).findSome? has <;> rfl

/-- A lookup that asks the class, and then in turn those that the walk goes on to, returns the first of all. -/
theorem eq_findSome?_order {find : ClassInfo → Option α}
    (hfind : ∀ c, find c = (has c).or ((w.next c).findSome? find)) (c : ClassInfo) :
    find c = (w.order c).findSome? has := by
  induction c using w.induction with
  | step c ih =>
    rw [hfind, findSome?_flatMap_order ih, order_eq, List.findSome?_cons]
    cases has c <;> rfl

/-! ## The three walks -/

def superclasses : Walk := ⟨ClassInfo.parents false, fun _ _ => ClassInfo.parents_subset⟩

/-- The interfaces in their order, and then the superclass. -/
def interfacesFirst : Walk where
  next c := c.interfaces ++ c.superclass.toList
  next_subset _ _ hp := by
    rw [List.mem_append, Option.mem_toList] at hp
    exact ClassInfo.mem_parents.mpr (hp.symm.imp_right fun hp => ⟨rfl, hp⟩)

/-- The interfaces, the last one first. -/
def interfaces : Walk where
  next c := c.interfaces.reverse
  next_subset _ _ hp := ClassInfo.mem_parents.mpr (.inr ⟨rfl, List.mem_reverse.mp hp⟩)

end Walk

namespace ClassInfo

/-- Over interfaces alone, the first class leads to the second. -/
def ReachesOverInterfaces : ClassInfo → ClassInfo → Prop := Relation.ReflTransGen fun c d => d ∈ c.interfaces

variable {c d s : ClassInfo} {name descriptor : String}

theorem leads_superclasses_iff : Walk.superclasses.Leads c d ↔ c.ReachesBy false d := Iff.rfl

theorem leads_interfacesFirst_iff : Walk.interfacesFirst.Leads c d ↔ c.Reaches d := by
  have hnext : (fun c d => d ∈ Walk.interfacesFirst.next c) = fun c d : ClassInfo => d ∈ c.parents true := by
    funext c d
    exact propext (List.mem_append.trans (or_comm.trans List.mem_append.symm))
  rw [Walk.Leads, hnext, Reaches, ReachesBy]

theorem leads_interfaces_iff : Walk.interfaces.Leads c d ↔ c.ReachesOverInterfaces d := by
  have hnext : (fun c d => d ∈ Walk.interfaces.next c) = fun c d : ClassInfo => d ∈ c.interfaces := by
    funext c d
    exact propext List.mem_reverse
  rw [Walk.Leads, hnext, ReachesOverInterfaces]

/-! ## The lookups -/

theorem findField?_step (name descriptor : String) (c : ClassInfo) : c.findField? name descriptor =
    (c.declaredField? name descriptor).or ((Walk.interfacesFirst.next c).findSome? (·.findField? name descriptor)) := by
  have hinterfaces (is : List ClassInfo) :
      findField?.inInterfaces name descriptor is = is.findSome? (·.findField? name descriptor) := by
    induction is with
    | nil => rfl
    | cons i is ih =>
      rw [findField?.inInterfaces, ih, List.findSome?_cons]
      cases i.findField? name descriptor <;> rfl
  have hsuperclass (s : Option ClassInfo) :
      findField?.inSuperclass name descriptor s = s.toList.findSome? (·.findField? name descriptor) := by
    cases s with
    | none => rfl
    | some s => simp [findField?.inSuperclass]
  obtain ⟨_, superclass, is, _, _, _⟩ := c
  rw [findField?, hinterfaces, hsuperclass, Walk.interfacesFirst, List.findSome?_append]
  cases declaredField? _ name descriptor with
  | some f => rfl
  | none => cases is.findSome? (·.findField? name descriptor) <;> rfl

theorem findField?_eq (name descriptor : String) (c : ClassInfo) : c.findField? name descriptor =
    (Walk.interfacesFirst.order c).findSome? (·.declaredField? name descriptor) :=
  Walk.eq_findSome?_order (findField?_step name descriptor) c

theorem findInterfaceMethod?_step (name descriptor : String) (c : ClassInfo) :
    c.findInterfaceMethod? name descriptor = (c.declaredMethod? name descriptor).or
      ((Walk.interfaces.next c).findSome? (·.findInterfaceMethod? name descriptor)) := by
  have hinterfaces (is : List ClassInfo) :
      findInterfaceMethod?.inInterfaces name descriptor is =
        is.reverse.findSome? (·.findInterfaceMethod? name descriptor) := by
    induction is with
    | nil => rfl
    | cons i is ih =>
      rw [findInterfaceMethod?.inInterfaces, ih, List.reverse_cons, List.findSome?_append, List.findSome?_singleton]
      cases is.reverse.findSome? (·.findInterfaceMethod? name descriptor) <;> rfl
  obtain ⟨_, _, is, _, _, _⟩ := c
  rw [findInterfaceMethod?, hinterfaces]
  cases declaredMethod? _ name descriptor <;> rfl

theorem findInterfaceMethod?_eq (name descriptor : String) (c : ClassInfo) :
    c.findInterfaceMethod? name descriptor =
      (Walk.interfaces.order c).findSome? (·.declaredMethod? name descriptor) :=
  Walk.eq_findSome?_order (findInterfaceMethod?_step name descriptor) c

theorem chain_eq (c : ClassInfo) : c.chain = Walk.superclasses.order c := by
  induction c using Walk.superclasses.induction with
  | step c ih =>
    rw [Walk.order_eq]
    obtain ⟨_, superclass, _, _, _, _⟩ := c
    cases superclass with
    | none => rfl
    | some s =>
      rw [chain, ih s List.mem_cons_self]
      exact congrArg _ (List.append_nil _).symm

theorem findMethod?_eq (name descriptor : String) (c : ClassInfo) : c.findMethod? name descriptor true =
    (Walk.superclasses.order c).findSome? (·.declaredMethod? name descriptor) := by
  rw [findMethod?, if_pos rfl, chain_eq]

/-- The class is asked first, and then its superclass, if what it inherits counts too. -/
theorem findMethod?_step (name descriptor : String) (inherited : Bool) (c : ClassInfo) :
    c.findMethod? name descriptor inherited = (c.declaredMethod? name descriptor).or
      (if inherited then c.superclass.bind (·.findMethod? name descriptor inherited) else none) := by
  cases inherited with
  | false =>
    rw [findMethod?, if_neg Bool.false_ne_true, List.findSome?_singleton]
    exact Option.or_none.symm
  | true =>
    obtain ⟨_, superclass, _, _, _, _⟩ := c
    rw [findMethod?, if_pos rfl, if_pos rfl]
    cases superclass with
    | none => exact List.findSome?_singleton.trans Option.or_none.symm
    | some s =>
      rw [chain, List.findSome?_cons]
      cases declaredMethod? _ name descriptor <;> rfl

/-! ## The nearest declaration -/

/-- Over superclasses, `start` leads to `c`, which declares the method, and any other that declares it on
    the way is further up. -/
structure IsNearest (name descriptor : String) (start c : ClassInfo) (m : Declaration .ofMethod) : Prop where
  reached : start.ReachesBy false c
  declared : c.declaredMethod? name descriptor = some m
  nearest : ∀ d, start.ReachesBy false d → (d.declaredMethod? name descriptor).isSome = true → c.ReachesBy false d

theorem mem_superclasses_iff : s ∈ c.parents false ↔ c.superclass = some s := by simp [mem_parents]

/-- A class that does not declare the method leaves it to its superclass. -/
theorem isNearest_iff_of_eq_none {m : Declaration .ofMethod} (hnone : c.declaredMethod? name descriptor = none) :
    IsNearest name descriptor c d m ↔ ∃ s, c.superclass = some s ∧ IsNearest name descriptor s d m := by
  constructor
  · intro h
    rcases Relation.ReflTransGen.cases_head h.reached with rfl | ⟨s, hs, hd⟩
    · cases hnone.symm.trans h.declared
    · exact ⟨s, mem_superclasses_iff.mp hs, hd, h.declared, fun e he => h.nearest e (.head hs he)⟩
  · intro ⟨s, hs, h⟩
    refine ⟨.head (mem_superclasses_iff.mpr hs) h.reached, h.declared, fun e he hdeclares => ?_⟩
    rcases Relation.ReflTransGen.cases_head he with rfl | ⟨p, hp, he⟩
    · rw [hnone] at hdeclares
      cases hdeclares
    · cases hs.symm.trans (mem_superclasses_iff.mp hp)
      exact h.nearest e he hdeclares

theorem findMethod?_eq_some_iff {m : Declaration .ofMethod} : c.findMethod? name descriptor true = some m ↔
    ∃ d, IsNearest name descriptor c d m := by
  induction c using Walk.superclasses.induction with
  | step c ih =>
    rw [findMethod?_step, if_pos rfl]
    cases hdeclared : c.declaredMethod? name descriptor with
    | some own =>
      constructor
      · intro h
        cases h
        exact ⟨c, .refl, hdeclared, fun _ hd _ => hd⟩
      · intro ⟨d, hd⟩
        have hback : d.ReachesBy false c := hd.nearest c .refl (by rw [hdeclared]; rfl)
        obtain rfl := Reaches.antisymm hd.reached.reaches hback.reaches
        exact hdeclared.symm.trans hd.declared
    | none =>
      simp only [isNearest_iff_of_eq_none hdeclared, Option.none_or, Option.bind_eq_some_iff]
      constructor
      · intro ⟨s, hs, h⟩
        obtain ⟨d, hd⟩ := (ih s (mem_superclasses_iff.mpr hs)).mp h
        exact ⟨d, s, hs, hd⟩
      · intro ⟨d, s, hs, hd⟩
        exact ⟨s, hs, (ih s (mem_superclasses_iff.mpr hs)).mpr ⟨d, hd⟩⟩

end ClassInfo

/-! ## What is declared -/

/-- A field or method of this name and descriptor. -/
def Declaration.IsOf {h : Holder} (name descriptor : String) (m : Declaration h) : Prop :=
  m.name = name ∧ m.descriptor = descriptor

section Declared

variable {h : Holder} {name descriptor : String}

theorem isSome_find?_iff {ms : List (Declaration h)} :
    (ms.find? fun m => m.name == name && m.descriptor == descriptor).isSome = true ↔
      ∃ m ∈ ms, m.IsOf name descriptor := by
  simp [Declaration.IsOf]

/-- What is found among the members of some classes has the name and the descriptor. -/
theorem isOf_of_findSome?_find? {cs : List ClassInfo} {members : ClassInfo → List (Declaration h)} {m : Declaration h}
    (hm : cs.findSome? (fun c => (members c).find? fun m => m.name == name && m.descriptor == descriptor) = some m) :
    m.IsOf name descriptor := by
  obtain ⟨c, -, hc⟩ := List.exists_of_findSome?_eq_some hm
  simpa [Declaration.IsOf] using List.find?_some hc

end Declared

namespace ClassInfo

variable {c : ClassInfo} {name descriptor : String}

theorem isSome_findField?_iff : (c.findField? name descriptor).isSome = true ↔
    ∃ d, c.Reaches d ∧ ∃ f ∈ d.fields, f.IsOf name descriptor := by
  rw [findField?_eq, Walk.isSome_findSome?_order_iff]
  exact exists_congr fun d => and_congr leads_interfacesFirst_iff isSome_find?_iff

theorem isSome_findMethod?_iff : (c.findMethod? name descriptor true).isSome = true ↔
    ∃ d, c.ReachesBy false d ∧ ∃ m ∈ d.methods, m.IsOf name descriptor := by
  rw [findMethod?_eq, Walk.isSome_findSome?_order_iff]
  exact exists_congr fun d => and_congr leads_superclasses_iff isSome_find?_iff

theorem isSome_findInterfaceMethod?_iff : (c.findInterfaceMethod? name descriptor).isSome = true ↔
    ∃ d, c.ReachesOverInterfaces d ∧ ∃ m ∈ d.methods, m.IsOf name descriptor := by
  rw [findInterfaceMethod?_eq, Walk.isSome_findSome?_order_iff]
  exact exists_congr fun d => and_congr leads_interfaces_iff isSome_find?_iff

theorem isOf_of_findField? {f : Declaration .ofField} (hf : c.findField? name descriptor = some f) :
    f.IsOf name descriptor :=
  isOf_of_findSome?_find? ((findField?_eq name descriptor c).symm.trans hf)

theorem isOf_of_findMethod? {inherited : Bool} {m : Declaration .ofMethod}
    (hm : c.findMethod? name descriptor inherited = some m) : m.IsOf name descriptor :=
  isOf_of_findSome?_find? hm

theorem isOf_of_findInterfaceMethod? {m : Declaration .ofMethod}
    (hm : c.findInterfaceMethod? name descriptor = some m) :
    m.IsOf name descriptor :=
  isOf_of_findSome?_find? ((findInterfaceMethod?_eq name descriptor c).symm.trans hm)

end ClassInfo

/-! ## The lookups as loops -/

section Loops

variable {name descriptor : String}

/-- One class is asked; if it has no such method, its superclass comes next, if there is one. -/
def askSuperclass (name descriptor : String) (inherited : Bool) :
    Trapping.Loop (Option ClassInfo) (Option (Declaration .ofMethod))
  | none => some (.inr none)
  | some c =>
    match c.declaredMethod? name descriptor with
    | some m => some (.inr (some m))
    | none => if inherited then some (.inl c.superclass) else some (.inr none)

theorem run_askSuperclass (inherited : Bool) (c? : Option ClassInfo) :
    (askSuperclass name descriptor inherited).run c? = some (c?.bind (·.findMethod? name descriptor inherited)) := by
  have hnone : (askSuperclass name descriptor inherited).run none = some none := Trapping.Loop.run_of_done rfl
  cases c? with
  | none => exact hnone
  | some c =>
    induction c using Walk.superclasses.induction with
    | step c ih =>
      rw [Option.bind_some, ClassInfo.findMethod?_step]
      cases hdeclared : c.declaredMethod? name descriptor with
      | some m => exact Trapping.Loop.run_of_done (by rw [askSuperclass, hdeclared]; rfl)
      | none =>
        cases inherited with
        | false => exact Trapping.Loop.run_of_done (by rw [askSuperclass, hdeclared]; rfl)
        | true =>
          rw [Trapping.Loop.run_of_next (by rw [askSuperclass, hdeclared]; rfl)]
          cases hsuper : c.superclass with
          | none => exact hnone
          | some s => exact ih s (ClassInfo.mem_superclasses_iff.mpr hsuper)

/-- The class that was pushed last is taken off the stack and asked; if it has no such method, its
    interfaces are pushed, in their order. -/
def popInterface (name descriptor : String) : Trapping.Loop (List ClassInfo) (Option (Declaration .ofMethod))
  | [] => some (.inr none)
  | c :: rest =>
    match c.declaredMethod? name descriptor with
    | some m => some (.inr (some m))
    | none => some (.inl (c.interfaces.reverse ++ rest))

theorem weightOfAll_reverse (cs : List ClassInfo) :
    ClassInfo.weight.weightOfAll cs.reverse = ClassInfo.weight.weightOfAll cs := by
  induction cs with
  | nil => rfl
  | cons c cs ih =>
    rw [List.reverse_cons, ClassInfo.weightOfAll_append, ih]
    simp only [ClassInfo.weight.weightOfAll]
    omega

/-- A class weighs more than its interfaces do. -/
theorem weightOfAll_interfaces_lt (c : ClassInfo) : ClassInfo.weight.weightOfAll c.interfaces < c.weight := by
  have hparents := ClassInfo.weightOfAll_parents_lt true c
  rw [ClassInfo.parents, if_pos rfl, ClassInfo.weightOfAll_append] at hparents
  omega

/-- The stack is gone through as if each of its classes stood there with all that it leads to; what it
    weighs decreases, however often a class is pushed. -/
theorem run_popInterface (stack : List ClassInfo) : (popInterface name descriptor).run stack =
    some ((stack.flatMap Walk.interfaces.order).findSome? (·.declaredMethod? name descriptor)) := by
  induction hweight : ClassInfo.weight.weightOfAll stack using Nat.strongRecOn generalizing stack with
  | _ n ih =>
    cases stack with
    | nil => exact Trapping.Loop.run_of_done rfl
    | cons c rest =>
      rw [List.flatMap_cons, Walk.order_eq, List.cons_append, List.findSome?_cons]
      cases hdeclared : c.declaredMethod? name descriptor with
      | some m => exact Trapping.Loop.run_of_done (by rw [popInterface, hdeclared])
      | none =>
        have hless : ClassInfo.weight.weightOfAll (c.interfaces.reverse ++ rest) < n := by
          have hc := weightOfAll_interfaces_lt c
          rw [ClassInfo.weightOfAll_append, weightOfAll_reverse, ← hweight, ClassInfo.weight.weightOfAll]
          omega
        rw [Trapping.Loop.run_of_next (by rw [popInterface, hdeclared]), ih _ hless _ rfl, List.flatMap_append]
        rfl

end Loops

/-! ## Where lookups start -/

/-- The class of the graph that is named `java.lang.Object`, the first one if it has more of them. -/
def ClassGraph.IsRoot (g : ClassGraph) (c : ClassInfo) : Prop :=
  c.name = "java.lang.Object" ∧
    ∃ before after, g.classes = before ++ c :: after ∧ ∀ d ∈ before, d.name ≠ "java.lang.Object"

/-- The lookups of members of the type start at the class: a class starts at itself, an array at the root. -/
inductive ClassGraph.StartsAt (g : ClassGraph) : GraphType ClassInfo → ClassInfo → Prop
  | itself (c : ClassInfo) : g.StartsAt (.ref (.object c)) c
  | objectArray {root : ClassInfo} (extra : Nat) (element : ClassInfo) (isRoot : g.IsRoot root) :
      g.StartsAt (.ref (.objectArray extra element)) root
  | primitiveArray {root : ClassInfo} (extra : Nat) (element : BaseType) (isRoot : g.IsRoot root) :
      g.StartsAt (.ref (.primitiveArray extra element)) root

namespace ClassGraph

variable {g : ClassGraph} {t : GraphType ClassInfo} {c : ClassInfo}

theorem find?_objectName_eq_some_iff : g.find? objectName = some c ↔ g.IsRoot c := by
  rw [find?, List.find?_eq_some_iff_append, beq_iff_eq]
  simp only [Bool.not_eq_true', beq_eq_false_iff_ne]
  rfl

theorem memberHolder?_eq_some_iff : g.memberHolder? t = some c ↔ g.StartsAt t c := by
  constructor
  · intro h
    match t, h with
    | .ref (.object _), h =>
      cases h
      exact .itself c
    | .ref (.objectArray extra element), h => exact .objectArray extra element (find?_objectName_eq_some_iff.mp h)
    | .ref (.primitiveArray extra element), h => exact .primitiveArray extra element (find?_objectName_eq_some_iff.mp h)
  · intro h
    cases h with
    | itself => rfl
    | objectArray extra element isRoot => exact find?_objectName_eq_some_iff.mpr isRoot
    | primitiveArray extra element isRoot => exact find?_objectName_eq_some_iff.mpr isRoot

theorem memberHolder?_eq_none_iff : g.memberHolder? t = none ↔ ¬∃ c, g.StartsAt t c := by
  simp only [← memberHolder?_eq_some_iff, ← Option.isSome_iff_exists, Bool.not_eq_true, Option.isSome_eq_false_iff,
    Option.isNone_iff_eq_none]

end ClassGraph

/-- A lookup starts at the class itself, or at the root for arrays, and finds nothing if there is no such
    class. A field is found if a class or interface above declares it, and then that of the first of them in
    the order of the class, its interfaces and its superclass; a method if the class or one of its
    superclasses declares it, and then the nearest one, or only what the class itself declares; a method of
    an interface if the class or an interface above it over interfaces alone declares it. The lookups that
    are loops come to an end. All that is found has the name and the descriptor asked for. -/
theorem member_lookups_are_exact (g : ClassGraph) (t : GraphType ClassInfo) (name descriptor : String) :
    ((¬∃ start, g.StartsAt t start) → g.host.findField t name descriptor = none ∧
      (∀ inherited, g.host.findMethod t name descriptor inherited = none) ∧
      g.host.findInterfaceMethod t name descriptor = none) ∧
    (∀ start, g.StartsAt t start →
      ((g.host.findField t name descriptor).isSome = true ↔
        ∃ c, start.Reaches c ∧ ∃ f ∈ c.fields, f.IsOf name descriptor) ∧
      (∀ f, g.host.findField t name descriptor = some f ↔
        ∃ c, Walk.interfacesFirst.Finds (·.declaredField? name descriptor) start c f) ∧
      ((g.host.findMethod t name descriptor true).isSome = true ↔
        ∃ c, start.ReachesBy false c ∧ ∃ m ∈ c.methods, m.IsOf name descriptor) ∧
      (∀ m, g.host.findMethod t name descriptor true = some m ↔ ∃ c, start.IsNearest name descriptor c m) ∧
      g.host.findMethod t name descriptor false = start.declaredMethod? name descriptor ∧
      ((g.host.findInterfaceMethod t name descriptor).isSome = true ↔
        ∃ c, start.ReachesOverInterfaces c ∧ ∃ m ∈ c.methods, m.IsOf name descriptor) ∧
      (∀ inherited, (askSuperclass name descriptor inherited).run (some start) =
        some (g.host.findMethod t name descriptor inherited)) ∧
      (popInterface name descriptor).run [start] = some (g.host.findInterfaceMethod t name descriptor)) ∧
    (∀ f, g.host.findField t name descriptor = some f → f.IsOf name descriptor) ∧
    (∀ inherited m, g.host.findMethod t name descriptor inherited = some m → m.IsOf name descriptor) ∧
    ∀ m, g.host.findInterfaceMethod t name descriptor = some m → m.IsOf name descriptor := by
  have hfield : g.host.findField t name descriptor = (g.memberHolder? t).bind (·.findField? name descriptor) := rfl
  have hmethod (inherited : Bool) : g.host.findMethod t name descriptor inherited =
      (g.memberHolder? t).bind (·.findMethod? name descriptor inherited) := rfl
  have hinterface : g.host.findInterfaceMethod t name descriptor =
      (g.memberHolder? t).bind (·.findInterfaceMethod? name descriptor) := rfl
  simp only [hfield, hmethod, hinterface]
  refine ⟨fun hnone => ?_, fun start hstart => ?_, ?_, ?_, ?_⟩
  · simp [ClassGraph.memberHolder?_eq_none_iff.mpr hnone]
  · simp only [ClassGraph.memberHolder?_eq_some_iff.mpr hstart, Option.bind_some]
    refine ⟨ClassInfo.isSome_findField?_iff, fun f => ?_, ClassInfo.isSome_findMethod?_iff,
      fun m => ClassInfo.findMethod?_eq_some_iff, ?_, ClassInfo.isSome_findInterfaceMethod?_iff,
      fun inherited => run_askSuperclass inherited _, ?_⟩
    · rw [ClassInfo.findField?_eq, Walk.findSome?_order_eq_some_iff]
    · rw [ClassInfo.findMethod?_step, if_neg Bool.false_ne_true, Option.or_none]
    · rw [run_popInterface, List.flatMap_singleton, ← ClassInfo.findInterfaceMethod?_eq]
  · intro f hf
    obtain ⟨start, -, hf⟩ := Option.bind_eq_some_iff.mp hf
    exact ClassInfo.isOf_of_findField? hf
  · intro inherited m hm
    obtain ⟨start, -, hm⟩ := Option.bind_eq_some_iff.mp hm
    exact ClassInfo.isOf_of_findMethod? hm
  · intro m hm
    obtain ⟨start, -, hm⟩ := Option.bind_eq_some_iff.mp hm
    exact ClassInfo.isOf_of_findInterfaceMethod? hm

/-! ## Declarations above declarations -/

namespace Overriding

open StandardClasses

def runner : ClassInfo :=
  (bare "Runner" object [] plainInterface)
    |>.withMethod "run" "()V" (accPublic ||| accAbstract)
    |>.withField "limit" "I" accPublic

/-- Declares again what the interface that it extends does. -/
def worker : ClassInfo :=
  (bare "Worker" object [runner] plainInterface).withMethod "run" "()V" (accPublic ||| accAbstract)

/-- Extends the one directly and through the other. -/
def crew : ClassInfo := bare "Crew" object [worker, runner] plainInterface

def base : ClassInfo :=
  (bare "Base" object [] plainClass) |>.withMethod "run" "()V" accPublic |>.withField "limit" "I" accPublic

def middle : ClassInfo := (bare "Middle" base [] plainClass).withMethod "run" "()V" accPublic

def leaf : ClassInfo := (bare "Leaf" middle [crew] plainClass).withMethod "run" "()V" accPublic

def graph : ClassGraph := ⟨[leaf, middle, base, crew, worker, runner, object]⟩

theorem isRoot_object : graph.IsRoot object := by
  refine ⟨rfl, [leaf, middle, base, crew, worker, runner], [], rfl, ?_⟩
  have hnames : ∀ name ∈ [leaf, middle, base, crew, worker, runner].map (·.name), name ≠ "java.lang.Object" := by
    decide
  exact fun d hd => hnames d.name (List.mem_map_of_mem hd)

end Overriding

open Overriding in
/-- A field of an interface comes before one of the superclass, and the class's own method before others;
    an array has the methods of the root. -/
theorem member_lookups_are_exact_leaf :
    (graph.StartsAt (.ofClass leaf) leaf ∧ (∃ c, Walk.interfacesFirst.Finds (·.declaredField? "limit" "I") leaf c
        ⟨"Runner", "limit", "I", .ofBits .ofField accPublic⟩) ∧
      ∃ c, leaf.IsNearest "run" "()V" c ⟨"Leaf", "run", "()V", .ofBits .ofMethod accPublic⟩) ∧
    graph.StartsAt (.ref (.primitiveArray 0 .int)) StandardClasses.object ∧
      (graph.host.findMethod (.ref (.primitiveArray 0 .int)) "hashCode" "()I" true).isSome = true := by
  have hleaf : graph.StartsAt (.ofClass leaf) leaf := .itself leaf
  have harray : graph.StartsAt (.ref (.primitiveArray 0 .int)) StandardClasses.object :=
    .primitiveArray 0 .int isRoot_object
  obtain ⟨-, hfield, -⟩ := member_lookups_are_exact graph (.ofClass leaf) "limit" "I"
  obtain ⟨-, hmethod, -⟩ := member_lookups_are_exact graph (.ofClass leaf) "run" "()V"
  obtain ⟨-, hinherited, -⟩ := member_lookups_are_exact graph (.ref (.primitiveArray 0 .int)) "hashCode" "()I"
  obtain ⟨-, hfirst, -⟩ := hfield leaf hleaf
  obtain ⟨-, -, -, hnearest, -⟩ := hmethod leaf hleaf
  obtain ⟨-, -, hpresent, -⟩ := hinherited StandardClasses.object harray
  refine ⟨⟨hleaf, (hfirst _).mp (by decide), (hnearest _).mp (by decide)⟩, harray, hpresent.mpr ?_⟩
  refine ⟨StandardClasses.object, .refl, ⟨"java.lang.Object", "hashCode", "()I", ?_⟩, ?_, rfl, rfl⟩
  · exact .ofBits .ofMethod (accPublic ||| accNative)
  · decide

end JvmClass
