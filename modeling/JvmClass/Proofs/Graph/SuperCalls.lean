/-
  JvmClass.Proofs.Graph.SuperCalls — which method a super call runs.

  Code of a class may call a method by naming a class above its own. The call is bound to the method as
  the superclass has it, however far up the named class is. In a graph where only the root has no
  superclass (`ClassGraph.IsRooted`) a class above another that is no interface stands on the chain of its
  superclasses (`IsRooted.reachesBy_of_isSubclass`), and so on that of the superclass. What the named class
  has is therefore met from the superclass on too, there or before (`BoundAbove.ofClass`). Names stand for
  one class each however the graph came about, since its classes can be added again with the supertypes
  first (`IsRooted.exists_built`).

  A reference to a method of a class may also name an interface above the class. Nothing tells such a call
  from the others, so the method is searched for from the superclass on, where it need not be declared at all
  (`method_of_named_interface_is_not_run`).

  `super_calls_are_bound_above` says so of references to methods, and that all others are bound to one
  method for both ways of calling.
-/

import JvmClass.Pool.Link
import JvmClass.Proofs.Graph.Members

namespace JvmClass

/-! ## Rooted graphs -/

/-- The graph has all supertypes of its classes, each under a name of its own, and the root is the only one
    without a superclass. -/
structure ClassGraph.IsRooted (g : ClassGraph) : Prop where
  names : (g.classes.map (·.name)).Nodup
  parents : ∀ c ∈ g.classes, ∀ p ∈ c.parents true, p ∈ g.classes
  superclass : ∀ c ∈ g.classes, c.superclass = none ↔ c.name = objectName

/-- Classes in such an order that none is above one further on can be added from the last to the first. -/
theorem ClassGraph.Built.of_pairwise {cs : List ClassInfo} (hnames : (cs.map (·.name)).Nodup)
    (hparents : ∀ c ∈ cs, ∀ p ∈ c.parents true, p ∈ cs) (hsorted : cs.Pairwise fun c d => d.weight ≤ c.weight) :
    Built ⟨cs⟩ := by
  induction cs with
  | nil => exact .empty
  | cons c cs ih =>
    rw [List.map_cons, List.nodup_cons] at hnames
    rw [List.pairwise_cons] at hsorted
    have hrest : ∀ d ∈ c :: cs, ∀ p ∈ d.parents true, d.weight ≤ c.weight → p ∈ cs := by
      intro d hd p hp hweight
      rcases List.mem_cons.mp (hparents d hd p hp) with rfl | hp'
      · exact absurd (ClassInfo.weight_lt_of_parent hp) (Nat.not_lt.mpr hweight)
      · exact hp'
    refine (ih hnames.2 (fun d hd p hp => ?_) hsorted.2).cons (fun d hd hname => hnames.1 ?_) fun p hp => ?_
    · exact hrest d (List.mem_cons_of_mem _ hd) p hp (hsorted.1 d hd)
    · exact hname ▸ List.mem_map_of_mem hd
    · exact hrest c List.mem_cons_self p hp (Nat.le_refl _)

namespace ClassGraph.IsRooted

variable {g : ClassGraph} (h : g.IsRooted) {a b c : ClassInfo}
include h

/-- The classes in another order, each after its supertypes. -/
theorem exists_built : ∃ g' : ClassGraph, g'.Built ∧ ∀ c, c ∈ g'.classes ↔ c ∈ g.classes := by
  let le (c d : ClassInfo) : Bool := d.weight ≤ c.weight
  have hperm : (g.classes.mergeSort le).Perm g.classes := List.mergeSort_perm _ _
  have hsorted : (g.classes.mergeSort le).Pairwise fun c d => le c d = true :=
    List.pairwise_mergeSort (fun _ _ _ hab hbc => by simp only [le, decide_eq_true_eq] at *; omega)
      (fun _ _ => by simp only [le, Bool.or_eq_true, decide_eq_true_eq]; omega) _
  refine ⟨⟨g.classes.mergeSort le⟩, .of_pairwise ?_ ?_ ?_, fun _ => hperm.mem_iff⟩
  · exact (hperm.map _).nodup_iff.mpr h.names
  · simpa only [hperm.mem_iff] using h.parents
  · exact hsorted.imp fun hle => of_decide_eq_true hle

theorem eq_of_name (ha : a ∈ g.classes) (hb : b ∈ g.classes) (hname : a.name = b.name) : a = b := by
  obtain ⟨g', hbuilt, hmem⟩ := h.exists_built
  exact hbuilt.eq_of_name ((hmem a).mpr ha) ((hmem b).mpr hb) hname

theorem exists_root (hc : c ∈ g.classes) : ∃ r ∈ g.classes, c.ReachesBy false r ∧ r.name = objectName := by
  induction c using Walk.superclasses.induction with
  | step c ih =>
    cases hsuper : c.superclass with
    | none => exact ⟨c, hc, .refl, (h.superclass c hc).mp hsuper⟩
    | some s =>
      have hs := ClassInfo.mem_superclasses_iff.mpr hsuper
      obtain ⟨r, hr, hreach, hroot⟩ := ih s hs (h.parents c hc s (ClassInfo.parents_subset hs))
      exact ⟨r, hr, .head hs hreach, hroot⟩

/-- What is above a class is reached from it, a class over superclasses alone; the chain of those ends at
    the root. -/
theorem reachesBy_of_isSubclass (ha : a ∈ g.classes) (hb : b ∈ g.classes) (hsub : a.isSubclass b = true) :
    a.ReachesBy b.isInterface b := by
  obtain ⟨g', hbuilt, hmem⟩ := h.exists_built
  rw [ClassInfo.isSubclass, Bool.or_eq_true, beq_iff_eq,
    Frontier.search_iff_reachesBy hbuilt ((hmem a).mpr ha) ((hmem b).mpr hb)] at hsub
  rcases hsub with hreach | hname
  · exact hreach
  · obtain ⟨r, hr, hreach, hroot⟩ := h.exists_root ha
    obtain rfl := h.eq_of_name hr hb (hroot.trans hname.symm)
    cases r.isInterface with
    | false => exact hreach
    | true => exact hreach.reaches

/-- A class with another above it is not the root: all that is above the root leads back to it. -/
theorem exists_superclass (ha : a ∈ g.classes) (hb : b ∈ g.classes) (hne : b ≠ a) (hsub : a.isSubclass b = true) :
    ∃ s, a.superclass = some s := by
  cases hsuper : a.superclass with
  | some s => exact ⟨s, rfl⟩
  | none =>
    have hroot := (h.superclass a ha).mp hsuper
    obtain ⟨r, hr, hback, hname⟩ := h.exists_root hb
    obtain rfl := h.eq_of_name hr ha (hname.trans hroot.symm)
    exact absurd (hback.reaches.antisymm (h.reachesBy_of_isSubclass ha hb hsub).reaches) hne

/-- No class is above itself, nor another of its name. -/
theorem name_ne_of_superclass (ha : a ∈ g.classes) (hsuper : a.superclass = some b) (hreach : b.ReachesBy false c) :
    c.name ≠ a.name := by
  obtain ⟨g', hbuilt, hmem⟩ := h.exists_built
  have hparent := ClassInfo.parents_subset (ClassInfo.mem_superclasses_iff.mpr hsuper)
  have hless := ClassInfo.weight_lt_of_parent hparent
  have ha' := (hmem a).mpr ha
  intro hname
  obtain rfl := hbuilt.eq_of_name (hbuilt.mem_of_reaches (hbuilt.mem_of_parent ha' hparent) hreach.reaches) ha' hname
  rcases hreach.reaches.eq_or_weight_lt with rfl | hless'
  · exact Nat.lt_irrefl _ hless
  · exact Nat.lt_asymm hless hless'

end ClassGraph.IsRooted

/-! ## Bindings -/

theorem GraphType.isSame_ofClass (a b : ClassInfo) : (ofClass a).isSame (ofClass b) = (a.name == b.name) := by
  by_cases hname : a.name = b.name
  · simp [isSame, named, map, ofClass, RefType.map, hname]
  · simp [isSame, named, map, ofClass, RefType.map, hname]

theorem Linking.binding_linkMethod_of_none {T F M : Type} {host : Host T F M} {asking : Asking T} {holder : T}
    {item : MethodEntry T M} (hunbound : item.binding.value? = none) (hholder : host.isUnloadable holder = false) :
    (linkMethod host asking item holder).binding.value? =
      some (MethodBinding.ofClass host asking item.member holder) := by
  rw [linkMethod, hholder, if_neg Bool.false_ne_true, SetOnce.fill_value?]
  exact congrArg some (congrArg (Option.getD · _) hunbound)

section Bindings

variable {g : ClassGraph} {asking : Asking (GraphType ClassInfo)} {holder : GraphType ClassInfo}
  {member : MemberRef}

theorem isSuperCall_eq_false_iff {name : String} : isSuperCall g.host asking.type holder name = false ↔
    name = initName ∨ asking.type.isInterface = true ∨ asking.type.isSame holder = true ∨
      asking.type.isSubtype holder = false := by
  simp only [isSuperCall, Bool.and_eq_false_iff, bne_eq_false_iff_eq, Bool.not_eq_false', or_assoc]
  rfl

theorem MethodBinding.special_ofClass (hcall : isSuperCall g.host asking.type holder member.name = false) :
    (ofClass g.host asking member holder).special = (ofClass g.host asking member holder).method := by
  rw [ofClass, hcall]
  rfl

end Bindings

/-- A method of `c` is called from code of `this`, whose superclass is `above`. -/
structure BoundAbove (this above c : ClassInfo) (name descriptor : String)
    (b : MethodBinding (Declaration .ofMethod)) : Prop where
  method_iff : ∀ m, b.method = some m ↔ ∃ d, c.IsNearest name descriptor d m
  /-- The call runs the nearest declaration from the superclass on. -/
  special_iff : ∀ m, b.special = some m ↔ ∃ d, above.IsNearest name descriptor d m
  /-- It is not the class's own. -/
  notOwn : ∀ d m, above.IsNearest name descriptor d m → d.name ≠ this.name
  /-- The superclass has the method if the named class has it; what an interface has may be nowhere else. -/
  present : c.isInterface = false → b.method.isSome = true → b.special.isSome = true
  /-- Where it is declared is where the named class has its method from, or below that. -/
  atOrBelow : c.isInterface = false → ∀ d m e m', above.IsNearest name descriptor d m →
    c.IsNearest name descriptor e m' → d.ReachesBy false e

section SuperCall

variable {g : ClassGraph} {this above c : ClassInfo} {mode : LoadMode} {member : MemberRef}

/-- Another class above a class is its superclass, or is above that. -/
theorem ClassGraph.IsRooted.reachesBy_superclass (h : g.IsRooted) (hthis : this ∈ g.classes) (hc : c ∈ g.classes)
    (hsuper : this.superclass = some above) (hclass : c.isInterface = false) (hne : c ≠ this)
    (hsub : this.isSubclass c = true) : above.ReachesBy false c := by
  have hreach := h.reachesBy_of_isSubclass hthis hc hsub
  rw [hclass] at hreach
  rcases Relation.ReflTransGen.cases_head hreach with heq | ⟨s, hs, hreach⟩
  · exact absurd heq.symm hne
  · cases hsuper.symm.trans (ClassInfo.mem_superclasses_iff.mp hs)
    exact hreach

/-- What is bound when code of a class names a class or an interface above it. -/
theorem BoundAbove.ofClass (h : g.IsRooted) (hthis : this ∈ g.classes) (hsuper : this.superclass = some above)
    (hreach : c.isInterface = false → above.ReachesBy false c) (hname : member.name ≠ initName)
    (hcall : isSuperCall g.host (.ofClass this) (.ofClass c) member.name = true) :
    BoundAbove this above c member.name member.descriptor
      (.ofClass g.host ⟨.ofClass this, mode⟩ member (.ofClass c)) := by
  have hmethod : (MethodBinding.ofClass g.host ⟨.ofClass this, mode⟩ member (.ofClass c)).method =
      c.findMethod? member.name member.descriptor true := by
    rw [MethodBinding.ofClass, bne_iff_ne.mpr hname]
    rfl
  have hspecial : (MethodBinding.ofClass g.host ⟨.ofClass this, mode⟩ member (.ofClass c)).special =
      above.findMethod? member.name member.descriptor true := by
    have hsuperType : g.host.superType (.ofClass this) = some (.ofClass above) :=
      congrArg (Option.map GraphType.ofClass) hsuper
    simp only [MethodBinding.ofClass, if_pos hcall, hsuperType]
    rfl
  constructor
  · intro m
    rw [hmethod, ClassInfo.findMethod?_eq_some_iff]
  · intro m
    rw [hspecial, ClassInfo.findMethod?_eq_some_iff]
  · intro d m hd
    exact h.name_ne_of_superclass hthis hsuper hd.reached
  · rw [hmethod, hspecial, ClassInfo.isSome_findMethod?_iff, ClassInfo.isSome_findMethod?_iff]
    intro hclass ⟨d, hd, hdeclares⟩
    exact ⟨d, (hreach hclass).trans hd, hdeclares⟩
  · intro hclass d m e m' hd he
    exact hd.nearest e ((hreach hclass).trans he.reached) (by rw [he.declared]; rfl)

end SuperCall

/-- Code of a class that names another class above it runs the method as its superclass has it: the nearest
    declaration there, which is present if the named class has the method, is not the calling class's own, and
    is declared where the named class has its method from or below. If it names an interface above it by a
    reference to a method of a class, the nearest declaration from its superclass on is run too, if there is
    one. All other calls run the method that is named: of instance initializers, which are found in the named
    class only; from code of interfaces; of the class itself; of types that are not above it; and those
    through references to methods of interfaces. -/
theorem super_calls_are_bound_above {g : ClassGraph} (h : g.IsRooted)
    {item : MethodEntry (GraphType ClassInfo) (Declaration .ofMethod)} (hunbound : item.binding.value? = none) :
    (∀ this ∈ g.classes, this.isInterface = false → ∀ c ∈ g.classes, c ≠ this →
      g.host.isSubtype (.ofClass this) (.ofClass c) = true → item.member.name ≠ initName → ∀ mode,
      ∃ above b, this.superclass = some above ∧
        (Linking.linkMethod g.host ⟨.ofClass this, mode⟩ item (.ofClass c)).binding.value? = some b ∧
        BoundAbove this above c item.member.name item.member.descriptor b) ∧
    (∀ asking holder, g.host.isUnloadable holder = false →
      item.member.name = initName ∨ g.host.isInterface asking.type = true ∨
        g.host.isSame asking.type holder = true ∨ g.host.isSubtype asking.type holder = false →
      ∃ b, (Linking.linkMethod g.host asking item holder).binding.value? = some b ∧ b.special = b.method) ∧
    (∀ asking c, item.member.name = initName →
      ∃ b, (Linking.linkMethod g.host asking item (.ofClass c)).binding.value? = some b ∧
        b.method = c.declaredMethod? initName item.member.descriptor) ∧
    ∀ asking holder, ∃ b, (Linking.linkInterfaceMethod g.host asking item holder).binding.value? = some b ∧
      b.special = b.method := by
  refine ⟨?_, ?_, ?_, ?_⟩
  · intro this hthis hthisClass c hc hne hsub hname mode
    obtain ⟨above, hsuper⟩ := h.exists_superclass hthis hc hne hsub
    have hreach (hclass : c.isInterface = false) := h.reachesBy_superclass hthis hc hsuper hclass hne hsub
    have hcall : isSuperCall g.host (.ofClass this) (.ofClass c) item.member.name = true := by
      have hsame : g.host.isSame (.ofClass this) (.ofClass c) = false := by
        refine (GraphType.isSame_ofClass this c).trans (beq_eq_false_iff_ne.mpr fun heq => hne ?_)
        exact h.eq_of_name hc hthis heq.symm
      have hinterface : g.host.isInterface (.ofClass this) = false := hthisClass
      rw [isSuperCall, hsame, hinterface, hsub, bne_iff_ne.mpr hname]
      rfl
    exact ⟨above, _, hsuper, Linking.binding_linkMethod_of_none hunbound rfl,
      .ofClass h hthis hsuper hreach hname hcall⟩
  · intro asking holder hholder hcall
    exact ⟨_, Linking.binding_linkMethod_of_none hunbound hholder,
      MethodBinding.special_ofClass (isSuperCall_eq_false_iff.mpr hcall)⟩
  · intro asking c hname
    refine ⟨_, Linking.binding_linkMethod_of_none hunbound rfl, ?_⟩
    rw [MethodBinding.ofClass, hname]
    exact (ClassInfo.findMethod?_step initName item.member.descriptor false c).trans Option.or_none
  · intro asking holder
    refine ⟨.ofInterface g.host item.member holder, ?_, rfl⟩
    rw [Linking.linkInterfaceMethod, SetOnce.fill_value?]
    exact congrArg some (congrArg (Option.getD · _) hunbound)

namespace Overriding

/-- A call names the method as the topmost class has it. -/
def runOfBase : MethodEntry (GraphType ClassInfo) (Declaration .ofMethod) :=
  ⟨⟨1, "Base", "run", "()V"⟩, .empty, .empty⟩

/-- A reference to a method of a class that names an interface. -/
def runOfRunner : MethodEntry (GraphType ClassInfo) (Declaration .ofMethod) :=
  ⟨⟨1, "Runner", "run", "()V"⟩, .empty, .empty⟩

theorem isRooted_graph : graph.IsRooted where
  names := by decide +kernel
  parents := by
    have hleaf : leaf.parents true = [middle, crew] := rfl
    have hmiddle : middle.parents true = [base] := rfl
    have hbase : base.parents true = [StandardClasses.object] := rfl
    have hcrew : crew.parents true = [StandardClasses.object, worker, runner] := rfl
    have hworker : worker.parents true = [StandardClasses.object, runner] := rfl
    have hrunner : runner.parents true = [StandardClasses.object] := rfl
    have hobject : StandardClasses.object.parents true = [] := rfl
    simp [graph, hleaf, hmiddle, hbase, hcrew, hworker, hrunner, hobject]
  superclass := by
    have hroot : ∀ c ∈ graph.classes, c.superclass.isNone = true ↔ c.name = objectName := by decide +kernel
    simpa only [Option.isNone_iff_eq_none] using hroot

end Overriding

open Overriding in
/-- By a reference to a method of a class, the method of an interface above the calling class is named, but
    that of the superclass is run. -/
theorem method_of_named_interface_is_not_run : graph.IsRooted ∧ leaf ∈ graph.classes ∧ leaf.isInterface = false ∧
    runner ∈ graph.classes ∧ runner.isInterface = true ∧ ∃ b,
      (Linking.linkMethod graph.host ⟨.ofClass leaf, .link⟩ runOfRunner (.ofClass runner)).binding.value? = some b ∧
      b.method = runner.declaredMethod? "run" "()V" ∧ b.special = middle.declaredMethod? "run" "()V" ∧
      b.special ≠ b.method := by
  refine ⟨isRooted_graph, by simp [graph], by decide +kernel, by simp [graph], by decide +kernel, _, rfl, ?_⟩
  decide +kernel

open Overriding in
/-- From two classes below, and through the interface, the declaration of the class between is run. -/
theorem super_calls_are_bound_above_leaf : runOfBase.binding.value? = none ∧ runOfRunner.binding.value? = none ∧
    (∃ b, (Linking.linkMethod graph.host ⟨.ofClass leaf, .link⟩ runOfBase (.ofClass base)).binding.value? = some b ∧
      BoundAbove leaf middle base "run" "()V" b ∧ b.special = middle.declaredMethod? "run" "()V") ∧
    ∃ b, (Linking.linkMethod graph.host ⟨.ofClass leaf, .link⟩ runOfRunner (.ofClass runner)).binding.value? = some b ∧
      BoundAbove leaf middle runner "run" "()V" b ∧ b.special = middle.declaredMethod? "run" "()V" := by
  have hmiddle : ∃ m, middle.declaredMethod? "run" "()V" = some m := ⟨_, rfl⟩
  obtain ⟨m, hm⟩ := hmiddle
  have hnearest : ∃ d, middle.IsNearest "run" "()V" d m := ⟨middle, .refl, hm, fun _ hd _ => hd⟩
  refine ⟨rfl, rfl, ?_, ?_⟩
  · have hne : base ≠ leaf := fun heq => absurd (congrArg ClassInfo.name heq) (by decide +kernel)
    have hunbound : runOfBase.binding.value? = none := rfl
    obtain ⟨habove, -⟩ := super_calls_are_bound_above isRooted_graph hunbound
    obtain ⟨above, b, hsuper, hb, hbound⟩ := habove leaf (by simp [graph]) (by decide +kernel) base (by simp [graph])
      hne (by decide +kernel) (by decide +kernel) .link
    obtain rfl : middle = above := Option.some.inj hsuper
    exact ⟨b, hb, hbound, ((hbound.special_iff m).mpr hnearest).trans hm.symm⟩
  · have hne : runner ≠ leaf := fun heq => absurd (congrArg ClassInfo.name heq) (by decide +kernel)
    have hunbound : runOfRunner.binding.value? = none := rfl
    obtain ⟨habove, -⟩ := super_calls_are_bound_above isRooted_graph hunbound
    obtain ⟨above, b, hsuper, hb, hbound⟩ := habove leaf (by simp [graph]) (by decide +kernel) runner (by simp [graph])
      hne (by decide +kernel) (by decide +kernel) .link
    obtain rfl : middle = above := Option.some.inj hsuper
    exact ⟨b, hb, hbound, ((hbound.special_iff m).mpr hnearest).trans hm.symm⟩

end JvmClass
