/-
  JvmClass.Proofs.Graph.SubtypeOrder — being a subtype is a partial order.

  The graphs are those that hold the standard classes and others added later (`ClassGraph.Extended`).
  - Among classes the order is that of the ways to the supertypes, with the root above everything. No
    way comes back to where it started, since each step leaves less of the hierarchy above
    (`ClassInfo.Reaches.eq_or_weight_lt`), and none leads on from the root (`Reaches.eq_of_root`).
  - Above the three classes that are supertypes of all arrays there is only the root
    (`isArraySupertype_of_isSubclass`), so it does not matter whether a way to an array's supertype
    stays among arrays as long as it can or leaves them at once (`RefType.isSubtype_trans`).
  - All other types are subtypes of themselves alone (`GraphType.isSubtype_iff`).
  `isSubtype_is_partial_order` says so of all types over the classes of a graph.
-/

import JvmClass.Proofs.Graph.Reachability

namespace JvmClass

/-! ## The way up -/

namespace ClassInfo

theorem weight_le_weightOfAll {c : ClassInfo} {cs : List ClassInfo} (h : c ∈ cs) :
    c.weight ≤ weight.weightOfAll cs := by
  induction cs with
  | nil => cases h
  | cons d cs ih =>
    rw [weight.weightOfAll]
    rcases List.mem_cons.mp h with rfl | h
    · omega
    · have := ih h
      omega

theorem weight_lt_of_parent {c p : ClassInfo} (h : p ∈ c.parents true) : p.weight < c.weight :=
  Nat.lt_of_le_of_lt (weight_le_weightOfAll h) (weightOfAll_parents_lt true c)

theorem Reaches.eq_or_weight_lt {c d : ClassInfo} (h : c.Reaches d) : c = d ∨ d.weight < c.weight := by
  induction h with
  | refl => exact .inl rfl
  | tail _ hstep ih =>
    have hless := weight_lt_of_parent hstep
    rcases ih with rfl | ih
    · exact .inr hless
    · exact .inr (Nat.lt_trans hless ih)

theorem Reaches.antisymm {c d : ClassInfo} (h : c.Reaches d) (h' : d.Reaches c) : c = d := by
  rcases h.eq_or_weight_lt with heq | hless
  · exact heq
  rcases h'.eq_or_weight_lt with heq | hless'
  · exact heq.symm
  · omega

/-- No way leads on from the root. -/
theorem Reaches.eq_of_root {c d : ClassInfo} (hregular : c.IsRegular) (hroot : c.name = objectName)
    (h : c.Reaches d) : c = d := by
  obtain ⟨hsuper, hinterfaces⟩ := hregular.root hroot
  rcases Relation.ReflTransGen.cases_head h with heq | ⟨p, hp, -⟩
  · exact heq
  · simp [parents, hsuper, hinterfaces] at hp

instance (c : ClassInfo) : Decidable c.IsRegular :=
  decidable_of_iff
    ((∀ i ∈ c.interfaces, i.isInterface = true) ∧
      (c.isInterface = true → ∀ s ∈ c.superclass, s.name = objectName) ∧
      (c.name = objectName → c.superclass.isNone = true ∧ c.interfaces.isEmpty = true))
    ⟨fun ⟨hinterfaces, hsuper, hroot⟩ =>
      ⟨hinterfaces, hsuper, fun h => (hroot h).imp Option.isNone_iff_eq_none.mp List.isEmpty_iff.mp⟩,
    fun h => ⟨h.interfaces, h.superclass, fun hroot =>
      (h.root hroot).imp Option.isNone_iff_eq_none.mpr List.isEmpty_iff.mpr⟩⟩

end ClassInfo

/-! ## Graphs that extend the standard classes -/

/-- A class that the standard ones leave room for: it has a superclass, the root if it is an
    interface. -/
structure ClassInfo.IsOrdinary (c : ClassInfo) : Prop where
  interfaces : ∀ i ∈ c.interfaces, i.isInterface = true
  superclass : ∃ s, c.superclass = some s ∧ (c.isInterface = true → s.name = objectName)

namespace ClassGraph

/-- The standard classes, and others that were added one by one, each under a name of its own and
    after those it refers to. -/
inductive Extended : ClassGraph → Prop
  | seed : Extended (seed .empty)
  | add {g : ClassGraph} {c : ClassInfo} (extended : Extended g) (fresh : ∀ d ∈ g.classes, d.name ≠ c.name)
      (parents : ∀ p ∈ c.parents true, p ∈ g.classes) (ordinary : c.IsOrdinary) : Extended (g.add c)

section Standard

open StandardClasses

@[simp] theorem parents_bare (name : String) (s : Option ClassInfo) (is : List ClassInfo) (access : UInt16) :
    (bare name s is access).parents true = s.toList ++ is := rfl

@[simp] theorem parents_withMethod (c : ClassInfo) (name descriptor : String) (access : UInt16) :
    (c.withMethod name descriptor access).parents true = c.parents true := rfl

/-- Each of the standard classes comes after those it refers to. -/
theorem built_seed : (seed .empty).Built := by
  have h₁ : Built ⟨[object]⟩ := .cons .empty (fun _ h => nomatch h) (fun _ h => nomatch h)
  have h₂ := h₁.cons (c := cloneable) (by decide) (by simp [cloneable])
  have h₃ := h₂.cons (c := serializable) (by decide) (by simp [serializable])
  have h₄ := h₃.cons (c := charSequence) (by decide) (by simp [charSequence])
  have h₅ := h₄.cons (c := string) (by decide) (by simp [string])
  have h₆ := h₅.cons (c := classClass) (by decide) (by simp [classClass])
  have h₇ := h₆.cons (c := throwable) (by decide) (by simp [throwable])
  have h₈ := h₇.cons (c := exception) (by decide) (by simp [exception])
  have h₉ := h₈.cons (c := runtimeException) (by decide) (by simp [runtimeException])
  exact h₉.cons (c := illegalArgumentException) (by decide) (by simp [illegalArgumentException])

theorem mem_seed {c : ClassInfo} : c ∈ (seed .empty).classes ↔ c ∈ all := by
  show c ∈ all.reverse ↔ c ∈ all
  exact List.mem_reverse

theorem regular_standard : ∀ c ∈ all, c.IsRegular := by decide

namespace Extended

variable {g : ClassGraph} {c d : ClassInfo}

theorem mem_of_standard (h : g.Extended) (hc : c ∈ all) : c ∈ g.classes := by
  induction h with
  | seed => exact mem_seed.mpr hc
  | add _ fresh _ _ ih => exact classes_add fresh ▸ List.mem_cons_of_mem _ ih

theorem built (h : g.Extended) : g.Built := by
  induction h with
  | seed => exact built_seed
  | add _ fresh parents _ ih => exact ih.add fresh parents

theorem regular (h : g.Extended) (hc : c ∈ g.classes) : c.IsRegular := by
  induction h with
  | seed => exact regular_standard c (mem_seed.mp hc)
  | @add g new extended fresh _ ordinary ih =>
    rw [classes_add fresh] at hc
    rcases List.mem_cons.mp hc with rfl | hc
    · obtain ⟨s, hsuper, hroot⟩ := ordinary.superclass
      refine ⟨ordinary.interfaces, fun hinterface s' hs' => ?_, fun hname => ?_⟩
      · cases hsuper.symm.trans hs'
        exact hroot hinterface
      · have hobject : object ∈ g.classes := extended.mem_of_standard List.mem_cons_self
        exact absurd hname.symm (fresh object hobject)
    · exact ih hc

/-- Above a supertype of all arrays there is nothing but the root. -/
theorem name_of_parent (h : g.Extended) (hc : c ∈ g.classes) (harray : isArraySupertype c.name = true) {p : ClassInfo}
    (hp : p ∈ c.parents true) : p.name = objectName := by
  have hstandard (s : ClassInfo) (hs : s ∈ all) (hname : c.name = s.name) : c = s :=
    h.built.eq_of_name hc (h.mem_of_standard hs) hname
  simp only [isArraySupertype, Bool.or_eq_true, beq_iff_eq, or_assoc] at harray
  rcases harray with hname | hname | hname
  · obtain rfl := hstandard object (by simp [all]) hname
    cases hp
  · obtain rfl := hstandard cloneable (by simp [all]) hname
    obtain rfl : p = object := by simpa [cloneable] using hp
    rfl
  · obtain rfl := hstandard serializable (by simp [all]) hname
    obtain rfl : p = object := by simpa [serializable] using hp
    rfl

end Extended

end Standard

/-! ## Classes -/

section Classes

variable {g : ClassGraph} (h : g.Extended) {a b c : ClassInfo} (ha : a ∈ g.classes) (hb : b ∈ g.classes)
include h ha hb

theorem isSubclass_of_reaches (hreach : a.Reaches b) : a.isSubclass b = true := by
  rw [ClassInfo.isSubclass, Bool.or_eq_true, beq_iff_eq, Frontier.search_iff_reachesBy h.built ha hb]
  by_cases hroot : b.name = objectName
  · exact .inr hroot
  · refine .inl ?_
    cases hinterface : b.isInterface with
    | true => exact hreach
    | false => exact reaches_superclasses h.built (fun _ => h.regular) ha hinterface hroot hreach

theorem reaches_of_isSubclass (hsub : a.isSubclass b = true) : b.name = objectName ∨ a.Reaches b := by
  rw [ClassInfo.isSubclass, Bool.or_eq_true, beq_iff_eq, Frontier.search_iff_reachesBy h.built ha hb] at hsub
  exact hsub.symm.imp_right ClassInfo.ReachesBy.reaches

omit h ha hb in
theorem isSubclass_of_root (hroot : b.name = objectName) : a.isSubclass b = true := by
  rw [ClassInfo.isSubclass, hroot, BEq.rfl, Bool.or_true]

/-- What the root is a subtype of is the root. -/
theorem eq_of_isSubclass_root (hroot : a.name = objectName) (hsub : a.isSubclass b = true) : a = b := by
  rcases reaches_of_isSubclass h ha hb hsub with hname | hreach
  · exact h.built.eq_of_name ha hb (hroot.trans hname.symm)
  · exact hreach.eq_of_root (h.regular ha) hroot

omit hb in
theorem isSubclass_refl : a.isSubclass a = true := isSubclass_of_reaches h ha ha .refl

theorem isSubclass_trans (hc : c ∈ g.classes) (hab : a.isSubclass b = true) (hbc : b.isSubclass c = true) :
    a.isSubclass c = true := by
  rcases reaches_of_isSubclass h ha hb hab with hroot | hab
  · obtain rfl := eq_of_isSubclass_root h hb hc hroot hbc
    exact isSubclass_of_root hroot
  rcases reaches_of_isSubclass h hb hc hbc with hroot | hbc
  · exact isSubclass_of_root hroot
  · exact isSubclass_of_reaches h ha hc (hab.trans hbc)

theorem isSubclass_antisymm (hab : a.isSubclass b = true) (hba : b.isSubclass a = true) : a = b := by
  rcases reaches_of_isSubclass h ha hb hab with hroot | hab
  · exact (eq_of_isSubclass_root h hb ha hroot hba).symm
  rcases reaches_of_isSubclass h hb ha hba with hroot | hba
  · exact hab.eq_of_root (h.regular ha) hroot
  · exact hab.antisymm hba

/-- The supertypes of a supertype of all arrays are supertypes of all arrays. -/
theorem isArraySupertype_of_isSubclass (harray : isArraySupertype a.name = true) (hsub : a.isSubclass b = true) :
    isArraySupertype b.name = true := by
  have hroot (hname : b.name = objectName) : isArraySupertype b.name = true := by
    rw [isArraySupertype, hname, BEq.rfl, Bool.true_or, Bool.true_or]
  rcases reaches_of_isSubclass h ha hb hsub with hname | hreach
  · exact hroot hname
  rcases Relation.ReflTransGen.cases_head hreach with rfl | ⟨p, hp, hreach⟩
  · exact harray
  · have hname := h.name_of_parent ha harray hp
    obtain rfl := ClassInfo.Reaches.eq_of_root (h.regular (h.built.mem_of_parent ha hp)) hname hreach
    exact hroot hname

end Classes

end ClassGraph

/-! ## Types over a graph -/

/-- The class of the type, or that of its elements, is one of the graph. -/
def RefType.IsOver (g : ClassGraph) : RefType ClassInfo → Prop
  | .object c => c ∈ g.classes
  | .objectArray _ c => c ∈ g.classes
  | .primitiveArray _ _ => True

/-- All types over the classes of a graph: base types, `void`, placeholders, classes and arrays. -/
def GraphType.IsOver (g : ClassGraph) : GraphType ClassInfo → Prop
  | .ref r => r.IsOver g
  | .base _ | .void | .unloadable _ => True

namespace RefType

theorem isSubtype_objectArray_iff {m n : Nat} {c d : ClassInfo} :
    isSubtype (.objectArray m c) (.objectArray n d) = true ↔
      m = n ∧ c.isSubclass d = true ∨ n < m ∧ isArraySupertype d.name = true := by
  rw [isSubtype]
  split
  · rename_i hdimensions
    simp [hdimensions]
  · rename_i hdimensions
    simp [hdimensions]

theorem isSubtype_primitiveArray_objectArray_iff {m n : Nat} {b : BaseType} {d : ClassInfo} :
    isSubtype (.primitiveArray m b) (.objectArray n d) = true ↔ n < m ∧ isArraySupertype d.name = true := by
  simp [isSubtype]

/-- An array of a base type has no other subtype. -/
theorem eq_of_isSubtype_primitiveArray {r : RefType ClassInfo} {n : Nat} {b : BaseType}
    (hsub : r.isSubtype (.primitiveArray n b) = true) : r = .primitiveArray n b := by
  cases r with
  | primitiveArray m a =>
    obtain ⟨rfl, rfl⟩ : m = n ∧ a = b := by simpa [isSubtype] using hsub
    rfl
  | _ => cases hsub

variable {g : ClassGraph} (h : g.Extended)
include h

/-- Arrays of a supertype of all arrays are below arrays of such supertypes only, with as many dimensions
    or with fewer. -/
theorem isSubtype_of_arraySupertype {m n : Nat} {c d : ClassInfo} (hc : c ∈ g.classes) (hd : d ∈ g.classes)
    (harray : isArraySupertype c.name = true) (hsub : isSubtype (.objectArray m c) (.objectArray n d) = true) :
    n ≤ m ∧ isArraySupertype d.name = true := by
  rcases isSubtype_objectArray_iff.mp hsub with ⟨rfl, hcd⟩ | ⟨hless, harray⟩
  · exact ⟨Nat.le_refl m, ClassGraph.isArraySupertype_of_isSubclass h hc hd harray hcd⟩
  · exact ⟨Nat.le_of_lt hless, harray⟩

theorem isSubtype_refl {r : RefType ClassInfo} (hr : r.IsOver g) : r.isSubtype r = true := by
  cases r with
  | object c => exact ClassGraph.isSubclass_refl h hr
  | objectArray m c => exact isSubtype_objectArray_iff.mpr (.inl ⟨rfl, ClassGraph.isSubclass_refl h hr⟩)
  | primitiveArray m b => simp [isSubtype]

theorem isSubtype_trans {r s t : RefType ClassInfo} (hr : r.IsOver g) (hs : s.IsOver g) (ht : t.IsOver g)
    (hrs : r.isSubtype s = true) (hst : s.isSubtype t = true) : r.isSubtype t = true := by
  cases t with
  | primitiveArray n b =>
    obtain rfl := eq_of_isSubtype_primitiveArray hst
    exact hrs
  | object e =>
    cases s with
    | object d =>
      cases r with
      | object c => exact ClassGraph.isSubclass_trans h hr hs ht hrs hst
      | objectArray _ _ => exact ClassGraph.isArraySupertype_of_isSubclass h hs ht hrs hst
      | primitiveArray _ _ => exact ClassGraph.isArraySupertype_of_isSubclass h hs ht hrs hst
    | objectArray _ _ =>
      cases r with
      | object _ => cases hrs
      | objectArray _ _ => exact hst
      | primitiveArray _ _ => exact hst
    | primitiveArray _ _ =>
      obtain rfl := eq_of_isSubtype_primitiveArray hrs
      exact hst
  | objectArray k e =>
    cases s with
    | object _ => cases hst
    | primitiveArray _ _ =>
      obtain rfl := eq_of_isSubtype_primitiveArray hrs
      exact hst
    | objectArray n d =>
      cases r with
      | object _ => cases hrs
      | primitiveArray m b =>
        obtain ⟨hless, harray⟩ := isSubtype_primitiveArray_objectArray_iff.mp hrs
        obtain ⟨hle, harray⟩ := isSubtype_of_arraySupertype h hs ht harray hst
        exact isSubtype_primitiveArray_objectArray_iff.mpr ⟨Nat.lt_of_le_of_lt hle hless, harray⟩
      | objectArray m c =>
        rcases isSubtype_objectArray_iff.mp hrs with ⟨rfl, hcd⟩ | ⟨hless, harray⟩
        · rcases isSubtype_objectArray_iff.mp hst with ⟨rfl, hde⟩ | hless
          · exact isSubtype_objectArray_iff.mpr (.inl ⟨rfl, ClassGraph.isSubclass_trans h hr hs ht hcd hde⟩)
          · exact isSubtype_objectArray_iff.mpr (.inr hless)
        · obtain ⟨hle, harray⟩ := isSubtype_of_arraySupertype h hs ht harray hst
          exact isSubtype_objectArray_iff.mpr (.inr ⟨Nat.lt_of_le_of_lt hle hless, harray⟩)

theorem isSubtype_antisymm {r s : RefType ClassInfo} (hr : r.IsOver g) (hs : s.IsOver g)
    (hrs : r.isSubtype s = true) (hsr : s.isSubtype r = true) : r = s := by
  cases r with
  | primitiveArray m b => exact (eq_of_isSubtype_primitiveArray hsr).symm
  | object c =>
    cases s with
    | object d => exact congrArg object (ClassGraph.isSubclass_antisymm h hr hs hrs hsr)
    | _ => cases hrs
  | objectArray m c =>
    cases s with
    | object d => cases hsr
    | primitiveArray n b => exact eq_of_isSubtype_primitiveArray hrs
    | objectArray n d =>
      rcases isSubtype_objectArray_iff.mp hrs with ⟨rfl, hcd⟩ | ⟨hless, -⟩
      · rcases isSubtype_objectArray_iff.mp hsr with ⟨-, hdc⟩ | ⟨hless, -⟩
        · exact congrArg (objectArray m) (ClassGraph.isSubclass_antisymm h hr hs hcd hdc)
        · omega
      · rcases isSubtype_objectArray_iff.mp hsr with ⟨rfl, -⟩ | ⟨hless', -⟩ <;> omega

/-- A name stands for one class of the graph. -/
theorem eq_of_map_name {r s : RefType ClassInfo} (hr : r.IsOver g) (hs : s.IsOver g)
    (hnames : r.map (·.name) = s.map (·.name)) : r = s := by
  cases r with
  | object c =>
    cases s with
    | object d =>
      injection hnames with hname
      exact congrArg object (h.built.eq_of_name hr hs hname)
    | _ => cases hnames
  | objectArray m c =>
    cases s with
    | objectArray n d =>
      injection hnames with hdimensions hname
      exact congrArg₂ objectArray hdimensions (h.built.eq_of_name hr hs hname)
    | _ => cases hnames
  | primitiveArray m b =>
    cases s with
    | primitiveArray n b' =>
      cases hnames
      rfl
    | _ => cases hnames

end RefType

namespace GraphType

variable {g : ClassGraph} (h : g.Extended) {a b : GraphType ClassInfo} (ha : a.IsOver g) (hb : b.IsOver g)
include h ha hb

theorem isSame_iff : a.isSame b = true ↔ a = b := by
  rw [isSame, beq_iff_eq]
  refine ⟨fun hnames => ?_, fun heq => heq ▸ rfl⟩
  cases a with
  | ref r =>
    cases b with
    | ref s =>
      injection hnames with hnames
      exact congrArg ref (RefType.eq_of_map_name h ha hb hnames)
    | _ => cases hnames
  | _ =>
    cases b <;> cases hnames
    rfl

/-- Only references have supertypes other than themselves. -/
theorem isSubtype_iff : a.isSubtype b = true ↔ a = b ∨ ∃ r s, a = .ref r ∧ b = .ref s ∧ r.isSubtype s = true := by
  rw [← isSame_iff h ha hb]
  cases a with
  | ref r =>
    cases b with
    | ref s =>
      refine ⟨fun hsub => .inr ⟨r, s, rfl, rfl, hsub⟩, fun hsub => ?_⟩
      rcases hsub with hsame | ⟨_, _, hr, hs, hsub⟩
      · cases (isSame_iff h ha hb).mp hsame
        exact RefType.isSubtype_refl h ha
      · cases hr
        cases hs
        exact hsub
    | _ => simp [isSubtype]
  | _ => simp [isSubtype]

end GraphType

/-- Being a subtype is a partial order on the types over the standard classes and any others beside
    them. -/
theorem isSubtype_is_partial_order {g : ClassGraph} (h : g.Extended) :
    (∀ a : GraphType ClassInfo, a.IsOver g → g.host.isSubtype a a = true) ∧
    (∀ a b c : GraphType ClassInfo, a.IsOver g → b.IsOver g → c.IsOver g →
      g.host.isSubtype a b = true → g.host.isSubtype b c = true → g.host.isSubtype a c = true) ∧
    ∀ a b : GraphType ClassInfo, a.IsOver g → b.IsOver g →
      g.host.isSubtype a b = true → g.host.isSubtype b a = true → a = b ∧ g.host.isSame a b = true := by
  refine ⟨fun a ha => (GraphType.isSubtype_iff h ha ha).mpr (.inl rfl), ?_, ?_⟩
  · intro a b c ha hb hc hab hbc
    rcases (GraphType.isSubtype_iff h ha hb).mp hab with rfl | ⟨r, s, rfl, rfl, hrs⟩
    · exact hbc
    rcases (GraphType.isSubtype_iff h hb hc).mp hbc with rfl | ⟨_, t, hs, rfl, hst⟩
    · exact hab
    cases hs
    exact RefType.isSubtype_trans h ha hb hc hrs hst
  · intro a b ha hb hab hba
    have heq : a = b := by
      rcases (GraphType.isSubtype_iff h ha hb).mp hab with rfl | ⟨r, s, rfl, rfl, hrs⟩
      · rfl
      · exact congrArg GraphType.ref (RefType.isSubtype_antisymm h ha hb hrs hba)
    exact ⟨heq, (GraphType.isSame_iff h ha hb).mpr heq⟩

/-! ## Two classes beside the standard ones -/

namespace Shapes

open StandardClasses

def shape : ClassInfo := bare "Shape" object [] plainInterface

def circle : ClassInfo := bare "Circle" object [shape, serializable] plainClass

def graph : ClassGraph := (ClassGraph.seed .empty |>.add shape).add circle

theorem extended_graph : graph.Extended := by
  have hshape : (ClassGraph.seed .empty |>.add shape).Extended :=
    .add .seed (by decide) (by simp [shape, ClassGraph.mem_seed, all]) ⟨by decide, object, rfl, fun _ => rfl⟩
  have hplain : circle.isInterface = false := by decide
  refine .add hshape (by decide) ?_ ⟨by decide, object, rfl, fun h => nomatch hplain.symm.trans h⟩
  intro p hp
  rw [ClassGraph.classes_add (by decide), List.mem_cons, ClassGraph.mem_seed]
  have hp : p = object ∨ p = shape ∨ p = serializable := by simpa [circle] using hp
  rcases hp with rfl | rfl | rfl
  · exact .inr (by simp [all])
  · exact .inl rfl
  · exact .inr (by simp [all])

theorem circle_mem : circle ∈ graph.classes := by
  have hfresh : ∀ d ∈ (ClassGraph.seed .empty |>.add shape).classes, d.name ≠ circle.name := by decide
  exact ClassGraph.classes_add hfresh ▸ List.mem_cons_self

theorem shape_parent : shape ∈ circle.parents true := by simp [circle]

theorem shape_mem : shape ∈ graph.classes := extended_graph.built.mem_of_parent circle_mem shape_parent

def circles : GraphType ClassInfo := .ref (.objectArray 1 circle)

def shapes : GraphType ClassInfo := .ref (.objectArray 1 shape)

def clones : GraphType ClassInfo := .ref (.objectArray 0 cloneable)

end Shapes

open Shapes in
theorem isSubtype_is_partial_order_shapes :
    graph.host.isSubtype circles shapes = true ∧ graph.host.isSubtype shapes clones = true ∧
      graph.host.isSubtype circles clones = true ∧ graph.host.isSubtype shapes circles = false := by
  obtain ⟨-, htrans, hantisymm⟩ := isSubtype_is_partial_order extended_graph
  have hclone : StandardClasses.cloneable ∈ graph.classes :=
    extended_graph.mem_of_standard (by simp [StandardClasses.all])
  have hup : graph.host.isSubtype circles shapes = true := by
    show RefType.isSubtype (.objectArray 1 circle) (.objectArray 1 shape) = true
    refine RefType.isSubtype_objectArray_iff.mpr (.inl ⟨rfl, ?_⟩)
    exact ClassGraph.isSubclass_of_reaches extended_graph circle_mem shape_mem (.single shape_parent)
  have hout : graph.host.isSubtype shapes clones = true := by
    show RefType.isSubtype (.objectArray 1 shape) (.objectArray 0 StandardClasses.cloneable) = true
    exact RefType.isSubtype_objectArray_iff.mpr (.inr ⟨Nat.zero_lt_one, rfl⟩)
  refine ⟨hup, hout, htrans circles shapes clones circle_mem shape_mem hclone hup hout, ?_⟩
  refine Bool.eq_false_iff.mpr fun hdown => ?_
  have hsame := (hantisymm circles shapes circle_mem shape_mem hup hdown).2
  exact absurd hsame (by decide)

end JvmClass
