/-
  JvmClass.Proofs.Graph.Reachability — the search for a supertype finds what is above a class.

  `ClassInfo.Reaches` goes from a class over its superclass and interfaces, as far as there are any.
  The search marks names when it meets them and drops the interfaces when it looks for a class. In a
  graph whose classes were added one by one under names of their own (`ClassGraph.Built`) neither
  loses anything:
  - a name stands for one class (`Built.eq_of_name`), so a class whose name has been met is pending,
    or it is not the one looked for and the names above it have been met too (`Frontier.Explored`);
    when nothing is pending, all that is above a met class is met (`not_reaches_of_search`);
  - above an interface are interfaces and the root only (`reaches_of_interface`), so the way to any
    other class takes no interface (`reaches_superclasses`).
  `isSubclass_iff_reaches` puts both together. That the search comes to an end is said of it as a
  loop without a count (`run_visit`).
-/

import JvmClass.Graph.StandardClasses
import JvmClass.Proofs.Trapping.Basic
import Mathlib.Logic.Relation

namespace JvmClass

/-! ## Ways to the supertypes -/

namespace ClassInfo

/-- Over superclasses, and over interfaces if they are asked for, the first class leads to the
    second. -/
def ReachesBy (withInterfaces : Bool) : ClassInfo → ClassInfo → Prop :=
  Relation.ReflTransGen fun c d => d ∈ c.parents withInterfaces

/-- The second class is the first one, or above it. -/
def Reaches : ClassInfo → ClassInfo → Prop := ReachesBy true

/-- The class refers to others as Java's classes do. -/
structure IsRegular (c : ClassInfo) : Prop where
  interfaces : ∀ i ∈ c.interfaces, i.isInterface = true
  superclass : c.isInterface = true → ∀ s, c.superclass = some s → s.name = objectName
  root : c.name = objectName → c.superclass = none ∧ c.interfaces = []

theorem mem_parents {withInterfaces : Bool} {c p : ClassInfo} : p ∈ c.parents withInterfaces ↔
    c.superclass = some p ∨ withInterfaces = true ∧ p ∈ c.interfaces := by
  cases withInterfaces <;> simp [parents]

theorem parents_subset {withInterfaces : Bool} {c p : ClassInfo} (h : p ∈ c.parents withInterfaces) :
    p ∈ c.parents true := by
  rw [mem_parents] at h ⊢
  exact h.imp_right fun hi => ⟨rfl, hi.2⟩

theorem ReachesBy.reaches {withInterfaces : Bool} {c d : ClassInfo} (h : c.ReachesBy withInterfaces d) :
    c.Reaches d :=
  Relation.ReflTransGen.mono (fun _ _ => parents_subset) _ _ h

end ClassInfo

/-! ## Graphs -/

namespace ClassGraph

/-- The classes were added one by one, each under a name of its own and after those it refers to. -/
inductive Built : ClassGraph → Prop
  | empty : Built .empty
  | add {g : ClassGraph} {c : ClassInfo} (built : Built g) (fresh : ∀ d ∈ g.classes, d.name ≠ c.name)
      (parents : ∀ p ∈ c.parents true, p ∈ g.classes) : Built (g.add c)

variable {g : ClassGraph} {c d : ClassInfo}

/-- A class under a new name takes no other's place. -/
theorem classes_add (fresh : ∀ d ∈ g.classes, d.name ≠ c.name) : (g.add c).classes = c :: g.classes := by
  unfold add
  rw [List.filter_eq_self.mpr fun d hd => bne_iff_ne.mpr (fresh d hd)]

namespace Built

theorem eq_of_name (h : g.Built) (hc : c ∈ g.classes) (hd : d ∈ g.classes) (hname : c.name = d.name) : c = d := by
  induction h with
  | empty => cases hc
  | add _ fresh _ ih =>
    rw [classes_add fresh, List.mem_cons] at hc hd
    rcases hc with rfl | hc
    · rcases hd with rfl | hd
      · rfl
      · exact absurd hname.symm (fresh d hd)
    · rcases hd with rfl | hd
      · exact absurd hname (fresh c hc)
      · exact ih hc hd

theorem mem_of_parent (h : g.Built) (hc : c ∈ g.classes) {p : ClassInfo} (hp : p ∈ c.parents true) :
    p ∈ g.classes := by
  induction h with
  | empty => cases hc
  | add _ fresh parents ih =>
    rw [classes_add fresh, List.mem_cons] at hc ⊢
    rcases hc with rfl | hc
    · exact .inr (parents p hp)
    · exact .inr (ih hc)

theorem mem_of_reaches (h : g.Built) (hc : c ∈ g.classes) (hreach : c.Reaches d) : d ∈ g.classes := by
  induction hreach with
  | refl => exact hc
  | tail _ hstep ih => exact h.mem_of_parent ih hstep

end Built

/-- The classes of a built graph, with another before them. -/
theorem Built.cons {cs : List ClassInfo} (h : Built ⟨cs⟩) (fresh : ∀ d ∈ cs, d.name ≠ c.name)
    (parents : ∀ p ∈ c.parents true, p ∈ cs) : Built ⟨c :: cs⟩ := by
  have hadd : ClassGraph.add ⟨cs⟩ c = ⟨c :: cs⟩ := congrArg ClassGraph.mk (classes_add (g := ⟨cs⟩) fresh)
  exact hadd ▸ h.add fresh parents

/-! ## Interfaces -/

section Regular

variable (h : g.Built) (hregular : ∀ c ∈ g.classes, c.IsRegular) (hc : c ∈ g.classes)
include h hregular hc

/-- Above an interface there are interfaces, and the root. -/
theorem reaches_of_interface (hinterface : c.isInterface = true) (hreach : c.Reaches d) :
    d.isInterface = true ∨ d.name = objectName := by
  induction hreach with
  | refl => exact .inl hinterface
  | @tail d e hd he ih =>
    have hregular := hregular d (h.mem_of_reaches hc hd)
    rcases ih with hd | hd
    · rcases ClassInfo.mem_parents.mp he with he | ⟨-, he⟩
      · exact .inr (hregular.superclass hd e he)
      · exact .inl (hregular.interfaces e he)
    · obtain ⟨hsuper, hinterfaces⟩ := hregular.root hd
      simp [ClassInfo.parents, hsuper, hinterfaces] at he

/-- The way to a class other than the root leads over superclasses alone. -/
theorem reaches_superclasses (hclass : d.isInterface = false) (hroot : d.name ≠ objectName) (hreach : c.Reaches d) :
    c.ReachesBy false d := by
  induction hreach using Relation.ReflTransGen.head_induction_on with
  | refl => exact .refl
  | @head c p hp hd ih =>
    have hp' := h.mem_of_parent hc hp
    rcases ClassInfo.mem_parents.mp hp with hsuper | ⟨-, hinterface⟩
    · exact .head (ClassInfo.mem_parents.mpr (.inl hsuper)) (ih hp')
    · have hinterface := (hregular c hc).interfaces p hinterface
      rcases reaches_of_interface h hregular hp' hinterface hd with hd | hd
      · rw [hclass] at hd
        cases hd
      · exact absurd hd hroot

end Regular

end ClassGraph

/-! ## The search -/

namespace Frontier

variable {g : ClassGraph} {f : Frontier} {c : ClassInfo} {withInterfaces : Bool} {name : String}

/-- Of the classes that are met, those with new names become pending, and no others do. -/
theorem exists_discoverAll (f : Frontier) (cs : List ClassInfo) : ∃ new : List ClassInfo, (∀ c ∈ new, c ∈ cs) ∧
    f.discoverAll cs = ⟨new.map (·.name) ++ f.met, new ++ f.pending⟩ ∧
    ∀ c ∈ cs, c.name ∈ (f.discoverAll cs).met := by
  induction cs generalizing f with
  | nil => exact ⟨[], fun _ h => h, rfl, fun _ h => nomatch h⟩
  | cons c cs ih =>
    obtain ⟨new, hnew, heq, hmet⟩ := ih (f.discover c)
    have hcons : f.discoverAll (c :: cs) = (f.discover c).discoverAll cs := rfl
    rw [hcons]
    by_cases hold : f.met.contains c.name = true
    · rw [discover, if_pos hold] at heq hmet ⊢
      refine ⟨new, fun d hd => List.mem_cons_of_mem c (hnew d hd), heq, List.forall_mem_cons.mpr ⟨?_, hmet⟩⟩
      rw [heq]
      exact List.mem_append_right _ (List.contains_iff_mem.mp hold)
    · rw [discover, if_neg hold] at heq hmet ⊢
      refine ⟨new ++ [c], ?_, by simpa using heq, List.forall_mem_cons.mpr ⟨?_, hmet⟩⟩
      · intro d hd
        rcases List.mem_append.mp hd with hd | hd
        · exact List.mem_cons_of_mem c (hnew d hd)
        · exact List.mem_singleton.mp hd ▸ List.mem_cons_self
      · rw [heq]
        exact List.mem_append_right _ List.mem_cons_self

/-- What is found is above a pending class. -/
theorem reaches_of_search (h : f.search withInterfaces name = true) :
    ∃ c ∈ f.pending, ∃ d, c.ReachesBy withInterfaces d ∧ d.name = name := by
  fun_induction search withInterfaces name f with
  | case1 => cases h
  | case2 f c rest hpending ih =>
    rw [Bool.or_eq_true, beq_iff_eq] at h
    rcases h with h | h
    · exact ⟨c, hpending ▸ List.mem_cons_self, c, .refl, h⟩
    · obtain ⟨c', hc', d, hd, hname⟩ := ih h
      obtain ⟨new, hnew, heq, -⟩ := exists_discoverAll ⟨f.met, rest⟩ (c.parents withInterfaces)
      rw [heq] at hc'
      rw [hpending]
      rcases List.mem_append.mp hc' with hc' | hc'
      · exact ⟨c, List.mem_cons_self, d, .head (hnew c' hc') hd, hname⟩
      · exact ⟨c', List.mem_cons_of_mem c hc', d, hd, hname⟩

/-- A class of the graph whose name has been met is pending, or it is not the one looked for and the
    names of its parents have been met too. -/
structure Explored (g : ClassGraph) (withInterfaces : Bool) (name : String) (f : Frontier) : Prop where
  pending : ∀ c ∈ f.pending, c ∈ g.classes
  met : ∀ c ∈ g.classes, c.name ∈ f.met →
    c ∈ f.pending ∨ c.name ≠ name ∧ ∀ p ∈ c.parents withInterfaces, p.name ∈ f.met

theorem explored_start (h : g.Built) (hc : c ∈ g.classes) : Explored g withInterfaces name ⟨[c.name], [c]⟩ where
  pending _ hd := List.mem_singleton.mp hd ▸ hc
  met d hd hmet := by
    obtain rfl := h.eq_of_name hd hc (List.mem_singleton.mp hmet)
    exact .inl List.mem_cons_self

theorem explored_step (h : g.Built) {met : List String} {rest : List ClassInfo}
    (hf : Explored g withInterfaces name ⟨met, c :: rest⟩) (hname : c.name ≠ name) :
    Explored g withInterfaces name (discoverAll ⟨met, rest⟩ (c.parents withInterfaces)) := by
  obtain ⟨new, hnew, heq, hparents⟩ := exists_discoverAll ⟨met, rest⟩ (c.parents withInterfaces)
  rw [heq] at hparents ⊢
  have hc := hf.pending c List.mem_cons_self
  have hnew' : ∀ d ∈ new, d ∈ g.classes :=
    fun d hd => h.mem_of_parent hc (ClassInfo.parents_subset (hnew d hd))
  constructor
  · intro d hd
    rcases List.mem_append.mp hd with hd | hd
    · exact hnew' d hd
    · exact hf.pending d (List.mem_cons_of_mem c hd)
  · intro d hd hmet
    rcases List.mem_append.mp hmet with hmet | hmet
    · obtain ⟨e, he, hsame⟩ := List.mem_map.mp hmet
      obtain rfl := h.eq_of_name (hnew' e he) hd hsame
      exact .inl (List.mem_append_left _ he)
    · rcases hf.met d hd hmet with hd | ⟨hother, hmet⟩
      · rcases List.mem_cons.mp hd with rfl | hd
        · exact .inr ⟨hname, hparents⟩
        · exact .inl (List.mem_append_right _ hd)
      · exact .inr ⟨hother, fun p hp => List.mem_append_right _ (hmet p hp)⟩

/-- When nothing is found, no class above one that has been met has the name. -/
theorem not_reaches_of_search (h : g.Built) (hf : Explored g withInterfaces name f)
    (hsearch : f.search withInterfaces name = false) (hc : c ∈ g.classes) (hmet : c.name ∈ f.met) {d : ClassInfo}
    (hreach : c.ReachesBy withInterfaces d) : d.name ≠ name := by
  fun_induction search withInterfaces name f with
  | case1 f hpending =>
    -- nothing is pending: the names that have been met are closed under parents
    have hknown (c : ClassInfo) (hc : c ∈ g.classes) (hmet : c.name ∈ f.met) :
        c.name ≠ name ∧ ∀ p ∈ c.parents withInterfaces, p.name ∈ f.met :=
      (hf.met c hc hmet).resolve_left fun hc => by
        rw [hpending] at hc
        cases hc
    have habove : d ∈ g.classes ∧ d.name ∈ f.met := by
      induction hreach with
      | refl => exact ⟨hc, hmet⟩
      | tail _ hstep ih =>
        exact ⟨h.mem_of_parent ih.1 (ClassInfo.parents_subset hstep), (hknown _ ih.1 ih.2).2 _ hstep⟩
    exact (hknown d habove.1 habove.2).1
  | case2 f b rest hpending ih =>
    obtain ⟨hother, hsearch⟩ := Bool.or_eq_false_iff.mp hsearch
    obtain ⟨met, pending⟩ := f
    obtain rfl : pending = b :: rest := hpending
    refine ih (explored_step h hf (beq_eq_false_iff_ne.mp hother)) hsearch ?_
    obtain ⟨new, -, heq, -⟩ := exists_discoverAll ⟨met, rest⟩ (b.parents withInterfaces)
    rw [heq]
    exact List.mem_append_right _ hmet

/-- From a class on, the search finds what it leads to. -/
theorem search_iff_reachesBy (h : g.Built) {a b : ClassInfo} (ha : a ∈ g.classes) (hb : b ∈ g.classes) :
    search withInterfaces b.name ⟨[a.name], [a]⟩ = true ↔ a.ReachesBy withInterfaces b := by
  constructor
  · intro hsearch
    obtain ⟨_, hc, d, hreach, hname⟩ := reaches_of_search hsearch
    obtain rfl := List.mem_singleton.mp hc
    obtain rfl := h.eq_of_name (h.mem_of_reaches ha hreach.reaches) hb hname
    exact hreach
  · intro hreach
    by_contra hsearch
    exact not_reaches_of_search h (explored_start h ha) (Bool.eq_false_iff.mpr hsearch) ha List.mem_cons_self hreach rfl

/-! ## The search as a loop -/

/-- One class is taken off the pending ones and compared with the name; if it is another, its parents are
    met. -/
def visit (withInterfaces : Bool) (name : String) : Trapping.Loop Frontier Bool := fun f =>
  match f.pending with
  | [] => some (.inr false)
  | c :: rest =>
    if c.name = name then some (.inr true)
    else some (.inl (discoverAll ⟨f.met, rest⟩ (c.parents withInterfaces)))

/-- However many classes there are, the search comes to an end. -/
theorem run_visit (withInterfaces : Bool) (name : String) (f : Frontier) :
    (visit withInterfaces name).run f = some (f.search withInterfaces name) := by
  fun_induction search withInterfaces name f with
  | case1 f hpending => exact Trapping.Loop.run_of_done (by rw [visit, hpending])
  | case2 f c rest hpending ih =>
    by_cases hname : c.name = name
    · rw [Trapping.Loop.run_of_done (by rw [visit, hpending]; exact if_pos hname), beq_iff_eq.mpr hname, Bool.true_or]
    · rw [Trapping.Loop.run_of_next (by rw [visit, hpending]; exact if_neg hname), ih, beq_eq_false_iff_ne.mpr hname,
        Bool.false_or]

end Frontier

/-- Among the classes of a graph, the supertypes of a class are the root and what it leads to. The search
    for them ends. -/
theorem isSubclass_iff_reaches {g : ClassGraph} (h : g.Built) (hregular : ∀ c ∈ g.classes, c.IsRegular)
    {a b : ClassInfo} (ha : a ∈ g.classes) (hb : b ∈ g.classes) :
    (a.isSubclass b = true ↔ b.name = objectName ∨ a.Reaches b) ∧
      ∃ found, (Frontier.visit b.isInterface b.name).run ⟨[a.name], [a]⟩ = some found ∧
        a.isSubclass b = (found || b.name == objectName) := by
  refine ⟨?_, _, Frontier.run_visit _ _ _, rfl⟩
  rw [ClassInfo.isSubclass, Bool.or_eq_true, beq_iff_eq, Frontier.search_iff_reachesBy h ha hb, or_comm]
  by_cases hroot : b.name = objectName
  · exact iff_of_true (.inl hroot) (.inl hroot)
  · refine or_congr_right ⟨ClassInfo.ReachesBy.reaches, fun hreach => ?_⟩
    cases hinterface : b.isInterface with
    | true => exact hreach
    | false => exact ClassGraph.reaches_superclasses h hregular ha hinterface hroot hreach

/-! ## A graph with two ways to the top -/

namespace Diamond

open StandardClasses

def root : ClassInfo := bare objectName none [] plainClass

def top : ClassInfo := bare "Top" root [] plainInterface

def left : ClassInfo := bare "Left" root [top] plainInterface

def right : ClassInfo := bare "Right" root [top] plainInterface

def base : ClassInfo := bare "Base" root [left, right] plainClass

def leaf : ClassInfo := bare "Leaf" base [] plainClass

def graph : ClassGraph := ⟨[leaf, base, right, left, top, root]⟩

theorem built_graph : graph.Built := by
  have hroot : ClassGraph.Built ⟨[root]⟩ := .cons .empty (fun _ h => nomatch h) (fun _ h => nomatch h)
  have htop : ClassGraph.Built ⟨[top, root]⟩ :=
    hroot.cons (by decide +kernel) (by simp [ClassInfo.parents, top, bare])
  have hleft : ClassGraph.Built ⟨[left, top, root]⟩ :=
    htop.cons (by decide +kernel) (by simp [ClassInfo.parents, left, bare])
  have hright : ClassGraph.Built ⟨[right, left, top, root]⟩ :=
    hleft.cons (by decide +kernel) (by simp [ClassInfo.parents, right, bare])
  have hbase : ClassGraph.Built ⟨[base, right, left, top, root]⟩ :=
    hright.cons (by decide +kernel) (by simp [ClassInfo.parents, base, bare])
  exact hbase.cons (by decide +kernel) (by simp [ClassInfo.parents, leaf, bare])

theorem regular_graph : ∀ c ∈ graph.classes, c.IsRegular := by
  have hinterface {name : String} {is : List ClassInfo} (hname : name ≠ objectName)
      (his : ∀ i ∈ is, i.isInterface = true) : (bare name root is plainInterface).IsRegular :=
    ⟨his, fun _ _ hs => by cases hs; rfl, fun h => absurd h hname⟩
  have hplain : (Access.ofBits .ofClass plainClass).has accInterface = false := by decide
  have hclass {name : String} {s : ClassInfo} {is : List ClassInfo} (hname : name ≠ objectName)
      (his : ∀ i ∈ is, i.isInterface = true) : (bare name s is plainClass).IsRegular :=
    ⟨his, fun h => (nomatch hplain.symm.trans h), fun h => absurd h hname⟩
  have hroot : root.IsRegular := ⟨fun _ h => (nomatch h), fun h => absurd h (by decide), fun _ => ⟨rfl, rfl⟩⟩
  have htop : top.IsRegular := hinterface (by decide +kernel) (by decide +kernel)
  have hleft : left.IsRegular := hinterface (by decide +kernel) (by decide +kernel)
  have hright : right.IsRegular := hinterface (by decide +kernel) (by decide +kernel)
  have hbase : base.IsRegular := hclass (by decide +kernel) (by decide +kernel)
  have hleaf : leaf.IsRegular := hclass (by decide +kernel) (by decide +kernel)
  simpa [graph] using ⟨hleaf, hbase, hright, hleft, htop, hroot⟩

end Diamond

open Diamond in
theorem isSubclass_iff_reaches_diamond :
    leaf.Reaches top ∧ leaf.isSubclass top = true ∧ ¬top.Reaches leaf ∧ top.isSubclass leaf = false := by
  have hleaf : leaf ∈ graph.classes := List.mem_cons_self
  have htop : top ∈ graph.classes := by simp [graph]
  have hup : leaf.Reaches top :=
    .head (b := base) (ClassInfo.mem_parents.mpr (.inl rfl))
      (.head (b := right) (by simp [ClassInfo.parents, base, StandardClasses.bare])
        (.single (ClassInfo.mem_parents.mpr (.inr ⟨rfl, List.mem_cons_self⟩))))
  have hdown : ¬(leaf.name = objectName ∨ top.Reaches leaf) := by
    rintro (h | h)
    · exact absurd h (by decide +kernel)
    · exact absurd (ClassGraph.reaches_of_interface built_graph regular_graph htop rfl h) (by decide +kernel)
  refine ⟨hup, ?_, fun h => hdown (.inr h), ?_⟩
  · exact (isSubclass_iff_reaches built_graph regular_graph hleaf htop).1.mpr (.inr hup)
  · exact Bool.eq_false_iff.mpr fun h => hdown ((isSubclass_iff_reaches built_graph regular_graph htop hleaf).1.mp h)

end JvmClass
