/-
  JvmClass.Proofs.Pool.Patching — a list of patches applies as a whole or not at all.

  - A patch fits exactly the constants that `DraftEntry.Takes` lists, and makes of them what it says
    (`DraftEntry.patched_eq_ok_iff`, `Draft.exists_patch_eq_ok_iff`).
  - In place, texts are kept apart from the other constants (`Storage`). Whatever is to be written is
    known before the first slot is, so a patch that does not fit leaves both tables alone, wherever it
    stands in the list (`Storage.run_patch_storage`).
  - What a constant is resolved to depends on the slots that it refers to, directly or through others,
    and on nothing else (`Draft.Agree.item_eq`), so a patch reaches no further than those that refer to
    its slot.
  `patching_is_atomic_and_exact` says all three of any draft and any list of patches.
-/

import JvmClass.Proofs.Pool.Addressing
import JvmClass.Proofs.Pool.Locality
import JvmClass.Proofs.Pool.Upkeep
import Mathlib.Logic.Relation

namespace JvmClass

variable {T F M : Type}

/-! ## The slots with the patches laid over them -/

section Overlaid

/-- Each slot with its patch, if there is one. -/
theorem getElem?_zip_patches {entries : List (DraftEntry T)} {patches : List (Option (Patch T))}
    (hlength : patches.length ≤ entries.length) (k : Nat) :
    ((entries.zip (patches ++ List.replicate (entries.length - patches.length) none)).zipIdx)[k]? =
      entries[k]?.map fun e => ((e, patches[k]?.join), k) := by
  rw [List.getElem?_zipIdx, List.zip_eq_zipWith, List.getElem?_zipWith]
  cases hk : entries[k]? with
  | none => rfl
  | some e =>
    have hlt : k < entries.length := (List.getElem?_eq_some_iff.mp hk).1
    by_cases hpatch : k < patches.length
    · rw [List.getElem?_append_left hpatch, List.getElem?_eq_getElem hpatch]
      simp
    · rw [List.getElem?_append_right (Nat.le_of_not_lt hpatch), List.getElem?_replicate,
        if_pos (by omega), List.getElem?_eq_none (Nat.le_of_not_lt hpatch)]
      simp

variable [ToString T]

/-- The slots from `slot` on with the patches laid over them; behind the patches there are none. -/
def overlaid (slot : Nat) (entries : List (DraftEntry T)) (patches : List (Option (Patch T))) :
    Except Error (List (DraftEntry T)) :=
  ((entries.zip (patches ++ List.replicate (entries.length - patches.length) none)).zipIdx slot).mapM
    fun ((e, p), slot) => e.patchedWith slot p

theorem overlaid_nil (slot : Nat) (entries : List (DraftEntry T)) : overlaid slot entries [] = .ok entries := by
  induction entries generalizing slot with
  | nil => rfl
  | cons e entries ih =>
    have hrest := ih (slot + 1)
    unfold overlaid at hrest ⊢
    simp only [List.nil_append, List.length_nil, Nat.sub_zero] at hrest ⊢
    rw [List.length_cons, List.replicate_succ, List.zip_cons_cons, List.zipIdx_cons, List.mapM_cons, hrest]
    rfl

theorem overlaid_cons (slot : Nat) (e : DraftEntry T) (entries : List (DraftEntry T)) (p : Option (Patch T))
    (patches : List (Option (Patch T))) :
    overlaid slot (e :: entries) (p :: patches) = (do
      let e' ← e.patchedWith slot p
      let entries' ← overlaid (slot + 1) entries patches
      return e' :: entries') := by
  unfold overlaid
  rw [List.length_cons, List.length_cons, Nat.add_sub_add_right, List.cons_append, List.zip_cons_cons, List.zipIdx_cons,
    List.mapM_cons]

theorem Draft.patch_eq_overlaid {d : Draft T} {input : String} {patches : List (Option (Patch T))}
    (h : ¬d.size < patches.length) :
    d.patch input patches = ((overlaid 0 d.entries patches).map Draft.mk).mapError (·.inClass input) := by
  unfold Draft.patch overlaid
  rw [if_neg h]
  unfold Draft.size
  dsimp only
  split <;> (rename_i heq; rw [heq]; rfl)

theorem Draft.patch_nil (d : Draft T) (input : String) : d.patch input [] = .ok d := by
  rw [patch_eq_overlaid (Nat.not_lt_zero _), overlaid_nil]
  rfl

end Overlaid

/-! ## What a patch makes of a constant -/

/-- The patch fits the constant, and this is what it makes of it. -/
inductive DraftEntry.Takes : DraftEntry T → Patch T → DraftEntry T → Prop
  | text (old new : String) : Takes (.text old) (.text new) (.text new)
  /-- A type that the class was bound to before is dropped. -/
  | rename (name : Index) (renamed : Option String) (bound : Option T) (text : String) :
      Takes (.cls name renamed bound) (.text text) (.cls name (some (dotted text)) none)
  /-- A name that the class was given before is kept. -/
  | bind (name : Index) (renamed : Option String) (bound : Option T) (t : T) :
      Takes (.cls name renamed bound) (.type t) (.cls name renamed (some t))
  | int (old new : Int32) : Takes (.literal (.int old)) (.literal (.int new)) (.literal (.int new))
  | float (old new : UInt32) : Takes (.literal (.float old)) (.literal (.float new)) (.literal (.float new))
  | long (old new : Int64) : Takes (.literal (.long old)) (.literal (.long new)) (.literal (.long new))
  | double (old new : UInt64) : Takes (.literal (.double old)) (.literal (.double new)) (.literal (.double new))
  | liveText (text : Index) (value : String) : Takes (.string text) (.text value) (.live (.text value))
  | live (text : Index) (value : LiveObject) : Takes (.string text) (.object value) (.live value)

namespace DraftEntry

theorem takes_literal {old new : Literal} (h : old.kindName = new.kindName) :
    Takes (T := T) (.literal old) (.literal new) (.literal new) := by
  cases old <;> cases new <;> first | constructor | simp [Literal.kindName] at h

variable [ToString T]

theorem patched_eq_ok_iff {slot : Nat} {e e' : DraftEntry T} {p : Patch T} :
    e.patched slot p = .ok e' ↔ e.Takes p e' := by
  constructor
  · intro h
    cases e with
    | literal old =>
      cases p with
      | literal new =>
        rw [patched] at h
        split at h
        · rename_i hkind
          cases h
          exact takes_literal hkind
        · cases h
      | _ => cases h
    | _ => cases p <;> cases h <;> constructor
  · intro h
    cases h <;> rfl

end DraftEntry

namespace Draft

variable [ToString T] {d d' : Draft T} {input : String} {patches : List (Option (Patch T))}

theorem patch_eq_ok_iff : d.patch input patches = .ok d' ↔ patches.length ≤ d.size ∧
    ∃ entries, overlaid 0 d.entries patches = .ok entries ∧ d' = ⟨entries⟩ := by
  by_cases hlength : d.size < patches.length
  · rw [patch, if_pos hlength]
    exact iff_of_false (fun h => nomatch h) fun h => absurd hlength (Nat.not_lt_of_le h.1)
  · rw [patch_eq_overlaid hlength, Except.mapError_eq_ok, Except.map_eq_ok]
    constructor
    · intro ⟨entries, hentries, h⟩
      exact ⟨Nat.le_of_not_lt hlength, entries, hentries, h.symm⟩
    · intro ⟨_, entries, hentries, h⟩
      exact ⟨entries, hentries, h.symm⟩

/-- A slot without a patch keeps its constant, any other takes its patch. -/
theorem getElem?_of_patch (h : d.patch input patches = .ok d') {slot : Nat} {e : DraftEntry T}
    (he : d.entries[slot]? = some e) :
    ∃ e', d'.entries[slot]? = some e' ∧ e.patchedWith slot patches[slot]?.join = .ok e' := by
  obtain ⟨hlength, entries, hentries, rfl⟩ := patch_eq_ok_iff.mp h
  have hslot := congrArg (·[slot]?) (List.mapM_eq_ok_iff.mp hentries)
  simp only [List.getElem?_map, getElem?_zip_patches hlength, he, Option.map_some] at hslot
  obtain ⟨e', he', hpatched⟩ := Option.map_eq_some_iff.mp hslot.symm
  exact ⟨e', he', hpatched.symm⟩

/-- The patches apply if none of them is for a slot that is not there and each fits its slot. -/
theorem exists_patch_eq_ok_iff : (∃ d', d.patch input patches = .ok d') ↔ patches.length ≤ d.size ∧
    ∀ (slot : Nat) p, patches[slot]? = some (some p) → ∃ e e', d.entries[slot]? = some e ∧ e.Takes p e' := by
  have hall : (∃ d', d.patch input patches = .ok d') ↔ patches.length ≤ d.size ∧
      ∃ entries, overlaid 0 d.entries patches = .ok entries := by
    simp only [patch_eq_ok_iff]
    exact ⟨fun ⟨_, hlength, entries, h, _⟩ => ⟨hlength, entries, h⟩,
      fun ⟨hlength, entries, h⟩ => ⟨_, hlength, entries, h, rfl⟩⟩
  rw [hall]
  refine and_congr_right fun hlength => ?_
  unfold overlaid
  rw [List.exists_mapM_eq_ok_iff]
  constructor
  · intro h slot p hp
    have hlt : slot < d.entries.length := Nat.lt_of_lt_of_le (List.getElem?_eq_some_iff.mp hp).1 hlength
    obtain ⟨e', he'⟩ := h ((d.entries[slot], some p), slot) (by
      rw [List.mem_iff_getElem?]
      exact ⟨slot, by simp [getElem?_zip_patches hlength, hlt, hp]⟩)
    exact ⟨d.entries[slot], e', List.getElem?_eq_getElem hlt, DraftEntry.patched_eq_ok_iff.mp he'⟩
  · intro h a ha
    obtain ⟨slot, hslot⟩ := List.mem_iff_getElem?.mp ha
    rw [getElem?_zip_patches hlength] at hslot
    obtain ⟨e, he, rfl⟩ := Option.map_eq_some_iff.mp hslot
    cases hp : patches[slot]?.join with
    | none => exact ⟨e, rfl⟩
    | some p =>
      obtain ⟨e₀, e', he₀, htakes⟩ := h slot p (Option.join_eq_some_iff.mp hp)
      cases he.symm.trans he₀
      exact ⟨e', DraftEntry.patched_eq_ok_iff.mpr htakes⟩

end Draft

/-! ## In place -/

/-- The slots as they are kept while constants are patched: texts in one table, all other constants in
    another. A slot is empty in at least one of them. -/
structure Storage (T : Type) where
  texts : List (Option String)
  items : List (Option (DraftEntry T))

/-- What is to be written into a slot. -/
inductive Replacement (T : Type)
  | text (value : String)
  | item (e : DraftEntry T)

namespace Storage

/-- Nothing is written yet. -/
def replacement [ToString T] (s : Storage T) (slot : Nat) (p : Patch T) : Except Error (Replacement T) :=
  match s.texts[slot]?.join, p with
  | some _, .text value => .ok (.text value)
  | some old, p => .error (DraftEntry.misfit slot (.text old) p)
  | none, p =>
    match s.items[slot]?.join with
    | some e => (e.patched slot p).map .item
    | none => .error (.notImplemented (.patchOfEmptySlot slot))

/-- The replacements that a list of patches asks for, those of the slots from `slot` on. -/
def replacements [ToString T] (s : Storage T) (slot : Nat) :
    List (Option (Patch T)) → Except Error (List (Nat × Replacement T))
  | [] => .ok []
  | none :: patches => s.replacements (slot + 1) patches
  | some p :: patches => do
    let r ← s.replacement slot p
    return (slot, r) :: (← s.replacements (slot + 1) patches)

def write (s : Storage T) : Nat × Replacement T → Storage T
  | (slot, .text value) => { s with texts := s.texts.set slot (some value) }
  | (slot, .item e) => { s with items := s.items.set slot (some e) }

/-- First finds out what is to be written, then writes it, slot by slot. -/
def patch [ToString T] (input : String) (patches : List (Option (Patch T))) : EStateM Error (Storage T) Unit := do
  let s ← get
  if s.items.length < patches.length then
    throw (.format (some input) (.tooManyPatches patches.length s.items.length))
  else
    match s.replacements 0 patches with
    | .error e => throw (e.inClass input)
    | .ok replacements => replacements.forM fun r => modify (·.write r)

end Storage

namespace DraftEntry

def text? : DraftEntry T → Option String
  | .text value => some value
  | _ => none

def item? : DraftEntry T → Option (DraftEntry T)
  | .vacant | .text _ => none
  | e => some e

def replacement : DraftEntry T → Replacement T
  | .text value => .text value
  | e => .item e

end DraftEntry

def Draft.storage (d : Draft T) : Storage T := ⟨d.entries.map DraftEntry.text?, d.entries.map DraftEntry.item?⟩

namespace Storage

theorem replacement_storage [ToString T] {d : Draft T} {slot : Nat} {e : DraftEntry T} (he : d.entries[slot]? = some e)
    (p : Patch T) : d.storage.replacement slot p = (e.patched slot p).map DraftEntry.replacement := by
  have htext : d.storage.texts[slot]?.join = e.text? := by simp [Draft.storage, he]
  have hitem : d.storage.items[slot]?.join = e.item? := by simp [Draft.storage, he]
  unfold replacement
  rw [htext, hitem]
  cases e with
  | literal old =>
    cases p with
    | literal new =>
      have hpatched : DraftEntry.patched (T := T) slot (.literal old) (.literal new) =
          if old.kindName = new.kindName then .ok (.literal new)
          else .error (DraftEntry.misfit slot (.literal old) (.literal new)) := rfl
      show (DraftEntry.patched (T := T) slot (.literal old) (.literal new)).map Replacement.item = _
      rw [hpatched]
      split <;> rfl
    | _ => rfl
  | _ => cases p <;> rfl

theorem write_storage {before after : List (DraftEntry T)} {e e' : DraftEntry T} {p : Patch T} (h : e.Takes p e') :
    (Draft.mk (before ++ e :: after)).storage.write (before.length, e'.replacement) =
      (Draft.mk (before ++ e' :: after)).storage := by
  cases h <;> simp [Draft.storage, write, DraftEntry.replacement, DraftEntry.text?, DraftEntry.item?]

/-- Writing the replacements one by one changes the slots from `slot` on into these. -/
def Turns (slot : Nat) (entries : List (DraftEntry T)) (replacements : List (Nat × Replacement T))
    (entries' : List (DraftEntry T)) : Prop :=
  ∀ before : List (DraftEntry T), before.length = slot →
    replacements.foldl write (Draft.mk (before ++ entries)).storage = (Draft.mk (before ++ entries')).storage

section Turns

variable {slot : Nat} {entries entries' : List (DraftEntry T)} {replacements : List (Nat × Replacement T)}

theorem Turns.keep (h : Turns (slot + 1) entries replacements entries') (e : DraftEntry T) :
    Turns slot (e :: entries) replacements (e :: entries') := by
  intro before hbefore
  simpa using h (before ++ [e]) (by simp [hbefore])

theorem Turns.write (h : Turns (slot + 1) entries replacements entries') {e e' : DraftEntry T} {p : Patch T}
    (htakes : e.Takes p e') : Turns slot (e :: entries) ((slot, e'.replacement) :: replacements) (e' :: entries') := by
  intro before hbefore
  subst hbefore
  rw [List.foldl_cons, write_storage htakes]
  exact h.keep e' before rfl

end Turns

variable [ToString T] {d d' : Draft T} {input : String} {patches : List (Option (Patch T))}

/-- Either some patch does not fit, the first such one is reported and nothing is to be written, or what is
    to be written makes of the draft what the patches ask for. -/
theorem replacements_storage {before entries : List (DraftEntry T)} (hd : d.entries = before ++ entries)
    (hlength : patches.length ≤ entries.length) :
    (∀ e, overlaid before.length entries patches = .error e → d.storage.replacements before.length patches = .error e) ∧
    ∀ entries', overlaid before.length entries patches = .ok entries' → ∃ replacements,
      d.storage.replacements before.length patches = .ok replacements ∧
        Turns before.length entries replacements entries' := by
  induction patches generalizing before entries with
  | nil =>
    rw [overlaid_nil]
    refine ⟨fun _ h => (nomatch h), fun entries' h => ?_⟩
    cases h
    exact ⟨[], rfl, fun _ _ => rfl⟩
  | cons p patches ih =>
    cases entries with
    | nil => cases hlength
    | cons e entries =>
      have hd' : d.entries = (before ++ [e]) ++ entries := by simp [hd]
      obtain ⟨herror, hok⟩ := ih hd' (Nat.le_of_succ_le_succ hlength)
      rw [List.length_append, List.length_singleton] at herror hok
      simp only [overlaid_cons, Except.bind_eq_error, Except.bind_eq_ok, Except.pure_eq_ok]
      cases p with
      | none =>
        simp only [DraftEntry.patchedWith]
        refine ⟨?_, ?_⟩
        · intro fault h
          rcases h with h | ⟨e', he', h | ⟨_, _, h⟩⟩
          · cases h
          · exact herror fault h
          · cases h
        · intro entries' h
          obtain ⟨e', he', rest, hrest, rfl⟩ := h
          cases he'
          obtain ⟨replacements, hreplacements, hturns⟩ := hok rest hrest
          exact ⟨replacements, hreplacements, hturns.keep e⟩
      | some p =>
        have hget : d.entries[before.length]? = some e := by simp [hd]
        simp only [DraftEntry.patchedWith, replacements, replacement_storage hget]
        refine ⟨?_, ?_⟩
        · intro fault h
          rcases h with h | ⟨e', he', h | ⟨_, _, h⟩⟩
          · rw [h]
            rfl
          · rw [he', herror fault h]
            rfl
          · cases h
        · intro entries' h
          obtain ⟨e', he', rest, hrest, rfl⟩ := h
          obtain ⟨replacements, hreplacements, hturns⟩ := hok rest hrest
          rw [he', hreplacements]
          exact ⟨_, rfl, hturns.write (DraftEntry.patched_eq_ok_iff.mp he')⟩

omit [ToString T] in
theorem run_forM_write (replacements : List (Nat × Replacement T)) (s : Storage T) :
    (replacements.forM (m := EStateM Error (Storage T)) fun r => modify (·.write r)).run s =
      .ok () (replacements.foldl write s) := by
  induction replacements generalizing s with
  | nil => rfl
  | cons r replacements ih => exact ih (s.write r)

/-- In place as on drafts; and where a patch does not fit, both tables are left alone. -/
theorem run_patch_storage (d : Draft T) (input : String) (patches : List (Option (Patch T))) :
    (patch input patches).run d.storage =
    match d.patch input patches with
    | .ok d' => .ok () d'.storage
    | .error e => .error e d.storage := by
  have hsize : d.storage.items.length = d.size := List.length_map _
  show (if d.storage.items.length < patches.length then
      throw (.format (some input) (.tooManyPatches patches.length d.storage.items.length))
    else
      match d.storage.replacements 0 patches with
      | .error e => throw (e.inClass input)
      | .ok replacements => replacements.forM fun r => modify (·.write r) : EStateM Error (Storage T) Unit).run
        d.storage = _
  rw [hsize]
  by_cases hlength : d.size < patches.length
  · rw [if_pos hlength, Draft.patch, if_pos hlength]
    rfl
  · rw [if_neg hlength, Draft.patch_eq_overlaid hlength]
    obtain ⟨herror, hok⟩ := replacements_storage (List.nil_append d.entries).symm (Nat.le_of_not_lt hlength)
    rw [List.length_nil] at herror hok
    cases h : overlaid 0 d.entries patches with
    | error e =>
      rw [herror e h]
      rfl
    | ok entries' =>
      obtain ⟨replacements, hreplacements, hturns⟩ := hok entries' h
      have hwritten : replacements.foldl write d.storage = (Draft.mk entries').storage := hturns [] rfl
      rw [hreplacements]
      refine (run_forM_write replacements d.storage).trans ?_
      rw [hwritten]
      rfl

end Storage

/-! ## What a patched slot shows -/

/-- The item of a slot that held the constant and took the patch. A class that was bound to a type has
    the name that it was given, or else the text of its name. -/
inductive Pool.Shows (p : Pool T F M) : DraftEntry T → Patch T → Entry T F M → Prop
  | text (old new : String) : Shows p (.text old) (.text new) (.text new false)
  | renamed (name : Index) (renamed : Option String) (bound : Option T) (text : String) :
      Shows p (.cls name renamed bound) (.text text) (.cls ⟨dotted text, false, .empty⟩)
  | boundRenamed (name : Index) (renamed : String) (bound : Option T) (t : T) :
      Shows p (.cls name (some renamed) bound) (.type t) (.cls ⟨renamed, false, ⟨some t⟩⟩)
  | bound {name : Index} {s : String} (bound : Option T) (t : T) : p.text name = .ok s →
      Shows p (.cls name none bound) (.type t) (.cls ⟨dotted s, false, ⟨some t⟩⟩)
  | literal (old new : Literal) : Shows p (.literal old) (.literal new) (.literal new)
  | liveText (text : Index) (value : String) : Shows p (.string text) (.text value) (.live (.text value))
  | live (text : Index) (value : LiveObject) : Shows p (.string text) (.object value) (.live value)

theorem DraftEntry.Takes.shows {d : Draft T} {rules : Rules} {e e' : DraftEntry T} {p : Patch T} (h : e.Takes p e')
    (hfits : d.Fits rules e') : (d.resolved : Pool T F M).Shows e p (d.item e') := by
  cases h with
  | text old new => exact .text old new
  | rename name renamed bound text => exact .renamed name renamed bound text
  | bind name renamed bound t =>
    cases renamed with
    | some renamed => exact .boundRenamed name renamed bound t
    | none => exact .bound bound t ((d.reached_resolved.text_eq_ok_iff (by decide)).mpr ⟨hfits.1, rfl⟩)
  | int old new => exact .literal (.int old) (.int new)
  | float old new => exact .literal (.float old) (.float new)
  | long old new => exact .literal (.long old) (.long new)
  | double old new => exact .literal (.double old) (.double new)
  | liveText text value => exact .liveText text value
  | live text value => exact .live text value

/-! ## What an item depends on -/

/-- The slots that the constant refers to. A class that was given a name has no use for the text of its
    name any more. -/
def DraftEntry.references : DraftEntry T → List Index
  | .vacant | .text _ | .literal _ | .live _ | .cls _ (some _) _ => []
  | .cls name none _ => [name]
  | .string value => [value]
  | .nameAndType name descriptor => [name, descriptor]
  | .member _ owner signature => [owner, signature]
  | .methodHandle _ reference => [reference]
  | .methodType descriptor => [descriptor]
  | .invokeDynamic _ signature => [signature]

namespace Draft

/-- The constant of the slot refers to the other slot. -/
def RefersTo (d : Draft T) (slot target : Nat) : Prop :=
  ∃ c, d.entries[slot]? = some c ∧ ∃ r ∈ c.references, r.toNat = target

variable {d d' : Draft T} {same : Nat → Prop}

/-- The drafts agree on some slots, among them all that these refer to. -/
structure Agree (d d' : Draft T) (same : Nat → Prop) : Prop where
  entries : ∀ k, same k → d.entries[k]? = d'.entries[k]?
  closed : ∀ k j, same k → d.RefersTo k j → same j

namespace Agree

variable (h : Agree d d' same)
include h

theorem entry_eq {i : Index} (hi : same i.toNat) : d.entry i = d'.entry i := by
  unfold entry
  rw [h.entries _ hi]

theorem text_eq {i : Index} (hi : same i.toNat) : d.text i = d'.text i := by
  unfold text text?
  rw [h.entry_eq hi]

/-- What is referred to by a constant on which the drafts agree. -/
theorem same_of_mem_references {i r : Index} (hi : same i.toNat) (hr : r ∈ (d.entry i).references) :
    same r.toNat := by
  refine h.closed _ _ hi ⟨d.entry i, ?_, r, hr, rfl⟩
  unfold entry at hr ⊢
  cases hentry : d.entries[i.toNat]? with
  | some c => rfl
  | none =>
    rw [hentry] at hr
    cases hr

theorem className_eq {i : Index} (hi : same i.toNat) : d.className i = d'.className i := by
  unfold className
  rw [← h.entry_eq hi]
  split
  · rename_i name renamed bound hc
    cases renamed with
    | some renamed => rfl
    | none => rw [h.text_eq (h.same_of_mem_references hi (by simp [hc, DraftEntry.references]))]
  · rfl

theorem memberName_eq {i : Index} (hi : same i.toNat) : d.memberName i = d'.memberName i := by
  unfold memberName
  rw [← h.entry_eq hi]
  split
  · rename_i hc
    exact h.text_eq (h.same_of_mem_references hi (by simp [hc, DraftEntry.references]))
  · rfl

theorem memberDescriptor_eq {i : Index} (hi : same i.toNat) : d.memberDescriptor i = d'.memberDescriptor i := by
  unfold memberDescriptor
  rw [← h.entry_eq hi]
  split
  · rename_i hc
    exact h.text_eq (h.same_of_mem_references hi (by simp [hc, DraftEntry.references]))
  · rfl

/-- What a constant is resolved to depends on nothing but the slots that it refers to, directly or through
    others. -/
theorem item_eq {k : Nat} {c : DraftEntry T} (hk : same k) (hc : d.entries[k]? = some c) :
    (d.item c : Entry T F M) = d'.item c := by
  have hsame {r : Index} (hr : r ∈ c.references) : same r.toNat := h.closed k _ hk ⟨c, hc, r, hr, rfl⟩
  cases c with
  | cls name renamed bound =>
    cases renamed with
    | some renamed => rfl
    | none => simp only [item, h.text_eq (hsame (.head _))]
  | string value => simp only [item, h.text_eq (hsame (.head _))]
  | member kind cls nameAndType =>
    have hnameAndType : same nameAndType.toNat := hsame (.tail _ (.head _))
    simp only [item, h.className_eq (hsame (.head _)), h.memberName_eq hnameAndType, h.memberDescriptor_eq hnameAndType]
  | methodType descriptor => simp only [item, h.text_eq (hsame (.head _))]
  | invokeDynamic bootstrap nameAndType =>
    have hnameAndType : same nameAndType.toNat := hsame (.head _)
    simp only [item, h.memberName_eq hnameAndType, h.memberDescriptor_eq hnameAndType]
  | _ => rfl

end Agree

end Draft

/-! ## All together -/

section Together

variable [ToString T] {d d' : Draft T} {input : String} {patches : List (Option (Patch T))}

/-- The slots from which no patched slot is reached are those of the unpatched draft. -/
theorem Draft.agree_of_patch (h : d.patch input patches = .ok d') :
    d.Agree d' fun k => ∀ target p, Relation.ReflTransGen d.RefersTo k target → patches[target]? ≠ some (some p) where
  entries := by
    intro k hk
    cases he : d.entries[k]? with
    | none =>
      have hsize : d'.entries.length = d.entries.length := size_patch h
      rw [List.getElem?_eq_none_iff] at he
      exact (List.getElem?_eq_none (Nat.le_trans (Nat.le_of_eq hsize) he)).symm
    | some e =>
      obtain ⟨e', he', hpatched⟩ := getElem?_of_patch h he
      cases hp : patches[k]?.join with
      | none =>
        rw [hp] at hpatched
        cases hpatched
        exact he'.symm
      | some p => exact absurd (Option.join_eq_some_iff.mp hp) (hk k p .refl)
  closed := fun k j hk hkj target p hj => hk target p (.head hkj hj)

/-- A list of patches applies as a whole or not at all. It applies if it is no longer than the pool and
    each patch fits its slot; then each patched slot shows its patch, and only slots that refer to a
    patched one, directly or through others, change with it. -/
theorem patching_is_atomic_and_exact (d : Draft T) (input : String) (patches : List (Option (Patch T))) :
    (∀ e s, (Storage.patch input patches).run d.storage = .error e s →
      s = d.storage ∧ d.patch input patches = .error e) ∧
    (∀ s, (Storage.patch input patches).run d.storage = .ok () s →
      ∃ d', d.patch input patches = .ok d' ∧ s = d'.storage) ∧
    ((∃ d', d.patch input patches = .ok d') ↔ patches.length ≤ d.size ∧
      ∀ (slot : Nat) patch, patches[slot]? = some (some patch) →
        ∃ c c', d.entries[slot]? = some c ∧ c.Takes patch c') ∧
    ∀ d', d.patch input patches = .ok d' → ∀ rules (p' : Pool T F M), d'.resolve F M rules = .ok p' →
      (∀ (slot : Nat) patch, patches[slot]? = some (some patch) →
        ∃ c e, d.entries[slot]? = some c ∧ p'.entries[slot]? = some e ∧ p'.Shows c patch e) ∧
      ∀ p : Pool T F M, d.resolve F M rules = .ok p → ∀ slot : Nat, p.entries[slot]? ≠ p'.entries[slot]? →
        ∃ target patch, Relation.ReflTransGen d.RefersTo slot target ∧ patches[target]? = some (some patch) := by
  have hrun := Storage.run_patch_storage d input patches
  refine ⟨?_, ?_, Draft.exists_patch_eq_ok_iff, ?_⟩
  · intro e s h
    rw [hrun] at h
    cases hpatch : d.patch input patches with
    | ok d' =>
      rw [hpatch] at h
      cases h
    | error e' =>
      rw [hpatch] at h
      cases h
      exact ⟨rfl, rfl⟩
  · intro s h
    rw [hrun] at h
    cases hpatch : d.patch input patches with
    | ok d' =>
      rw [hpatch] at h
      cases h
      exact ⟨d', rfl, rfl⟩
    | error e' =>
      rw [hpatch] at h
      cases h
  · intro d' hpatch rules p' hresolve'
    obtain ⟨hfits', rfl⟩ := Draft.resolve_eq_ok_iff.mp hresolve'
    refine ⟨?_, ?_⟩
    · intro slot patch hslot
      obtain ⟨-, htakes⟩ := Draft.exists_patch_eq_ok_iff.mp ⟨d', hpatch⟩
      obtain ⟨c, -, hc, -⟩ := htakes slot patch hslot
      obtain ⟨c', hc', hpatched⟩ := Draft.getElem?_of_patch hpatch hc
      rw [hslot] at hpatched
      have hshows := (DraftEntry.patched_eq_ok_iff.mp hpatched).shows (F := F) (M := M)
        (hfits' c' (List.mem_of_getElem? hc'))
      exact ⟨c, d'.item c', hc, by simp [Draft.resolved, hc'], hshows⟩
    · intro p hresolve slot hdiffer
      obtain ⟨-, rfl⟩ := Draft.resolve_eq_ok_iff.mp hresolve
      refine Classical.byContradiction fun hnone => ?_
      have hagree := Draft.agree_of_patch hpatch
      have hsame : ∀ target patch, Relation.ReflTransGen d.RefersTo slot target →
          patches[target]? ≠ some (some patch) := fun target patch htarget h => hnone ⟨target, patch, htarget, h⟩
      have hentries := hagree.entries slot hsame
      apply hdiffer
      simp only [Draft.resolved, List.getElem?_toArray, List.getElem?_map, ← hentries]
      cases hc : d.entries[slot]? with
      | none => rfl
      | some c => exact congrArg some (hagree.item_eq hsame hc)

end Together

/-- The class is bound to a type, and the field gets its name. -/
def templatePatches : List (Option (Patch Nat)) := [none, none, none, none, some (.type 3), some (.text "name")]

theorem patching_is_atomic_and_exact_template :
    (∃ e, (Storage.patch "p/A" (templatePatches ++ [none, some (.literal (.int 1))])).run
      (templateDraft "template").storage = .error e (templateDraft "template").storage) ∧
    ∃ p d' p', (templateDraft "template").resolve Unit Unit ⟨Version.java8, {}⟩ = .ok p ∧
      (templateDraft "template").patch "p/A" templatePatches = .ok d' ∧
      d'.resolve Unit Unit ⟨Version.java8, {}⟩ = .ok p' ∧
      (∃ c e, (templateDraft "template").entries[4]? = some c ∧ p'.entries[4]? = some e ∧ p'.Shows c (.type 3) e) ∧
      (p.entries[2]? ≠ p'.entries[2]? → ∃ target patch,
        Relation.ReflTransGen (templateDraft "template").RefersTo 2 target ∧
          templatePatches[target]? = some (some patch)) := by
  obtain ⟨e, s, hrun⟩ : ∃ e s, (Storage.patch "p/A" (templatePatches ++ [none, some (.literal (.int 1))])).run
      (templateDraft "template").storage = .error e s := ⟨_, _, rfl⟩
  obtain ⟨rfl, -⟩ := (patching_is_atomic_and_exact (F := Unit) (M := Unit) (templateDraft "template") "p/A"
    (templatePatches ++ [none, some (.literal (.int 1))])).1 e s hrun
  refine ⟨⟨e, hrun⟩, ?_⟩
  obtain ⟨d', hpatch⟩ : ∃ d', (templateDraft "template").patch "p/A" templatePatches = .ok d' := ⟨_, rfl⟩
  have hp : (templateDraft "template").resolve Unit Unit ⟨Version.java8, {}⟩ =
      .ok (templateDraft "template").resolved :=
    Draft.resolve_of_isSome (by decide +kernel)
  have hp' : d'.resolve Unit Unit ⟨Version.java8, {}⟩ = .ok d'.resolved :=
    Draft.resolve_of_isSome (by cases hpatch; decide +kernel)
  obtain ⟨-, -, -, hexact⟩ := patching_is_atomic_and_exact (F := Unit) (M := Unit) (templateDraft "template") "p/A"
    templatePatches
  obtain ⟨hshows, hreach⟩ := hexact d' hpatch ⟨Version.java8, {}⟩ d'.resolved hp'
  exact ⟨_, d', _, hp, hpatch, hp', hshows 4 (.type 3) rfl, hreach _ hp 2⟩

end JvmClass
