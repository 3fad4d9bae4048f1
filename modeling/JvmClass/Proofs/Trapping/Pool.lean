/-
  JvmClass.Proofs.Trapping.Pool — pools, slot by slot.

  Slots are read and written by their number, each no further than there are constants
  (`patch_eq`, `foldlM_resolveSlot`). To mark a constant is to follow it from slot to slot up to a class,
  with nothing that counts the steps; in a sound pool no way has more than two (`ends_of_sound`), whatever
  the slots of the class file say.
-/

import JvmClass.Class.OfFile
import JvmClass.Proofs.Class.Provision
import JvmClass.Proofs.Pool.Patching
import JvmClass.Proofs.Trapping.Text

namespace JvmClass

namespace Trapping

variable {T F M : Type}

/-! ## Constants and patches -/

/-- The constants from `slot` on, each written into its slot. -/
def placeFrom (slot : Nat) (entries : Array (DraftEntry T)) :
    List (Option Constant) → ExceptT FormatFault Option (Array (DraftEntry T))
  | [] => return entries
  | constant :: constants => do
    let e ← (DraftEntry.ofConstant constant : Except FormatFault (DraftEntry T))
    placeFrom (slot + 1) (← setAt entries slot e) constants

def ofConstants (constants : List (Option Constant)) : ExceptT FormatFault Option (Draft T) :=
  if Draft.maxSize < constants.length then throw .poolTooLarge
  else
    match constants with
    | some _ :: _ => throw (.badPoolItem 0)
    | _ => do return ⟨(← placeFrom 0 (Array.replicate constants.length .vacant) constants).toList⟩

/-- The same computation, failing with other faults. -/
def withFault {ε ε' α : Type} (f : ε → ε') (x : ExceptT ε Option α) : ExceptT ε' Option α :=
  ExceptT.mk (x.run.map (·.mapError f))

theorem withFault_liftM {ε ε' α : Type} (f : ε → ε') (x : Except ε α) :
    withFault f (liftM x : ExceptT ε Option α) = liftM (x.mapError f) := by cases x <;> rfl

/-- What the patches put in the place of constants, each with its slot. -/
def replacements [ToString T] (d : Draft T) (patches : List (Option (Patch T))) (slot : Nat) :
    ExceptT Error Option (List (Nat × DraftEntry T)) :=
  match patches with
  | [] => return []
  | none :: patches => replacements d patches (slot + 1)
  | some p :: patches => do
    let e ← (d.entries[slot]? : Option (DraftEntry T))
    let replaced ← e.patched slot p
    return (slot, replaced) :: (← replacements d patches (slot + 1))

def replaceAll (entries : Array (DraftEntry T)) (replaced : List (Nat × DraftEntry T)) :
    Option (Array (DraftEntry T)) :=
  replaced.foldlM (fun entries (slot, e) => setAt entries slot e) entries

def patch [ToString T] (d : Draft T) (input : String) (patches : List (Option (Patch T))) :
    ExceptT Error Option (Draft T) :=
  if d.size < patches.length then throw (.format (some input) (.tooManyPatches patches.length d.size))
  else do
    let replaced ← withFault (·.inClass input) (replacements d patches 0)
    return ⟨(← replaceAll d.entries.toArray replaced).toList⟩

/-! ## Resolution -/

section Rules

variable (rules : Rules)

def checkMethod (name descriptor : String) : ExceptT FormatFault Option Unit := do
  if !(← isValidMethodDescriptor descriptor) then throw (.badMethodDescriptor name descriptor)
  else if isValidMethodName name rules.version then return
  else if name ≠ initName then throw (.badMethodName name)
  else if !endsInVoid descriptor then throw (.badMethodDescriptor name descriptor)
  else return

def checkField (name descriptor : String) : ExceptT FormatFault Option Unit := do
  if !(← isValidFieldDescriptor descriptor) then throw (.badFieldDescriptor descriptor)
  else if !isValidFieldName name rules.version then throw (.badFieldName name)
  else return

def checkMember : MemberKind → String → String → ExceptT FormatFault Option Unit
  | .field => checkField rules
  | .method | .interfaceMethod => checkMethod rules

variable (p : Pool T F M)

def resolveClass (name : Index) (bound : Option T) : ExceptT FormatFault Option (Entry T F M) := do
  let name ← p.text name
  if ← isValidClassName name rules.version rules.options then return .cls ⟨dotted name, false, ⟨bound⟩⟩
  else throw (.badClassName name)

def resolveMember (slot : Nat) (kind : MemberKind) (cls nameAndType : Index) :
    ExceptT FormatFault Option (Entry T F M) := do
  let className ← p.referredClassName slot cls
  let (name, descriptor) ← p.nameAndTypeText slot nameAndType
  checkMember rules kind name descriptor
  return Pool.ofMember ⟨cls, className, name, dotted descriptor⟩ kind

/-- Only names and descriptors are looked at character by character. -/
def resolveEntry (slot : Nat) : DraftEntry T → ExceptT FormatFault Option (Entry T F M)
  | .cls name none bound => resolveClass rules p name bound
  | .member kind cls nameAndType => resolveMember rules p slot kind cls nameAndType
  | .methodType descriptor => do
    let descriptor ← p.text descriptor
    if ← isValidMethodDescriptor descriptor then return .methodType (dotted descriptor) .empty
    else throw .badMethodType
  | .invokeDynamic bootstrap nameAndType => do
    let (name, descriptor) ← p.nameAndTypeText slot nameAndType
    checkMethod rules name descriptor
    return .invokeDynamic bootstrap name (dotted descriptor) .empty
  | e => liftM (p.resolveEntry rules slot e)

def resolveSlot (round : Round) (entries : List (DraftEntry T)) (p : Pool T F M) (slot : Nat) :
    ExceptT FormatFault Option (Pool T F M) := do
  let e ← (entries[slot]? : Option (DraftEntry T))
  if e.round? = some round then
    let resolved ← resolveEntry rules p slot e
    return ⟨← setAt p.entries slot resolved⟩
  else return p

def resolveRound (round : Round) (entries : List (DraftEntry T)) (p : Pool T F M) :
    ExceptT FormatFault Option (Pool T F M) := (List.range entries.length).foldlM (resolveSlot rules round entries) p

end Rules

def resolve (F M : Type) (d : Draft T) (rules : Rules) : ExceptT FormatFault Option (Pool T F M) := do
  let p₁ ← resolveRound rules .texts d.entries ⟨(d.entries.map DraftEntry.unresolved).toArray⟩
  let p₂ ← resolveRound rules .members d.entries p₁
  resolveRound rules .handles d.entries p₂

def resolvePool [ToString T] (file : ClassFile) (input : String) (options : Options)
    (patches : List (Option (Patch T))) : ExceptT Error Option (Pool T F M) := do
  let draft ← withFault (.format (some input)) (ofConstants file.constants)
  let draft ← patch draft input patches
  withFault (.format (some input)) (resolve F M draft ⟨file.version, options⟩)

/-! ## Marking -/

/-- Follows a constant from slot to slot up to a class. -/
def require (p : Pool T F M) : Index → Option (Pool T F M) := Loop.run fun i =>
  if p.isClass i then return .inr (p.modify i Entry.requireLink)
  else
    match (p.entry i).dependency? with
    | some j => return .inl j
    | none => return .inr p

def requireAll (p : Pool T F M) (indices : List Index) : Option (Pool T F M) := indices.foldlM require p

/-! ## Constants and patches agree -/

/-- There is a slot for each constant that is still to come. -/
theorem placeFrom_eq {slot : Nat} {before after : List (DraftEntry T)} {constants : List (Option Constant)}
    (hslot : slot = before.length) (hlength : constants.length = after.length) :
    placeFrom slot (before ++ after).toArray constants =
      liftM ((constants.mapM DraftEntry.ofConstant).map fun entries => (before ++ entries).toArray) := by
  induction constants generalizing slot before after with
  | nil =>
    obtain rfl := List.eq_nil_of_length_eq_zero hlength.symm
    rfl
  | cons constant constants ih =>
    cases after with
    | nil => cases hlength
    | cons old after =>
      rw [placeFrom, List.mapM_cons]
      cases (DraftEntry.ofConstant constant : Except FormatFault (DraftEntry T)) with
      | error fault => rfl
      | ok e =>
        have hset : setAt (before ++ old :: after).toArray slot e = some ((before ++ [e]) ++ after).toArray := by
          rw [setAt_of_lt (by simp [hslot])]
          simp [hslot]
        rw [liftM_ok, pure_bind, hset, liftM_some, pure_bind, ih (by simp [hslot]) (Nat.succ.inj hlength)]
        cases constants.mapM (DraftEntry.ofConstant : _ → Except FormatFault (DraftEntry T)) with
        | error fault => rfl
        | ok entries =>
          show liftM (Except.ok ((before ++ [e]) ++ entries).toArray) =
            liftM (Except.ok (before ++ e :: entries).toArray)
          rw [List.append_assoc, List.singleton_append]

theorem ofConstants_eq (constants : List (Option Constant)) :
    (ofConstants constants : ExceptT FormatFault Option (Draft T)) = liftM (Draft.ofConstants constants) := by
  have hplace : placeFrom 0 (Array.replicate constants.length .vacant) constants =
      liftM ((constants.mapM (DraftEntry.ofConstant : _ → Except FormatFault (DraftEntry T))).map (·.toArray)) := by
    have h : placeFrom 0 ([] ++ List.replicate constants.length (DraftEntry.vacant : DraftEntry T)).toArray constants =
        _ := placeFrom_eq rfl List.length_replicate.symm
    simpa using h
  have hfinish : (do return ⟨(← placeFrom 0 (Array.replicate constants.length .vacant) constants).toList⟩) =
      (liftM ((constants.mapM DraftEntry.ofConstant).map fun entries => (⟨entries⟩ : Draft T)) :
        ExceptT FormatFault Option (Draft T)) := by
    rw [hplace]
    cases constants.mapM (DraftEntry.ofConstant : _ → Except FormatFault (DraftEntry T)) <;> rfl
  unfold ofConstants Draft.ofConstants
  split
  · rfl
  rcases constants with _ | ⟨_ | constant, constants⟩
  · rfl
  · exact hfinish
  · rfl

/-- Writing the replacements one by one changes the slots from `slot` on into these. -/
def Replaces (slot : Nat) (entries : List (DraftEntry T)) (replaced : List (Nat × DraftEntry T))
    (entries' : List (DraftEntry T)) : Prop :=
  ∀ before : List (DraftEntry T), before.length = slot →
    replaceAll (before ++ entries).toArray replaced = some (before ++ entries').toArray

section Replaces

variable {slot : Nat} {entries entries' : List (DraftEntry T)} {replaced : List (Nat × DraftEntry T)}

theorem Replaces.keep (h : Replaces (slot + 1) entries replaced entries') (e : DraftEntry T) :
    Replaces slot (e :: entries) replaced (e :: entries') := by
  intro before hbefore
  simpa using h (before ++ [e]) (by simp [hbefore])

theorem Replaces.replace (h : Replaces (slot + 1) entries replaced entries') (e e' : DraftEntry T) :
    Replaces slot (e :: entries) ((slot, e') :: replaced) (e' :: entries') := by
  intro before hbefore
  have hset : setAt (before ++ e :: entries).toArray slot e' = some (before ++ e' :: entries).toArray := by
    rw [setAt_of_lt (by simp [hbefore])]
    simp [← hbefore]
  have hrest := h (before ++ [e']) (by simp [hbefore])
  unfold replaceAll at hrest ⊢
  rw [List.foldlM_cons]
  simp only [hset, Option.bind_eq_bind, Option.bind_some]
  simpa using hrest

end Replaces

section Patches

variable [ToString T]

/-- Each patch finds its slot, and all slots are written that have one. -/
theorem replacements_eq {d : Draft T} {before entries : List (DraftEntry T)} {patches : List (Option (Patch T))}
    {slot : Nat} (hd : d.entries = before ++ entries) (hslot : slot = before.length)
    (hlength : patches.length ≤ entries.length) :
    ∃ r : Except Error (List (Nat × DraftEntry T)), replacements d patches slot = liftM r ∧
      (∀ e, r = .error e → overlaid slot entries patches = .error e) ∧
      ∀ replaced, r = .ok replaced →
        ∃ entries', overlaid slot entries patches = .ok entries' ∧ Replaces slot entries replaced entries' := by
  induction patches generalizing before entries slot with
  | nil =>
    refine ⟨.ok [], rfl, fun _ h => (nomatch h), fun replaced h => ?_⟩
    cases h
    exact ⟨entries, overlaid_nil slot entries, fun _ _ => rfl⟩
  | cons p patches ih =>
    cases entries with
    | nil => cases hlength
    | cons e entries =>
      have hd' : d.entries = (before ++ [e]) ++ entries := by simp [hd]
      have hslot' : slot + 1 = (before ++ [e]).length := by simp [hslot]
      obtain ⟨r, hr, herror, hok⟩ := ih hd' hslot' (Nat.le_of_succ_le_succ hlength)
      rw [overlaid_cons]
      cases p with
      | none =>
        refine ⟨r, hr, fun e' h => ?_, fun replaced h => ?_⟩
        · rw [herror e' h]
          rfl
        · obtain ⟨entries', hentries', hreplaces⟩ := hok replaced h
          rw [hentries']
          exact ⟨e :: entries', rfl, hreplaces.keep e⟩
      | some p =>
        have hget : d.entries[slot]? = some e := by simp [hd, hslot]
        have hfirst : replacements d (some p :: patches) slot =
            liftM (e.patched slot p >>= fun e' => r >>= fun replaced => pure ((slot, e') :: replaced)) := by
          rw [replacements, hget, liftM_some, pure_bind, hr]
          exact bind_eq_liftM fun e' _ => bind_eq_liftM fun replaced _ => rfl
        refine ⟨_, hfirst, ?_, ?_⟩
        · intro fault h
          rw [DraftEntry.patchedWith]
          obtain h | ⟨e', he, h⟩ := Except.bind_eq_error.mp h
          · rw [h]
            rfl
          obtain h | ⟨replaced, -, h⟩ := Except.bind_eq_error.mp h
          · rw [he, herror fault h]
            rfl
          · cases h
        · intro all h
          obtain ⟨e', he, h⟩ := Except.bind_eq_ok.mp h
          obtain ⟨replaced, hreplaced, h⟩ := Except.bind_eq_ok.mp h
          cases h
          obtain ⟨entries', hentries', hreplaces⟩ := hok replaced hreplaced
          rw [DraftEntry.patchedWith, he, hentries']
          exact ⟨e' :: entries', rfl, hreplaces.replace e e'⟩

theorem patch_eq (d : Draft T) (input : String) (patches : List (Option (Patch T))) :
    patch d input patches = liftM (d.patch input patches) := by
  unfold patch
  by_cases hlength : d.size < patches.length
  · rw [if_pos hlength, Draft.patch, if_pos hlength]
    rfl
  · obtain ⟨r, hr, herror, hok⟩ : ∃ r, replacements d patches 0 = liftM r ∧ _ :=
      replacements_eq (List.nil_append _).symm rfl (Nat.le_of_not_lt hlength)
    rw [if_neg hlength, Draft.patch_eq_overlaid hlength, hr, withFault_liftM]
    cases h : r with
    | error e =>
      rw [herror e h]
      rfl
    | ok replaced =>
      obtain ⟨entries', hentries', hreplaces⟩ := hok replaced h
      have hall : replaceAll d.entries.toArray replaced = some entries'.toArray := hreplaces [] rfl
      rw [hentries', Except.mapError, liftM_ok, pure_bind, hall]
      rfl

end Patches

/-! ## Resolution agrees -/

section Rules

variable (rules : Rules)

theorem checkMethod_eq (name descriptor : String) :
    checkMethod rules name descriptor = liftM (Pool.checkMethod rules name descriptor) := by
  unfold checkMethod Pool.checkMethod
  rw [isValidMethodDescriptor_eq, liftM_some, pure_bind]
  split
  · rfl
  split
  · rfl
  split
  · rfl
  split <;> rfl

theorem checkField_eq (name descriptor : String) :
    checkField rules name descriptor = liftM (Pool.checkField rules name descriptor) := by
  unfold checkField Pool.checkField
  rw [isValidFieldDescriptor_eq, liftM_some, pure_bind]
  split
  · rfl
  split <;> rfl

theorem checkMember_eq (kind : MemberKind) (name descriptor : String) :
    checkMember rules kind name descriptor = liftM (Pool.checkMember rules kind name descriptor) := by
  cases kind with
  | field => exact checkField_eq rules name descriptor
  | method => exact checkMethod_eq rules name descriptor
  | interfaceMethod => exact checkMethod_eq rules name descriptor

variable (p : Pool T F M)

theorem resolveClass_eq (name : Index) (bound : Option T) :
    resolveClass rules p name bound = liftM (p.resolveClass rules name bound) := by
  refine bind_eq_liftM fun name _ => ?_
  rw [isValidClassName_eq, liftM_some, pure_bind]
  split <;> rfl

theorem resolveMember_eq (slot : Nat) (kind : MemberKind) (cls nameAndType : Index) :
    resolveMember rules p slot kind cls nameAndType = liftM (p.resolveMember rules slot kind cls nameAndType) := by
  refine bind_eq_liftM fun className _ => bind_eq_liftM fun (name, descriptor) _ => ?_
  dsimp only
  rw [checkMember_eq]
  exact bind_eq_liftM fun _ _ => rfl

theorem resolveEntry_eq (slot : Nat) (e : DraftEntry T) :
    resolveEntry rules p slot e = liftM (p.resolveEntry rules slot e) := by
  cases e with
  | cls name renamed bound =>
    cases renamed with
    | none => exact resolveClass_eq rules p name bound
    | some renamed => rfl
  | member kind cls nameAndType => exact resolveMember_eq rules p slot kind cls nameAndType
  | methodType descriptor =>
    refine bind_eq_liftM fun descriptor _ => ?_
    rw [isValidMethodDescriptor_eq, liftM_some, pure_bind]
    split <;> rfl
  | invokeDynamic bootstrap nameAndType =>
    refine bind_eq_liftM fun (name, descriptor) _ => ?_
    dsimp only
    rw [checkMethod_eq]
    exact bind_eq_liftM fun _ _ => rfl
  | _ => rfl

variable {p}

/-- The pool has a slot for each constant that is still to come. -/
theorem foldlM_resolveSlot (round : Round) {before after entries : List (DraftEntry T)} {slot : Nat}
    (hentries : entries = before ++ after) (hslot : slot = before.length) (hsize : p.entries.size = entries.length) :
    (List.range' slot after.length).foldlM (resolveSlot rules round entries) p =
      liftM (p.resolveRound rules round slot after) := by
  induction after generalizing before slot p with
  | nil => rfl
  | cons e after ih =>
    have hget : entries[slot]? = some e := by simp [hentries, hslot]
    have hlt : slot < entries.length := (List.getElem?_eq_some_iff.mp hget).1
    have hentries' : entries = (before ++ [e]) ++ after := by simp [hentries]
    rw [List.length_cons, List.range'_succ, List.foldlM_cons, resolveSlot, Pool.resolveRound, hget, liftM_some,
      pure_bind]
    by_cases hround : e.round? = some round
    · rw [if_pos hround, if_pos hround, resolveEntry_eq]
      cases p.resolveEntry rules slot e with
      | error fault => rfl
      | ok resolved =>
        -- the slot exists, as the rounds so far have kept the size
        rw [liftM_ok, pure_bind, setAt_of_lt (by omega), liftM_some, pure_bind, pure_bind]
        exact ih hentries' (by simp [hslot]) (by simpa using hsize)
    · rw [if_neg hround, if_neg hround, pure_bind]
      exact ih hentries' (by simp [hslot]) hsize

theorem resolveRound_eq (round : Round) {entries : List (DraftEntry T)} (hsize : p.entries.size = entries.length) :
    resolveRound rules round entries p = liftM (p.resolveRound rules round 0 entries) := by
  rw [resolveRound, List.range_eq_range']
  exact foldlM_resolveSlot rules round (List.nil_append _).symm rfl hsize

theorem size_resolveRound {round : Round} {slot : Nat} {entries : List (DraftEntry T)} {q : Pool T F M}
    (h : p.resolveRound rules round slot entries = .ok q) : q.entries.size = p.entries.size := by
  induction entries generalizing slot p with
  | nil =>
    cases h
    rfl
  | cons e entries ih =>
    unfold Pool.resolveRound at h
    split at h
    · split at h
      · rw [ih h, Array.size_setIfInBounds]
      · cases h
    · exact ih h

end Rules

theorem resolve_eq (d : Draft T) (rules : Rules) : resolve F M d rules = liftM (d.resolve F M rules) := by
  have hsize : (⟨(d.entries.map DraftEntry.unresolved).toArray⟩ : Pool T F M).entries.size = d.entries.length := by simp
  unfold resolve Draft.resolve
  rw [resolveRound_eq rules .texts hsize]
  refine bind_eq_liftM fun p₁ h₁ => ?_
  have hsize₁ := (size_resolveRound rules h₁).trans hsize
  rw [resolveRound_eq rules .members hsize₁]
  exact bind_eq_liftM fun p₂ h₂ => resolveRound_eq rules .handles ((size_resolveRound rules h₂).trans hsize₁)

theorem resolvePool_eq [ToString T] (file : ClassFile) (input : String) (options : Options)
    (patches : List (Option (Patch T))) :
    (resolvePool file input options patches : ExceptT Error Option (Pool T F M)) =
      liftM (Class.resolvePool file input options patches) := by
  unfold resolvePool
  rw [ofConstants_eq, withFault_liftM]
  refine bind_eq_liftM fun draft _ => ?_
  rw [patch_eq]
  refine bind_eq_liftM fun draft _ => ?_
  rw [resolve_eq, withFault_liftM]

/-! ## Marking agrees -/

/-- Following the constant from slot to slot takes so many steps at most. -/
def EndsWithin (p : Pool T F M) : Nat → Index → Prop
  | 0, i => (p.entry i).dependency? = none
  | steps + 1, i => ∀ j, (p.entry i).dependency? = some j → EndsWithin p steps j

section Ways

variable {p : Pool T F M} {i : Index}

theorem require_of_ends {steps : Nat} (h : EndsWithin p steps i) :
    require p i = some (match p.classWithin steps i with
      | some j => p.modify j Entry.requireLink
      | none => p) := by
  induction steps generalizing i with
  | zero =>
    have hdependency : (p.entry i).dependency? = none := h
    unfold Pool.classWithin
    by_cases hclass : p.isClass i = true
    · rw [if_pos hclass]
      exact Loop.run_of_done (if_pos hclass)
    · rw [if_neg hclass]
      exact Loop.run_of_done (by simp [hclass, hdependency])
  | succ steps ih =>
    unfold Pool.classWithin
    cases hdependency : (p.entry i).dependency? with
    | none =>
      by_cases hclass : p.isClass i = true
      · exact Loop.run_of_done (by simp [hclass])
      · exact Loop.run_of_done (by simp [hclass, hdependency])
    | some j =>
      have hclass : ¬p.isClass i = true := fun hclass => by
        rw [Entry.dependency?_of_isClass hclass] at hdependency
        cases hdependency
      exact (Loop.run_of_next (by simp [hclass, hdependency])).trans (ih (h j hdependency))

theorem ends_of_isClass (h : p.isClass i = true) (steps : Nat) : EndsWithin p steps i := by
  have hdependency : (p.entry i).dependency? = none := Entry.dependency?_of_isClass h
  cases steps with
  | zero => exact hdependency
  | succ steps =>
    intro j hj
    rw [hdependency] at hj
    cases hj

variable {rules : Rules} {d : Draft T} (hp : p.Sound rules d)
include hp

theorem ends_of_member? {kind : MemberKind} {m : MemberRef} (h : (p.entry i).member? = some (kind, m)) (steps : Nat) :
    EndsWithin p (steps + 1) i := by
  intro j hj
  rw [Entry.dependency?_of_member? h] at hj
  cases hj
  exact ends_of_isClass (hp.isClass_of_member? h) steps

/-- From a handle to its member and on to the class of that: there is no longer way in a sound pool. -/
theorem ends_of_sound (i : Index) : EndsWithin p 2 i := by
  cases hmember : (p.entry i).member? with
  | some member => exact ends_of_member? hp hmember 1
  | none =>
    intro j hj
    cases hi : p.entry i with
    | methodHandle kind reference =>
      obtain ⟨memberKind, m, hm, -⟩ := hp.classOf?_of_handle hi
      rw [hi] at hj
      cases hj
      exact ends_of_member? hp hm 0
    | field _ _ | method _ | interfaceMethod _ =>
      rw [hi] at hmember
      cases hmember
    | _ =>
      rw [hi] at hj
      cases hj

theorem require_eq (i : Index) : require p i = some (p.require i) := require_of_ends (ends_of_sound hp i)

end Ways

theorem requireAll_eq {rules : Rules} {d : Draft T} {p : Pool T F M} (hp : p.Sound rules d) (indices : List Index) :
    requireAll p indices = some (p.requireAll indices) := by
  unfold requireAll Pool.requireAll
  induction indices generalizing p with
  | nil => rfl
  | cons i indices ih =>
    rw [List.foldlM_cons, require_eq hp, Option.bind_eq_bind, Option.bind_some, List.foldl_cons]
    exact ih (hp.of_frozen (Pool.frozen_require p i))

end Trapping

end JvmClass
