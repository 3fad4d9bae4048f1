/-
  JvmClass.Proofs.Pool.Tables — texts are kept apart from the other constants.

  In place a pool is two tables, before and after it is resolved: one of texts and one of all other
  constants (`Storage`, `PoolTables`). Nothing in the tables themselves keeps a slot from holding both a
  text and another constant; that none ever does is what is proved here. The slot of a pool is what its
  tables show (`PoolTables.view`), and each step in place is the step on pools:
  - constants are sorted into the tables one after the other (`Storage.ofConstants_eq`), and patched there
    (`Storage.run_patchAll_eq_ok_iff`);
  - a round writes constants beside the texts, into slots that have none (`PoolTables.resolveRound_tables`);
  - what is done to resolved pools writes no text and no constant where there was none, but for the texts
    that are exposed (`PoolTables.apply_tables`).
  So the tables of any run are those of a pool (`texts_are_kept_apart`).
-/

import JvmClass.Proofs.Pool.Growth
import JvmClass.Proofs.Pool.Patching

namespace JvmClass

variable {T F M : Type}

/-! ## The tables of a pool -/

structure PoolTables (T F M : Type) where
  texts : List (Option String)
  items : List (Option (Entry T F M))

namespace Entry

/-- A text is a constant only once it is exposed. -/
def item? (e : Entry T F M) : Option (Entry T F M) := if e.isConstant then some e else none

/-- What a slot shows: its constant or else its text. -/
def ofTables (text : Option String) (item : Option (Entry T F M)) : Entry T F M :=
  item.getD (text.elim .vacant (.text · false))

theorem ofTables_eq (e : Entry T F M) : ofTables e.text? e.item? = e := by
  cases e with
  | text value exposed => cases exposed <;> rfl
  | _ => rfl

theorem item?_expose (e : Entry T F M) : e.expose.item? = e.item?.or (e.text?.map (.text · true)) := by
  cases e with
  | text value exposed => cases exposed <;> rfl
  | _ => rfl

theorem text?_expose (e : Entry T F M) : e.expose.text? = e.text? := by cases e <;> rfl

theorem item?_of_isConstant_eq {e e' : Entry T F M} (h : e'.isConstant = e.isConstant) :
    e'.item? = e.item?.map fun _ => e' := by
  unfold item?
  rw [h]
  cases e.isConstant <;> rfl

end Entry

def Pool.tables (p : Pool T F M) : PoolTables T F M :=
  ⟨p.entries.toList.map Entry.text?, p.entries.toList.map Entry.item?⟩

def PoolTables.view (t : PoolTables T F M) : Pool T F M := ⟨(List.zipWith Entry.ofTables t.texts t.items).toArray⟩

@[simp] theorem Pool.view_tables (p : Pool T F M) : p.tables.view = p := by
  have hentries : List.zipWith Entry.ofTables p.tables.texts p.tables.items = p.entries.toList := by
    simp [tables, List.zipWith_map, List.zipWith_self, Entry.ofTables_eq]
  unfold PoolTables.view
  rw [hentries]

/-- Slot 0 is empty, and a slot with a text holds no constant but the text itself. -/
structure PoolTables.TextsApart (t : PoolTables T F M) : Prop where
  noText : t.texts[0]?.join = none
  noItem : t.items[0]?.join = none
  item_eq : ∀ (slot : Nat) value e, t.texts[slot]?.join = some value → t.items[slot]?.join = some e →
    e = .text value true

namespace Pool

variable {p : Pool T F M}

/-- The tables are looked into each for itself. -/
theorem texts_tables (p : Pool T F M) (i : Index) : p.tables.texts[i.toNat]?.join = p.text? i := by
  unfold tables text? entry
  rw [List.getElem?_map, Array.getElem?_toList]
  cases p.entries[i.toNat]? with
  | none => rfl
  | some e => cases e <;> rfl

theorem items_tables (p : Pool T F M) (i : Index) : p.tables.items[i.toNat]?.join = (p.entry i).item? := by
  unfold tables entry
  rw [List.getElem?_map, Array.getElem?_toList]
  cases p.entries[i.toNat]? <;> rfl

theorem textsApart_tables (h : p.entry 0 = .vacant) : p.tables.TextsApart where
  noText := by
    have htext := p.texts_tables 0
    rwa [text?, h] at htext
  noItem := by
    have hitem := p.items_tables 0
    rwa [h] at hitem
  item_eq := by
    intro slot value e htext hitem
    unfold tables at htext hitem
    rw [List.getElem?_map] at htext hitem
    cases hslot : p.entries.toList[slot]? with
    | none =>
      rw [hslot] at htext
      cases htext
    | some found =>
      rw [hslot] at htext hitem
      cases found with
      | text value' exposed =>
        cases htext
        cases exposed
        · cases hitem
        · cases hitem
          rfl
      | _ => cases htext

end Pool

/-! ## Building and patching -/

namespace Storage

/-- The next slot, with a text or with another constant. -/
def push (s : Storage T) : Option Constant → Except FormatFault (Storage T)
  | none => .ok ⟨s.texts ++ [none], s.items ++ [none]⟩
  | some (.utf8 value) => .ok ⟨s.texts ++ [some value], s.items ++ [none]⟩
  | some c => do
    let e ← DraftEntry.ofConstant (some c)
    return ⟨s.texts ++ [none], s.items ++ [some e]⟩

def ofConstants (constants : List (Option Constant)) : Except FormatFault (Storage T) :=
  if Draft.maxSize < constants.length then .error .poolTooLarge
  else
    match constants with
    | some _ :: _ => .error (.badPoolItem 0)
    | _ => constants.foldlM push ⟨[], []⟩

theorem push_storage (entries : List (DraftEntry T)) (c : Option Constant) :
    (Draft.mk entries).storage.push c = (DraftEntry.ofConstant c).map fun e => (Draft.mk (entries ++ [e])).storage := by
  have hstorage (e : DraftEntry T) : (Draft.mk (entries ++ [e])).storage =
      ⟨(Draft.mk entries).storage.texts ++ [e.text?], (Draft.mk entries).storage.items ++ [e.item?]⟩ := by
    simp [Draft.storage]
  simp only [hstorage]
  cases c with
  | none => rfl
  | some c => cases c <;> rfl

theorem foldlM_push_storage (entries : List (DraftEntry T)) (constants : List (Option Constant)) :
    constants.foldlM push (Draft.mk entries).storage =
      (constants.mapM DraftEntry.ofConstant).map fun es => (Draft.mk (entries ++ es)).storage := by
  induction constants generalizing entries with
  | nil => simp [Except.map, pure, Except.pure]
  | cons c constants ih =>
    rw [List.foldlM_cons, List.mapM_cons, push_storage]
    cases DraftEntry.ofConstant (T := T) c with
    | error fault => rfl
    | ok e =>
      show constants.foldlM push (Draft.mk (entries ++ [e])).storage = _
      rw [ih]
      show _ = Except.map _ (constants.mapM DraftEntry.ofConstant >>= fun es => pure (e :: es))
      cases constants.mapM (DraftEntry.ofConstant (T := T)) with
      | error fault => rfl
      | ok es => simp [Except.map, Bind.bind, Except.bind, pure, Except.pure]

theorem ofConstants_eq (constants : List (Option Constant)) :
    ofConstants constants = (Draft.ofConstants (T := T) constants).map Draft.storage := by
  unfold ofConstants Draft.ofConstants
  split
  · rfl
  cases constants with
  | nil => rfl
  | cons c constants =>
    cases c with
    | some c => rfl
    | none =>
      refine (foldlM_push_storage [] (none :: constants)).trans ?_
      simp only [List.nil_append]
      cases (none :: constants).mapM (DraftEntry.ofConstant (T := T)) <;> rfl

variable [ToString T]

/-- One list of patches after the other, each for its class. -/
def patchAll (patchings : List (String × List (Option (Patch T)))) : EStateM Error (Storage T) Unit :=
  patchings.forM fun (input, patches) => patch input patches

theorem run_patchAll_eq_ok_iff {d : Draft T} {patchings : List (String × List (Option (Patch T)))} {s : Storage T} :
    (patchAll patchings).run d.storage = .ok () s ↔ ∃ d', d.patchAll patchings = .ok d' ∧ s = d'.storage := by
  induction patchings generalizing d with
  | nil =>
    constructor
    · intro h
      cases h
      exact ⟨d, rfl, rfl⟩
    · intro ⟨d', hd', hs⟩
      cases hd'
      rw [hs]
      rfl
  | cons patching patchings ih =>
    obtain ⟨input, patches⟩ := patching
    have hfirst := run_patch_storage d input patches
    show EStateM.bind (patch input patches) (fun _ => patchAll patchings) d.storage = .ok () s ↔
      ∃ d', (d.patch input patches >>= fun d₁ => d₁.patchAll patchings) = .ok d' ∧ s = d'.storage
    unfold EStateM.run at hfirst
    unfold EStateM.bind
    rw [hfirst]
    cases d.patch input patches with
    | error e => exact iff_of_false (fun h => nomatch h) fun ⟨_, h, _⟩ => nomatch h
    | ok d₁ => exact ih

end Storage

/-! ## Resolving -/

/-- One round over the constants from `slot` on; each is written into its slot. -/
def PoolTables.resolveRound (rules : Rules) (round : Round) (slot : Nat) (t : PoolTables T F M) :
    List (Option (DraftEntry T)) → Except FormatFault (PoolTables T F M)
  | [] => .ok t
  | none :: rest => t.resolveRound rules round (slot + 1) rest
  | some e :: rest =>
    if e.round? = some round then
      match t.view.resolveEntry rules slot e with
      | .ok resolved =>
        resolveRound rules round (slot + 1) { t with items := t.items.set slot (some resolved) } rest
      | .error fault => .error fault
    else t.resolveRound rules round (slot + 1) rest

/-- The texts stay where they are, and the constants start over. -/
def Storage.resolve (F M : Type) (s : Storage T) (rules : Rules) : Except FormatFault (PoolTables T F M) := do
  let t₀ : PoolTables T F M := ⟨s.texts, s.items.map fun _ => none⟩
  let t₁ ← t₀.resolveRound rules .texts 0 s.items
  let t₂ ← t₁.resolveRound rules .members 0 s.items
  t₂.resolveRound rules .handles 0 s.items

section Resolving

variable {rules : Rules} {round : Round} {p p' : Pool T F M}

theorem DraftEntry.item?_eq_none_or (c : DraftEntry T) : c.item? = none ∨ c.item? = some c := by
  cases c <;> first | exact .inl rfl | exact .inr rfl

/-- Only texts come to texts. -/
theorem DraftEntry.Becomes.isItem {c : DraftEntry T} {e : Entry T F M} (h : c.Becomes p e.frozen)
    (hround : c.round? = some round) : e.text? = none ∧ e.item? = some e := by
  have hfrozen : e.frozen.text? = none ∧ e.frozen ≠ .vacant := by
    generalize e.frozen = e' at h
    cases h with
    | vacant => cases hround
    | text value => cases hround
    | member m kind _ => cases kind <;> exact ⟨rfl, fun h => nomatch h⟩
    | _ => exact ⟨rfl, fun h => nomatch h⟩
  cases e with
  | vacant => exact absurd rfl hfrozen.2
  | text value exposed => exact nomatch hfrozen.1
  | _ => exact ⟨rfl, rfl⟩

/-- A constant is written into a slot without a text. -/
theorem PoolTables.set_tables {slot : Nat} {e : Entry T F M} (htext : p.tables.texts[slot]? = some none)
    (he : e.text? = none ∧ e.item? = some e) :
    ({ p.tables with items := p.tables.items.set slot (some e) } : PoolTables T F M) =
      (Pool.mk (p.entries.setIfInBounds slot e)).tables := by
  have htexts : p.tables.texts.set slot none = p.tables.texts := by
    apply List.ext_getElem?
    intro k
    rw [List.getElem?_set]
    split
    · rename_i hk
      subst hk
      rw [if_pos (List.getElem?_eq_some_iff.mp htext).1, htext]
    · rfl
  unfold Pool.tables at htexts ⊢
  simp only [Array.toList_setIfInBounds, List.map_set, he.1, he.2, htexts]

/-- A round on the tables is the round on the pool. -/
theorem PoolTables.resolveRound_tables {slot : Nat} {rest : List (DraftEntry T)}
    (hrest : p.tables.texts.drop slot = rest.map DraftEntry.text?) :
    p.tables.resolveRound rules round slot (rest.map DraftEntry.item?) =
        (p.resolveRound rules round slot rest).map Pool.tables ∧
      ∀ p', p.resolveRound rules round slot rest = .ok p' → p'.tables.texts = p.tables.texts := by
  induction rest generalizing slot p with
  | nil =>
    refine ⟨rfl, ?_⟩
    intro p' h
    cases h
    rfl
  | cons c rest ih =>
    have htext : p.tables.texts[slot]? = some c.text? := by
      rw [← List.head?_drop, hrest]
      rfl
    have hrest' : p.tables.texts.drop (slot + 1) = rest.map DraftEntry.text? := by
      rw [← List.tail_drop, hrest]
      rfl
    by_cases hround : c.round? = some round
    · have hc : c.item? = some c ∧ c.text? = none := by
        cases c with
        | vacant => cases hround
        | text value => cases hround
        | _ => exact ⟨rfl, rfl⟩
      rw [hc.2] at htext
      rw [List.map_cons, hc.1, PoolTables.resolveRound, Pool.resolveRound, if_pos hround, if_pos hround,
        Pool.view_tables]
      cases hresolved : p.resolveEntry rules slot c with
      | error fault =>
        refine ⟨rfl, ?_⟩
        intro p' h
        cases h
      | ok e =>
        have hset := set_tables htext ((Pool.resolveEntry_sound hresolved).2.isItem hround)
        have htexts : (Pool.mk (p.entries.setIfInBounds slot e)).tables.texts = p.tables.texts :=
          (congrArg texts hset).symm
        obtain ⟨hsame, hkeeps⟩ := ih (p := ⟨p.entries.setIfInBounds slot e⟩) (htexts.symm ▸ hrest')
        simp only [hset]
        exact ⟨hsame, fun p' h => (hkeeps p' h).trans htexts⟩
    · have hskip : p.tables.resolveRound rules round slot ((c :: rest).map DraftEntry.item?) =
          p.tables.resolveRound rules round (slot + 1) (rest.map DraftEntry.item?) := by
        rw [List.map_cons]
        cases c.item?_eq_none_or with
        | inl h => rw [h, PoolTables.resolveRound]
        | inr h => rw [h, PoolTables.resolveRound, if_neg hround]
      rw [hskip, Pool.resolveRound, if_neg hround]
      exact ih hrest'

/-- In place as on drafts: the same fault, or the tables of the same pool. -/
theorem Storage.resolve_storage (d : Draft T) (rules : Rules) :
    d.storage.resolve F M rules = (d.resolve F M rules).map Pool.tables := by
  have hround {p : Pool T F M} (hp : p.tables.texts = d.storage.texts) (round : Round) :
      p.tables.resolveRound rules round 0 d.storage.items = (p.resolveRound rules round 0 d.entries).map Pool.tables ∧
        ∀ p', p.resolveRound rules round 0 d.entries = .ok p' → p'.tables.texts = d.storage.texts := by
    have hrest : p.tables.texts.drop 0 = d.entries.map DraftEntry.text? := by
      rw [List.drop_zero]
      exact hp
    refine ⟨(PoolTables.resolveRound_tables hrest).1, ?_⟩
    intro p' h
    exact ((PoolTables.resolveRound_tables hrest).2 p' h).trans hp
  have hstart : (⟨d.storage.texts, d.storage.items.map fun _ => none⟩ : PoolTables T F M) =
      (Pool.mk (d.entries.map DraftEntry.unresolved).toArray).tables := by
    have htext (c : DraftEntry T) : (c.unresolved : Entry T F M).text? = c.text? := by cases c <;> rfl
    have hitem (c : DraftEntry T) : (c.unresolved : Entry T F M).item? = none := by cases c <;> rfl
    simp [Draft.storage, Pool.tables, Function.comp_def, htext, hitem]
  have htexts₀ := (congrArg PoolTables.texts hstart).symm
  unfold Storage.resolve Draft.resolve
  dsimp only
  rw [hstart]
  obtain ⟨hsame₁, hkeeps₁⟩ := hround htexts₀ .texts
  rw [hsame₁]
  cases h₁ : Pool.resolveRound rules .texts 0 _ d.entries with
  | error fault => rfl
  | ok p₁ =>
    obtain ⟨hsame₂, hkeeps₂⟩ := hround (hkeeps₁ p₁ h₁) .members
    show (p₁.tables.resolveRound rules .members 0 d.storage.items >>= _) =
      Except.map Pool.tables (p₁.resolveRound rules .members 0 d.entries >>= _)
    rw [hsame₂]
    cases h₂ : p₁.resolveRound rules .members 0 d.entries with
    | error fault => rfl
    | ok p₂ => exact (hround (hkeeps₂ p₂ h₂) .handles).1

end Resolving

/-! ## Upkeep -/

namespace PoolTables

/-- Where there are constants they change as those of the pool do. -/
def within (f : Pool T F M → Pool T F M) (t : PoolTables T F M) : PoolTables T F M :=
  ⟨t.texts, List.zipWith (fun item e => item.map fun _ => e) t.items (f t.view).entries.toList⟩

/-- Texts without a constant become constants. -/
def exposeTexts (t : PoolTables T F M) : PoolTables T F M :=
  ⟨t.texts, List.zipWith (fun text item => item.or (text.map (.text · true))) t.texts t.items⟩

def apply (t : PoolTables T F M) : Upkeep T F M → PoolTables T F M
  | .exposeTexts => t.exposeTexts
  | .require i => t.within (·.require i)
  | .bindSelf i type => t.within (·.bindSelf i type)
  | .link host thisClass asking => t.within fun p => (p.link host thisClass asking).pool

end PoolTables

namespace Entry

theorem isConstant_requireLink (e : Entry T F M) : e.requireLink.isConstant = e.isConstant := by cases e <;> rfl

theorem isConstant_bindType (e : Entry T F M) (t : T) : (e.bindType t).isConstant = e.isConstant := by
  cases e <;> rfl

theorem isConstant_linked (host : Host T F M) (asking : Asking T) (type? : Index → Option T) (e : Entry T F M) :
    (e.linked host asking type?).isConstant = e.isConstant := by
  cases e with
  | field m binding => simp only [linked]; split <;> rfl
  | method item => simp only [linked]; split <;> rfl
  | interfaceMethod item => simp only [linked]; split <;> rfl
  | _ => rfl

end Entry

namespace Pool

variable {p : Pool T F M}

theorem isConstant_bindSelf (i j : Index) (t : T) :
    ((p.bindSelf i t).entry j).isConstant = (p.entry j).isConstant := by
  rw [entry_bindSelf]
  split
  · exact Entry.isConstant_bindType _ t
  · rfl

theorem isConstant_require (i j : Index) : ((p.require i).entry j).isConstant = (p.entry j).isConstant := by
  rw [entry_require]
  split
  · exact Entry.isConstant_requireLink _
  · rfl

theorem Addressable.isConstant_link (hp : p.Addressable) (host : Host T F M) (thisClass : Index) (asking : Asking T)
    (i : Index) : ((p.link host thisClass asking).pool.entry i).isConstant = (p.entry i).isConstant := by
  rw [hp.entry_link, Entry.isConstant_linked, isConstant_bindSelf]

/-- What neither adds constants nor drops any, and leaves the texts, is done within the table of constants. -/
theorem Addressable.within_tables (hp : p.Addressable) {f : Pool T F M → Pool T F M} (hfrozen : (f p).frozen = p.frozen)
    (hconstant : ∀ i, ((f p).entry i).isConstant = (p.entry i).isConstant) : p.tables.within f = (f p).tables := by
  have hslot (k : Nat) (e : Entry T F M) (he : p.entries[k]? = some e) :
      ∃ e', (f p).entries[k]? = some e' ∧ e'.text? = e.text? ∧ e'.item? = e.item?.map fun _ => e' := by
    have hlt : k < p.size := (Array.getElem?_eq_some_iff.mp he).1
    obtain ⟨i, rfl⟩ := exists_toNat_eq (Nat.lt_of_lt_of_le hlt hp.size)
    obtain ⟨e', he', hsame⟩ := getElem?_of_frozen hfrozen.symm he
    have hi := hconstant i
    rw [entry, entry, he, he'] at hi
    refine ⟨e', he', ?_, Entry.item?_of_isConstant_eq hi⟩
    rw [← Entry.text?_frozen, ← hsame, Entry.text?_frozen]
  have hnone (k : Nat) (hk : p.entries[k]? = none) : (f p).entries[k]? = none := by
    have hsize : (f p).entries.size = p.entries.size := size_of_frozen hfrozen
    rw [Array.getElem?_eq_none_iff] at hk ⊢
    omega
  have htexts : p.tables.texts = (f p).tables.texts := by
    apply List.ext_getElem?
    intro k
    simp only [tables, List.getElem?_map, Array.getElem?_toList]
    cases he : p.entries[k]? with
    | none => rw [hnone k he]
    | some e =>
      obtain ⟨e', he', htext, -⟩ := hslot k e he
      rw [he', Option.map_some, Option.map_some, htext]
  have hitems : (p.tables.within f).items = (f p).tables.items := by
    apply List.ext_getElem?
    intro k
    unfold PoolTables.within
    simp only [view_tables]
    simp only [tables, List.getElem?_zipWith, List.getElem?_map, Array.getElem?_toList]
    cases he : p.entries[k]? with
    | none =>
      rw [hnone k he]
      rfl
    | some e =>
      obtain ⟨e', he', -, hitem⟩ := hslot k e he
      rw [he', Option.map_some, Option.map_some, hitem]
  show (⟨p.tables.texts, (p.tables.within f).items⟩ : PoolTables T F M) = _
  rw [htexts, hitems]

theorem exposeTexts_tables (p : Pool T F M) : p.tables.exposeTexts = p.exposeTexts.tables := by
  simp [tables, exposeTexts, PoolTables.exposeTexts, List.zipWith_map, List.zipWith_self, Function.comp_def,
    Entry.text?_expose, Entry.item?_expose]

end Pool

/-- A step on the tables is the step on the pool. -/
theorem PoolTables.apply_tables {p : Pool T F M} (hp : p.Addressable) (u : Upkeep T F M) :
    p.tables.apply u = (u.apply p).tables := by
  cases u with
  | exposeTexts => exact p.exposeTexts_tables
  | require i => exact hp.within_tables (f := (·.require i)) (p.frozen_require i) (Pool.isConstant_require i)
  | bindSelf i t =>
    exact hp.within_tables (f := (·.bindSelf i t)) (p.frozen_bindSelf i t) fun j => Pool.isConstant_bindSelf i j t
  | link host thisClass asking =>
    exact hp.within_tables (f := fun p => (p.link host thisClass asking).pool)
      (p.frozen_link host thisClass asking) (hp.isConstant_link host thisClass asking)

theorem PoolTables.foldl_apply_tables {p : Pool T F M} (hp : p.Addressable) (us : List (Upkeep T F M)) :
    us.foldl apply p.tables = (us.foldl Upkeep.apply p).tables := by
  induction us generalizing p with
  | nil => rfl
  | cons u us ih =>
    rw [List.foldl_cons, List.foldl_cons, apply_tables hp]
    exact ih (hp.of_frozen (Upkeep.frozen_apply p u))

/-- Whatever constants a class file has, however they are patched in place, and whatever is done to the tables
    once they are resolved: they are those of the pool that comes of the draft, and no slot holds both a text and
    another constant. -/
theorem texts_are_kept_apart [ToString T] {constants : List (Option Constant)}
    {patchings : List (String × List (Option (Patch T)))} {rules : Rules} {built patched : Storage T}
    {t : PoolTables T F M} (hbuild : Storage.ofConstants constants = .ok built)
    (hpatch : (Storage.patchAll patchings).run built = .ok () patched) (hresolve : patched.resolve F M rules = .ok t) :
    ∃ (d d' : Draft T) (p : Pool T F M), Draft.ofConstants constants = .ok d ∧
      d.patchAll patchings = .ok d' ∧ d'.resolve F M rules = .ok p ∧
      ∀ us : List (Upkeep T F M), us.foldl PoolTables.apply t = (us.foldl Upkeep.apply p).tables ∧
        (us.foldl PoolTables.apply t).TextsApart := by
  rw [Storage.ofConstants_eq, Except.map_eq_ok] at hbuild
  obtain ⟨d, hd, rfl⟩ := hbuild
  obtain ⟨d', hd', rfl⟩ := Storage.run_patchAll_eq_ok_iff.mp hpatch
  rw [Storage.resolve_storage, Except.map_eq_ok] at hresolve
  obtain ⟨p, hp, rfl⟩ := hresolve
  refine ⟨d, d', p, hd, hd', hp, ?_⟩
  intro us
  have haddressable := Pool.addressable_of_resolve hd hd' hp
  have htables := PoolTables.foldl_apply_tables haddressable us
  refine ⟨htables, ?_⟩
  rw [htables]
  exact Pool.textsApart_tables (Upkeep.addressable_foldl haddressable us).vacant

-- A class at slot 4 and a text at slot 5, before and after texts are exposed.
example :
    ((Storage.ofConstants (T := Nat) templateConstants).bind (·.resolve Unit Unit ⟨Version.java8, {}⟩)).toOption.map
      (fun t => (t.texts[4]?.join, t.items[4]?.join.isSome, t.texts[5]?.join, t.items[5]?.join.isSome,
        (t.apply .exposeTexts).items[5]?.join.isSome)) =
      some (none, true, some "template", false, true) := by decide +kernel

end JvmClass
