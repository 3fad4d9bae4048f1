/-
  JvmClass.Proofs.Pool.Resolution — resolution makes sound pools.

  A constant is sound in the pool at hand when it is resolved (`resolveEntry_sound`). A slot is
  filled once, so whatever a constant was found to refer to stays (`Resolving.fill`). A round
  settles the constants of the round and leaves all others (`Settles`), so after the last one
  every constant of the draft is in its slot, and sound.
-/

import JvmClass.Proofs.Descriptor.Dotted
import JvmClass.Proofs.Except
import JvmClass.Proofs.Pool.Sound

namespace JvmClass

variable {T F M : Type} {rules : Rules} {p p' : Pool T F M}

/-! ## One constant -/

theorem fieldSound_of_check {name descriptor : String} (h : Pool.checkField rules name descriptor = .ok ()) :
    FieldSound rules name (dotted descriptor) := by
  unfold Pool.checkField at h
  split at h
  · cases h
  split at h
  · cases h
  rename_i hdescriptor hname
  refine ⟨?_, slash_not_mem_dotted descriptor, by simpa using hname⟩
  rw [isValidFieldDescriptor_dotted]
  simpa using hdescriptor

theorem methodSound_of_check {name descriptor : String} (h : Pool.checkMethod rules name descriptor = .ok ()) :
    MethodSound rules name (dotted descriptor) := by
  unfold Pool.checkMethod at h
  split at h
  · cases h
  rename_i hdescriptor
  rw [Bool.not_eq_true', Bool.not_eq_false] at hdescriptor
  refine ⟨(isValidMethodDescriptor_dotted descriptor).trans hdescriptor, slash_not_mem_dotted descriptor, ?_⟩
  split at h
  · rename_i hname
    exact .inl hname
  split at h
  · cases h
  rename_i hinit
  split at h
  · cases h
  rename_i hvoid
  rw [Bool.not_eq_true', Bool.not_eq_false] at hvoid
  exact .inr ⟨Decidable.not_not.mp hinit, void_of_endsInVoid hdescriptor hvoid⟩

namespace Pool

variable {slot : Nat} {i : Index}

theorem referred_eq_ok {e : Entry T F M} (h : p.referred slot i = .ok e) : p.entry i = e := by
  unfold referred at h
  simp only at h
  split at h
  · exact Except.ok.inj h
  · cases h

theorem className_of_referred {name : String} (h : p.referredClassName slot i = .ok name) :
    p.className i = .ok name := by
  simp only [referredClassName, Except.bind_eq_ok] at h
  obtain ⟨e, he, h⟩ := h
  cases e with
  | cls item => exact className_eq_ok.mpr ⟨item, referred_eq_ok he, Except.ok.inj h⟩
  | _ => cases h

theorem describes_of_nameAndTypeText {name descriptor : String}
    (h : p.nameAndTypeText slot i = .ok (name, descriptor)) : p.Describes i name (dotted descriptor) := by
  simp only [nameAndTypeText, Except.bind_eq_ok] at h
  obtain ⟨e, he, h⟩ := h
  cases e with
  | nameAndType n d =>
    simp only [Except.bind_eq_ok, Except.pure_eq_ok] at h
    obtain ⟨_, hn, _, hd, h⟩ := h
    cases h
    exact ⟨n, d, descriptor, referred_eq_ok he, hn, hd, rfl⟩
  | _ => cases h

theorem resolveMember_sound {kind : MemberKind} {cls nameAndType : Index} {e : Entry T F M}
    (h : p.resolveMember rules slot kind cls nameAndType = .ok e) :
    e.Sound rules p ∧ (DraftEntry.member kind cls nameAndType).Becomes p e.frozen := by
  simp only [resolveMember, Except.bind_eq_ok, Except.pure_eq_ok] at h
  obtain ⟨className, hclass, ⟨name, descriptor⟩, htext, _, hcheck, rfl⟩ := h
  have hclass := className_of_referred hclass
  have hdescribes := describes_of_nameAndTypeText htext
  cases kind with
  | field => exact ⟨⟨hclass, fieldSound_of_check hcheck⟩, .member ⟨cls, className, name, _⟩ .field hdescribes⟩
  | method => exact ⟨⟨hclass, methodSound_of_check hcheck⟩, .member ⟨cls, className, name, _⟩ .method hdescribes⟩
  | interfaceMethod =>
    exact ⟨⟨hclass, methodSound_of_check hcheck⟩, .member ⟨cls, className, name, _⟩ .interfaceMethod hdescribes⟩

theorem resolveHandle_sound {byte : UInt8} {e : Entry T F M} (h : p.resolveHandle rules slot byte i = .ok e) :
    e.Sound rules p ∧ (DraftEntry.methodHandle byte i).Becomes p e.frozen := by
  unfold resolveHandle at h
  split at h
  · cases h
  rename_i kind hkind
  simp only [Except.bind_eq_ok] at h
  obtain ⟨e', he', h⟩ := h
  split at h
  · cases h
  rename_i memberKind m hm
  simp only [Except.ite_throw_eq_ok, Except.pure_eq_ok, Bool.not_eq_true', Bool.not_eq_false] at h
  obtain ⟨haccepts, hname, rfl⟩ := h
  rw [← referred_eq_ok he'] at hm
  exact ⟨⟨memberKind, m, hm, haccepts, hname⟩, .methodHandle i hkind⟩

/-- What is resolved is sound as things stand. -/
theorem resolveEntry_sound {c : DraftEntry T} {e : Entry T F M} (h : p.resolveEntry rules slot c = .ok e) :
    e.Sound rules p ∧ c.Becomes p e.frozen := by
  cases c with
  | vacant =>
    cases h
    exact ⟨trivial, .vacant⟩
  | text value =>
    cases h
    exact ⟨trivial, .text value⟩
  | cls name renamed bound =>
    cases renamed with
    | some renamed =>
      cases h
      exact ⟨trivial, .renamed name renamed bound⟩
    | none =>
      simp only [resolveEntry, resolveClass, Except.bind_eq_ok] at h
      obtain ⟨s, hs, h⟩ := h
      split at h
      · cases h
        exact ⟨trivial, .cls bound hs⟩
      · cases h
  | literal value =>
    cases h
    exact ⟨trivial, .literal value⟩
  | string text =>
    simp only [resolveEntry, Except.bind_eq_ok, Except.pure_eq_ok] at h
    obtain ⟨s, hs, rfl⟩ := h
    exact ⟨trivial, .string hs⟩
  | live value =>
    cases h
    exact ⟨trivial, .live value⟩
  | nameAndType name descriptor =>
    simp only [resolveEntry, Except.bind_eq_ok, Except.pure_eq_ok] at h
    obtain ⟨s, hs, t, ht, rfl⟩ := h
    exact ⟨⟨⟨s, hs⟩, t, ht⟩, .nameAndType name descriptor⟩
  | member kind cls nameAndType => exact resolveMember_sound h
  | methodHandle kind reference => exact resolveHandle_sound h
  | methodType descriptor =>
    simp only [resolveEntry, Except.bind_eq_ok] at h
    obtain ⟨s, hs, h⟩ := h
    split at h
    · rename_i hvalid
      cases h
      exact ⟨⟨(isValidMethodDescriptor_dotted s).trans hvalid, slash_not_mem_dotted s⟩, .methodType hs⟩
    · cases h
  | invokeDynamic bootstrap nameAndType =>
    simp only [resolveEntry, Except.bind_eq_ok, Except.pure_eq_ok] at h
    obtain ⟨⟨name, descriptor⟩, htext, _, hcheck, rfl⟩ := h
    exact ⟨methodSound_of_check hcheck, .invokeDynamic bootstrap (describes_of_nameAndTypeText htext)⟩

end Pool

/-! ## The rounds -/

/-- A constant of the draft is in its slot. -/
def Settled (d : Draft T) (p : Pool T F M) (slot : Nat) : Prop :=
  ∀ c, d.entries[slot]? = some c → ∃ e, p.entries[slot]? = some e ∧ c.Becomes p e.frozen

/-- A pool on the way: what is there is sound. Texts and empty slots are settled from the start. -/
structure Resolving (rules : Rules) (d : Draft T) (p : Pool T F M) : Prop where
  size : p.size = d.size
  entries : ∀ (slot : Nat) (e : Entry T F M), p.entries[slot]? = some e → e.Sound rules p
  settled : ∀ (slot : Nat) (c : DraftEntry T), d.entries[slot]? = some c → c.round? = none → Settled d p slot

/-- From this slot on the constants of the round are still to be resolved. -/
def Awaits (d : Draft T) (p : Pool T F M) (round : Round) (slot : Nat) : Prop :=
  ∀ (k : Nat) (c : DraftEntry T), slot ≤ k → d.entries[k]? = some c → c.round? = some round →
    p.entries[k]? = some .vacant

/-- What a round does to a pool from this slot on: it settles its own slots and leaves all others. -/
structure Settles (d : Draft T) (round : Round) (slot : Nat) (p p' : Pool T F M) : Prop where
  keeps : Pool.Keeps p p'
  own : ∀ (k : Nat) (c : DraftEntry T), slot ≤ k → d.entries[k]? = some c → c.round? = some round → Settled d p' k
  others : ∀ (k : Nat) (c : DraftEntry T), d.entries[k]? = some c → c.round? ≠ some round →
    p'.entries[k]? = p.entries[k]?
  before : ∀ k < slot, p'.entries[k]? = p.entries[k]?

theorem Settled.after {d : Draft T} {slot : Nat} (hkeeps : Pool.Keeps p p')
    (hsame : p'.entries[slot]? = p.entries[slot]?) (h : Settled d p slot) : Settled d p' slot := by
  intro c hc
  obtain ⟨e, he, hbecomes⟩ := h c hc
  exact ⟨e, hsame.trans he, hbecomes.keeps hkeeps⟩

/-- A round leaves what a later one waits for. -/
theorem Awaits.after {d : Draft T} {round other : Round} (hne : other ≠ round) (hround : Settles d round 0 p p')
    (h : Awaits d p other 0) : Awaits d p' other 0 := by
  intro k c hk hc hother
  have hothers : c.round? ≠ some round := by
    rw [hother]
    intro h
    exact hne (Option.some.inj h)
  exact (hround.others k c hc hothers).trans (h k c hk hc hother)

namespace Resolving

variable {d : Draft T} {round : Round} {slot : Nat}

/-- An empty slot is filled with what its constant is resolved to; all else stays. -/
theorem fill (hp : Resolving rules d p) {c : DraftEntry T} {r : Entry T F M} (hc : d.entries[slot]? = some c)
    (hround : c.round? = some round) (hvacant : p.entries[slot]? = some .vacant)
    (h : p.resolveEntry rules slot c = .ok r) (hp' : p' = ⟨p.entries.setIfInBounds slot r⟩) :
    Resolving rules d p' ∧ Pool.Keeps p p' ∧ Settled d p' slot ∧ ∀ k, slot ≠ k → p'.entries[k]? = p.entries[k]? := by
  subst hp'
  obtain ⟨hlt, -⟩ := Array.getElem?_eq_some_iff.mp hvacant
  have hself : (p.entries.setIfInBounds slot r)[slot]? = some r := Array.getElem?_setIfInBounds_self_of_lt hlt
  have hother : ∀ k, slot ≠ k → (p.entries.setIfInBounds slot r)[k]? = p.entries[k]? :=
    fun k hk => Array.getElem?_setIfInBounds_ne hk
  have hkeeps : Pool.Keeps p (⟨p.entries.setIfInBounds slot r⟩ : Pool T F M) := by
    intro i hi
    have hne : slot ≠ i.toNat := by
      intro hslot
      rw [hslot] at hvacant
      exact hi (by rw [Pool.entry, hvacant]; rfl)
    simp only [Pool.entry, hother _ hne]
  obtain ⟨hsound, hbecomes⟩ := Pool.resolveEntry_sound h
  refine ⟨?_, hkeeps, ?_, hother⟩
  · constructor
    · exact Array.size_setIfInBounds.trans hp.size
    · intro k e he
      by_cases hk : slot = k
      · subst hk
        rw [hself] at he
        cases he
        exact hsound.keeps hkeeps
      · rw [hother k hk] at he
        exact (hp.entries k e he).keeps hkeeps
    · intro k c' hc' hnone
      have hne : slot ≠ k := by
        intro hk
        subst hk
        rw [hc] at hc'
        cases hc'
        rw [hround] at hnone
        cases hnone
      exact (hp.settled k c' hc' hnone).after hkeeps (hother k hne)
  · intro c' hc'
    rw [hc] at hc'
    cases hc'
    exact ⟨r, hself, hbecomes.keeps hkeeps⟩

/-- One round settles the constants of the round. -/
theorem resolveRound {rest : List (DraftEntry T)} (hrest : d.entries.drop slot = rest) (hp : Resolving rules d p)
    (hawaits : Awaits d p round slot) (h : p.resolveRound rules round slot rest = .ok p') :
    Resolving rules d p' ∧ Settles d round slot p p' := by
  induction rest generalizing slot p with
  | nil =>
    cases h
    refine ⟨hp, fun _ _ => rfl, ?_, fun _ _ _ _ => rfl, fun _ _ => rfl⟩
    intro k c hk hc
    obtain ⟨hlt, -⟩ := List.getElem?_eq_some_iff.mp hc
    have := List.drop_eq_nil_iff.mp hrest
    omega
  | cons c rest ih =>
    have hc : d.entries[slot]? = some c := by
      rw [← List.head?_drop, hrest]
      rfl
    have hrest' : d.entries.drop (slot + 1) = rest := by
      rw [← List.tail_drop, hrest]
      rfl
    unfold Pool.resolveRound at h
    by_cases hround : c.round? = some round
    · rw [if_pos hround] at h
      split at h
      · rename_i r hr
        obtain ⟨hfilled, hkeeps, hself, hother⟩ := hp.fill hc hround (hawaits slot c (Nat.le_refl _) hc hround) hr rfl
        have hawaits' : Awaits d (⟨p.entries.setIfInBounds slot r⟩ : Pool T F M) round (slot + 1) := by
          intro k c' hk hc' hround'
          exact (hother k (by omega)).trans (hawaits k c' (by omega) hc' hround')
        obtain ⟨hp', hsettles⟩ := ih hrest' hfilled hawaits' h
        refine ⟨hp', hkeeps.trans hsettles.keeps, ?_, ?_, ?_⟩
        · intro k c' hk hc' hround'
          rcases Nat.eq_or_lt_of_le hk with hk | hk
          · subst hk
            exact hself.after hsettles.keeps (hsettles.before slot (Nat.lt_succ_self slot))
          · exact hsettles.own k c' hk hc' hround'
        · intro k c' hc' hround'
          have hne : slot ≠ k := by
            intro hk
            subst hk
            rw [hc] at hc'
            cases hc'
            exact hround' hround
          exact (hsettles.others k c' hc' hround').trans (hother k hne)
        · intro k hk
          exact (hsettles.before k (by omega)).trans (hother k (by omega))
      · cases h
    · rw [if_neg hround] at h
      obtain ⟨hp', hsettles⟩ := ih hrest' hp (fun k c' hk => hawaits k c' (by omega)) h
      refine ⟨hp', hsettles.keeps, ?_, hsettles.others, fun k hk => hsettles.before k (by omega)⟩
      intro k c' hk hc' hround'
      rcases Nat.eq_or_lt_of_le hk with hk | hk
      · subst hk
        rw [hc] at hc'
        cases hc'
        exact absurd hround' hround
      · exact hsettles.own k c' hk hc' hround'

theorem getElem?_unresolved (d : Draft T) (slot : Nat) : (d.entries.map DraftEntry.unresolved).toArray[slot]? =
    d.entries[slot]?.map (DraftEntry.unresolved : DraftEntry T → Entry T F M) := by
  rw [List.getElem?_toArray, List.getElem?_map]

/-- Before the first round there are texts only. -/
theorem unresolved (rules : Rules) (d : Draft T) :
    Resolving rules d (⟨(d.entries.map DraftEntry.unresolved).toArray⟩ : Pool T F M) := by
  constructor
  · simp only [Pool.size, Draft.size, List.size_toArray, List.length_map]
  · intro slot e he
    rw [getElem?_unresolved] at he
    obtain ⟨c, -, rfl⟩ := Option.map_eq_some_iff.mp he
    cases c <;> trivial
  · intro slot c hc hnone c' hc'
    rw [hc] at hc'
    cases hc'
    refine ⟨c.unresolved, by rw [getElem?_unresolved, hc]; rfl, ?_⟩
    cases c with
    | vacant => exact .vacant
    | text value => exact .text value
    | _ => cases hnone

theorem awaits_unresolved (d : Draft T) (round : Round) :
    Awaits d (⟨(d.entries.map DraftEntry.unresolved).toArray⟩ : Pool T F M) round 0 := by
  intro k c _ hc hround
  rw [getElem?_unresolved, hc]
  cases c with
  | text value => cases hround
  | _ => rfl

/-- After the last round everything is settled. -/
theorem of_resolve (h : d.resolve F M rules = .ok p) : Resolving rules d p ∧ ∀ slot, Settled d p slot := by
  simp only [Draft.resolve, Except.bind_eq_ok] at h
  obtain ⟨p₁, h₁, p₂, h₂, h₃⟩ := h
  obtain ⟨hp₁, hsettles₁⟩ := (unresolved rules d).resolveRound rfl (awaits_unresolved d .texts) h₁
  have hmembers := (awaits_unresolved d .members).after (by decide) hsettles₁
  have hhandles := (awaits_unresolved d .handles).after (by decide) hsettles₁
  obtain ⟨hp₂, hsettles₂⟩ := hp₁.resolveRound rfl hmembers h₂
  obtain ⟨hp₃, hsettles₃⟩ := hp₂.resolveRound rfl (hhandles.after (by decide) hsettles₂) h₃
  refine ⟨hp₃, ?_⟩
  intro slot c hc
  have later {other round : Round} {p p' : Pool T F M} (hround : c.round? = some other) (hne : other ≠ round)
      (hsettles : Settles d round 0 p p') (h : Settled d p slot) : Settled d p' slot := by
    refine h.after hsettles.keeps (hsettles.others slot c hc ?_)
    rw [hround]
    intro h
    exact hne (Option.some.inj h)
  cases hround : c.round? with
  | none => exact hp₃.settled slot c hc hround c hc
  | some round =>
    cases round with
    | texts =>
      have hsettled := hsettles₁.own slot c (Nat.zero_le slot) hc hround
      exact later hround (by decide) hsettles₃ (later hround (by decide) hsettles₂ hsettled) c hc
    | members =>
      have hsettled := hsettles₂.own slot c (Nat.zero_le slot) hc hround
      exact later hround (by decide) hsettles₃ hsettled c hc
    | handles => exact hsettles₃.own slot c (Nat.zero_le slot) hc hround c hc

end Resolving

/-! ## Drafts -/

/-- Slot 0 is empty if there is one. -/
def Draft.StartsVacant (d : Draft T) : Prop := ∀ e, d.entries[0]? = some e → e = .vacant

namespace Draft

variable {d d' : Draft T}

theorem startsVacant_ofConstants {constants : List (Option Constant)} (h : ofConstants constants = .ok d) :
    d.StartsVacant := by
  unfold ofConstants at h
  split at h
  · cases h
  split at h
  · cases h
  rename_i hhead
  simp only [Except.bind_eq_ok, Except.pure_eq_ok] at h
  obtain ⟨entries, hentries, rfl⟩ := h
  intro e he
  have hmap := List.mapM_eq_ok_iff.mp hentries
  cases constants with
  | nil =>
    rw [List.map_nil, eq_comm, List.map_eq_nil_iff] at hmap
    rw [hmap] at he
    cases he
  | cons c constants =>
    cases c with
    | some c => exact absurd rfl (hhead c constants)
    | none =>
      cases entries with
      | nil => cases hmap
      | cons e' entries =>
        injection hmap with hfirst _
        cases hfirst
        cases he
        rfl

theorem startsVacant_patch [ToString T] {input : String} {patches : List (Option (Patch T))} (hd : d.StartsVacant)
    (h : d.patch input patches = .ok d') : d'.StartsVacant := by
  unfold patch at h
  split at h
  · cases h
  simp only at h
  split at h
  · rename_i entries hentries
    cases h
    intro e he
    have hfirst := congrArg (·[0]?) (List.mapM_eq_ok_iff.mp hentries)
    simp only [List.getElem?_map, List.getElem?_zipIdx, he, Option.map_some, Option.map_map] at hfirst
    obtain ⟨⟨e₀, patch⟩, hzip, hpatched⟩ := Option.map_eq_some_iff.mp hfirst
    obtain ⟨he₀, -⟩ := List.getElem?_zip_eq_some.mp hzip
    obtain rfl := hd e₀ he₀
    cases patch with
    | none =>
      cases hpatched
      rfl
    | some patch => cases hpatched
  · cases h

/-- The draft with one list of patches after the other. -/
def patchAll [ToString T] (d : Draft T) (patchings : List (String × List (Option (Patch T)))) :
    Except Error (Draft T) :=
  patchings.foldlM (fun d (input, patches) => d.patch input patches) d

theorem startsVacant_patchAll [ToString T] {patchings : List (String × List (Option (Patch T)))}
    (hd : d.StartsVacant) (h : d.patchAll patchings = .ok d') : d'.StartsVacant := by
  induction patchings generalizing d with
  | nil =>
    cases h
    exact hd
  | cons patching patchings ih =>
    rw [patchAll, List.foldlM_cons, Except.bind_eq_ok] at h
    obtain ⟨d₁, h₁, h⟩ := h
    exact ih (startsVacant_patch hd h₁) h

/-- Resolution makes sound pools only. -/
theorem sound_resolve (hd : d.StartsVacant) (h : d.resolve F M rules = .ok p) : Pool.Sound rules d p := by
  obtain ⟨hp, hsettled⟩ := Resolving.of_resolve h
  have hlength : p.entries.size = d.entries.length := hp.size
  refine ⟨hp.size, ?_, hp.entries, hsettled⟩
  show p.entries[0]?.getD .vacant = .vacant
  cases h₀ : d.entries[0]? with
  | none =>
    rw [List.getElem?_eq_none_iff, ← hlength, ← Array.getElem?_eq_none_iff] at h₀
    rw [h₀]
    rfl
  | some c =>
    obtain rfl := hd c h₀
    obtain ⟨e, he, hbecomes⟩ := hsettled 0 .vacant h₀
    rw [he]
    exact Entry.eq_vacant_of_frozen hbecomes.eq_vacant

end Draft

end JvmClass
