/-
  JvmClass.Proofs.Class.Origin — where the methods of a class come from.

  The methods are built one by one from their entries in the class file, and what they are warned of
  follows what the fields are warned of. Taking assertions out changes none of what annotations tell of,
  and the attributes of the class are read in silence. So a class that is made of a file has a state to
  which its fields led, and its methods are taken from the entries of the file in order, each with its
  warnings (`Class.comesFrom_of_ofFile`). Files that agree in all but their methods lead to one state
  (`Class.ComesFrom.unique`).
-/

import JvmClass.Proofs.Class.Annotating

namespace JvmClass

variable {T F M : Type}

open Build (Ensures Reports Silent)

/-! ## Without assertions -/

theorem forall₂_modifyFirst {α β : Type} {R : α → β → Prop} {test : β → Bool} {change : β → β} {l : List α}
    {l' : List β} (h : List.Forall₂ R l l') (hchange : ∀ a b, l'.find? test = some b → R a b → R a (change b)) :
    List.Forall₂ R l (modifyFirst test change l') := by
  induction h with
  | nil => exact .nil
  | @cons a b l l' head tail ih =>
    unfold modifyFirst
    by_cases hb : test b = true
    · rw [if_pos hb]
      exact .cons (hchange a b (List.find?_cons_of_pos hb) head) tail
    · rw [if_neg hb]
      rw [List.find?_cons_of_neg hb] at hchange
      exact .cons head (ih hchange)

theorem Method.markers_of_withoutAssertions? {p : Pool T F M} {thisClass : String} {fields : List Field}
    {m m' : Method} {field : MemberRef} (h : m.withoutAssertions? p thisClass fields = some (field, m')) :
    m'.markers = { m.markers with hasAssertions := true } := by
  simp only [withoutAssertions?, Option.bind_eq_bind, Option.bind_eq_some_iff, Option.pure_def, Option.some.injEq] at h
  obtain ⟨_, -, _, -, _, -, heq⟩ := h
  cases heq
  rfl

theorem isTakenFrom_withoutAssertions {p q : Pool T F M} {thisClass : String} {fields : List Field}
    {methods : List Method} {cls : DeclaringClass} {ts : List (MemberInfo × List Warning)}
    (h : List.Forall₂ (fun t m => Method.IsTakenFrom q cls t.1 m t.2) ts methods) :
    List.Forall₂ (fun t m => Method.IsTakenFrom q cls t.1 m t.2) ts (withoutAssertions p thisClass fields methods).2 := by
  rcases withoutAssertions_cases p thisClass fields methods with heq | ⟨m, field, m', hm, hm', heq⟩
  · rwa [heq]
  · rw [heq]
    refine forall₂_modifyFirst h fun t m₀ hfound htaken => ?_
    cases hm.symm.trans hfound
    exact htaken.congr (Method.of_withoutAssertions? hm').1 ⟨true, Method.markers_of_withoutAssertions? hm'⟩

/-! ## The attributes of the class -/

theorem silent_readInnerClasses (info : List UInt8) : (readInnerClasses info : Build T F M _).Silent :=
  (Silent.read _ _).bind fun _ => Silent.pool.bind fun _ => (Silent.ofExcept _).bind fun _ =>
    (Silent.require _).bind fun _ => .pure _

theorem silent_readEnclosingMethod (info : List UInt8) : (readEnclosingMethod info : Build T F M _).Silent :=
  .check ((Silent.read _ _).bind fun _ => (Silent.className _).bind fun _ => Silent.pool.bind fun _ =>
    (Silent.ofExcept _).bind fun _ => .pure _)

theorem silent_readBootstrapMethods (info : List UInt8) : (readBootstrapMethods info : Build T F M _).Silent :=
  Silent.pool.bind fun _ => (Silent.read _ _).bind fun _ => (Silent.require _).bind fun _ => .pure _

theorem ClassAttributes.silent_build (version : Version) (options : Options) (attributes : List Attribute) :
    (build version options attributes : Build T F M _).Silent := by
  refine .foldlM (fun c a => (Silent.kindOf _ _).bind fun kind => ?_) _ _
  split
  · split
    · exact .pure _
    · exact .throw _
  · exact (Silent.singleText _ _).bind fun _ => .pure _
  · exact (silent_readInnerClasses _).bind fun _ => .pure _
  · exact (Silent.singleText _ _).bind fun _ => .pure _
  · exact (silent_readEnclosingMethod _).bind fun _ => .pure _
  · exact (Silent.annotations _).bind fun _ => .pure _
  · refine (Silent.annotations _).bind fun _ => ?_
    dsimp only
    split
    · exact .pure _
    · exact .pure _
  · exact (silent_readBootstrapMethods _).bind fun _ => .pure _
  · exact Silent.exposeTexts.bind fun _ => .pure _
  · exact (Silent.singleText _ _).bind fun _ => .pure _
  · exact .pure _

/-! ## The whole class -/

/-- What the members of the class know of it. -/
def ClassHeader.declaring (c : ClassHeader) (options : Options) : DeclaringClass :=
  { name := c.name, version := c.version, isInterface := c.isInterface, options }

namespace Class

/-- From the pool `p` on the fields led to the state `s`; then the methods were taken from their entries,
    with these warnings. -/
structure ComesFrom (file : ClassFile) (options : Options) (p : Pool T F M) (s : BuildState T F M)
    (ts : List (MemberInfo × List Warning)) (c : Class T F M) (ws : List Warning) : Prop where
  header : ∃ header, ClassHeader.ofFile p file = .ok header ∧ header.declaring options = c.declaring options
  fields : ∃ fields, buildFields (c.declaring options) file ⟨p, #[]⟩ = .ok fields s
  frozen : c.pool.frozen = p.frozen
  entries : ts.map Prod.fst = file.methods
  methods : List.Forall₂ (fun t m => Method.IsTakenFrom c.pool (c.declaring options) t.1 m t.2) ts c.methods
  warnings : ws = s.warnings.toList ++ ts.flatMap Prod.snd

variable {file : ClassFile} {options : Options} {p : Pool T F M}

theorem reports_buildMethods (cls : DeclaringClass) : Reports p (buildMethods cls file) fun ms ws =>
    ∃ ts : List (MemberInfo × List Warning), ts.map Prod.fst = file.methods ∧
      List.Forall₂ (fun t m => Method.IsTakenFrom p cls t.1 m t.2) ts ms ∧ ts.flatMap Prod.snd = ws := by
  have hchecked (ms : List Method) : Ensures p (do
      if hasDuplicates (ms.map (·.member.key)) then throw .repeatedMethod
      return ms) (ms = ·) := .check fun _ => .pure rfl
  refine ((Reports.mapM (Method.reports_build cls) file.methods).bind_silent (fun _ => .check (.pure _)) hchecked).mono ?_
  rintro _ ws ⟨ms, h, rfl⟩
  exact h

/-- To complete a class changes nothing that its methods are told by, and warns of nothing. -/
theorem of_complete {header : ClassHeader} {members : List Field × List Method} {s s' : BuildState T F M}
    {c : Class T F M} (h : complete file options header members s = .ok c s') :
    c.declaring options = header.declaring options ∧ c.methods = members.2 ∧ c.pool.frozen = s.pool.frozen ∧
      s'.warnings = s.warnings := by
  obtain ⟨attributes, _, hattributes, h⟩ := Build.bind_eq_ok.mp h
  have hfrozen := (ClassAttributes.ensures_build header.version options file.attributes _ _ _ rfl hattributes).2
  have hwarnings := ClassAttributes.silent_build _ _ _ _ _ _ hattributes
  obtain ⟨_, _, hpool, h⟩ := Build.bind_eq_ok.mp h
  obtain ⟨rfl, rfl⟩ := Build.pool_eq_ok.mp hpool
  obtain ⟨-, h⟩ := Build.ite_throw_eq_ok.mp h
  obtain ⟨rfl, rfl⟩ := Build.pure_eq_ok.mp h
  refine ⟨?_, rfl, hfrozen, hwarnings⟩
  simp only [ClassHeader.declaring, ClassHeader.isInterface, DeclaringClass.mk.injEq, true_and, and_true]
  split
  · exact Access.has_erase header.access (by decide)
  · rfl

theorem comesFrom_of_build {c : Class T F M} {s' : BuildState T F M} (h : build file options ⟨p, #[]⟩ = .ok c s') :
    ∃ s ts, ComesFrom file options p s ts c s'.warnings.toList := by
  rw [build_eq_complete] at h
  obtain ⟨_, _, hpool, h⟩ := Build.bind_eq_ok.mp h
  obtain ⟨rfl, rfl⟩ := Build.pool_eq_ok.mp hpool
  obtain ⟨header, _, hof, h⟩ := Build.bind_eq_ok.mp h
  obtain ⟨hheader, rfl⟩ := Build.ofExcept_eq_ok.mp hof
  obtain ⟨fields, s, hfields, h⟩ := Build.bind_eq_ok.mp h
  obtain ⟨methods, s₁, hmethods, h⟩ := Build.bind_eq_ok.mp h
  obtain ⟨_, _, hpool, h⟩ := Build.bind_eq_ok.mp h
  obtain ⟨rfl, rfl⟩ := Build.pool_eq_ok.mp hpool
  obtain ⟨hdeclaring, hmembers, hfrozen, hwarnings⟩ := of_complete h
  have hkept := ((quiet_buildFields _ file).ensures (p := p) _ _ _ rfl hfields).2
  obtain ⟨hkept', ws, hws, ts, hts, htaken, rfl⟩ :=
    reports_buildMethods (header.declaring options) _ _ _ hkept hmethods
  have hpool := hfrozen.trans hkept'
  refine ⟨s, ts, ⟨header, hheader, hdeclaring.symm⟩, hdeclaring ▸ ⟨fields, hfields⟩, hpool, hts, ?_, ?_⟩
  · rw [hmembers, hdeclaring]
    replace htaken := htaken.imp fun t m h => h.of_frozen hpool
    split
    · exact isTakenFrom_withoutAssertions htaken
    · exact htaken
  · rw [hwarnings, hws]

theorem comesFrom_of_ofFile [ToString T] {input : String} {patches : List (Option (Patch T))} {c : Class T F M}
    {ws : Array Warning} (h : ofFile file input options patches = (.ok c, ws)) :
    ∃ p s ts, resolvePool file input options patches = .ok p ∧ ComesFrom file options p s ts c ws.toList := by
  unfold ofFile at h
  split at h
  · cases h
  split at h
  · cases h
  rename_i p hp
  split at h
  · rename_i c' s' hrun
    cases h
    obtain ⟨s, ts, hcomes⟩ := comesFrom_of_build hrun
    exact ⟨p, s, ts, hp, hcomes⟩
  · cases h

/-- Where the frame and the fields are the same, so are what the methods know of their class and the
    state that they start from. -/
theorem ComesFrom.unique {file' : ClassFile} {s s' : BuildState T F M} {ts ts' : List (MemberInfo × List Warning)}
    {c c' : Class T F M} {ws ws' : List Warning} (h : ComesFrom file options p s ts c ws)
    (h' : ComesFrom file' options p s' ts' c' ws') (hframe : file.SameFrame file') (hfields : file'.fields = file.fields) :
    c'.declaring options = c.declaring options ∧ s' = s := by
  obtain ⟨header, hheader, hdeclaring⟩ := h.header
  obtain ⟨header', hheader', hdeclaring'⟩ := h'.header
  rw [header_of_sameFrame hframe, hheader] at hheader'
  cases hheader'
  have hsame := hdeclaring'.symm.trans hdeclaring
  obtain ⟨fields, hrun⟩ := h.fields
  obtain ⟨fields', hrun'⟩ := h'.fields
  unfold buildFields at hrun hrun'
  rw [hsame, hfields, hrun] at hrun'
  cases hrun'
  exact ⟨hsame, rfl⟩

end Class

end JvmClass
