/-
  JvmClass.Proofs.Trapping.Text — descriptors and class names, character by character.

  The checks look at characters by their position. Each position is within the text because of an earlier
  check: a range ends at a character that was found, and the brackets of an array are followed by an
  element once the whole text is a field descriptor. So no check traps, and each one is the check of the
  text as a list (`isFieldDescriptor_eq`, `isMethodDescriptor_eq`, `isValidClassName_eq`).
-/

import JvmClass.Proofs.Descriptor.ClassName
import JvmClass.Proofs.Trapping.Basic

namespace JvmClass

namespace Trapping

/-! ## The checks -/

/-- A class name ends with the text; the element of an array is a descriptor of its own. -/
def isFieldDescriptor : List Char → Option Bool := Loop.run fun s =>
  if s.head? = some '[' then
    match s.findIdx? (· != '[') with
    | some start => do return .inl (← slice s start s.length)
    | none => return .inr false
  else if s.head? = some 'L' then return .inr ((s.idxOf? ';').any fun k => k + 1 == s.length)
  else return .inr (s.head?.any isBaseLetter && s.length == 1)

/-- The position of the first `;` from `i` on. -/
def nextSemicolon (s : List Char) (i : Nat) : Option (Option Nat) := do
  return ((← slice s i s.length).idxOf? ';').map (i + ·)

/-- The position of the last character of the type at `i`, if it is no array. -/
def elementEnd (s : List Char) (i : Nat) : Option (Option Nat) := do
  let c ← s[i]?
  if c = 'L' then nextSemicolon s i else return if isBaseLetter c then some i else none

/-- The position from `i` on that holds no bracket, `stop` if there is none before it. -/
def skipBrackets (s : List Char) (stop : Nat) : Nat → Option Nat := Loop.run fun i =>
  if i < stop then do return if (← s[i]?) = '[' then .inl (i + 1) else .inr i
  else return .inr i

/-- The position of the last character of the parameter at `i`. -/
def parameterEnd (s : List Char) (stop i : Nat) : Option (Option Nat) := do
  if (← s[i]?) = '[' then
    let k ← skipBrackets s stop i
    if stop ≤ k then return none
    elementEnd s k
  else elementEnd s i

/-- Parameters from `i` to before `stop`. -/
def areParameters (s : List Char) (stop : Nat) : Nat → Option Bool := Loop.run fun i =>
  if i < stop then do
    match ← parameterEnd s stop i with
    | some k => return if stop ≤ k then .inr false else .inl (k + 1)
    | none => return .inr false
  else return .inr true

def isReturnDescriptor (s : List Char) : Option Bool := if s = ['V'] then some true else isFieldDescriptor s

def isMethodDescriptor (s : List Char) : Option Bool :=
  if s.length < 3 then some false
  else do
    if (← s[0]?) ≠ '(' then return false
    match s.idxOf? ')' with
    | some stop =>
      if ← isReturnDescriptor (← slice s (stop + 1) s.length) then areParameters s stop 1 else return false
    | none => return false

def isValidFieldDescriptor (s : String) : Option Bool := isFieldDescriptor s.toList

def isValidMethodDescriptor (s : String) : Option Bool := isMethodDescriptor s.toList

/-- The position from `i` on that holds no bracket. -/
def afterBrackets (s : List Char) : Nat → Option Nat := Loop.run fun i => do
  return if (← s[i]?) = '[' then .inl (i + 1) else .inr i

/-- The characters from `start` to before `stop` may follow the one before them. -/
def isClassNameRange (strict : Bool) (s : List Char) (start stop : Nat) : Option Bool := do
  let prev ← if start = 0 then some '\x00' else do s[← start.ppred]?
  return isClassNameTail strict prev ((s.take stop).drop start)

/-- An array is named by its descriptor; only the name of its element is looked at once more. -/
def isArrayName (strict : Bool) (s : List Char) : Option Bool := do
  if ← isFieldDescriptor s then
    let start ← afterBrackets s 0
    if s.getLast? = some ';' then isClassNameRange strict s (start + 1) (← s.length.ppred)
    else isClassNameRange strict s start s.length
  else return false

def isValidClassName (name : String) (version : Version) (options : Options) : Option Bool :=
  let strict := !version.hasJava5Features && !options.relaxedClassNames
  let s := name.toList
  match s.head? with
  | none => some false
  | some first =>
    if strict && !(isIdentifierStart first || first == '[' || first == '/') then some false
    else if first = '[' then isArrayName strict s
    else isClassNameRange strict s (if strict then 1 else 0) s.length

/-! ## Field descriptors -/

theorem isFieldDescriptor_of_head {s : List Char} (h : s.head? ≠ some '[') :
    isFieldDescriptor s = some (JvmClass.isFieldDescriptor s) := by
  refine Loop.run_of_done ?_
  rw [if_neg h]
  cases s with
  | nil => rfl
  | cons c s =>
    by_cases hL : c = 'L'
    · subst hL
      rw [if_pos (by rfl), JvmClass.isFieldDescriptor]
      by_cases hs : ';' ∈ s
      · obtain ⟨v, w, rfl, hv⟩ := List.eq_append_cons_of_mem hs
        rw [dropWhile_bne_append w hv, ← List.cons_append, idxOf?_append_cons w (by simpa using hv)]
        cases w <;> simp
      · rw [dropWhile_bne_of_not_mem hs, idxOf?_of_not_mem (by simpa using hs)]
        rfl
    · rw [if_neg (by simpa using hL), JvmClass.isFieldDescriptor]
      · cases s <;> simp
      · simpa using h
      · exact hL

theorem isFieldDescriptor_eq (s : List Char) : isFieldDescriptor s = some (JvmClass.isFieldDescriptor s) := by
  obtain ⟨n, u, rfl, hu, -, -⟩ := exists_brackets s
  cases n with
  | zero => exact isFieldDescriptor_of_head hu
  | succ n =>
    have hbracket : (List.replicate (n + 1) '[' ++ u).head? = some '[' := by simp [List.replicate_succ]
    rw [isFieldDescriptor_replicate]
    cases u with
    | nil =>
      refine Loop.run_of_done ?_
      rw [if_pos hbracket, List.findIdx?_append, List.findIdx?_replicate]
      simp [JvmClass.isFieldDescriptor]
    | cons c u =>
      have hc : c ≠ '[' := by simpa using hu
      rw [← isFieldDescriptor_of_head hu]
      refine Loop.run_of_next ?_
      rw [if_pos hbracket, List.findIdx?_append, List.findIdx?_replicate]
      simp [List.findIdx?_cons, hc, slice_of_le]

theorem isValidFieldDescriptor_eq (s : String) : isValidFieldDescriptor s = some (JvmClass.isValidFieldDescriptor s) :=
  isFieldDescriptor_eq _

/-! ## Method descriptors -/

section Position

variable {s a u w : List Char} {stop i : Nat}

theorem skipBrackets_eq {n : Nat} (hs : s = a ++ (List.replicate n '[' ++ u) ++ w) (hi : i = a.length)
    (hstop : stop = i + n + u.length) (hu : u.head? ≠ some '[') : skipBrackets s stop i = some (i + n) := by
  induction n generalizing a i with
  | zero =>
    refine Loop.run_of_done ?_
    cases u with
    | nil => simp [hstop]
    | cons c u =>
      have hc : c ≠ '[' := by simpa using hu
      simp [hs, hi, hstop, hc]
  | succ n ih =>
    have hbracket : s[i]? = some '[' := by simp [hs, hi, List.replicate_succ]
    have hnext := ih (a := a ++ ['[']) (i := i + 1) (by simp [hs, List.replicate_succ]) (by simp [hi]) (by omega)
    have hstep : skipBrackets s stop i = skipBrackets s stop (i + 1) := by
      refine Loop.run_of_next ?_
      simp [hbracket, show i < stop by omega]
    rw [hstep, hnext]
    congr 1
    omega

/-- From a letter on, the next semicolon is among the characters that are still to come, or behind them. -/
theorem nextSemicolon_eq (hs : s = a ++ 'L' :: u ++ w) (hi : i = a.length) :
    (∃ v t, u = v ++ ';' :: t ∧ ';' ∉ v ∧ nextSemicolon s i = some (some (i + (v.length + 1)))) ∨
      ';' ∉ u ∧ ∃ o, nextSemicolon s i = some o ∧ ∀ k ∈ o, i + (u.length + 1) ≤ k := by
  have htail : slice s i s.length = some ('L' :: u ++ w) := by
    rw [slice_length (by simp [hs, hi]), hs, hi]
    simp
  unfold nextSemicolon
  rw [htail]
  by_cases hu : ';' ∈ u
  · obtain ⟨v, t, rfl, hv⟩ := List.eq_append_cons_of_mem hu
    refine .inl ⟨v, t, rfl, hv, ?_⟩
    have hfirst := idxOf?_append_cons (v := 'L' :: v) (t ++ w) (d := ';') (by simp [hv])
    simpa using hfirst
  · refine .inr ⟨hu, _, rfl, ?_⟩
    by_cases hw : ';' ∈ w
    · obtain ⟨v, t, rfl, hv⟩ := List.eq_append_cons_of_mem hw
      rw [← List.append_assoc, idxOf?_append_cons t (by simp [hu, hv])]
      simp
    · rw [idxOf?_of_not_mem (by simp [hu, hw])]
      simp

end Position

/-- All brackets before a parameter together; something must follow them. -/
theorem areParameters_replicate (n : Nat) (u : List Char) :
    JvmClass.areParameters (List.replicate (n + 1) '[' ++ u) = (!u.isEmpty && JvmClass.areParameters u) := by
  induction n with
  | zero => rw [List.replicate_one, List.singleton_append, JvmClass.areParameters]
  | succ n ih =>
    rw [List.replicate_succ, List.cons_append, JvmClass.areParameters, ih]
    simp [List.replicate_succ]

theorem areParameters_brackets (n : Nat) (c : Char) (u : List Char) :
    JvmClass.areParameters (List.replicate n '[' ++ c :: u) = JvmClass.areParameters (c :: u) := by
  cases n with
  | zero => rfl
  | succ n => exact areParameters_replicate n (c :: u)

/-- What is made of the end of a parameter. -/
def parametersAfter (s : List Char) (stop : Nat) (o : Option Nat) : Option Bool :=
  o.elim (some false) fun k => if stop ≤ k then some false else areParameters s stop (k + 1)

theorem areParameters_of_lt {s : List Char} {stop i : Nat} {o : Option Nat} (hi : i < stop)
    (ho : parameterEnd s stop i = some o) : areParameters s stop i = parametersAfter s stop o := by
  cases o with
  | none => exact Loop.run_of_done (by simp [hi, ho])
  | some k =>
    by_cases hk : stop ≤ k
    · rw [parametersAfter, Option.elim_some, if_pos hk]
      exact Loop.run_of_done (by simp [hi, ho, hk])
    · rw [parametersAfter, Option.elim_some, if_neg hk]
      exact Loop.run_of_next (by simp [hi, ho, hk])

/-- A type that is no array is a parameter, if what follows it up to `stop` are parameters. -/
theorem parametersAfter_elementEnd {s b v w : List Char} {c : Char} {stop : Nat} (hs : s = b ++ c :: v ++ w)
    (hstop : stop = b.length + (v.length + 1)) (hc : c ≠ '[')
    (hrest : ∀ a u, s = a ++ u ++ w → stop = a.length + u.length → u.length ≤ v.length →
      areParameters s stop a.length = some (JvmClass.areParameters u)) :
    ∃ o, elementEnd s b.length = some o ∧ parametersAfter s stop o = some (JvmClass.areParameters (c :: v)) := by
  have hget : s[b.length]? = some c := by simp [hs]
  unfold elementEnd
  rw [hget, Option.bind_eq_bind, Option.bind_some]
  by_cases hL : c = 'L'
  · subst hL
    rw [JvmClass.areParameters, if_pos rfl]
    rcases nextSemicolon_eq hs rfl with ⟨x, t, rfl, hx, hnext⟩ | ⟨hnone, o, hnext, ho⟩
    · have hafter := hrest (b ++ 'L' :: x ++ [';']) t (by simp [hs]) (by simp [hstop]; omega) (by simp; omega)
      refine ⟨_, hnext, ?_⟩
      rw [parametersAfter, Option.elim_some, if_neg (by simp [hstop]), dropWhile_bne_append t hx]
      simpa [Nat.add_assoc] using hafter
    · refine ⟨o, hnext, ?_⟩
      rw [dropWhile_bne_of_not_mem hnone]
      cases o with
      | none => rfl
      | some k => exact if_pos (by rw [hstop]; exact ho k rfl)
  · rw [JvmClass.areParameters, if_neg hL]
    · refine ⟨_, rfl, ?_⟩
      cases hbase : isBaseLetter c with
      | false => rfl
      | true =>
        have hafter := hrest (b ++ [c]) v (by simp [hs]) (by simp [hstop]; omega) (Nat.le_refl _)
        rw [if_pos rfl, parametersAfter, Option.elim_some, if_neg (by omega)]
        simpa using hafter
    · exact hc
    · exact hL

/-- The brackets of a parameter are skipped up to its element. -/
theorem parameterEnd_eq {s a v w : List Char} {c : Char} {m stop : Nat}
    (hs : s = a ++ (List.replicate m '[' ++ c :: v) ++ w) (hstop : stop = a.length + m + (v.length + 1))
    (hc : c ≠ '[') : parameterEnd s stop a.length = elementEnd s (a.length + m) := by
  unfold parameterEnd
  cases m with
  | zero =>
    have hget : s[a.length]? = some c := by simp [hs]
    rw [hget, Option.bind_eq_bind, Option.bind_some, if_neg hc, Nat.add_zero]
  | succ m =>
    have hget : s[a.length]? = some '[' := by simp [hs, List.replicate_succ]
    have hskip : skipBrackets s stop a.length = some (a.length + (m + 1)) :=
      skipBrackets_eq hs rfl (by simpa using hstop) (by simpa using hc)
    rw [hget, Option.bind_eq_bind, Option.bind_some, if_pos rfl, hskip, Option.bind_eq_bind, Option.bind_some,
      if_neg (by omega)]

/-- Brackets that nothing follows are no parameter. -/
theorem parameterEnd_of_brackets {s a w : List Char} {m stop : Nat} (hs : s = a ++ List.replicate (m + 1) '[' ++ w)
    (hstop : stop = a.length + (m + 1)) : parameterEnd s stop a.length = some none := by
  have hget : s[a.length]? = some '[' := by simp [hs, List.replicate_succ]
  have hskip : skipBrackets s stop a.length = some (a.length + (m + 1)) :=
    skipBrackets_eq (u := []) (w := w) (by simp [hs]) rfl (by simpa using hstop) (by simp)
  unfold parameterEnd
  rw [hget, Option.bind_eq_bind, Option.bind_some, if_pos rfl, hskip, Option.bind_eq_bind, Option.bind_some,
    if_pos (by omega)]
  rfl

/-- Each parameter ends before `stop` or not at all; the induction is on the characters up to there. -/
theorem areParameters_eq {s a u w : List Char} {stop : Nat} (hs : s = a ++ u ++ w)
    (hstop : stop = a.length + u.length) : areParameters s stop a.length = some (JvmClass.areParameters u) := by
  induction hn : u.length using Nat.strong_induction_on generalizing a u with
  | _ n ih =>
  subst hn
  obtain ⟨m, v, rfl, hv, -, -⟩ := exists_brackets u
  rw [List.length_append, List.length_replicate, ← Nat.add_assoc] at hstop
  cases v with
  | nil =>
    cases m with
    | zero => exact Loop.run_of_done (by simp [hstop, JvmClass.areParameters])
    | succ m =>
      rw [List.append_nil] at hs
      rw [areParameters_of_lt (by simp [hstop]) (parameterEnd_of_brackets hs hstop), areParameters_replicate]
      rfl
  | cons c v =>
    have hc : c ≠ '[' := by simpa using hv
    -- the brackets count as passed: the element behind them is a parameter of the same rest
    obtain ⟨o, ho, hafter⟩ := parametersAfter_elementEnd (b := a ++ List.replicate m '[') (c := c) (v := v)
      (by simp [hs]) (by simpa using hstop) hc fun a' u' hs' hstop' hlen => ih u'.length (by simp; omega) hs' hstop' rfl
    have hend : parameterEnd s stop a.length = some o := by
      rw [parameterEnd_eq hs hstop hc]
      simpa using ho
    have hlt : a.length < stop := by
      rw [hstop, List.length_cons]
      omega
    rw [areParameters_of_lt hlt hend, hafter, areParameters_brackets]

theorem isReturnDescriptor_eq (s : List Char) : isReturnDescriptor s = some (JvmClass.isReturnDescriptor s) := by
  unfold isReturnDescriptor JvmClass.isReturnDescriptor
  by_cases hs : s = ['V']
  · simp [hs]
  · simp [hs, isFieldDescriptor_eq]

/-- A text that is long enough is checked from its first character on. -/
theorem isMethodDescriptor_cons {c : Char} {s : List Char} (hs : ¬(c :: s).length < 3) :
    isMethodDescriptor (c :: s) = if c ≠ '(' then some false else
      ((c :: s).idxOf? ')').elim (some false) fun stop =>
        (slice (c :: s) (stop + 1) (c :: s).length).bind fun returns => (isReturnDescriptor returns).bind fun valid =>
          if valid then areParameters (c :: s) stop 1 else some false := by
  unfold isMethodDescriptor
  rw [if_neg hs]
  by_cases hc : c = '('
  · simp only [hc, List.getElem?_cons_zero, Option.bind_eq_bind, Option.bind_some, ne_eq, not_true, if_false]
    cases ('(' :: s).idxOf? ')' <;> rfl
  · simp [hc]

/-- The parentheses and the return type take three characters. -/
theorem isMethodDescriptor_of_length_lt {s : List Char} (hs : s.length < 3) :
    JvmClass.isMethodDescriptor s = false := by
  rcases s with _ | ⟨c, _ | ⟨d, _ | ⟨e, s⟩⟩⟩
  · rfl
  · by_cases hc : c = '('
    · rw [hc]
      rfl
    · rw [JvmClass.isMethodDescriptor]
      exact fun _ h => hc (List.cons.inj h).1
  · by_cases hc : c = '('
    · subst hc
      by_cases hd : d = ')'
      · rw [hd]
        rfl
      · rw [JvmClass.isMethodDescriptor, dropWhile_bne_of_not_mem (by simpa using Ne.symm hd)]
    · rw [JvmClass.isMethodDescriptor]
      exact fun _ h => hc (List.cons.inj h).1
  · simp only [List.length_cons] at hs
    omega

theorem isMethodDescriptor_eq (s : List Char) : isMethodDescriptor s = some (JvmClass.isMethodDescriptor s) := by
  by_cases hshort : s.length < 3
  · unfold isMethodDescriptor
    rw [if_pos hshort, isMethodDescriptor_of_length_lt hshort]
  cases s with
  | nil => simp at hshort
  | cons c s =>
    rw [isMethodDescriptor_cons hshort]
    by_cases hc : c = '('
    · subst hc
      rw [if_neg (by simp), JvmClass.isMethodDescriptor]
      by_cases hs : ')' ∈ s
      · obtain ⟨u, w, rfl, hu⟩ := List.eq_append_cons_of_mem hs
        have hparameters : areParameters ('(' :: (u ++ ')' :: w)) (u.length + 1) ['('].length = _ :=
          areParameters_eq (w := ')' :: w) rfl (Nat.add_comm _ _)
        have hstop : ('(' :: (u ++ ')' :: w)).idxOf? ')' = some (u.length + 1) :=
          idxOf?_append_cons (v := '(' :: u) w (by simpa using hu)
        have hreturns : slice ('(' :: (u ++ ')' :: w)) (u.length + 1 + 1) ('(' :: (u ++ ')' :: w)).length = some w := by
          rw [slice_length (by simp)]
          simp
        rw [hstop, Option.elim_some, hreturns, Option.bind_some, isReturnDescriptor_eq, Option.bind_some,
          dropWhile_bne_append w hu, takeWhile_bne_append w hu]
        show _ = some (JvmClass.isReturnDescriptor w && JvmClass.areParameters u)
        cases JvmClass.isReturnDescriptor w with
        | false => rfl
        | true => exact hparameters
      · rw [idxOf?_of_not_mem (by simpa using hs), dropWhile_bne_of_not_mem hs]
        rfl
    · rw [if_pos hc, JvmClass.isMethodDescriptor]
      · exact fun _ h => hc (List.cons.inj h).1

theorem isValidMethodDescriptor_eq (s : String) :
    isValidMethodDescriptor s = some (JvmClass.isValidMethodDescriptor s) := isMethodDescriptor_eq _

/-! ## Class names -/

theorem afterBrackets_eq {a u : List Char} {n : Nat} {c : Char} (hc : c ≠ '[') :
    afterBrackets (a ++ (List.replicate n '[' ++ c :: u)) a.length = some (a.length + n) := by
  induction n generalizing a with
  | zero => exact Loop.run_of_done (by simp [hc])
  | succ n ih =>
    have hnext := ih (a := a ++ ['['])
    rw [List.append_assoc, List.singleton_append, ← List.cons_append, ← List.replicate_succ, List.length_append,
      List.length_singleton, Nat.add_assoc, Nat.add_comm 1 n] at hnext
    refine (Loop.run_of_next ?_).trans hnext
    simp [List.replicate_succ]

theorem isClassNameRange_eq {strict : Bool} {s a u w : List Char} {prev : Char} {start stop : Nat}
    (hs : s = a ++ prev :: (u ++ w)) (hstart : start = a.length + 1) (hstop : stop = start + u.length) :
    isClassNameRange strict s start stop = some (isClassNameTail strict prev u) := by
  subst hs hstart hstop
  have hrange : ((a ++ prev :: (u ++ w)).take (a.length + 1 + u.length)).drop (a.length + 1) = u := by
    rw [List.append_cons, List.drop_take, Nat.add_sub_cancel_left]
    have hlength : a.length + 1 = (a ++ [prev]).length := by simp
    rw [hlength, List.drop_left, List.take_left]
  unfold isClassNameRange
  rw [hrange]
  simp

/-- Once the whole name is a field descriptor, something follows its brackets: a letter, or a class name that
    ends with the text. -/
theorem isArrayName_eq (strict : Bool) (rest : List Char) : isArrayName strict ('[' :: rest) =
    some (JvmClass.isFieldDescriptor ('[' :: rest) &&
      isClassNameTail strict (arrayElementName rest).1 (arrayElementName rest).2) := by
  obtain ⟨n, u, rfl, hu, -, hdrop⟩ := exists_brackets rest
  rw [← List.cons_append, ← List.replicate_succ]
  unfold isArrayName
  rw [isFieldDescriptor_eq, isFieldDescriptor_replicate, Option.bind_eq_bind, Option.bind_some]
  cases hvalid : JvmClass.isFieldDescriptor u with
  | false => rfl
  | true =>
    have hstart {c : Char} {v : List Char} (hc : c ≠ '[') :
        afterBrackets (List.replicate (n + 1) '[' ++ c :: v) 0 = some (n + 1) := by
      simpa using afterBrackets_eq (a := []) (u := v) (n := n + 1) hc
    rw [if_pos rfl, Bool.true_and]
    obtain ⟨t, -, rfl⟩ := isFieldDescriptor_iff.mp hvalid
    rcases t.chars_cases with ⟨b, -, ht⟩ | ⟨name, -, ht⟩ | ⟨t', -, ht⟩
    · have hletter : b.letter ≠ ';' := by cases b <;> decide
      rw [ht] at hdrop
      rw [ht, hstart b.letter_ne.2.1, Option.bind_eq_bind, Option.bind_some, if_neg (by simpa using hletter),
        arrayElementName_of_letter hdrop b.letter_ne.1]
      exact isClassNameRange_eq (a := List.replicate n '[') (w := []) (by simp [List.replicate_succ']) (by simp)
        (by simp)
    · have hlast : (List.replicate (n + 1) '[' ++ 'L' :: (name.toList ++ [';'])).getLast? = some ';' := by
        rw [← List.cons_append, ← List.append_assoc, List.getLast?_concat]
      have hlength : (List.replicate (n + 1) '[' ++ 'L' :: (name.toList ++ [';'])).length =
          n + 1 + 1 + name.toList.length + 1 := by
        simp only [List.length_append, List.length_replicate, List.length_cons, List.length_nil]
        omega
      rw [ht] at hdrop
      rw [ht, hstart (by decide), Option.bind_eq_bind, Option.bind_some, if_pos hlast, hlength, Nat.ppred_succ,
        Option.bind_some, arrayElementName_of_class hdrop]
      exact isClassNameRange_eq (a := List.replicate (n + 1) '[') (w := [';']) rfl (by simp) rfl
    · rw [ht] at hu
      exact absurd rfl hu

theorem isValidClassName_eq (name : String) (version : Version) (options : Options) :
    isValidClassName name version options = some (JvmClass.isValidClassName name version options) := by
  unfold isValidClassName JvmClass.isValidClassName
  generalize (!version.hasJava5Features && !options.relaxedClassNames) = strict
  cases name.toList with
  | nil => rfl
  | cons first rest =>
    by_cases hbracket : first = '['
    · subst hbracket
      simp [isArrayName_eq]
    · have hscan : isClassNameRange true (first :: rest) 1 (first :: rest).length =
          some (isClassNameTail true first rest) :=
        isClassNameRange_eq (a := []) (w := []) (by simp) rfl (by simp; omega)
      have hscanAll : isClassNameRange false (first :: rest) 0 (first :: rest).length =
          some (isClassNameTail false '\x00' (first :: rest)) := by simp [isClassNameRange]
      cases strict with
      | true =>
        have hstart : (isIdentifierStart first || first == '[' || first == '/') =
            (isIdentifierStart first || first == '/') := by
          rw [beq_false_of_ne hbracket, Bool.or_false]
        simp only [List.head?_cons, if_neg hbracket, if_true, hscan, hstart]
        cases isIdentifierStart first || first == '/' <;> simp
      | false => simp only [List.head?_cons, if_neg hbracket, Bool.false_and, Bool.false_eq_true, if_false, hscanAll]

end Trapping

end JvmClass
