/-
  JvmClass.Proofs.File.Payload — what is read from a payload, request after request.

  A reader asks for numbers, for so many bytes, or for a nested attribute (`Request`). Which answer goes with
  which bytes is said apart from the reads (`Request.Answered`), and so is how many bytes a request needs
  (`Request.need`). All reads come down to one of so many bytes (`Read.short_eq` and those beside it), so what comes
  of a request is decided by whether as many are left (`Request.step_of_le`, `Request.step_of_lt`). In a run the
  reader goes on after a failure (`run`):
  - `exists_takes_run`: it moves over bytes of the payload, and only forward;
  - `took_run`: as long as nothing but slices has failed, the bytes it moved over are those that were taken for
    the answers, in order.
-/

import JvmClass.File.Attribute
import JvmClass.Proofs.Cursor
import Mathlib.Algebra.Group.Nat.Defs
import Mathlib.Data.List.Induction

namespace JvmClass

/-! ## Numbers -/

/-- The number that bytes spell, the highest of them first. -/
def bigEndian (bytes : List UInt8) : Nat := bytes.foldl (fun n byte => n * 0x100 + byte.toNat) 0

theorem bigEndian_lt (bytes : List UInt8) : bigEndian bytes < 0x100 ^ bytes.length := by
  induction bytes using List.reverseRecOn with
  | nil => exact Nat.one_pos
  | append_singleton bytes byte ih =>
    have hbyte := byte.toNat_lt
    have hsplit : bigEndian (bytes ++ [byte]) = bigEndian bytes * 0x100 + byte.toNat := List.foldl_append
    rw [hsplit, List.length_append, List.length_singleton, Nat.pow_succ]
    omega

/-- So many bytes spell this number. -/
structure Spells (width : Nat) (bytes : List UInt8) (n : Nat) : Prop where
  length : bytes.length = width
  value : bigEndian bytes = n

theorem spells_mod {width : Nat} {bytes : List UInt8} (h : bytes.length = width) :
    Spells width bytes (bigEndian bytes % 0x100 ^ width) :=
  ⟨h, (Nat.mod_eq_of_lt (h ▸ bigEndian_lt bytes)).symm⟩

theorem spells_byte {bytes : List UInt8} (h : bytes.length = 1) : Spells 1 bytes (bigEndian bytes).toUInt8.toNat :=
  spells_mod h

theorem spells_short {bytes : List UInt8} (h : bytes.length = 2) : Spells 2 bytes (bigEndian bytes).toUInt16.toNat :=
  spells_mod h

theorem spells_word {bytes : List UInt8} (h : bytes.length = 4) : Spells 4 bytes (bigEndian bytes).toUInt32.toNat :=
  spells_mod h

/-! ## Reads of so many bytes -/

namespace Read

variable {ε α : Type} {e : ε} {n : Nat} {c c' : Cursor} {P : List UInt8 → α → Prop}

theorem exact_bind_of_lt (h : c.rest.length < n) (f : List UInt8 → Read ε α) :
    (exact e n >>= f) c = .error e c.toEnd := by
  rw [bind_apply, exact_apply, if_pos h]

theorem exact_bind_of_le (h : n ≤ c.rest.length) (f : List UInt8 → Read ε α) :
    (exact e n >>= f) c = f (c.rest.take n) (c.advance n) := by
  rw [bind_apply, exact_apply, if_neg (Nat.not_lt_of_le h)]

/-- Here the read takes the next `n` bytes for its answer. If there are fewer it fails and leaves `c'`. -/
structure Serves (read : Read ε α) (e : ε) (n : Nat) (c c' : Cursor) (P : List UInt8 → α → Prop) : Prop where
  of_lt : c.rest.length < n → read c = .error e c'
  of_le : n ≤ c.rest.length → ∃ a, P (c.rest.take n) a ∧ read c = .ok a (c.advance n)

theorem exact_serves {f : List UInt8 → α} (h : ∀ bytes, bytes.length = n → P bytes (f bytes)) :
    (do return f (← exact e n)).Serves e n c c.toEnd P where
  of_lt hlt := exact_bind_of_lt hlt _
  of_le hle := ⟨_, h _ (List.length_take_of_le hle), exact_bind_of_le hle _⟩

/-- What comes after the first `n` bytes has the rest to itself. -/
theorem exact_bind_serves {f : List UInt8 → Read ε α} {k : Nat} (h : n ≤ c.rest.length →
    (f (c.rest.take n)).Serves e k (c.advance n) c.toEnd fun bytes => P (c.rest.take n ++ bytes)) :
    (exact e n >>= f).Serves e (n + k) c c.toEnd P := by
  have hlength : (c.advance n).rest.length = c.rest.length - n := List.length_drop
  constructor
  · intro hlt
    by_cases hn : c.rest.length < n
    · exact exact_bind_of_lt hn f
    · have hn : n ≤ c.rest.length := Nat.le_of_not_lt hn
      rw [exact_bind_of_le hn]
      exact (h hn).of_lt (by omega)
  · intro hle
    have hn : n ≤ c.rest.length := Nat.le_of_add_right_le hle
    obtain ⟨a, ha, hread⟩ := (h hn).of_le (by omega)
    rw [exact_bind_of_le hn, hread, Cursor.advance_advance]
    exact ⟨a, List.take_add ▸ ha, rfl⟩

theorem slice_serves {f : List UInt8 → α} (h : ∀ bytes, bytes.length = n → P bytes (f bytes)) :
    (do return f (← slice e n)).Serves e n c c P where
  of_lt hlt := by rw [bind_apply, slice_apply, if_pos hlt]
  of_le hle := by
    refine ⟨_, h _ (List.length_take_of_le hle), ?_⟩
    rw [bind_apply, slice_apply, if_neg (Nat.not_lt_of_le hle)]
    rfl

variable (e)

theorem byte_eq : byte e = do return (bigEndian (← exact e 1)).toUInt8 := by
  funext c
  obtain ⟨p, rest⟩ := c
  rw [bind_apply, exact_apply]
  match rest with
  | [] => rfl
  | a :: rest =>
    have hvalue : (bigEndian [a]).toUInt8 = a := by simp [bigEndian]
    show _ = EStateM.Result.ok (bigEndian [a]).toUInt8 _
    rw [hvalue]
    rfl

theorem short_eq : short e = do return (bigEndian (← exact e 2)).toUInt16 := by
  funext c
  obtain ⟨p, rest⟩ := c
  rw [bind_apply, exact_apply]
  match rest with
  | [] => rfl
  | [_] => rfl
  | a :: b :: rest =>
    have hvalue : bigEndian [a, b] = a.toNat * 0x100 + b.toNat := by simp [bigEndian]
    show _ = EStateM.Result.ok (bigEndian [a, b]).toUInt16 _
    rw [hvalue]
    rfl

theorem word_eq : word e = do return (bigEndian (← exact e 4)).toUInt32 := by
  funext c
  obtain ⟨p, rest⟩ := c
  rw [bind_apply, exact_apply]
  match rest with
  | [] => rfl
  | [_] => rfl
  | [_, _] => rfl
  | [_, _, _] => rfl
  | a :: b :: x :: y :: rest =>
    have hvalue : bigEndian [a, b, x, y] =
        a.toNat * 0x1000000 + b.toNat * 0x10000 + x.toNat * 0x100 + y.toNat := by
      simp only [bigEndian, List.foldl_cons, List.foldl_nil]
      omega
    show _ = EStateM.Result.ok (bigEndian [a, b, x, y]).toUInt32 _
    rw [hvalue]
    rfl

end Read

/-! ## Requests -/

namespace Payload

inductive Request
  | byte
  | short
  | word
  | index
  | slice (n : UInt64)
  | nested

inductive Answer
  | byte (n : UInt8)
  | short (n : UInt16)
  | word (n : UInt32)
  | index (index : Index)
  | slice (bytes : List UInt8)
  | nested (a : Attribute)

variable {ε : Type} (e : ε)

namespace Request

def read : Request → Read ε Answer
  | byte => do return .byte (← Read.byte e)
  | short => do return .short (← Read.short e)
  | word => do return .word (← Read.word e)
  | index => do return .index (← Read.short e)
  | slice n => do return .slice (← Read.slice e n.toNat)
  | nested => do return .nested (← Attribute.read e)

/-- The answer, or the failure, and the cursor after it. -/
def step (r : Request) (c : Cursor) : Except ε Answer × Cursor :=
  match r.read e c with
  | .ok a c' => (.ok a, c')
  | .error e' c' => (.error e', c')

/-- This is the answer if these bytes are taken for the request. An attribute has its name and its length, as
    numbers, before its bytes. -/
inductive Answered : Request → List UInt8 → Answer → Prop
  | byte {taken : List UInt8} {n : UInt8} (h : Spells 1 taken n.toNat) : Answered byte taken (.byte n)
  | short {taken : List UInt8} {n : UInt16} (h : Spells 2 taken n.toNat) : Answered short taken (.short n)
  | word {taken : List UInt8} {n : UInt32} (h : Spells 4 taken n.toNat) : Answered word taken (.word n)
  | index {taken : List UInt8} {i : Index} (h : Spells 2 taken i.toNat) : Answered index taken (.index i)
  | slice {taken : List UInt8} {n : UInt64} (h : taken.length = n.toNat) : Answered (slice n) taken (.slice taken)
  | nested {name length info : List UInt8} {i : Index} (hname : Spells 2 name i.toNat)
      (hlength : Spells 4 length info.length) : Answered nested (name ++ (length ++ info)) (.nested ⟨i, info⟩)

/-- How many bytes the request needs where these are left: an attribute says its length after two others. -/
def need (left : List UInt8) : Request → Nat
  | byte => 1
  | short | index => 2
  | word => 4
  | slice n => n.toNat
  | nested => 6 + bigEndian ((left.drop 2).take 4)

def isSlice : Request → Bool
  | slice _ => true
  | byte | short | word | index | nested => false

/-- Where the cursor is after the request has failed. -/
def leaves (r : Request) (c : Cursor) : Cursor := if r.isSlice then c else c.toEnd

/-! ## One request -/

variable {e} {r : Request} {c : Cursor}

/-- First the name and the length are read. -/
theorem read_nested_eq : nested.read e = do
    let name ← Read.exact e 2
    let length ← Read.exact e 4
    let info ← Read.exact e (bigEndian length).toUInt32.toNat
    return .nested ⟨(bigEndian name).toUInt16, info⟩ := by
  simp only [read, Attribute.read, Read.short_eq, Read.word_eq, bind_assoc, pure_bind]

theorem nested_serves : (nested.read e).Serves e (nested.need c.rest) c c.toEnd nested.Answered := by
  have hneed : nested.need c.rest = 2 + (4 + bigEndian ((c.rest.drop 2).take 4)) := by
    simp only [need]
    omega
  rw [read_nested_eq, hneed]
  refine Read.exact_bind_serves fun hname => ?_
  rw [← Cursor.toEnd_advance hname]
  refine Read.exact_bind_serves fun hlength => ?_
  rw [← Cursor.toEnd_advance hlength]
  have hdeclared := spells_word (List.length_take_of_le hlength)
  have hsame : bigEndian ((c.rest.drop 2).take 4) = _ := hdeclared.value
  rw [hsame]
  refine Read.exact_serves fun info hinfo => ?_
  exact .nested (spells_short (List.length_take_of_le hname)) (hinfo ▸ hdeclared)

theorem read_serves : (r.read e).Serves e (r.need c.rest) c (r.leaves c) r.Answered := by
  cases r with
  | byte =>
    simp only [read, Read.byte_eq, bind_assoc, pure_bind]
    exact Read.exact_serves fun _ h => .byte (spells_byte h)
  | short =>
    simp only [read, Read.short_eq, bind_assoc, pure_bind]
    exact Read.exact_serves fun _ h => .short (spells_short h)
  | word =>
    simp only [read, Read.word_eq, bind_assoc, pure_bind]
    exact Read.exact_serves fun _ h => .word (spells_word h)
  | index =>
    simp only [read, Read.short_eq, bind_assoc, pure_bind]
    exact Read.exact_serves fun _ h => .index (spells_short h)
  | slice n => exact Read.slice_serves fun _ h => .slice h
  | nested => exact nested_serves

theorem step_of_lt (h : c.rest.length < r.need c.rest) : r.step e c = (.error e, r.leaves c) := by
  rw [step, read_serves.of_lt h]

theorem step_of_le (h : r.need c.rest ≤ c.rest.length) : ∃ a, r.Answered (c.rest.take (r.need c.rest)) a ∧
    r.step e c = (.ok a, c.advance (r.need c.rest)) := by
  obtain ⟨a, ha, hread⟩ := read_serves.of_le h
  exact ⟨a, ha, by rw [step, hread]⟩

/-- A request fails just if fewer bytes are left than it needs. -/
theorem step_fst_eq_error_iff {e' : ε} : (r.step e c).1 = .error e' ↔ c.rest.length < r.need c.rest ∧ e' = e := by
  by_cases h : c.rest.length < r.need c.rest
  · rw [step_of_lt h, Except.error.injEq]
    exact ⟨fun he => ⟨h, he.symm⟩, fun he => he.2.symm⟩
  · obtain ⟨a, -, hstep⟩ := step_of_le (e := e) (Nat.le_of_not_lt h)
    rw [hstep]
    exact iff_of_false nofun fun he => h he.1

theorem takes_of_step_eq_ok {a : Answer} {c' : Cursor} (h : r.step e c = (.ok a, c')) :
    ∃ taken, taken.length = r.need c.rest ∧ r.Answered taken a ∧ c.Takes taken c' := by
  by_cases hlt : c.rest.length < r.need c.rest
  · cases (step_of_lt hlt).symm.trans h
  · have hle := Nat.le_of_not_lt hlt
    obtain ⟨a', ha, hstep⟩ := step_of_le (e := e) hle
    cases hstep.symm.trans h
    exact ⟨_, List.length_take_of_le hle, ha, Cursor.takes_advance hle⟩

/-- Also a failed request moves the cursor over bytes of the payload, if it moves it at all. -/
theorem exists_takes_step (e : ε) (r : Request) (c : Cursor) : ∃ passed, c.Takes passed (r.step e c).2 := by
  by_cases h : c.rest.length < r.need c.rest
  · rw [step_of_lt h, leaves]
    split
    · exact ⟨[], Cursor.takes_nil.mpr rfl⟩
    · exact ⟨c.rest, c.takes_toEnd⟩
  · obtain ⟨a, -, hstep⟩ := step_of_le (e := e) (Nat.le_of_not_lt h)
    rw [hstep]
    exact ⟨_, Cursor.takes_advance (Nat.le_of_not_lt h)⟩

end Request

/-! ## One request after the other -/

/-- What comes of the requests, whether they fail or not, and the cursor after the last. -/
def run (e : ε) : List Request → Cursor → List (Except ε Answer) × Cursor
  | [], c => ([], c)
  | r :: requests, c =>
    let (outcome, m) := r.step e c
    let (outcomes, c') := run e requests m
    (outcome :: outcomes, c')

/-- The bytes that were taken for the answers, in order. -/
inductive Took : List Request → List (Except ε Answer) → List UInt8 → Prop
  | nil : Took [] [] []
  | answered {r : Request} {a : Answer} {taken rest : List UInt8} {requests : List Request}
      {outcomes : List (Except ε Answer)} (head : r.Answered taken a) (tail : Took requests outcomes rest) :
      Took (r :: requests) (.ok a :: outcomes) (taken ++ rest)
  | failed {r : Request} {e : ε} {taken : List UInt8} {requests : List Request} {outcomes : List (Except ε Answer)}
      (tail : Took requests outcomes taken) : Took (r :: requests) (.error e :: outcomes) taken

/-- Nothing has failed but slices, if anything. -/
def OnlySlicesFail (requests : List Request) (outcomes : List (Except ε Answer)) : Prop :=
  ∀ p ∈ requests.zip outcomes, p.2.isOk = false → p.1.isSlice = true

variable {e} {c : Cursor}

theorem onlySlicesFail_cons {r : Request} {outcome : Except ε Answer} {requests : List Request}
    {outcomes : List (Except ε Answer)} : OnlySlicesFail (r :: requests) (outcome :: outcomes) ↔
      (outcome.isOk = false → r.isSlice = true) ∧ OnlySlicesFail requests outcomes := by
  rw [OnlySlicesFail, List.zip_cons_cons, List.forall_mem_cons]
  rfl

theorem run_append (before after : List Request) (c : Cursor) : run e (before ++ after) c =
    ((run e before c).1 ++ (run e after (run e before c).2).1, (run e after (run e before c).2).2) := by
  induction before generalizing c with
  | nil => rfl
  | cons r before ih =>
    have hcons (requests : List Request) : run e (r :: requests) c =
        ((r.step e c).1 :: (run e requests (r.step e c).2).1, (run e requests (r.step e c).2).2) := rfl
    rw [List.cons_append, hcons, hcons, ih, List.cons_append]

theorem exists_takes_run (e : ε) (requests : List Request) (c : Cursor) :
    ∃ passed, c.Takes passed (run e requests c).2 := by
  induction requests generalizing c with
  | nil => exact ⟨[], Cursor.takes_nil.mpr rfl⟩
  | cons r requests ih =>
    obtain ⟨first, hfirst⟩ := r.exists_takes_step e c
    obtain ⟨rest, hrest⟩ := ih (r.step e c).2
    exact ⟨first ++ rest, hfirst.trans hrest⟩

theorem took_run {requests : List Request} (h : OnlySlicesFail requests (run e requests c).1) :
    ∃ taken, Took requests (run e requests c).1 taken ∧ c.Takes taken (run e requests c).2 := by
  induction requests generalizing c with
  | nil => exact ⟨[], .nil, Cursor.takes_nil.mpr rfl⟩
  | cons r requests ih =>
    have hrun : run e (r :: requests) c =
        ((r.step e c).1 :: (run e requests (r.step e c).2).1, (run e requests (r.step e c).2).2) := rfl
    rw [hrun] at h ⊢
    obtain ⟨hhead, htail⟩ := onlySlicesFail_cons.mp h
    obtain ⟨rest, htook, htakes⟩ := ih htail
    by_cases hlt : c.rest.length < r.need c.rest
    · have hfails := Request.step_of_lt (e := e) hlt
      rw [hfails] at hhead
      -- it is a slice, which leaves the cursor where it was
      have hstep : r.step e c = (.error e, c) := by rw [hfails, Request.leaves, if_pos (hhead rfl)]
      rw [hstep] at htook htakes ⊢
      exact ⟨rest, .failed htook, htakes⟩
    · obtain ⟨a, ha, hstep⟩ := Request.step_of_le (e := e) (Nat.le_of_not_lt hlt)
      rw [hstep] at htook htakes ⊢
      exact ⟨_, .answered ha htook, (Cursor.takes_advance (Nat.le_of_not_lt hlt)).trans htakes⟩

end Payload

end JvmClass
