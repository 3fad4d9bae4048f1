/-
  JvmClass.Proofs.Trapping.Payload — payloads, by a position of 64 bits.

  The position in a payload is a word, and so is the number of bytes that a slice asks for: their sum may be too
  large for a word (`checkedAdd`), and bytes are taken from a range that has to lie in the payload. No payload has
  more bytes than a word can count, so each position is a word. Then whatever is asked for, the same comes of it as
  with cursors (`Matches`, `run_eq`).
  - `nothing_is_skipped_or_read_twice`: what any requests take from a payload, when they fail, and where they leave
    the position.
-/

import JvmClass.Proofs.File.Payload
import JvmClass.Proofs.Trapping.Bytecode

namespace JvmClass

namespace Payload

namespace ByPosition

open Trapping

variable {ε α β : Type}

/-- The sum, unless it is too large for a word. -/
def checkedAdd (a b : UInt64) : Option UInt64 := if a.toNat + b.toNat < 2 ^ 64 then some (a + b) else none

section Reads

variable (payload : List UInt8) (e : ε)

/-- The next `n` bytes; the position goes to the end if there are fewer. -/
def exact (n : Nat) : Trapping ε UInt64 (List UInt8) := ExceptT.mk fun position =>
  let left := payload.drop position.toNat
  some (if left.length < n then (.error e, payload.length.toUInt64) else (.ok (left.take n), position + n.toUInt64))

/-- The next `n` bytes; the position stays if they would end behind the payload. -/
def slice (n : UInt64) : Trapping ε UInt64 (List UInt8) := ExceptT.mk fun start =>
  match (checkedAdd start n).filter (·.toNat ≤ payload.length) with
  | some stop => (Trapping.slice payload start.toNat stop.toNat).map fun bytes => (.ok bytes, stop)
  | none => some (.error e, start)

def read : Request → Trapping ε UInt64 Answer
  | .byte => do return .byte (bigEndian (← exact payload e 1)).toUInt8
  | .short => do return .short (bigEndian (← exact payload e 2)).toUInt16
  | .word => do return .word (bigEndian (← exact payload e 4)).toUInt32
  | .index => do return .index (bigEndian (← exact payload e 2)).toUInt16
  | .slice n => do return .slice (← slice payload e n)
  | .nested => do
    let name ← exact payload e 2
    let length ← exact payload e 4
    let info ← exact payload e (bigEndian length).toUInt32.toNat
    return .nested ⟨(bigEndian name).toUInt16, info⟩

def run : List Request → UInt64 → Option (List (Except ε Answer) × UInt64)
  | [], position => some ([], position)
  | r :: requests, position => do
    let (outcome, position) ← (read payload e r).run position
    let (outcomes, position) ← run requests position
    return (outcome :: outcomes, position)

end Reads

/-! ## Reading agrees -/

/-- From a cursor in the payload on, the same comes of both and leads to the same position, again in the payload. -/
structure Matches (payload : List UInt8) (x : Trapping ε UInt64 α) (y : Read ε α) : Prop where
  runs : ∀ c, c.IsIn payload →
    x.run c.position.toUInt64 = some ((outcome (y c)).1, (outcome (y c)).2.position.toUInt64)
  isIn : ∀ c, c.IsIn payload → (outcome (y c)).2.IsIn payload

variable {payload : List UInt8} {e : ε} {x : Trapping ε UInt64 α} {y : Read ε α} {c : Cursor} {n : Nat}

theorem Matches.pure (a : α) : Matches payload (Pure.pure a : Trapping ε UInt64 α) (Pure.pure a) :=
  ⟨fun _ _ => rfl, fun _ hc => hc⟩

theorem Matches.bind {f : α → Trapping ε UInt64 β} {g : α → Read ε β} (h : Matches payload x y)
    (hf : ∀ a, Matches payload (f a) (g a)) : Matches payload (x >>= f) (y >>= g) := by
  have hrun (p : UInt64) : (x >>= f).run p = (x.run p).bind fun r => ExceptT.bindCont f r.1 r.2 := rfl
  constructor
  · intro c hc
    have hm := h.isIn c hc
    rw [hrun, h.runs c hc, bind_apply]
    cases hy : y c with
    | ok a m =>
      rw [hy] at hm
      exact (hf a).runs m hm
    | error e m => rfl
  · intro c hc
    have hm := h.isIn c hc
    rw [bind_apply]
    cases hy : y c with
    | ok a m =>
      rw [hy] at hm
      exact (hf a).isIn m hm
    | error e m =>
      rw [hy] at hm
      exact hm

/-- Both take the next `n` bytes, or fail if there are fewer. -/
theorem Matches.of_apply {x : Trapping ε UInt64 (List UInt8)} {y : Read ε (List UInt8)} {left : Cursor → Cursor}
    (hy : ∀ c, y c = if c.rest.length < n then .error e (left c) else .ok (c.rest.take n) (c.advance n))
    (hleft : ∀ c, c.IsIn payload → (left c).IsIn payload)
    (hx : ∀ c, c.IsIn payload → x.run c.position.toUInt64 = some (if c.rest.length < n
      then (.error e, (left c).position.toUInt64) else (.ok (c.rest.take n), (c.position + n).toUInt64))) :
    Matches payload x y := by
  constructor
  · intro c hc
    rw [hx c hc, hy]
    by_cases h : c.rest.length < n
    · rw [if_pos h, if_pos h]
      rfl
    · rw [if_neg h, if_neg h]
      rfl
  · intro c hc
    rw [hy]
    by_cases h : c.rest.length < n
    · rw [if_pos h]
      exact hleft c hc
    · rw [if_neg h]
      exact isIn_of_takes hc (Cursor.takes_advance (Nat.le_of_not_lt h))

theorem position_toEnd (hc : c.IsIn payload) : c.toEnd.position = payload.length := by
  have hle := hc.position_le
  have hrest := length_rest hc
  show c.position + c.rest.length = payload.length
  omega

section Words

variable (hlength : payload.length < 2 ^ 64)
include hlength

theorem toNat_position (hc : c.IsIn payload) : c.position.toUInt64.toNat = c.position :=
  UInt64.toNat_ofNat_of_lt' (Nat.lt_of_le_of_lt hc.position_le hlength)

theorem matches_exact (e : ε) (n : Nat) : Matches payload (exact payload e n) (Read.exact e n) := by
  refine .of_apply (Read.exact_apply e n) (fun c hc => isIn_of_takes hc c.takes_toEnd) fun c hc => ?_
  have hstop : (c.position + n).toUInt64 = c.position.toUInt64 + n.toUInt64 := UInt64.ofNat_add ..
  show some (if (payload.drop c.position.toUInt64.toNat).length < n then _ else _) = _
  rw [toNat_position hlength hc, ← hc.rest, position_toEnd hc, hstop]

/-- A sum that is too large for a word is as good as one that lies behind the payload. -/
theorem filter_checkedAdd (n : UInt64) (hc : c.IsIn payload) :
    (checkedAdd c.position.toUInt64 n).filter (·.toNat ≤ payload.length) =
      if c.rest.length < n.toNat then none else some (c.position + n.toNat).toUInt64 := by
  have hle := hc.position_le
  have hrest := length_rest hc
  have hsum : c.position.toUInt64 + n = (c.position + n.toNat).toUInt64 := by simp
  rw [checkedAdd, toNat_position hlength hc, hsum]
  by_cases hword : c.position + n.toNat < 2 ^ 64
  · have hstop : (c.position + n.toNat).toUInt64.toNat = c.position + n.toNat := UInt64.toNat_ofNat_of_lt' hword
    rw [if_pos hword, Option.filter_some, hstop]
    by_cases h : c.rest.length < n.toNat
    · rw [if_pos h, if_neg (by simp only [decide_eq_true_eq]; omega)]
    · rw [if_neg h, if_pos (by simp only [decide_eq_true_eq]; omega)]
  · -- what a word cannot count lies behind every payload
    rw [if_neg hword, if_pos (by omega)]
    rfl

theorem matches_slice (e : ε) (n : UInt64) : Matches payload (slice payload e n) (Read.slice e n.toNat) := by
  refine .of_apply (Read.slice_apply e n.toNat) (fun _ hc => hc) fun c hc => ?_
  have hrun : (slice payload e n).run c.position.toUInt64 =
      match (checkedAdd c.position.toUInt64 n).filter (·.toNat ≤ payload.length) with
      | some stop => (Trapping.slice payload c.position.toUInt64.toNat stop.toNat).map fun bytes => (.ok bytes, stop)
      | none => some (.error e, c.position.toUInt64) := rfl
  rw [hrun, filter_checkedAdd hlength n hc]
  by_cases h : c.rest.length < n.toNat
  · rw [if_pos h, if_pos h]
  · have hadvance := isIn_of_takes hc (Cursor.takes_advance (Nat.le_of_not_lt h))
    have hstop : (c.position + n.toNat).toUInt64.toNat = c.position + n.toNat := toNat_position hlength hadvance
    have hrange : Trapping.slice payload c.position (c.position + n.toNat) = some (c.rest.take n.toNat) := by
      rw [slice_of_le (Nat.le_add_right _ _) hadvance.position_le, List.extract_eq_take_drop, Nat.add_sub_cancel_left,
        hc.rest]
    rw [if_neg h, if_neg h]
    simp only [toNat_position hlength hc, hstop, hrange]
    rfl

theorem matches_read (e : ε) (r : Request) : Matches payload (read payload e r) (r.read e) := by
  have hexact := matches_exact hlength e
  cases r with
  | byte | short | word | index =>
    simp only [Request.read, Read.byte_eq, Read.short_eq, Read.word_eq, bind_assoc, pure_bind]
    exact (hexact _).bind fun _ => .pure _
  | slice n => exact (matches_slice hlength e n).bind fun _ => .pure _
  | nested =>
    rw [Request.read_nested_eq]
    exact (hexact 2).bind fun _ => (hexact 4).bind fun _ => (hexact _).bind fun _ => .pure _

theorem run_eq (e : ε) (requests : List Request) (hc : c.IsIn payload) :
    run payload e requests c.position.toUInt64 =
      some ((Payload.run e requests c).1, (Payload.run e requests c).2.position.toUInt64) := by
  induction requests generalizing c with
  | nil => rfl
  | cons r requests ih =>
    have hread := matches_read hlength e r
    have hstep : outcome (r.read e c) = r.step e c := by
      rw [Request.step]
      cases r.read e c <;> rfl
    have hruns := hread.runs c hc
    -- also a failure leaves a cursor in the payload, from which the run goes on
    have hm := hread.isIn c hc
    rw [hstep] at hruns hm
    rw [run, hruns]
    simp only [Option.bind_eq_bind, Option.bind_some, ih hm]
    rfl

end Words

end ByPosition

/-- Whatever is asked for, one request after the other: the position lies in the payload and never goes back. As
    long as nothing but slices has failed, and so before any failure, the bytes that were taken for the answers are
    the payload up to the position. The next request, whichever it is, is answered by the bytes it moves over. It
    fails just if fewer are left than it needs: then a slice leaves the position where it was, and any other
    request leaves it at the end, with nothing left over. All this is so for positions that are words, too. -/
theorem nothing_is_skipped_or_read_twice {ε : Type} {e : ε} {payload : List UInt8} {requests : List Request}
    {outcomes : List (Except ε Answer)} {c : Cursor} (h : run e requests (.ofBytes payload) = (outcomes, c)) :
    c.position ≤ payload.length ∧
    (∀ more, outcomes <+: (run e (requests ++ more) (.ofBytes payload)).1 ∧
      c.position ≤ (run e (requests ++ more) (.ofBytes payload)).2.position) ∧
    (OnlySlicesFail requests outcomes → Took requests outcomes (payload.take c.position)) ∧
    (∀ (r : Request) a c', r.step e c = (.ok a, c') → ∃ taken, r.Answered taken a ∧
      taken.length = r.need (payload.drop c.position) ∧ c'.position = c.position + taken.length ∧
        payload.drop c.position = taken ++ payload.drop c'.position) ∧
    (∀ (r : Request) e', (r.step e c).1 = .error e' ↔
      payload.length < c.position + r.need (payload.drop c.position) ∧ e' = e) ∧
    (∀ (r : Request) e' c', r.step e c = (.error e', c') → (r.isSlice = true → c' = c) ∧
      (r.isSlice = false → c'.position = payload.length ∧ ∀ f : ε, Read.expectEnd f c' = .ok () c')) ∧
    (payload.length < 2 ^ 64 →
      ByPosition.run payload e requests 0 = some (outcomes, c.position.toUInt64)) := by
  have hstart : (Cursor.ofBytes payload).IsIn payload := ⟨Nat.zero_le _, rfl⟩
  have hmoved := exists_takes_run e requests (.ofBytes payload)
  rw [h] at hmoved
  obtain ⟨passed, hpassed⟩ := hmoved
  have hc : c.IsIn payload := Trapping.isIn_of_takes hstart hpassed
  refine ⟨hc.position_le, fun more => ?_, fun hslices => ?_, fun r a c' hstep => ?_, fun r e' => ?_,
    fun r e' c' hstep => ?_, fun hlength => ?_⟩
  · obtain ⟨further, hfurther⟩ := exists_takes_run e more c
    rw [run_append, h]
    exact ⟨List.prefix_append _ _, hfurther.position ▸ Nat.le_add_right _ _⟩
  · have hrun : OnlySlicesFail requests (run e requests (.ofBytes payload)).1 := h ▸ hslices
    obtain ⟨taken, htook, htakes⟩ := took_run hrun
    rw [h] at htook htakes
    exact htakes.eq_take ▸ htook
  · obtain ⟨taken, hneed, hanswered, htakes⟩ := Request.takes_of_step_eq_ok hstep
    rw [← hc.rest, ← (Trapping.isIn_of_takes hc htakes).rest]
    exact ⟨taken, hanswered, hneed, htakes.position, htakes.rest⟩
  · have hle := hc.position_le
    have hleft := Trapping.length_rest hc
    rw [Request.step_fst_eq_error_iff, ← hc.rest]
    refine and_congr_left fun _ => ?_
    omega
  · have hshort := (Request.step_fst_eq_error_iff.mp (congrArg Prod.fst hstep)).1
    rw [Request.step_of_lt hshort] at hstep
    have hleaves : r.leaves c = c' := congrArg Prod.snd hstep
    constructor
    · intro hslice
      exact hleaves.symm.trans (if_pos hslice)
    · intro hother
      have hend : c' = c.toEnd := hleaves.symm.trans (if_neg (by rw [hother]; exact Bool.false_ne_true))
      rw [hend]
      exact ⟨ByPosition.position_toEnd hc, fun _ => rfl⟩
  · have hwords := ByPosition.run_eq hlength e requests hstart
    rw [h] at hwords
    exact hwords

/-- A nested attribute, a number, and a second attribute that is longer than it should be. -/
def cutPayload : List UInt8 := [0, 5, 0, 0, 0, 2, 0xAA, 0xBB, 1, 2, 0, 6, 0, 0, 0, 9, 7]

/-- The slice is as long as a word can say: it fails, and the number behind is read all the same. -/
theorem nothing_is_skipped_or_read_twice_cut :
    let requests : List Request := [.nested, .slice 0xFFFFFFFFFFFFFFFF, .short]
    let outcomes : List (Except Unit Answer) := [.ok (.nested ⟨5, [0xAA, 0xBB]⟩), .error (), .ok (.short 0x102)]
    let c : Cursor := ⟨10, [0, 6, 0, 0, 0, 9, 7]⟩
    run () requests (.ofBytes cutPayload) = (outcomes, c) ∧ OnlySlicesFail requests outcomes ∧
      Took requests outcomes (cutPayload.take 10) ∧ cutPayload.length < 2 ^ 64 ∧
      ByPosition.run cutPayload () requests 0 = some (outcomes, 10) ∧
      Request.nested.step () c = (.error (), ⟨17, []⟩) ∧ Read.expectEnd () ⟨17, []⟩ = .ok () ⟨17, []⟩ := by
  intro requests outcomes c
  have hrun : run () requests (.ofBytes cutPayload) = (outcomes, c) := rfl
  have hslices : OnlySlicesFail requests outcomes := by
    unfold OnlySlicesFail
    decide
  have hlength : cutPayload.length < 2 ^ 64 := by decide
  have hstep : Request.nested.step () c = (.error (), ⟨17, []⟩) := rfl
  obtain ⟨-, -, htook, -, -, hfails, hwords⟩ := nothing_is_skipped_or_read_twice hrun
  exact ⟨hrun, hslices, htook hslices, hlength, hwords hlength, hstep, ((hfails _ _ _ hstep).2 rfl).2 ()⟩

end Payload

end JvmClass
