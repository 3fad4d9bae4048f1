/-
  JvmClass.Proofs.Bytecode.Closed — where the jumps of a body can end up.

  A body is closed when it is decoded: its last instruction stands for the end, and no jump goes
  there or beside the instructions (`Code.isClosed_of_decode`). Skipping the question for assertions
  makes one more jump, to what follows the question. That is the end exactly if the body is its
  question and nothing else (`targets_skipQuestion`).
-/

import JvmClass.Proofs.Bytecode.AssertionRemoval
import JvmClass.Proofs.Bytecode.Targets

namespace JvmClass

/-- The last instruction does nothing, and jumps go to the others. -/
structure DecodedBody.IsClosed (body : DecodedBody) : Prop where
  last : ∃ i, body.instructions[body.instructions.length - 1]? = some i ∧ i.opcode = .nop
  jumps : ∀ (k : Nat) (i : Instruction), body.instructions[k]? = some i → ∀ t ∈ i.targets,
    0 ≤ t ∧ t < body.instructions.length - 1

def Code.IsClosed (code : Code) : Prop := ∀ body, code.decoded? = some body → body.IsClosed

/-! ## Decoded bodies -/

theorem Retargeted.isClosed {ws : List Written} {bytes : List UInt8} {body : DecodedBody}
    (h : Retargeted ws (Written.decoded ws bytes) body.instructions) : body.IsClosed := by
  have hlength := h.length
  rw [Written.length_decoded] at hlength
  obtain ⟨last, hlast⟩ : ∃ i, body.instructions[ws.length]? = some i := ⟨_, List.getElem?_eq_getElem (by omega)⟩
  constructor
  · obtain ⟨r, hr, hagree⟩ := h.beside _ _ hlast
    rw [Written.getElem?_decoded_length] at hr
    cases hr
    exact ⟨last, hlength ▸ hlast, hagree.opcode⟩
  · intro k i hi t ht
    obtain ⟨hk, -⟩ := List.getElem?_eq_some_iff.mp hi
    rw [hlength] at hk
    rcases Nat.lt_succ_iff_lt_or_eq.mp hk with hk | rfl
    · have hleads := (h.targets k _ i (List.getElem?_eq_getElem hk) hi).flip
      have hin := (List.forall₂_and_left (p := fun t => 0 ≤ t ∧ t < (body.instructions.length : Int) - 1)
        (R := fun _ _ => True) _ _).mp (hleads.imp fun _ _ h => ⟨⟨h.1, h.2.1⟩, trivial⟩)
      exact hin.1 t ht
    · rw [h.final i hi] at ht
      cases ht

theorem Code.isClosed_of_decode {T F M : Type} {pool : Pool T F M} {options : Options} {name descriptor : String}
    {isStatic : Bool} {info : List UInt8} {code : Code} {constants : List Index}
    (h : Code.decode pool options name descriptor isStatic info = .ok (code, constants)) : code.IsClosed := by
  intro body hbody
  obtain ⟨a, bodyConstants, ha, hb⟩ := Code.decode_eq_decoded h (Code.decoded?_eq_some_iff.mp hbody)
  obtain ⟨ws, hspell, hmap⟩ := CodeAttribute.body_eq_decoded hb
  exact (CodeAttribute.retargeted_of_eq_some (CodeAttribute.length_read ha).2 hspell hmap).isClosed

theorem Code.isClosed_missing (fault : VerifyFault) : (Code.missing fault).IsClosed := fun _ h => nomatch h

/-! ## Skipped questions -/

@[simp] theorem DecodedBody.length_skipQuestion (body : DecodedBody) :
    body.skipQuestion.instructions.length = body.instructions.length :=
  List.length_modify ..

variable {T F M : Type} {pool : Pool T F M} {field : MemberRef} {body : DecodedBody}

/-- What stores to a field is not the end, so the end comes after the question. -/
theorem DecodedBody.IsClosed.prologueLength_lt (h : body.IsClosed)
    (hstore : ∃ i, body.instructions[6]? = some i ∧ storedField? pool i = some field) :
    prologueLength < body.instructions.length := by
  obtain ⟨store, hstore, hfield⟩ := hstore
  obtain ⟨last, hlast, hnop⟩ := h.last
  obtain ⟨hlt, -⟩ := List.getElem?_eq_some_iff.mp hstore
  unfold prologueLength
  by_contra hshort
  rw [show body.instructions.length - 1 = 6 by omega, hstore] at hlast
  cases hlast
  rw [opcode_of_storedField? hfield] at hnop
  cases hnop

/-- Of the jumps of a body that skips its question only the first can go to the end, and does so
    if nothing follows the question. -/
theorem targets_skipQuestion (hclosed : body.IsClosed)
    (hstore : ∃ i, body.instructions[6]? = some i ∧ storedField? pool i = some field) {k : Nat} {i : Instruction}
    (hi : body.skipQuestion.instructions[k]? = some i) {t : Int} (ht : t ∈ i.targets) :
    0 ≤ t ∧ t ≤ body.instructions.length - 1 ∧
      (t = body.instructions.length - 1 ↔ k = 0 ∧ body.instructions.length = prologueLength + 1) := by
  have hlong := hclosed.prologueLength_lt hstore
  unfold prologueLength at hlong ⊢
  cases k with
  | zero =>
    obtain ⟨first, hfirst⟩ : ∃ i, body.instructions[0]? = some i := ⟨_, List.getElem?_eq_getElem (by omega)⟩
    rw [body.jumpsOver_skipQuestion.first first hfirst] at hi
    cases hi
    obtain rfl : t = 7 := List.mem_singleton.mp ht
    omega
  | succ k =>
    have hi' : body.instructions[k + 1]? = some i :=
      (body.jumpsOver_skipQuestion.others (k + 1) (Nat.succ_pos k)).symm.trans hi
    obtain ⟨hlow, hhigh⟩ := hclosed.jumps _ i hi' t ht
    omega

end JvmClass
