/-
  JvmClass.Proofs.Bytecode.Execution — bodies that run.

  What instructions do to a frame is left open: an instruction may act in any number of ways, or in
  none, and may look at where it stands and at all handlers of its body. A `Semantics` is bound by
  three things only.

    * Control stays in the body: it goes on, to a target of the instruction, to an address that the
      frame holds, or to a handler that covers the instruction. Only `jsr` makes addresses.
    * A static field that is watched changes only where an instruction refers to it to store to it.
    * Asked at the start of a body, assertions are off, and the instructions of the question do what
      they always do. Elsewhere the same opcodes may do anything else.
-/

import JvmClass.Bytecode.Assertion
import Mathlib.Logic.Relation

namespace JvmClass

/-! ## Frames -/

inductive Value (V : Type)
  | int (n : Int)
  /-- Where a `ret` continues. -/
  | address (position : Nat)
  | other (value : V)

/-- What instructions act on. Beside the frame there is the watched field, and `rest` is everything
    else there is. -/
structure Frame (V R : Type) where
  stack : List (Value V)
  locals : List (Value V)
  field : Int
  rest : R

namespace Frame

variable {V R : Type} (σ : Frame V R)

def push (v : Value V) : Frame V R := { σ with stack := v :: σ.stack }

def setField (n : Int) : Frame V R := { σ with field := n }

def Holds (position : Nat) : Prop := .address position ∈ σ.stack ∨ .address position ∈ σ.locals

theorem setField_of_eq {n : Int} (h : σ.field = n) : σ.setField n = σ := by
  rw [← h]
  rfl

end Frame

/-! ## Control -/

inductive Control
  | next
  | jump (target : Int)
  /-- To an address. -/
  | back (position : Nat)
  | caught (handler : ExceptionHandler)
  /-- Out of the body, with an exception or without. -/
  | leave

/-- A run is at an instruction of the body, or has left it. -/
inductive Config (V R : Type)
  | running (position : Nat) (frame : Frame V R)
  | left (frame : Frame V R)

/-- What comes after an instruction at a position that leaves this frame behind. -/
def Control.LeadsTo {V R : Type} (position : Nat) (τ : Frame V R) (d : Config V R) : Control → Prop
  | next => d = .running (position + 1) τ
  | jump target => ∃ q : Nat, (q : Int) = target ∧ d = .running q τ
  | back address => d = .running address τ
  | caught handler => d = .running handler.handler τ
  | leave => d = .left τ

/-- Where an instruction may send control, given the handlers of its body. -/
def Control.Allowed {V R : Type} (handlers : List ExceptionHandler) (position : Nat) (i : Instruction)
    (σ : Frame V R) : Control → Prop
  | jump target => target ∈ i.targets
  | back address => σ.Holds address
  | caught handler => handler ∈ handlers ∧ handler.first ≤ position ∧ position ≤ handler.last
  | next | leave => True

/-- How the instruction at a position of a body with these handlers may act. -/
abbrev Action (V R : Type) :=
  List ExceptionHandler → Nat → Instruction → Frame V R → Control → Frame V R → Prop

structure Semantics {T F M : Type} (pool : Pool T F M) (field : MemberRef) (V R : Type) where
  act : Action V R
  control {hs p i c} {σ τ : Frame V R} : act hs p i σ c τ → c.Allowed hs p i σ
  addresses {hs p i c q} {σ τ : Frame V R} : act hs p i σ c τ → τ.Holds q → σ.Holds q ∨ i.opcode = .jsr ∧ q = p + 1
  stores {hs p i c} {σ τ : Frame V R} : act hs p i σ c τ →
    (∀ m, storedField? pool i = some m → field.isSameMember m = false) → τ.field = σ.field
  /-- A constant is some value. -/
  load {hs p i} {σ : Frame V R} : p < prologueLength → i.opcode = .ldc →
    (∃ v, act hs p i σ .next (σ.push v)) ∧ ∀ c τ, act hs p i σ c τ → c = .next ∧ ∃ v, τ = σ.push v
  /-- Assertions are off. -/
  ask {hs p i m v c} {σ τ : Frame V R} : p < prologueLength → calledMethod? pool i = some m → isStatusQuery m = true →
    (act hs p i (σ.push v) c τ ↔ c = .next ∧ τ = σ.push (.int 0))
  test {hs p i n c} {σ τ : Frame V R} : p < prologueLength → i.opcode = .ifne →
    (act hs p i (σ.push (.int n)) c τ ↔ c = (if n = 0 then .next else .jump i.operand) ∧ τ = σ)
  number {hs p i c} {σ τ : Frame V R} : p < prologueLength → i.opcode = .iconst →
    (act hs p i σ c τ ↔ c = .next ∧ τ = σ.push (.int i.operand))
  goto {hs p i c} {σ τ : Frame V R} : p < prologueLength → i.opcode = .goto →
    (act hs p i σ c τ ↔ c = .jump i.operand ∧ τ = σ)
  /-- A truth value is stored as it is. -/
  store {hs p i m n c} {σ τ : Frame V R} : p < prologueLength → storedField? pool i = some m →
    field.isSameMember m = true → n = 0 ∨ n = 1 →
    (act hs p i (σ.push (.int n)) c τ ↔ c = .next ∧ τ = σ.setField n)

/-! ## Steps -/

namespace Semantics

variable {T F M : Type} {pool : Pool T F M} {field : MemberRef} {V R : Type} (S : Semantics pool field V R)

def Step (body : DecodedBody) : Config V R → Config V R → Prop
  | .running p σ, d =>
    ∃ i control τ, body.instructions[p]? = some i ∧ S.act body.handlers p i σ control τ ∧ control.LeadsTo p τ d
  | .left _, _ => False

def Run (body : DecodedBody) : Config V R → Config V R → Prop := Relation.ReflTransGen (S.Step body)

/-- A run of which each step starts before a position. -/
def RunBefore (n : Nat) (body : DecodedBody) : Config V R → Config V R → Prop :=
  Relation.ReflTransGen fun c d => S.Step body c d ∧ ∃ p σ, c = .running p σ ∧ p < n

variable {S}

theorem RunBefore.run {n : Nat} {body : DecodedBody} {c d : Config V R} (h : S.RunBefore n body c d) :
    S.Run body c d := by
  induction h with
  | refl => exact .refl
  | tail _ hstep ih => exact ih.tail hstep.1

end Semantics

end JvmClass
