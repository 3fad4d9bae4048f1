/-
  JvmClass.Cursor — big-endian values read from a payload.

  A cursor knows how many bytes it has taken and which are left, so what it took and what is left
  always make up the payload. A read that asks for more than is left fails and leaves the cursor
  at the end; only `slice` leaves it where it was.
-/

import JvmClass.Fault

namespace JvmClass

structure Cursor where
  position : Nat
  rest : List UInt8

namespace Cursor

def ofBytes (bytes : List UInt8) : Cursor := ⟨0, bytes⟩

def isAtEnd (c : Cursor) : Bool := c.rest.isEmpty

/-- The cursor after the last byte. -/
def toEnd (c : Cursor) : Cursor := ⟨c.position + c.rest.length, []⟩

/-- The next `n` bytes and the cursor after them, if there are so many. -/
def split? (c : Cursor) (n : Nat) : Option (List UInt8 × Cursor) :=
  let parts := c.rest.splitAt n
  if parts.1.length = n then some (parts.1, ⟨c.position + n, parts.2⟩) else none

end Cursor

/-- A computation that reads from a payload and may fail; the cursor outlives the failure. -/
abbrev Read (ε : Type) := EStateM ε Cursor

namespace Read

variable {ε α : Type}

def run (read : Read ε α) (bytes : List UInt8) : Except ε α :=
  match EStateM.run read (Cursor.ofBytes bytes) with
  | .ok a _ => .ok a
  | .error e _ => .error e

def position : Read ε Nat := return (← get).position

def isAtEnd : Read ε Bool := return (← get).isAtEnd

/-- Fails with `e` at the end of the payload. -/
def overrun (e : ε) : Read ε α := fun c => .error e c.toEnd

def byte (e : ε) : Read ε UInt8 := fun c =>
  match c.rest with
  | a :: rest => .ok a ⟨c.position + 1, rest⟩
  | [] => overrun e c

def short (e : ε) : Read ε UInt16 := fun c =>
  match c.rest with
  | a :: b :: rest => .ok (a.toNat * 0x100 + b.toNat).toUInt16 ⟨c.position + 2, rest⟩
  | _ => overrun e c

def word (e : ε) : Read ε UInt32 := fun c =>
  match c.rest with
  | a :: b :: x :: y :: rest =>
    .ok (a.toNat * 0x1000000 + b.toNat * 0x10000 + x.toNat * 0x100 + y.toNat).toUInt32
      ⟨c.position + 4, rest⟩
  | _ => overrun e c

def long (e : ε) : Read ε UInt64 := do
  let high ← word e
  let low ← word e
  return (high.toNat * 0x100000000 + low.toNat).toUInt64

/-- The next `n` bytes; the cursor goes to the end if there are fewer. -/
def exact (e : ε) (n : Nat) : Read ε (List UInt8) := fun c =>
  match c.split? n with
  | some (bytes, c') => .ok bytes c'
  | none => overrun e c

/-- The next `n` bytes; the cursor stays if there are fewer. -/
def slice (e : ε) (n : Nat) : Read ε (List UInt8) := fun c =>
  match c.split? n with
  | some (bytes, c') => .ok bytes c'
  | none => .error e c

/-- Fails with `e` unless all bytes are taken. -/
def expectEnd (e : ε) : Read ε Unit := fun c => if c.isAtEnd then .ok () c else .error e c

/-- `n` items in a row, after those of `acc` (last first). -/
def manyInto (read : Read ε α) (acc : List α) : Nat → Read ε (List α)
  | 0 => return acc.reverse
  | n + 1 => do
    let a ← read
    manyInto read (a :: acc) n

def many (read : Read ε α) (n : Nat) : Read ε (List α) := manyInto read [] n

/-- Items with their number before them. -/
def counted (e : ε) (read : Read ε α) : Read ε (List α) := do
  let n ← short e
  many read n.toNat

end Read

end JvmClass
