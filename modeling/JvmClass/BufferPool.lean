/-
  JvmClass.BufferPool — buffers that are lent and come back.

  A buffer is taken from the idle ones or made anew, and is empty either way; when it is dropped
  its contents go and it is idle again.
-/

namespace JvmClass

structure BufferPool (α : Type) where
  /-- Buffers that nobody has, cleared. -/
  idle : List (List α)
  /-- The buffers taken so far, in order; none once dropped. -/
  lent : Array (Option (List α))

namespace BufferPool

variable {α : Type}

def empty : BufferPool α := ⟨[], #[]⟩

/-- Lends a buffer: its number is the number of buffers lent before. -/
def take (pool : BufferPool α) : BufferPool α :=
  match pool.idle with
  | buffer :: rest => ⟨rest, pool.lent.push (some buffer)⟩
  | [] => ⟨[], pool.lent.push (some [])⟩

/-- What the buffer holds, oldest first. -/
def contents? (pool : BufferPool α) (buffer : Nat) : Option (List α) := (pool.lent[buffer]?).join

def push (pool : BufferPool α) (buffer : Nat) (a : α) : BufferPool α :=
  { pool with lent := pool.lent.modify buffer (·.map (· ++ [a])) }

/-- Takes a buffer back; one that is back already stays so. -/
def drop (pool : BufferPool α) (buffer : Nat) : BufferPool α :=
  match pool.contents? buffer with
  | some _ => ⟨[] :: pool.idle, pool.lent.modify buffer fun _ => none⟩
  | none => pool

def idleCount (pool : BufferPool α) : Nat := pool.idle.length

end BufferPool

end JvmClass
