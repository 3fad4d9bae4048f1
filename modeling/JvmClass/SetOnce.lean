/-
  JvmClass.SetOnce — cells that take a value once.

  A cell is empty until a value is committed, and keeps that value from then on: a later commit
  changes nothing and answers with the value that is there. `getOrLink` computes a value only for
  an empty cell. The computation may use the cell itself, so it may find it filled when it comes
  to commit; then its own value is dropped.
-/

namespace JvmClass

structure SetOnce (α : Type) where
  value? : Option α

namespace SetOnce

variable {α : Type}

def empty : SetOnce α := ⟨none⟩

def full (a : α) : SetOnce α := ⟨some a⟩

/-- The value that the cell holds afterwards, and the cell. -/
def commit (cell : SetOnce α) (candidate : α) : α × SetOnce α :=
  match cell.value? with
  | some a => (a, cell)
  | none => (candidate, full candidate)

def getOrLink (cell : SetOnce α) (compute : SetOnce α → α × SetOnce α) : α × SetOnce α :=
  match cell.value? with
  | some a => (a, cell)
  | none =>
    let (candidate, cell') := compute cell
    cell'.commit candidate

/-- `getOrLink` with a computation that leaves the cell alone. -/
def fill (cell : SetOnce α) (candidate : Unit → α) : SetOnce α :=
  match cell.value? with
  | some _ => cell
  | none => full (candidate ())

theorem commit_fst (cell : SetOnce α) (a : α) : (cell.commit a).1 = cell.value?.getD a := by
  unfold commit; split <;> simp_all

theorem commit_snd (cell : SetOnce α) (a : α) :
    (cell.commit a).2.value? = some (cell.value?.getD a) := by
  unfold commit; split <;> simp_all [full]

theorem fill_value? (cell : SetOnce α) (a : Unit → α) :
    (cell.fill a).value? = some (cell.value?.getD (a ())) := by
  unfold fill; split <;> simp_all [full]

theorem fill_eq_getOrLink (cell : SetOnce α) (a : Unit → α) :
    cell.fill a = (cell.getOrLink fun c => (a (), c)).2 := by
  unfold fill getOrLink commit; split <;> simp_all

/-- `Unlinked`, or the value in parentheses. -/
def describe (cell : SetOnce α) (text : α → String) : String :=
  match cell.value? with
  | none => "Unlinked"
  | some a => s!"Linked({text a})"

end SetOnce

end JvmClass
