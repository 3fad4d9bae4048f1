/-
  JvmClass.Proofs.Class.Lasting — what building a class reads of the pool never changes.

  A class is built while its pool is being prepared, so two steps that read it may find different
  marks and other texts exposed. None of them looks at that: two pools that have in common what never
  changes are read alike, by each of the readers and so by all that is made of them
  (`Code.decode_of_frozen`, `ClassHeader.ofFile_of_frozen`, `withoutAssertions_of_frozen`).
-/

import JvmClass.Proofs.Class.Ensuring

namespace JvmClass

variable {T F M : Type}

/-- The name of the class that the entry is, if it is one. -/
def Entry.className? : Entry T F M → Option String
  | .cls item => some item.name
  | _ => none

theorem Pool.className_eq (p : Pool T F M) (i : Index) :
    p.className i = (p.entry i).className?.elim (.error (.badPoolIndex i.toNat)) .ok := by
  unfold className class? Entry.className?
  cases p.entry i <;> rfl

theorem ClassHeader.nameAt_eq (p : Pool T F M) (fault : FormatFault) (i : Index) :
    nameAt p fault i = (p.entry i).className?.elim (.error fault) .ok := by
  unfold nameAt Pool.class? Entry.className?
  cases p.entry i <;> rfl

/-- A pool with this entry only, at slot 0: what is read of one slot is read of its entry. -/
def Pool.single (e : Entry T F M) : Pool T F M := ⟨#[e]⟩

variable {p q : Pool T F M} (h : q.frozen = p.frozen)
include h

namespace Pool

theorem className?_of_frozen (i : Index) : (q.entry i).className? = (p.entry i).className? :=
  congr_of_frozen Entry.className? (fun e => by cases e <;> rfl) h i

theorem className_of_frozen (i : Index) : q.className i = p.className i := by
  rw [className_eq, className_eq, className?_of_frozen h]

theorem field?_of_frozen (i : Index) : q.field? i = p.field? i :=
  congr_of_frozen (fun e => (single e).field? 0) (fun e => by cases e <;> rfl) h i

theorem method?_of_frozen (i : Index) : q.method? i = p.method? i :=
  congr_of_frozen (fun e => (single e).method? 0) (fun e => by cases e <;> rfl) h i

theorem literal?_of_frozen (i : Index) : q.literal? i = p.literal? i :=
  congr_of_frozen (fun e => (single e).literal? 0) (fun e => by cases e <;> rfl) h i

theorem elementConstants_of_frozen : q.elementConstants = p.elementConstants := by
  unfold elementConstants
  rw [funext (text?_of_frozen h), funext (literal?_of_frozen h)]

end Pool

/-! ## Members -/

theorem Field.readConstant_of_frozen (descriptor : String) (i : Index) :
    readConstant descriptor (q.entry i) = readConstant descriptor (p.entry i) :=
  Pool.congr_of_frozen (readConstant descriptor) (fun e => by cases e <;> rfl) h i

theorem Method.readParameters?_of_frozen : ∀ entries, readParameters? q entries = readParameters? p entries
  | [] | [_] | [_, _] | [_, _, _] => rfl
  | n₁ :: n₂ :: f₁ :: f₂ :: rest => by
    simp only [readParameters?, Pool.text?_of_frozen h, readParameters?_of_frozen rest]

theorem Method.readParameters_of_frozen (info : List UInt8) : readParameters q info = readParameters p info := by
  cases info with
  | nil => rfl
  | cons count entries => simp only [readParameters, readParameters?_of_frozen h]

namespace CodeAttribute

theorem readTables_of_frozen (options : Options) (length : Nat) (tables : DebugTables) (n : Nat) :
    readTables q options length tables n = readTables p options length tables n := by
  have hvariable : readLocalVariable q = readLocalVariable p := by
    unfold readLocalVariable readText
    simp only [Pool.text_of_frozen h]
  have htable (tables : DebugTables) (a : Attribute) :
      addTable q options length tables a = addTable p options length tables a := by
    unfold addTable readLocalVariables
    rw [Pool.text_of_frozen h, hvariable]
  induction n generalizing tables with
  | zero => rfl
  | succ n ih => simp only [readTables, htable, ih]

theorem read_of_frozen (options : Options) (method : String × String) :
    read q options method = read p options method := by
  unfold read readHandler
  simp only [Pool.isClass_of_frozen h, readTables_of_frozen h]

end CodeAttribute

theorem Code.decode_of_frozen (options : Options) (name descriptor : String) (isStatic : Bool) (info : List UInt8) :
    decode q options name descriptor isStatic info = decode p options name descriptor isStatic info := by
  unfold decode
  rw [CodeAttribute.read_of_frozen h]

/-! ## Classes -/

theorem ClassHeader.ofFile_of_frozen (file : ClassFile) : ofFile q file = ofFile p file := by
  have hname : nameAt q = nameAt p := by
    funext fault i
    rw [nameAt_eq, nameAt_eq, Pool.className?_of_frozen h]
  unfold ofFile superclassOf
  rw [hname]

theorem InnerClassInfo.check_of_frozen (e : InnerClassInfo) : e.check q = e.check p := by
  unfold check
  simp only [Pool.isClass_of_frozen h, Pool.text?_of_frozen h]

theorem enclosingOf_of_frozen (i : Index) : enclosingOf q i = enclosingOf p i := by
  have hentry := Pool.entry_of_frozen h i
  unfold enclosingOf
  simp only [Pool.text_of_frozen h]
  cases hq : q.entry i <;> cases hp : p.entry i <;> simp_all [Entry.frozen]

theorem withoutAssertions_of_frozen (thisClass : String) (fields : List Field) (methods : List Method) :
    withoutAssertions q thisClass fields methods = withoutAssertions p thisClass fields methods := by
  have hstored : storedField? q = storedField? p := by
    funext i
    unfold storedField?
    rw [funext (Pool.field?_of_frozen h)]
  have hprologue : prologueField? q = prologueField? p := by
    funext thisClass is
    unfold prologueField? calledMethod?
    rw [hstored, funext (Pool.isClass_of_frozen h), funext (Pool.method?_of_frozen h)]
  have hdisturbs : disturbs q = disturbs p := by
    funext field i
    unfold disturbs
    rw [hstored]
  unfold withoutAssertions Method.withoutAssertions? removeAssertions
  rw [hprologue, hdisturbs]

end JvmClass
