/-
  JvmClass.Proofs.Bytecode.Arguments — the slots of the arguments of a method.

  Arguments are put in a row from slot 0 on, the receiver first, each as wide as its type says. Every slot
  up to the end is then occupied once (`inARow_slotsFrom`), so that it is enough to compare the end with
  the number of local variables; that number has 16 bits, and with it so have all the slots
  (`slotsOfWords_eq`). That a descriptor was checked before its class names were dotted is no obstacle to
  parsing it now (`MethodDescriptor.parse_dotted`).
-/

import Mathlib.Algebra.GroupWithZero.Nat
import JvmClass.Proofs.Bytecode.Acceptance
import JvmClass.Proofs.Descriptor.Dotted

namespace JvmClass

/-! ## Widths -/

@[simp] theorem FieldType.width_map {C D : Type} (f : C → D) (t : FieldType C) : (t.map f).width = t.width := by
  cases t <;> rfl

theorem argumentWidths_map (f : String → String) (d : MethodDescriptor String) (receiver : Bool) :
    argumentWidths (d.map f) receiver = argumentWidths d receiver := by
  simp only [argumentWidths, MethodDescriptor.map, List.map_map]
  congr 2
  funext t
  exact t.width_map f

theorem totalWidth_eq_sum {C : Type} (ts : List (FieldType C)) : totalWidth ts = (ts.map FieldType.width).sum := by
  induction ts with
  | nil => rfl
  | cons t ts ih => rw [totalWidth, ih, List.map_cons, List.sum_cons]

theorem MethodDescriptor.slots_eq_sum (d : MethodDescriptor String) (receiver : Bool) :
    d.slots receiver = (argumentWidths d receiver).sum := by
  rw [slots, totalWidth_eq_sum, argumentWidths, List.sum_append]
  cases receiver <;> rfl

/-- Only a number of eight bytes is as wide as two slots; an array of them is not. -/
theorem FieldType.width_cases {C : Type} (t : FieldType C) :
    t.width = 2 ∧ (t = .base .long ∨ t = .base .double) ∨
      t.width = 1 ∧ t ≠ .base .long ∧ t ≠ .base .double := by
  rcases t with b | r
  · cases b <;> simp [width, BaseType.width]
  · exact .inr ⟨rfl, by simp, by simp⟩

/-! ## Slots in a row -/

theorem length_slotsFrom (slot : Nat) (widths : List Nat) : (slotsFrom slot widths).length = widths.length := by
  induction widths generalizing slot with
  | nil => rfl
  | cons width widths ih => rw [slotsFrom, List.length_cons, ih, List.length_cons]

theorem getElem?_slotsFrom {slot k : Nat} {widths : List Nat} (hk : k < widths.length) :
    (slotsFrom slot widths)[k]? = some (slot + (widths.take k).sum) := by
  induction widths generalizing slot k with
  | nil => cases hk
  | cons width widths ih =>
    cases k with
    | zero => rfl
    | succ k =>
      rw [slotsFrom, List.getElem?_cons_succ, ih (Nat.lt_of_succ_lt_succ hk), List.take_succ_cons, List.sum_cons,
        Nat.add_assoc]

theorem le_of_mem_slotsFrom {slot n : Nat} {widths : List Nat} (hn : n ∈ slotsFrom slot widths) :
    n ≤ slot + widths.sum := by
  induction widths generalizing slot with
  | nil => cases hn
  | cons width widths ih =>
    rw [List.sum_cons]
    rcases List.mem_cons.mp hn with rfl | hn
    · exact Nat.le_add_right _ _
    · have := ih hn
      omega

theorem occupied_slotsFrom (slot : Nat) (widths : List Nat) :
    ((slotsFrom slot widths).zip widths).flatMap (fun (slot, width) => List.range' slot width) =
      List.range' slot widths.sum := by
  induction widths generalizing slot with
  | nil => rfl
  | cons width widths ih =>
    rw [slotsFrom, List.zip_cons_cons, List.flatMap_cons, ih, List.sum_cons, List.range'_append_1]

/-- Values of these widths have these slots: each begins where those before it end, and one after the other
    they occupy the slots from 0 on, so that none is occupied twice. -/
structure InARow (widths slots : List Nat) : Prop where
  length : slots.length = widths.length
  begin : ∀ k < widths.length, slots[k]? = some (widths.take k).sum
  occupied : (slots.zip widths).flatMap (fun (slot, width) => List.range' slot width) = List.range widths.sum

theorem inARow_slotsFrom (widths : List Nat) : InARow widths (slotsFrom 0 widths) where
  length := length_slotsFrom 0 widths
  begin k hk := by rw [getElem?_slotsFrom hk, Nat.zero_add]
  occupied := by rw [occupied_slotsFrom, List.range_eq_range']

/-! ## Slots of 16 bits -/

/-- The slots of the arguments, of each of which 16 bits are kept as it is met. -/
def wordsOfArguments (d : MethodDescriptor String) (receiver : Bool) : List UInt16 :=
  let first : List UInt16 × Nat := if receiver then ([0], 1) else ([], 0)
  (d.parameters.foldl (fun (words, slot) t => (words ++ [slot.toUInt16], slot + t.width)) first).1

/-- As `slotsOfArguments`, with 16 bits of each slot: whether the arguments have room is known only after
    the slots have been cut off. -/
def slotsOfWords (descriptor : String) (receiver : Bool) (maxLocals : UInt16) : Except FormatFault (List UInt16) :=
  match MethodDescriptor.parse descriptor with
  | .error _ => .error (.badBodyDescriptor descriptor)
  | .ok d =>
    let words := wordsOfArguments d receiver
    if maxLocals.toNat < d.slots receiver then .error .tooFewLocals else .ok words

theorem wordsOfArguments_eq (d : MethodDescriptor String) (receiver : Bool) :
    wordsOfArguments d receiver = (slotsFrom 0 (argumentWidths d receiver)).map Nat.toUInt16 := by
  have hfold (ts : List (FieldType String)) (words : List UInt16) (slot : Nat) :
      (ts.foldl (fun (words, slot) t => (words ++ [slot.toUInt16], slot + t.width)) (words, slot)).1 =
        words ++ (slotsFrom slot (ts.map FieldType.width)).map Nat.toUInt16 := by
    induction ts generalizing words slot with
    | nil => exact (List.append_nil words).symm
    | cons t ts ih => rw [List.foldl_cons, ih, List.map_cons, slotsFrom, List.map_cons, List.append_assoc]; rfl
  cases receiver with
  | true => exact hfold d.parameters [0] 1
  | false => exact hfold d.parameters [] 0

/-- If there is room, no slot is too large to be kept. -/
theorem slotsOfWords_eq (descriptor : String) (receiver : Bool) (maxLocals : UInt16) :
    (slotsOfWords descriptor receiver maxLocals).map (·.map UInt16.toNat) =
      slotsOfArguments descriptor receiver maxLocals := by
  unfold slotsOfWords slotsOfArguments
  cases MethodDescriptor.parse descriptor with
  | error e => rfl
  | ok d =>
    by_cases hroom : maxLocals.toNat < d.slots receiver
    · simp only [if_pos hroom]
      rfl
    · simp only [if_neg hroom, wordsOfArguments_eq]
      refine congrArg Except.ok ?_
      show List.map _ (List.map _ _) = _
      rw [List.map_map]
      have hkept : ∀ n ∈ slotsFrom 0 (argumentWidths d receiver), (UInt16.toNat ∘ Nat.toUInt16) n = id n := by
        intro n hn
        have hle := le_of_mem_slotsFrom hn
        have hlimit := maxLocals.toNat_lt
        rw [d.slots_eq_sum] at hroom
        exact UInt16.toNat_ofNat_of_lt (Nat.lt_of_le_of_lt (by omega) hlimit)
      rw [List.map_congr_left hkept, List.map_id]

/-! ## Whole descriptors -/

/-- For a descriptor that has been checked the slots of the arguments are refused only if there are too few
    local variables for the receiver and the parameters. Otherwise they stand in a row, up to the number of
    local variables at most, and are the same if 16 bits are kept of each. -/
theorem argument_slots_are_exact (s : String) (hs : isValidMethodDescriptor s = true) (receiver : Bool)
    (maxLocals : UInt16) :
    ∃ d : MethodDescriptor String, d.IsSpellable ∧ d.chars = s.toList ∧
      MethodDescriptor.parse (dotted s) = .ok (d.map dotted) ∧
      (∀ t ∈ d.parameters, t.width = 2 ∧ (t = .base .long ∨ t = .base .double) ∨
        t.width = 1 ∧ t ≠ .base .long ∧ t ≠ .base .double) ∧
      (∀ fault, slotsOfArguments (dotted s) receiver maxLocals = .error fault ↔
        maxLocals.toNat < (argumentWidths d receiver).sum ∧ fault = .tooFewLocals) ∧
      ((argumentWidths d receiver).sum ≤ maxLocals.toNat →
        ∃ slots, slotsOfArguments (dotted s) receiver maxLocals = .ok slots ∧
          InARow (argumentWidths d receiver) slots ∧
          ∃ words, slotsOfWords (dotted s) receiver maxLocals = .ok words ∧ words.map UInt16.toNat = slots) := by
  obtain ⟨d, hparse⟩ := MethodDescriptor.exists_parse_of_valid hs
  obtain ⟨hd, hchars⟩ := MethodDescriptor.parse_eq_ok_iff.mp hparse
  have hdotted := MethodDescriptor.parse_dotted hparse
  have hslots : slotsOfArguments (dotted s) receiver maxLocals =
      if maxLocals.toNat < (argumentWidths d receiver).sum then .error .tooFewLocals
      else .ok (slotsFrom 0 (argumentWidths d receiver)) := by
    simp only [slotsOfArguments, hdotted, MethodDescriptor.slots_eq_sum, argumentWidths_map]
  refine ⟨d, hd, hchars.symm, hdotted, fun t _ => t.width_cases, fun fault => ?_, fun hroom => ?_⟩
  · rw [hslots]
    by_cases hroom : maxLocals.toNat < (argumentWidths d receiver).sum
    · rw [if_pos hroom, and_iff_right hroom, Except.error.injEq, eq_comm]
    · rw [if_neg hroom]
      exact iff_of_false (fun h => nomatch h) fun h => hroom h.1
  · rw [if_neg (Nat.not_lt.mpr hroom)] at hslots
    have hwords := slotsOfWords_eq (dotted s) receiver maxLocals
    rw [hslots, Except.map_eq_ok] at hwords
    exact ⟨_, hslots, inARow_slotsFrom _, hwords⟩

theorem argument_slots_are_exact_wide :
    ∃ d : MethodDescriptor String, d.chars = "(JILjava/lang/String;[DD)V".toList ∧
      (argumentWidths d true).sum ≤ 8 ∧ InARow (argumentWidths d true) [0, 1, 3, 4, 5, 6] ∧
      slotsOfArguments (dotted "(JILjava/lang/String;[DD)V") true 8 = .ok [0, 1, 3, 4, 5, 6] := by
  have hs : isValidMethodDescriptor "(JILjava/lang/String;[DD)V" = true := by decide +kernel
  have hslots : slotsOfArguments (dotted "(JILjava/lang/String;[DD)V") true 8 = .ok [0, 1, 3, 4, 5, 6] := by
    decide +kernel
  obtain ⟨d, -, hchars, -, -, hfails, hfits⟩ := argument_slots_are_exact _ hs true 8
  have hroom : (argumentWidths d true).sum ≤ 8 := by
    refine Nat.not_lt.mp fun hfew => ?_
    cases hslots.symm.trans ((hfails _).mpr ⟨hfew, rfl⟩)
  obtain ⟨slots, hslots', hrow, -⟩ := hfits hroom
  obtain rfl := Except.ok.inj (hslots.symm.trans hslots')
  exact ⟨d, hchars, hroom, hrow, hslots⟩

end JvmClass
