/-
  JvmClass.Version — class file versions.

  Versions are ordered by major number, then by minor number. The supported range runs from
  45.0 to 52.0, both ends included. Which attributes a class file may carry and how strictly its
  names are checked depends on the major number alone.
-/

namespace JvmClass

structure Version where
  major : UInt16
  minor : UInt16
  deriving DecidableEq

namespace Version

def compare (a b : Version) : Ordering :=
  (Ord.compare a.major b.major).then (Ord.compare a.minor b.minor)

instance : Ord Version := ⟨compare⟩

instance : LE Version := ⟨fun a b => (compare a b).isLE = true⟩

instance (a b : Version) : Decidable (a ≤ b) :=
  inferInstanceAs (Decidable ((compare a b).isLE = true))

theorem le_iff {v w : Version} : v ≤ w ↔
    v.major.toNat < w.major.toNat ∨ v.major.toNat = w.major.toNat ∧ v.minor.toNat ≤ w.minor.toNat := by
  have hle : v ≤ w ↔ ((Ord.compare v.major w.major).then (Ord.compare v.minor w.minor)).isLE = true := Iff.rfl
  rw [hle, ← UInt16.lt_iff_toNat_lt, ← UInt16.le_iff_toNat_le, UInt16.toNat_inj, Ordering.isLE_then_iff_or,
    Std.compare_eq_lt, Std.compare_eq_iff_eq, Std.isLE_compare]

/-- JDK 1.1, the oldest supported format. -/
def java1 : Version := ⟨45, 0⟩

/-- Java SE 8, the newest supported format. -/
def java8 : Version := ⟨52, 0⟩

def isSupported (v : Version) : Bool := java1 ≤ v && v ≤ java8

/-- From Java SE 5: signatures, annotations, unrestricted member names. -/
def hasJava5Features (v : Version) : Bool := 49 ≤ v.major

/-- From Java SE 7: bootstrap methods. -/
def hasJava7Features (v : Version) : Bool := 51 ≤ v.major

/-- From Java SE 8: type annotations, method parameters, private interface methods. -/
def hasJava8Features (v : Version) : Bool := 52 ≤ v.major

def text (v : Version) : String := s!"{v.major.toNat}.{v.minor.toNat}"

end Version

end JvmClass
