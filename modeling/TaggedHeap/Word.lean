/-! Tags, machine words and their byte order. Arithmetic on a `Word` wraps at 64 bits; `checkedAdd`
is the one addition that refuses instead. -/
namespace TaggedHeap

abbrev Tag := UInt32

abbrev Word := UInt64

def checkedAdd (a b : Word) : Option Word :=
  if a.toNat + b.toNat < UInt64.size then some (a + b) else none

theorem checkedAddExact {a b c : Word} (h : checkedAdd a b = some c) :
    c.toNat = a.toNat + b.toNat := by
  unfold checkedAdd at h
  split at h <;> try contradiction
  rename_i fits
  cases Option.some.inj h
  rw [UInt64.toNat_add, Nat.mod_eq_of_lt fits]

def littleEndian : Nat → Nat → List UInt8
  | 0, _ => []
  | width + 1, n => UInt8.ofNat n :: littleEndian width (n / 256)

theorem littleEndianLength (width n : Nat) : (littleEndian width n).length = width := by
  induction width generalizing n with
  | zero => rfl
  | succ width ih => simp [littleEndian, ih]

def twosComplement (width : Nat) (n : Int) : List UInt8 :=
  littleEndian width (n % Int.pow 256 width).toNat

def Tag.bytes (t : Tag) : List UInt8 := littleEndian 4 t.toNat

def Word.bytes (w : Word) : List UInt8 := littleEndian 8 w.toNat

end TaggedHeap
