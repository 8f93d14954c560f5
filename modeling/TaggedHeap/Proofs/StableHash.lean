import Mathlib.Data.Int.ModEq
import Mathlib.Tactic.Ring
import TaggedHeap.StableHash

/-! Windows of at most four bytes never collide, whatever was hashed before them and whatever after. Two
states that some bytes have driven apart may well be driven together by two different bytes, but only if
they agree in all but their low byte. Modulo `2 ^ 40` the multiplier is no more than 435, so after
three bytes the states differ there by a multiple of 435 that has not wrapped, and none but zero is
less than a byte. -/
namespace TaggedHeap.StableHash

theorem timesPrime {a b : Word} (same : a * prime = b * prime) : a = b := by
  have inverse : prime * 0xce965057aff6957b = 1 := by decide
  calc
    a = a * prime * 0xce965057aff6957b := by rw [UInt64.mul_assoc, inverse, UInt64.mul_one]
    _ = b * prime * 0xce965057aff6957b := by rw [same]
    _ = b := by rw [UInt64.mul_assoc, inverse, UInt64.mul_one]

theorem stepInjective {x y : Word} {byte : UInt8} (same : step x byte = step y byte) : x = y :=
  (UInt64.xor_left_inj _).mp (timesPrime same)

theorem foldInjective {bytes : List UInt8} {x y : Word}
    (same : bytes.foldl step x = bytes.foldl step y) : x = y := by
  induction bytes generalizing x y with
  | nil => exact same
  | cons byte rest ih => exact stepInjective (ih same)

theorem xorHigh (x : Word) (byte : UInt8) :
    (x ^^^ byte.toUInt64).toNat / 2 ^ 8 = x.toNat / 2 ^ 8 := by
  rw [UInt64.toNat_xor, Nat.xor_div_two_pow, UInt8.toNat_toUInt64, Nat.div_eq_of_lt byte.toNat_lt,
    Nat.xor_zero]

theorem primeResidue (a : Word) : ((a * prime).toNat : Int) ≡ 435 * a.toNat [ZMOD 2 ^ 40] := by
  have product : (a * prime).toNat = a.toNat * (2 ^ 40 + 435) % 2 ^ 64 := UInt64.toNat_mul a prime
  rw [Int.ModEq, product]
  omega

def Near (bound : Nat) (x y : Word) : Prop :=
  ∃ d : Int, (x.toNat : Int) - y.toNat ≡ 435 * d [ZMOD 2 ^ 40] ∧ (435 * d).natAbs ≤ bound

theorem nearStep {bound : Nat} {x y : Word} (near : Near bound x y) (b c : UInt8) :
    Near (435 * (bound + 510)) (step x b) (step y c) := by
  obtain ⟨d, residue, small⟩ := near
  have highX := xorHigh x b
  have highY := xorHigh y c
  generalize bytes : (((x ^^^ b.toUInt64).toNat : Int) - x.toNat) -
    ((y ^^^ c.toUInt64).toNat - y.toNat) = e
  refine ⟨435 * d + e, ?_, by omega⟩
  calc
    ((step x b).toNat : Int) - (step y c).toNat
      ≡ 435 * (x ^^^ b.toUInt64).toNat - 435 * (y ^^^ c.toUInt64).toNat [ZMOD 2 ^ 40] :=
        (primeResidue _).sub (primeResidue _)
    _ = 435 * ((x.toNat - y.toNat) + e) := by rw [← bytes]; ring
    _ ≡ 435 * (435 * d + e) [ZMOD 2 ^ 40] := (residue.add_right e).mul_left 435

theorem nearMeets {bound : Nat} {x y : Word} {b c : UInt8} (near : Near bound x y)
    (small : bound + 255 < 2 ^ 40) (same : step x b = step y c) : x = y ∧ b = c := by
  have mixed : x ^^^ b.toUInt64 = y ^^^ c.toUInt64 := timesPrime same
  have high : x.toNat / 2 ^ 8 = y.toNat / 2 ^ 8 := by rw [← xorHigh x b, mixed, xorHigh]
  have states : x = y := by
    obtain ⟨d, residue, bounded⟩ := near
    obtain ⟨wraps, difference⟩ := Int.modEq_iff_dvd.mp residue
    have unwrapped : wraps = 0 := by omega
    have closest : d = 0 := by omega
    exact UInt64.toNat_inj.mp (by omega)
  subst states
  have bytes : b.toUInt64.toNat = c.toUInt64.toNat := by rw [(UInt64.xor_right_inj x).mp mixed]
  exact ⟨rfl, UInt8.toNat_inj.mp (by simpa using bytes)⟩

def spread : Nat → Nat
  | 0 => 0
  | n + 1 => 435 * (spread n + 510)

theorem spreadMonotone {m n : Nat} (le : m ≤ n) : spread m ≤ spread n := by
  refine monotone_nat_of_le_succ (fun k => ?_) le
  rw [spread]
  omega

theorem splitLast {w : List UInt8} {n : Nat} (length : w.length = n + 1) :
    ∃ v b, w = v ++ [b] ∧ v.length = n := by
  rcases List.eq_nil_or_concat w with rfl | ⟨v, b, rfl⟩
  · cases length
  · exact ⟨v, b, List.concat_eq_append, by simpa using length⟩

theorem foldSnoc (h : Word) (v : List UInt8) (b : UInt8) :
    (v ++ [b]).foldl step h = step (v.foldl step h) b := by
  rw [List.foldl_append, List.foldl_cons, List.foldl_nil]

theorem windowsNear (h : Word) {n : Nat} {w w' : List UInt8} (length : w.length = n)
    (length' : w'.length = n) : Near (spread n) (w.foldl step h) (w'.foldl step h) := by
  induction n generalizing w w' with
  | zero =>
    rw [List.eq_nil_of_length_eq_zero length, List.eq_nil_of_length_eq_zero length']
    exact ⟨0, by simp, by simp⟩
  | succ n ih =>
    obtain ⟨v, b, rfl, shorter⟩ := splitLast length
    obtain ⟨v', b', rfl, shorter'⟩ := splitLast length'
    rw [foldSnoc, foldSnoc]
    exact nearStep (ih shorter shorter') b b'

theorem windowInjective {h : Word} {n : Nat} (short : n ≤ 4) {w w' : List UInt8}
    (length : w.length = n) (length' : w'.length = n)
    (same : w.foldl step h = w'.foldl step h) : w = w' := by
  -- From the last byte back, since what is known is the state at the end.
  induction n generalizing w w' with
  | zero => rw [List.eq_nil_of_length_eq_zero length, List.eq_nil_of_length_eq_zero length']
  | succ n ih =>
    obtain ⟨v, b, rfl, shorter⟩ := splitLast length
    obtain ⟨v', b', rfl, shorter'⟩ := splitLast length'
    have unwrapped : spread n + 255 < 2 ^ 40 := by
      have most : spread n ≤ spread 3 := spreadMonotone (by omega)
      have three : spread 3 = 42076292850 := by decide
      omega
    rw [foldSnoc, foldSnoc] at same
    obtain ⟨states, rfl⟩ := nearMeets (windowsNear h shorter shorter') unwrapped same
    rw [ih (by omega) shorter shorter' states]

theorem windowsDiffer (h : StableHash) {w w' : List UInt8} (lengths : w.length = w'.length)
    (short : w.length ≤ 4) (other : w ≠ w') (rest : List UInt8) :
    (h.absorb (w ++ rest)).finish ≠ (h.absorb (w' ++ rest)).finish := by
  intro same
  simp only [absorb, finish, List.foldl_append] at same
  exact other (windowInjective short rfl lengths.symm (foldInjective same))

def absorbEach (h : StableHash) (writes : List (List UInt8)) : StableHash := writes.foldl absorb h

theorem absorbEachFlatten (h : StableHash) (writes : List (List UInt8)) :
    h.absorbEach writes = h.absorb writes.flatten := by
  induction writes generalizing h with
  | nil => rfl
  | cons bytes later ih => rw [List.flatten_cons, absorbAppend, ← ih]; rfl

end TaggedHeap.StableHash
