import Mathlib.Data.List.Induction
import TaggedHeap.CommandLine.Arguments

/-! The spellings of a tag on a command line: its decimal digits, zeros before them, and a sign that
tells nothing. No text spells two tags. -/
namespace TaggedHeap.CommandLine

def decimal (zeros : Nat) (t : Tag) : List Char :=
  List.replicate zeros '0' ++ Nat.toDigits 10 t.toNat

inductive Spells (t : Tag) : List Char → Prop where
  | plain (zeros : Nat) : Spells t (decimal zeros t)
  | plus (zeros : Nat) : Spells t ('+' :: decimal zeros t)
  | minus (zeros : Nat) (zero : t = 0) : Spells t ('-' :: decimal zeros t)

theorem plainDecimal (t : Tag) : (toString t.toNat).toList = decimal 0 t := by
  rw [Nat.toString_eq_ofList_toDigits, String.toList_ofList]
  rfl

theorem digitChar {c : Char} (digit : c.isDigit = true) :
    c.toNat - '0'.toNat < 10 ∧ Nat.digitChar (c.toNat - '0'.toNat) = c := by
  obtain ⟨low, high⟩ := Char.isDigit_iff_toNat.mp digit
  have zero : '0'.toNat = 48 := rfl
  have nine : '9'.toNat = 57 := rfl
  have small : c.toNat - '0'.toNat < 10 := by omega
  refine ⟨small, Char.toNat_inj.mp ?_⟩
  rw [Nat.toNat_digitChar_of_lt_ten small]
  omega

theorem digitsBack {cs : List Char} (digits : cs.all Char.isDigit = true) (some : cs ≠ [])
    (lead : cs.head? ≠ Option.some '0') : Nat.toDigits 10 (Nat.ofDigitChars 10 cs 0) = cs := by
  -- From the end, where the last digit is the remainder by ten.
  induction cs using List.reverseRecOn with
  | nil => exact absurd rfl some
  | append_singleton front c ih =>
    simp only [List.all_append, List.all_cons, List.all_nil, Bool.and_true, Bool.and_eq_true] at digits
    obtain ⟨small, back⟩ := digitChar digits.2
    rw [Nat.ofDigitChars_append, Nat.ofDigitChars_cons, Nat.ofDigitChars_nil]
    cases front with
    | nil => rw [Nat.ofDigitChars_nil, Nat.mul_zero, Nat.zero_add, Nat.toDigits_of_lt_base small, back,
        List.nil_append]
    | cons d rest =>
      have earlier := ih digits.1 (List.cons_ne_nil d rest) lead
      have positive : 0 < Nat.ofDigitChars 10 (d :: rest) 0 := by
        refine Nat.pos_of_ne_zero fun none => lead ?_
        rw [none, Nat.toDigits_zero] at earlier
        rw [← earlier]
        rfl
      rw [← Nat.toDigits_append_toDigits (by decide) positive small, earlier,
        Nat.toDigits_of_lt_base small, back]

theorem zerosAhead (cs : List Char) : ∃ zeros rest, cs = List.replicate zeros '0' ++ rest ∧
    rest.head? ≠ some '0' := by
  induction cs with
  | nil => exact ⟨0, [], rfl, nofun⟩
  | cons c cs ih =>
    obtain ⟨zeros, rest, rfl, lead⟩ := ih
    by_cases zero : c = '0'
    · exact ⟨zeros + 1, rest, by rw [zero, List.replicate_succ, List.cons_append], lead⟩
    · exact ⟨0, _, rfl, by simpa using zero⟩

theorem digitsValueIff {cs : List Char} {n : Nat} : digitsValue cs = some n ↔
    ∃ zeros, cs = List.replicate zeros '0' ++ Nat.toDigits 10 n := by
  unfold digitsValue
  constructor
  · intro read
    split at read <;> cases read
    rename_i proper
    simp only [Bool.or_eq_true, List.isEmpty_iff, Bool.not_eq_true', not_or, Bool.not_eq_false] at proper
    obtain ⟨some, digits⟩ := proper
    obtain ⟨zeros, rest, rfl, lead⟩ := zerosAhead cs
    change ∃ k, _ = List.replicate k '0' ++ Nat.toDigits 10 (Nat.ofDigitChars 10 _ 0)
    rw [Nat.ofDigitChars_append, Nat.ofDigitChars_replicate_zero, Nat.mul_zero]
    rw [List.all_append, Bool.and_eq_true] at digits
    cases rest with
    | nil =>
      cases zeros with
      | zero => exact absurd rfl some
      | succ zeros => exact ⟨zeros, by rw [List.append_nil, List.replicate_succ']; rfl⟩
    | cons c rest => exact ⟨zeros, by rw [digitsBack digits.2 (List.cons_ne_nil c rest) lead]⟩
  · intro facts
    obtain ⟨zeros, rfl⟩ := facts
    have digits : (List.replicate zeros '0' ++ Nat.toDigits 10 n).all Char.isDigit = true := by
      rw [List.all_append, Bool.and_eq_true, List.all_eq_true, List.all_eq_true]
      refine ⟨fun c member => ?_, fun c => Nat.isDigit_of_mem_toDigits (by decide) (by decide)⟩
      rw [(List.mem_replicate.mp member).2]
      rfl
    have value : Nat.ofDigitChars 10 (List.replicate zeros '0' ++ Nat.toDigits 10 n) 0 = n := by
      rw [Nat.ofDigitChars_append, Nat.ofDigitChars_replicate_zero, Nat.mul_zero,
        Nat.ofDigitChars_ten_toDigits]
    rw [if_neg (by simp [digits, Nat.toDigits_ne_nil])]
    exact congrArg some value

theorem fitsTag {n : Nat} {t : Tag} :
    (if n < UInt32.size then some (UInt32.ofNat n) else none) = some t ↔ n = t.toNat := by
  constructor
  · intro fits
    split at fits <;> cases fits
    rename_i small
    exact (UInt32.toNat_ofNat_of_lt' small).symm
  · rintro rfl
    rw [if_pos t.toNat_lt, UInt32.ofNat_toNat]

theorem digitsTag {cs : List Char} {t : Tag} :
    ((digitsValue cs).bind fun n => if n < UInt32.size then some (UInt32.ofNat n) else none) = some t ↔
      ∃ zeros, cs = decimal zeros t := by
  simp only [Option.bind_eq_some_iff, fitsTag, exists_eq_right, digitsValueIff]
  rfl

theorem decimalDigit {zeros : Nat} {t : Tag} {c : Char} {rest : List Char}
    (same : decimal zeros t = c :: rest) : c.isDigit = true := by
  have member : c ∈ decimal zeros t := same ▸ List.mem_cons_self
  rcases List.mem_append.mp member with zero | digit
  · rw [(List.mem_replicate.mp zero).2]
    rfl
  · exact Nat.isDigit_of_mem_toDigits (by decide) (by decide) digit

theorem digitsZero {cs : List Char} {t : Tag} :
    (((digitsValue cs).filter (· = 0)).bind fun n =>
      if n < UInt32.size then some (UInt32.ofNat n) else none) = some t ↔
        t = 0 ∧ ∃ zeros, cs = decimal zeros t := by
  have zero : t.toNat = 0 ↔ t = 0 := by rw [← UInt32.toNat_inj, UInt32.toNat_zero]
  simp only [Option.bind_eq_some_iff, fitsTag, exists_eq_right, Option.filter_eq_some_iff,
    decide_eq_true_eq, digitsValueIff, zero]
  exact and_comm

theorem readTagIff {word : String} {t : Tag} : readTag word = some t ↔ Spells t word.toList := by
  unfold readTag
  generalize word.toList = cs
  split
  · rename_i digits
    refine digitsTag.trans ⟨fun ⟨zeros, same⟩ => same ▸ .plus zeros, fun spells => ?_⟩
    generalize signed : '+' :: digits = cs at spells
    cases spells with
    | plain zeros => exact absurd (decimalDigit signed.symm) (by decide)
    | plus zeros => exact ⟨zeros, (List.cons.inj signed).2⟩
    | minus => cases signed
  · rename_i digits
    refine digitsZero.trans ⟨fun ⟨zero, zeros, same⟩ => same ▸ .minus zeros zero, fun spells => ?_⟩
    generalize signed : '-' :: digits = cs at spells
    cases spells with
    | plain zeros => exact absurd (decimalDigit signed.symm) (by decide)
    | plus => cases signed
    | minus zeros zero => exact ⟨zero, zeros, (List.cons.inj signed).2⟩
  · rename_i unsigned unnegated
    refine digitsTag.trans ⟨fun ⟨zeros, same⟩ => same ▸ .plain zeros, fun spells => ?_⟩
    cases spells with
    | plain zeros => exact ⟨zeros, rfl⟩
    | plus zeros => exact absurd rfl (unsigned _)
    | minus zeros => exact absurd rfl (unnegated _)

end TaggedHeap.CommandLine
