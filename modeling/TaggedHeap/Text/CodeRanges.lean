/-! Sets of code points, given as closed ranges. -/
namespace TaggedHeap.Text

abbrev CodeRanges := List (Nat × Nat)

def CodeRanges.covers (ranges : CodeRanges) (c : Char) : Bool :=
  ranges.any fun r => r.1 ≤ c.toNat && c.toNat ≤ r.2

theorem coversIff (ranges : CodeRanges) (c : Char) :
    ranges.covers c = true ↔ ∃ r ∈ ranges, r.1 ≤ c.toNat ∧ c.toNat ≤ r.2 := by
  simp [CodeRanges.covers]

end TaggedHeap.Text
