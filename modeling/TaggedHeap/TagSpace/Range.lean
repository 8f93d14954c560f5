import TaggedHeap.TagSpace.Basic

/-! Ranges of neighbouring kinds, so that one comparison replaces a test for each of them. -/
namespace TaggedHeap

structure KindRange where
  start : Tag
  stop : Tag
  deriving DecidableEq, Repr

namespace KindRange

def contains (r : KindRange) (t : Tag) : Bool := r.start ≤ t && t < r.stop

def count (r : KindRange) : Nat := (r.stop - r.start).toNat

end KindRange

def TagSpace.range (s : TagSpace) (first last : String) : Except Fault KindRange := do
  let start ← s.tagNamed first
  let stop ← s.tagNamed last
  if start > stop then throw (.invertedRange first last start stop)
  if (s.kindAt start).map (·.category) = (s.kindAt stop).map (·.category) then
    return ⟨start, stop + 1⟩
  throw (.mixedRange first last)

end TaggedHeap
