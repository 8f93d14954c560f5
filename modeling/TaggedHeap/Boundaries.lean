import TaggedHeap.Word
import TaggedHeap.Category

/-! The four numbers that split the tags below `last` into the ranges of the categories. `values`
and `compiledValues` are slots of their own; `lastNormal` and `last` are exclusive ends. -/
namespace TaggedHeap

structure Boundaries where
  values : Tag
  compiledValues : Tag
  lastNormal : Tag
  last : Tag
  deriving DecidableEq, Repr

namespace Boundaries

def isOrdered (b : Boundaries) : Bool :=
  b.values < b.compiledValues && b.compiledValues < b.lastNormal && b.lastNormal ≤ b.last

def ends (b : Boundaries) : Category → Tag × Tag
  | .compiledSyntaxForm => (0, b.values)
  | .registeredValueOrSlot => (b.values, b.compiledValues)
  | .runtimeKind => (b.compiledValues, b.lastNormal)
  | .internalOnly => (b.lastNormal, b.last)

end Boundaries

end TaggedHeap
