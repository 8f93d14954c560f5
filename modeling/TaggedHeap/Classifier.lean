import TaggedHeap.TagSpace.Basic

/-! The category of a tag by comparison with the four boundaries alone. -/
namespace TaggedHeap

structure Classifier where
  bounds : Boundaries
  deriving DecidableEq, Repr

namespace Classifier

def ofSpace (s : TagSpace) : Except Fault Classifier := do
  s.requireFrozen .classifier
  return ⟨s.boundaries⟩

def isValid (c : Classifier) (t : Tag) : Bool := t < c.bounds.last

def classify (c : Classifier) (t : Tag) : Except Fault Category :=
  if t < c.bounds.values then .ok .compiledSyntaxForm
  else if t < c.bounds.compiledValues then .ok .registeredValueOrSlot
  else if t < c.bounds.lastNormal then .ok .runtimeKind
  else if t < c.bounds.last then .ok .internalOnly
  else .error (.unknownTag t c.bounds.last)

end Classifier

end TaggedHeap
