import TaggedHeap.TagSpace.Basic

/-! Headers and objects. A header is stamped once, from a frozen space, and only for a declared kind.
An object answers a tag when asked; in a damaged heap that need not be the tag of its header, and
every operation goes by the answer. Two objects are the same one when their addresses agree. -/
namespace TaggedHeap

structure Header where
  tag : Tag
  deriving DecidableEq, Repr

def Header.stamp (s : TagSpace) (t : Tag) : Except Fault Header := do
  s.requireFrozen .objectHeader
  unless s.isValid t do throw (.tagOutside t s.last)
  match s.markerAt t with
  | some marker => throw (.tagReserved t marker)
  | none => return ⟨t⟩

structure HeapObject (α : Type) where
  address : Word
  header : Header
  tag : Tag
  payload : α
  deriving DecidableEq, Repr

end TaggedHeap
