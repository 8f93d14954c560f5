import TaggedHeap.TagSpace.Range

/-! The ranges of neighbouring standard kinds that a runtime asks for by one comparison. -/
namespace TaggedHeap.Standard

structure Ranges where
  procedure : KindRange
  procedureOrStruct : KindRange
  number : KindRange
  deriving DecidableEq, Repr

def Ranges.resolve (s : TagSpace) : Except Fault Ranges := do
  let procedure ← s.range "prim" "native-closure"
  let procedureOrStruct ← s.range "prim" "structure"
  let number ← s.range "integer" "complex"
  return ⟨procedure, procedureOrStruct, number⟩

end TaggedHeap.Standard
