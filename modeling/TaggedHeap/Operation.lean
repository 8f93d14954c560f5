import TaggedHeap.Word
import TaggedHeap.Category

/-! The operations that a kind can have, those that its category demands, and gaps: kinds with
demanded operations missing. -/
namespace TaggedHeap

inductive Operation where
  | describe
  | equality
  | scan
  | finalizer
  deriving DecidableEq, Repr

def Operation.all : List Operation := [.describe, .equality, .scan, .finalizer]

def Operation.name : Operation → String
  | .describe => "describe"
  | .equality => "equals_and_hash"
  | .scan => "scan"
  | .finalizer => "finalizer"

def Category.requiredOperations : Category → List Operation
  | .runtimeKind => [.describe, .equality, .scan]
  | .compiledSyntaxForm | .registeredValueOrSlot | .internalOnly => [.scan]

structure Gap where
  tag : Tag
  name : String
  category : Category
  missing : List Operation
  deriving DecidableEq, Repr

def Gap.message (g : Gap) : String :=
  "tag " ++ toString g.tag ++ " (" ++ g.name ++ ", " ++ g.category.name ++ "): missing " ++
    ", ".intercalate (g.missing.map Operation.name)

end TaggedHeap
