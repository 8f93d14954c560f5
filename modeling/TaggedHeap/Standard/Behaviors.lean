import TaggedHeap.Dispatch.Subsystem
import TaggedHeap.Standard.Layouts

/-! The two subsystems that complete any space: layouts for every kind, and for runtime kinds the
printing of their name with identity as their equality. -/
namespace TaggedHeap.Standard

variable {α ω : Type}

def layouts : Subsystem α ω :=
  Subsystem.strict "standard-layouts" fun s => s.kinds.map fun k => .scan k.name (layoutOf k.name)

def behaviorsOf (k : KindInfo) : List (Registration α ω) :=
  [.describe k.name Printer.kindName, .equality k.name Equality.identity]

def opaqueBehaviors (skipped : List String) : Subsystem α ω :=
  Subsystem.strict "opaque-behaviors" fun s =>
    (s.kinds.filter fun k => k.category == .runtimeKind && !skipped.contains k.name).flatMap
      behaviorsOf

end TaggedHeap.Standard
