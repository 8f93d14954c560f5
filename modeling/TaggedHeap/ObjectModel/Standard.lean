import TaggedHeap.ObjectModel.Basic
import TaggedHeap.Settings
import TaggedHeap.Standard.Behaviors
import TaggedHeap.Standard.Kinds

/-! Object models over the standard space. Subsystems of one's own go in before the standard ones, and
have the runtime kinds in `structural` to print and compare. -/
namespace TaggedHeap.ObjectModel

variable {α ω : Type}

def standardWith (settings : Settings) (extras : List (Subsystem α ω)) (structural : List String) :
    Except Fault (ObjectModel α ω) := do
  let space ← Standard.space settings.internalTier
  let table ← DispatchTable.build space
    (extras ++ [Standard.layouts, Standard.opaqueBehaviors structural])
  ofTable table

def standard (settings : Settings) : Except Fault (ObjectModel α ω) := standardWith settings [] []

end TaggedHeap.ObjectModel
