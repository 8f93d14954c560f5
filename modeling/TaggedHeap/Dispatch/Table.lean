import TaggedHeap.Dispatch.Subsystem

/-! The finished dispatch table: one entry for each tag of the space, and no gap. -/
namespace TaggedHeap

structure DispatchTable (α ω : Type) where
  space : TagSpace
  entries : Array (Entry α ω)

variable {α ω : Type}

def DispatchBuilder.finish (b : DispatchBuilder α ω) : Except Fault (DispatchTable α ω) :=
  match b.gaps with
  | [] => .ok ⟨b.space, b.entries⟩
  | gaps => .error (.incompleteDispatch gaps)

namespace DispatchTable

def build (s : TagSpace) (subsystems : List (Subsystem α ω)) :
    Except Fault (DispatchTable α ω) := do
  let empty ← DispatchBuilder.ofSpace s
  let filled ← empty.installAll subsystems
  filled.finish

def size (d : DispatchTable α ω) : Nat := d.entries.size

def isEmpty (d : DispatchTable α ω) : Bool := d.entries.isEmpty

def lookup (d : DispatchTable α ω) (t : Tag) : Except Fault (Entry α ω) :=
  match d.entries[t.toNat]? with
  | some e => .ok e
  | none => .error (.noEntry t d.entries.size)

end DispatchTable

end TaggedHeap
