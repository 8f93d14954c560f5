import TaggedHeap.ObjectModel.Basic

/-! The one model that a process shares. It is installed once and stays. -/
namespace TaggedHeap

structure Host (α ω : Type) where
  model? : Option (ObjectModel α ω)

namespace Host

variable {α ω : Type}

def empty : Host α ω := ⟨none⟩

def install (h : Host α ω) (m : ObjectModel α ω) : Except Fault (ObjectModel α ω) × Host α ω :=
  match h.model? with
  | some _ => (.error .alreadyInstalled, h)
  | none => (.ok m, ⟨some m⟩)

end Host

end TaggedHeap
