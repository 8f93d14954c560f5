import TaggedHeap.WordHeap.Basic

/-! Walking a heap from object to object: each step looks up the layout of the word it stands on and
advances by the size that the layout finds in the rest of the heap. The starts of a walk include the
one that stopped it. -/
namespace TaggedHeap

structure Walk where
  starts : List Nat
  stop : Option HeapFault
  deriving DecidableEq, Repr

namespace WordHeap

variable {α ω : Type}

def sizeAt (r : Reading) (m : ObjectModel α ω) (start : Nat) (tagWord : Word) (rest : List Word) :
    Except HeapFault Word :=
  match layoutAt r m start tagWord with
  | .error fault => .error fault
  | .ok layout =>
    match layout.objectSize (tagWord :: rest) with
    | none => .error (.truncated start)
    | some size => if size = 0 then .error (.stalled start) else .ok size

theorem sizeAtPositive {r : Reading} {m : ObjectModel α ω} {start tagWord rest size}
    (h : sizeAt r m start tagWord rest = .ok size) : 0 < size.toNat := by
  unfold sizeAt at h
  split at h <;> try contradiction
  split at h <;> try contradiction
  split at h <;> try contradiction
  rename_i nonzero
  cases h
  exact Nat.pos_of_ne_zero fun zero => nonzero (UInt64.toNat_inj.mp zero)

def walkFrom (r : Reading) (m : ObjectModel α ω) (start : Nat) : List Word → Walk
  | [] => ⟨[], none⟩
  | tagWord :: rest =>
    match h : sizeAt r m start tagWord rest with
    | .error fault => ⟨[start], some fault⟩
    | .ok size =>
      have := sizeAtPositive h
      let later := walkFrom r m (start + size.toNat) ((tagWord :: rest).drop size.toNat)
      ⟨start :: later.starts, later.stop⟩
termination_by image => image.length
decreasing_by simp only [List.length_drop, List.length_cons]; omega

def walk (r : Reading) (m : ObjectModel α ω) (h : WordHeap) : Walk := walkFrom r m 0 h.words

end WordHeap

end TaggedHeap
