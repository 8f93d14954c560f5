import TaggedHeap.WordHeap.Basic

/-! Marking: everything that can be reached from the roots by pointer fields. The work is a stack of
words, and the last root and the last pointer of an object are on top. An object is marked once, and
the object that ends the marking with a fault is marked, too. -/
namespace TaggedHeap

structure Marking where
  order : List Nat
  stop : Option HeapFault
  deriving DecidableEq, Repr

namespace WordHeap

variable {α ω : Type}

def pointersAt (r : Reading) (m : ObjectModel α ω) (h : WordHeap) (start : Nat) :
    Except HeapFault (List Word) :=
  match h.imageAt start with
  | [] => .error (.beyond start)
  | tagWord :: rest =>
    match layoutAt r m start tagWord with
    | .error fault => .error fault
    | .ok layout =>
      match layout.trace (tagWord :: rest) with
      | ⟨none, _⟩ => .error (.truncated start)
      | ⟨some _, visited⟩ =>
        match visited.mapM fun offset => (tagWord :: rest)[offset.toNat]? with
        | none => .error (.outside start)
        | some pointers => .ok pointers

theorem pointersInside {r : Reading} {m : ObjectModel α ω} {h : WordHeap} {start pointers}
    (read : pointersAt r m h start = .ok pointers) : start < h.size := by
  refine Nat.lt_of_not_le fun beyond => ?_
  have here : h.imageAt start = [] := List.drop_eq_nil_of_le beyond
  simp [pointersAt, here] at read

def unmarked (n : Nat) (marked : List Nat) : Nat := (List.range n).countP (· ∉ marked)

theorem countLess {p q : Nat → Bool} {xs : List Nat} {x : Nat} (keep : ∀ y, q y → p y)
    (member : x ∈ xs) (here : p x) (gone : q x = false) : xs.countP q < xs.countP p := by
  induction xs with
  | nil => cases member
  | cons y ys ih =>
    have weak : ys.countP q ≤ ys.countP p := List.countP_mono_left fun z _ => keep z
    simp only [List.countP_cons]
    rcases List.mem_cons.mp member with rfl | later
    · rw [if_pos here, if_neg (by simp [gone])]
      omega
    · have less := ih later
      by_cases kept : q y
      · rw [if_pos kept, if_pos (keep y kept)]
        omega
      · rw [if_neg kept]
        exact Nat.lt_of_lt_of_le less (Nat.le_add_right _ _)

theorem unmarkedLess {n start : Nat} {marked : List Nat} (inside : start < n)
    (fresh : start ∉ marked) : unmarked n (marked ++ [start]) < unmarked n marked := by
  apply countLess (x := start)
  · intro y; simp; intro a _; exact a
  · exact List.mem_range.mpr inside
  · simpa using fresh
  · simp

def markFrom (r : Reading) (m : ObjectModel α ω) (h : WordHeap) (marked : List Nat) :
    List Word → Marking
  | [] => ⟨marked, none⟩
  | top :: stack =>
    if _ : nowhere r h top ∨ top.toNat ∈ marked then markFrom r m h marked stack
    else
      match _ : pointersAt r m h top.toNat with
      | .error fault => ⟨marked ++ [top.toNat], some fault⟩
      | .ok pointers => markFrom r m h (marked ++ [top.toNat]) (pointers.reverse ++ stack)
termination_by stack => (unmarked h.size marked, stack.length)
decreasing_by
  · exact Prod.Lex.right _ (by simp)
  · have fresh := (not_or.mp ‹¬ (nowhere r h top ∨ top.toNat ∈ marked)›).2
    exact Prod.Lex.left _ _ (unmarkedLess (pointersInside ‹_›) fresh)

def mark (r : Reading) (m : ObjectModel α ω) (h : WordHeap) (roots : List Word) : Marking :=
  markFrom r m h [] roots.reverse

end WordHeap

def Marking.ascending (k : Marking) : List Nat := k.order.mergeSort (· ≤ ·)

end TaggedHeap
