import TaggedHeap.TagSpace.Basic

/-! Where slots may stand and how names lead to them. Kinds of one category share a range, and a
boundary fills the first slot of the range that it opens. A draft and a space are arranged in the
same way; in a draft the boundaries that have not come yet count as standing at its end. A space may
hold a slot for each tag, but is partitioned only while it holds fewer: with all of them the tag after
the last slot is lost. -/
namespace TaggedHeap

def Slot.FitsAt (v w n i : Nat) : Slot → Prop
  | .kind _ .compiledSyntaxForm => i < v
  | .kind _ .registeredValueOrSlot => v < i ∧ i < w
  | .kind _ .runtimeKind => w < i ∧ i < n
  | .kind _ .internalOnly => n ≤ i
  | .reserved .values => i = v
  | .reserved .compiledValues => i = w

def Arranged (slots : Array Slot) (v w n : Nat) : Prop :=
  ∀ (i : Nat) (slot : Slot), slots[i]? = some slot → slot.FitsAt v w n i

def EdgeMoves (size old new : Nat) : Prop := new = old ∨ size ≤ old ∧ size ≤ new

theorem edgeStays (size edge : Nat) : EdgeMoves size edge edge := .inl rfl

theorem endMoves (slots : Array Slot) (slot : Slot) :
    EdgeMoves slots.size slots.size (slots.push slot).size :=
  .inr ⟨Nat.le_refl _, by simp⟩

theorem pushBounded {slots : Array Slot} (room : slots.size < UInt32.size) (slot : Slot) :
    (slots.push slot).size ≤ UInt32.size := by
  rw [Array.size_push]
  exact room

theorem fitsMoved {size v w n v' w' n' i} {slot : Slot} (fits : slot.FitsAt v w n i)
    (inside : i < size) (values : EdgeMoves size v v') (compiled : EdgeMoves size w w')
    (normal : EdgeMoves size n n') : slot.FitsAt v' w' n' i := by
  unfold EdgeMoves at values compiled normal
  rcases slot with ⟨name, _ | _ | _ | _⟩ | ⟨_ | _⟩ <;> simp only [Slot.FitsAt] at fits ⊢ <;> omega

theorem arrangedEmpty (v w n : Nat) : Arranged #[] v w n := by
  intro i slot found
  simp at found

theorem arrangedPush {slots v w n v' w' n'} {slot : Slot} (arranged : Arranged slots v w n)
    (fits : slot.FitsAt v' w' n' slots.size) (values : EdgeMoves slots.size v v')
    (compiled : EdgeMoves slots.size w w') (normal : EdgeMoves slots.size n n') :
    Arranged (slots.push slot) v' w' n' := by
  intro i other found
  rw [Array.getElem?_push] at found
  split at found
  · rename_i new
    cases Option.some.inj found
    exact new ▸ fits
  · have inside := (Array.getElem?_eq_some_iff.mp found).1
    exact fitsMoved (arranged i other found) inside values compiled normal

def Indexed (slots : Array Slot) (names : NameIndex) : Prop :=
  ∀ (name : String) (t : Tag),
    names[name]? = some t ↔ ∃ category, slots[t.toNat]? = some (Slot.kind name category)

theorem indexedEmpty : Indexed #[] ∅ := by
  intro name t
  simp

theorem declared {names after : NameIndex} {name tag} (h : names.declare name tag = .ok after) :
    names[name]? = none ∧ after = names.insert name tag := by
  unfold NameIndex.declare at h
  split at h <;> try contradiction
  cases h
  exact ⟨by assumption, rfl⟩

theorem pushedBelow {slots : Array Slot} {slot i} (below : i ≠ slots.size) :
    (slots.push slot)[i]? = slots[i]? := by
  rw [Array.getElem?_push, if_neg below]

theorem noSlotAtEnd {slots : Array Slot} {i slot} (here : i = slots.size) :
    slots[i]? ≠ some slot := by
  simp [here]

theorem indexedReserve {slots names} (indexed : Indexed slots names) (marker : Boundary) :
    Indexed (slots.push (.reserved marker)) names := by
  intro name t
  rw [indexed]
  by_cases here : t.toNat = slots.size
  · simp [here]
  · rw [pushedBelow here]

theorem indexedDeclare {slots : Array Slot} {names after name tag category}
    (indexed : Indexed slots names) (position : tag.toNat = slots.size)
    (declares : names.declare name tag = .ok after) :
    Indexed (slots.push (.kind name category)) after := by
  obtain ⟨fresh, rfl⟩ := declared declares
  intro other t
  rw [Std.TreeMap.getElem?_insert]
  by_cases here : t.toNat = slots.size
  · have same : t = tag := UInt32.toNat_inj.mp (here.trans position.symm)
    have absent : names[other]? ≠ some t := fun found => by
      obtain ⟨_, held⟩ := (indexed other t).mp found
      exact noSlotAtEnd here held
    subst same
    by_cases eq : name = other
    · simp [here, eq]
    · simp [here, eq, absent]
  · rw [pushedBelow here, ← indexed]
    by_cases eq : name = other
    · subst eq
      have later : tag ≠ t := fun same => here (same ▸ position)
      simp [fresh, later]
    · simp [eq]

namespace TagSpace

structure Partitioned (s : TagSpace) : Prop where
  arranged : Arranged s.slots s.values.toNat s.compiledValues.toNat s.lastNormal.toNat
  inOrder : s.values.toNat < s.compiledValues.toNat
  opened : s.compiledValues.toNat < s.lastNormal.toNat
  inside : s.lastNormal.toNat ≤ s.slots.size
  tierless : s.internalTier = false → s.lastNormal.toNat = s.slots.size

structure Sound (s : TagSpace) : Prop where
  indexed : Indexed s.slots s.names
  bounded : s.slots.size ≤ UInt32.size
  partitioned : s.slots.size < UInt32.size → s.Partitioned

end TagSpace

end TaggedHeap
