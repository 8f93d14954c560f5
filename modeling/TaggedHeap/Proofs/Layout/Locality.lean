import TaggedHeap.Proofs.Layout.Validity

/-! How far a layout looks into an image: no further than the object. The words after an object are
those of its neighbours, so nothing may hang on them; and a part of an object is no object, however
much of it is there. For arrays this takes a valid layout, whose length word is among the words that
it counts. -/
namespace TaggedHeap.Layout

variable {l : Layout} {image other short : List Word} {size : Word}

theorem sizeOwn (proper : l.Proper) (sized : l.objectSize image = some size) :
    l.objectSize (image.take size.toNat) = some size := by
  obtain ⟨claimed, fits⟩ := sizedIff.mp sized
  refine sizedIff.mpr ⟨?_, by simp [fits]⟩
  cases l with
  | atomic words => exact claimed
  | fixed words pointers => exact claimed
  | array lead lengthWord traced =>
    obtain ⟨length, found, sum⟩ := Option.bind_eq_some_iff.mp claimed
    have counted := checkedAddExact sum
    have inLead := UInt64.lt_iff_toNat_lt.mp proper.2
    refine Option.bind_eq_some_iff.mpr ⟨length, ?_, sum⟩
    rw [List.getElem?_take_of_lt (by omega)]
    exact found

theorem sizeAgrees (proper : l.Proper) (sized : l.objectSize image = some size)
    (agree : other.take size.toNat = image.take size.toNat) : l.objectSize other = some size := by
  have own := sizeOwn proper sized
  rw [← agree] at own
  rw [← List.take_append_drop size.toNat other]
  exact sizeAppend own

theorem sizePart (sized : l.objectSize image = some size) (part : short <+: image)
    (less : short.length < size.toNat) : l.objectSize short = none := by
  obtain ⟨later, rfl⟩ := part
  cases found : l.objectSize short with
  | none => rfl
  | some small =>
    -- The part would have the size of the whole and yet hold all of it.
    have fits := (sizedIff.mp found).2
    have whole := (sizeAppend found).symm.trans sized
    cases whole
    omega

theorem traceOf (sized : l.objectSize image = some size) :
    l.trace image = ⟨some size, l.pointerFields size⟩ := by
  rw [trace, sized]

theorem traceNone (short : l.objectSize image = none) : l.trace image = ⟨none, []⟩ := by
  rw [trace, short]

/-- An object is sized and traced by its own words, whatever follows them, and by no fewer. -/
theorem ownWordsDecide (valid : l.validate = .ok ()) (sized : l.objectSize image = some size) :
    (∀ other : List Word, other.take size.toNat = image.take size.toNat →
      l.objectSize other = some size ∧ l.trace other = l.trace image) ∧
    (∀ short, short <+: image → short.length < size.toNat → l.trace short = ⟨none, []⟩) ∧
    ∀ short, short <+: image →
      ((∃ found, l.objectSize short = some found) ↔ size.toNat ≤ short.length) := by
  have proper := validateIff.mp valid
  refine ⟨fun other agree => ?_, fun short part less => ?_, fun short part => ⟨?_, fun whole => ?_⟩⟩
  · have same := sizeAgrees proper sized agree
    exact ⟨same, (traceOf same).trans (traceOf sized).symm⟩
  · exact traceNone (sizePart sized part less)
  · rintro ⟨found, accepted⟩
    refine Nat.le_of_not_lt fun less => ?_
    rw [sizePart sized part less] at accepted
    cases accepted
  · refine ⟨size, sizeAgrees proper sized ?_⟩
    obtain ⟨later, rfl⟩ := part
    rw [List.take_append_of_le_length whole]

theorem vectorOwnWords : (array 2 1 true).objectSize [44, 2, 70, 71, 3] = some 4 ∧
    (array 2 1 true).trace [44, 2, 70, 71] = (array 2 1 true).trace [44, 2, 70, 71, 3] ∧
    (array 2 1 true).trace [44, 2, 70] = ⟨none, []⟩ ∧ (array 2 1 true).trace [44] = ⟨none, []⟩ := by
  have sized : (array 2 1 true).objectSize [44, 2, 70, 71, 3] = some 4 := by decide
  obtain ⟨alike, parts, _⟩ := ownWordsDecide rfl sized
  exact ⟨sized, (alike _ rfl).2, parts [44, 2, 70] ⟨[71, 3], rfl⟩ (by decide),
    parts [44] ⟨[2, 70, 71, 3], rfl⟩ (by decide)⟩

end TaggedHeap.Layout
