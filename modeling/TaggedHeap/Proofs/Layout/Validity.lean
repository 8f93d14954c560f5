import TaggedHeap.Layout

/-! What a valid layout finds in an image. The length word of an array is data of the heap and may be
any word, so that the size and every visited offset stay inside the image rests on the checks of
the size alone; that they stay off the header and the length word rests on the layout's validity. -/
namespace TaggedHeap.Layout

def Proper : Layout → Prop
  | .atomic words => 0 < words
  | .fixed words pointers =>
    0 < words ∧ pointers.Pairwise (· < ·) ∧ ∀ p ∈ pointers, 0 < p ∧ p < words
  | .array lead lengthWord _ => 0 < lengthWord ∧ lengthWord < lead

theorem checkPointersIff {words last : Word} {offsets : List Word} :
    checkPointers words last offsets = .ok () ↔
      offsets.Pairwise (· < ·) ∧ ∀ p ∈ offsets, last < p ∧ p < words := by
  induction offsets generalizing last with
  | nil => simp [checkPointers]
  | cons offset rest ih =>
    simp only [checkPointers, Bool.or_eq_true, decide_eq_true_eq, List.pairwise_cons,
      List.forall_mem_cons]
    split
    · rename_i refused
      refine ⟨fun h => (by cases h), fun h => ?_⟩
      rcases refused with low | high
      · exact absurd h.2.1.1 (UInt64.not_lt.mpr low)
      · exact absurd h.2.1.2 (UInt64.not_lt.mpr high)
    · rename_i accepted
      obtain ⟨above, below⟩ := not_or.mp accepted
      rw [ih]
      constructor
      · intro facts
        obtain ⟨increasing, bounds⟩ := facts
        refine ⟨⟨fun p member => (bounds p member).1, increasing⟩,
          ⟨UInt64.not_le.mp above, UInt64.not_le.mp below⟩, fun p member => ?_⟩
        exact ⟨UInt64.lt_trans (UInt64.not_le.mp above) (bounds p member).1, (bounds p member).2⟩
      · intro facts
        obtain ⟨⟨first, increasing⟩, _, bounds⟩ := facts
        exact ⟨increasing, fun p member => ⟨first p member, (bounds p member).2⟩⟩

theorem validateIff {l : Layout} : l.validate = .ok () ↔ l.Proper := by
  cases l with
  | atomic words =>
    simp only [validate, Proper, UInt64.pos_iff_ne_zero]
    split <;> simp_all
  | fixed words pointers =>
    simp only [validate, Proper, UInt64.pos_iff_ne_zero]
    split
    · simp_all
    · rename_i header
      simp [checkPointersIff, header, UInt64.pos_iff_ne_zero]
  | array lead lengthWord traced =>
    simp only [validate, Proper, Bool.or_eq_true, decide_eq_true_eq, UInt64.pos_iff_ne_zero]
    split
    · rename_i refused
      simp only [reduceCtorEq, false_iff]
      intro facts
      obtain ⟨positive, inside⟩ := facts
      exact refused.elim positive (UInt64.not_le.mpr inside)
    · rename_i accepted
      obtain ⟨positive, inside⟩ := not_or.mp accepted
      simpa using ⟨positive, UInt64.not_le.mp inside⟩

theorem spanSmall {first stop : Word} {n : Nat}
    (member : n ∈ List.range' first.toNat (stop.toNat - first.toNat)) :
    (UInt64.ofNat n).toNat = n ∧ first.toNat ≤ n ∧ n < stop.toNat := by
  obtain ⟨low, high⟩ := List.mem_range'_1.mp member
  have below : n < stop.toNat := by omega
  exact ⟨UInt64.toNat_ofNat_of_lt' (Nat.lt_trans below stop.toNat_lt), low, below⟩

theorem spanMem {first stop p : Word} : p ∈ span first stop ↔ first ≤ p ∧ p < stop := by
  rw [span, List.mem_map, UInt64.le_iff_toNat_le, UInt64.lt_iff_toNat_lt]
  constructor
  · intro facts
    obtain ⟨n, member, rfl⟩ := facts
    obtain ⟨same, low, high⟩ := spanSmall member
    exact same.symm ▸ ⟨low, high⟩
  · intro facts
    obtain ⟨low, high⟩ := facts
    exact ⟨p.toNat, List.mem_range'_1.mpr ⟨low, by omega⟩, by simp⟩

theorem spanIncreasing (first stop : Word) : (span first stop).Pairwise (· < ·) := by
  rw [span, List.pairwise_map]
  refine List.Pairwise.imp_of_mem ?_ List.pairwise_lt_range'
  intro a b memA memB less
  rw [UInt64.lt_iff_toNat_lt, (spanSmall memA).1, (spanSmall memB).1]
  exact less

theorem sizedIff {l : Layout} {image : List Word} {size : Word} :
    l.objectSize image = some size ↔
      l.claimedSize image = some size ∧ size.toNat ≤ image.length := by
  simp [objectSize, Option.filter_eq_some_iff]

theorem arrayClaim {lead lengthWord size : Word} {traced : Bool} {image : List Word}
    (claimed : (array lead lengthWord traced).claimedSize image = some size) :
    ∃ length, image[lengthWord.toNat]? = some length ∧ size.toNat = lead.toNat + length.toNat := by
  obtain ⟨length, found, sum⟩ := Option.bind_eq_some_iff.mp claimed
  exact ⟨length, found, checkedAddExact sum⟩

theorem sizeAppend {l : Layout} {image later : List Word} {size : Word}
    (sized : l.objectSize image = some size) : l.objectSize (image ++ later) = some size := by
  obtain ⟨claimed, fits⟩ := sizedIff.mp sized
  refine sizedIff.mpr ⟨?_, by simp only [List.length_append]; omega⟩
  cases l with
  | atomic words => exact claimed
  | fixed words pointers => exact claimed
  | array lead lengthWord traced =>
    obtain ⟨length, found, sum⟩ := Option.bind_eq_some_iff.mp claimed
    have inside := (List.getElem?_eq_some_iff.mp found).1
    refine Option.bind_eq_some_iff.mpr ⟨length, ?_, sum⟩
    rw [List.getElem?_append_left inside]
    exact found

theorem claimPositive {l : Layout} {image : List Word} {size : Word} (proper : l.Proper)
    (claimed : l.claimedSize image = some size) : 0 < size := by
  cases l with
  | atomic words => exact Option.some.inj claimed ▸ proper
  | fixed words pointers => exact Option.some.inj claimed ▸ proper.1
  | array lead lengthWord traced =>
    obtain ⟨length, _, sum⟩ := arrayClaim claimed
    have inside := UInt64.lt_iff_toNat_lt.mp proper.2
    rw [UInt64.lt_iff_toNat_lt, UInt64.toNat_zero]
    omega

theorem fieldsIncreasing {l : Layout} (proper : l.Proper) (size : Word) :
    (l.pointerFields size).Pairwise (· < ·) := by
  cases l with
  | atomic words => exact .nil
  | fixed words pointers => exact proper.2.1
  | array lead lengthWord traced =>
    cases traced with
    | false => exact .nil
    | true => exact spanIncreasing lead size

theorem fieldsInside {l : Layout} {image : List Word} {size p : Word} (proper : l.Proper)
    (claimed : l.claimedSize image = some size) (member : p ∈ l.pointerFields size) :
    0 < p ∧ p < size := by
  cases l with
  | atomic words => cases member
  | fixed words pointers => exact Option.some.inj claimed ▸ proper.2.2 p member
  | array lead lengthWord traced =>
    cases traced with
    | false => cases member
    | true =>
      obtain ⟨low, high⟩ := spanMem.mp member
      have header := UInt64.lt_of_le_of_lt (UInt64.zero_le) proper.2
      exact ⟨UInt64.lt_of_lt_of_le header low, high⟩

theorem lengthUntraced {lead lengthWord size : Word} {traced : Bool}
    (proper : (array lead lengthWord traced).Proper) :
    lengthWord ∉ (array lead lengthWord traced).pointerFields size := by
  cases traced with
  | false => exact List.not_mem_nil
  | true => exact fun member => UInt64.not_lt.mpr (spanMem.mp member).1 proper.2

theorem atomicFields {l : Layout} (atomic : l.isAtomic = true) (size : Word) :
    l.pointerFields size = [] := by
  cases l with
  | atomic words => rfl
  | fixed words pointers => exact List.isEmpty_iff.mp atomic
  | array lead lengthWord traced =>
    cases traced with
    | false => rfl
    | true => cases atomic

theorem traceVisited {l : Layout} {image : List Word} {p : Word}
    (member : p ∈ (l.trace image).visited) :
    ∃ size, l.objectSize image = some size ∧ p ∈ l.pointerFields size := by
  unfold trace at member
  split at member
  · cases member
  · rename_i size sized
    exact ⟨size, sized, member⟩

structure TracesSafely (l : Layout) (image : List Word) : Prop where
  sizes : (l.trace image).size = l.objectSize image
  truncated : (l.trace image).size = none → (l.trace image).visited = []
  inImage : ∀ size, (l.trace image).size = some size → 1 ≤ size.toNat ∧ size.toNat ≤ image.length
  increasing : (l.trace image).visited.Pairwise (· < ·)
  inObject : ∀ size p, (l.trace image).size = some size → p ∈ (l.trace image).visited →
    1 ≤ p ∧ p < size
  offLength : ∀ lead lengthWord traced, l = .array lead lengthWord traced →
    lengthWord ∉ (l.trace image).visited
  unwrapped : ∀ lead lengthWord traced size, l = .array lead lengthWord traced →
    (l.trace image).size = some size → ∃ length, image[lengthWord.toNat]? = some length ∧
      size.toNat = lead.toNat + length.toNat
  atomic : l.isAtomic = true → (l.trace image).visited = []

theorem properTraces {l : Layout} (proper : l.Proper) (image : List Word) :
    l.TracesSafely image where
  sizes := traceSize l image
  truncated none := by
    rw [traceSize] at none
    simp [trace, none]
  inImage size found := by
    obtain ⟨claimed, fits⟩ := sizedIff.mp (traceSize l image ▸ found)
    exact ⟨UInt64.lt_iff_toNat_lt.mp (claimPositive proper claimed), fits⟩
  increasing := by
    unfold trace
    split
    · exact .nil
    · exact fieldsIncreasing proper _
  inObject size p found member := by
    obtain ⟨other, sized, field⟩ := traceVisited member
    rw [traceSize, sized] at found
    cases found
    obtain ⟨low, high⟩ := fieldsInside proper (sizedIff.mp sized).1 field
    exact ⟨UInt64.le_iff_toNat_le.mpr (UInt64.lt_iff_toNat_lt.mp low), high⟩
  offLength lead lengthWord traced same member := by
    obtain ⟨size, _, field⟩ := traceVisited member
    subst same
    exact lengthUntraced proper field
  unwrapped lead lengthWord traced size same found := by
    subst same
    rw [traceSize] at found
    exact arrayClaim (sizedIff.mp found).1
  atomic atomic := by
    refine List.eq_nil_iff_forall_not_mem.mpr fun p member => ?_
    obtain ⟨size, _, field⟩ := traceVisited member
    rw [atomicFields atomic] at field
    cases field

end TaggedHeap.Layout
