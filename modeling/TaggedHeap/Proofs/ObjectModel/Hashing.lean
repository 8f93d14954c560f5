import TaggedHeap.Proofs.ObjectModel.Answers
import TaggedHeap.Proofs.Space.Capacity
import TaggedHeap.Proofs.StableHash

/-! The hash of a value starts with its tag, a window of four bytes, so that two kinds whose hash
functions feed the same bytes still hash apart. -/
namespace TaggedHeap

theorem littleEndianInjective {width a b : Nat} (small : a < 256 ^ width) (small' : b < 256 ^ width)
    (same : littleEndian width a = littleEndian width b) : a = b := by
  induction width generalizing a b with
  | zero => rw [Nat.lt_one_iff.mp small, Nat.lt_one_iff.mp small']
  | succ width ih =>
    obtain ⟨lowest, rest⟩ := List.cons.inj same
    rw [Nat.pow_succ] at small small'
    have quotients : a / 256 = b / 256 :=
      ih (Nat.div_lt_of_lt_mul (Nat.mul_comm _ _ ▸ small))
        (Nat.div_lt_of_lt_mul (Nat.mul_comm _ _ ▸ small')) rest
    have remainders : a % 256 = b % 256 := by simpa using congrArg UInt8.toNat lowest
    omega

theorem tagBytesInjective {t u : Tag} (same : t.bytes = u.bytes) : t = u :=
  UInt32.toNat_inj.mp (littleEndianInjective t.toNat_lt u.toNat_lt same)

namespace ObjectModel

variable {α ω : Type} {m : ObjectModel α ω} {o : HeapObject α} {bytes : List UInt8}

def Feeds (m : ObjectModel α ω) (o : HeapObject α) (bytes : List UInt8) : Prop :=
  ∃ e equality, m.lookup o.tag = .ok e ∧ e.equality = some equality ∧ equality.digest o = bytes

theorem valueFeeds (whole : m.Whole) (value : m.IsValue o) : ∃ bytes, m.Feeds o bytes := by
  have classified : (⟨m.space.boundaries⟩ : Classifier).classify o.tag = .ok .runtimeKind := by
    rw [← whole.classifier]
    exact value
  obtain ⟨slot, here, category⟩ := TagSpace.runtimeSlot whole.reachable classified
  obtain ⟨e, found, required⟩ := slotEntry whole here
  have has : e.has .equality = true := required .equality (by rw [category]; decide)
  obtain ⟨equality, registered⟩ := Option.isSome_iff_exists.mp has
  exact ⟨_, e, equality, found, registered, rfl⟩

theorem feedsHash (value : m.IsValue o) (feeds : m.Feeds o bytes) :
    m.hash o = .ok (StableHash.fresh.absorb (o.tag.bytes ++ bytes)).finish := by
  obtain ⟨e, equality, found, registered, rfl⟩ := feeds
  have observed : m.observe .hash o = .ok e := observedIff.mpr ⟨value, found⟩
  rw [StableHash.absorbAppend, hash, hashing, Queried.foundThen observed,
    Queried.foundThen (demanded registered)]
  rfl

theorem tagsHashApart (bytes : List UInt8) {t u : Tag} (other : t ≠ u) :
    (StableHash.fresh.absorb (t.bytes ++ bytes)).finish ≠
      (StableHash.fresh.absorb (u.bytes ++ bytes)).finish := by
  have four : ∀ tag : Tag, tag.bytes.length = 4 := fun tag => littleEndianLength 4 tag.toNat
  exact StableHash.windowsDiffer StableHash.fresh ((four t).trans (four u).symm) (Nat.le_of_eq (four t))
    (fun same => other (tagBytesInjective same)) bytes

end ObjectModel

/-- Two windows of at most four bytes lead the hasher apart for good, from any state, whatever follows
and however it is all split into writes. So values whose hash functions feed the same bytes hash alike
just when they are of one kind. -/
theorem windowsSeparate {α ω : Type} {m : ObjectModel α ω} (finished : m.Finished) :
    (∀ (h : StableHash) (w w' rest : List UInt8) (writes writes' : List (List UInt8)),
      w.length = w'.length → w.length ≤ 4 → w ≠ w' →
      writes.flatten = w ++ rest → writes'.flatten = w' ++ rest →
      (h.absorbEach writes).finish ≠ (h.absorbEach writes').finish) ∧
    (∀ o, m.IsValue o → ∃ bytes, m.Feeds o bytes) ∧
    ∀ a b bytes, m.IsValue a → m.IsValue b → m.Feeds a bytes → m.Feeds b bytes →
      ∃ x y, m.hash a = .ok x ∧ m.hash b = .ok y ∧ (x = y ↔ a.tag = b.tag) := by
  refine ⟨fun h w w' rest writes writes' lengths short other first second => ?_,
    fun o => ObjectModel.valueFeeds (ObjectModel.finishedWhole finished),
    fun a b bytes valueA valueB feedsA feedsB => ?_⟩
  · rw [StableHash.absorbEachFlatten, StableHash.absorbEachFlatten, first, second]
    exact StableHash.windowsDiffer h lengths short other rest
  · refine ⟨_, _, ObjectModel.feedsHash valueA feedsA, ObjectModel.feedsHash valueB feedsB, ?_⟩
    constructor
    · intro same
      exact Decidable.byContradiction fun other => ObjectModel.tagsHashApart bytes other same
    · intro tags
      rw [tags]

theorem miniatureHashes :
    (∃ x y, miniatureModel.hash ⟨9, ⟨4⟩, 4, ()⟩ = .ok x ∧ miniatureModel.hash ⟨9, ⟨5⟩, 5, ()⟩ = .ok y ∧
      x ≠ y) ∧
    (StableHash.fresh.absorbEach [[1, 2], [3]]).finish ≠
      (StableHash.fresh.absorbEach [[1], [7, 3]]).finish := by
  obtain ⟨windows, _, hashes⟩ := windowsSeparate miniatureModelFinished
  have stored : ∀ t : Tag, t = 4 ∨ t = 5 →
      miniatureModel.dispatch.entries[t.toNat]?.bind Entry.equality = some Equality.identity := by
    intro t here
    rcases here with rfl | rfl <;> with_unfolding_all rfl
  have feeds : ∀ t : Tag, t = 4 ∨ t = 5 →
      miniatureModel.Feeds ⟨9, ⟨t⟩, t, ()⟩ (Word.bytes 9) := by
    intro t here
    obtain ⟨e, found, registered⟩ := Option.bind_eq_some_iff.mp (stored t here)
    exact ⟨e, _, DispatchTable.lookupIff.mpr found, registered, rfl⟩
  obtain ⟨x, y, hashA, hashB, differ⟩ := hashes ⟨9, ⟨4⟩, 4, ()⟩ ⟨9, ⟨5⟩, 5, ()⟩ _ rfl rfl
    (feeds 4 (.inl rfl)) (feeds 5 (.inr rfl))
  refine ⟨⟨x, y, hashA, hashB, fun same => ?_⟩, ?_⟩
  · exact absurd (differ.mp same) (by decide)
  · exact windows StableHash.fresh [1, 2] [1, 7] [3] _ _ rfl (by decide) (by decide) rfl rfl

end TaggedHeap
