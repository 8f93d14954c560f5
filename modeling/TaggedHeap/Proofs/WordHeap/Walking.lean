import TaggedHeap.Proofs.ObjectModel.Finished
import TaggedHeap.WordHeap.Walk

/-! Walks over a heap of a finished model. A step trusts the words of the heap for the size of an
object, so two things have to be shown, and for either reading: on any words whatever a step gets on
and stays in the heap, and on a row of objects it ends where the next object starts, since the words
after an object have no say in its size. A header that no tag fits is a halt of the strict reading. -/
namespace TaggedHeap

namespace WordHeap

variable {α ω : Type}

-- One step, with no look at whether it gets anywhere.
inductive Advances (r : Reading) (m : ObjectModel α ω) (h : WordHeap) (start : Nat) : Nat → Prop where
  | across {tagWord rest t layout size} (here : h.imageAt start = tagWord :: rest)
      (tagged : tagOfWord r tagWord = some t) (known : m.layoutOf t = .ok layout)
      (sized : layout.objectSize (tagWord :: rest) = some size) :
      Advances r m h start (start + size.toNat)

inductive Halts (r : Reading) (m : ObjectModel α ω) (h : WordHeap) (start : Nat) :
    HeapFault → Prop where
  | untagged {tagWord rest} (here : h.imageAt start = tagWord :: rest)
      (untagged : tagOfWord r tagWord = none) : Halts r m h start (.untagged start)
  | unknown {tagWord rest t fault} (here : h.imageAt start = tagWord :: rest)
      (tagged : tagOfWord r tagWord = some t) (unknown : m.layoutOf t = .error fault) :
      Halts r m h start (.faulted fault)
  | truncated {tagWord rest t layout} (here : h.imageAt start = tagWord :: rest)
      (tagged : tagOfWord r tagWord = some t) (known : m.layoutOf t = .ok layout)
      (short : layout.objectSize (tagWord :: rest) = none) : Halts r m h start (.truncated start)

inductive Path (r : Reading) (m : ObjectModel α ω) (h : WordHeap) : Nat → Walk → Prop where
  | arrived : Path r m h h.size ⟨[], none⟩
  | halted {start fault} (halts : Halts r m h start fault) :
      Path r m h start ⟨[start], some fault⟩
  | onward {start next later} (advances : Advances r m h start next) (path : Path r m h next later) :
      Path r m h start ⟨start :: later.starts, later.stop⟩

variable {r : Reading} {m : ObjectModel α ω} {h : WordHeap} {start next : Nat} {tagWord size : Word}
  {rest : List Word} {layout : Layout} {fault : HeapFault}

theorem untaggedIff {w : Word} :
    tagOfWord r w = none ↔ r = .strict ∧ UInt32.size ≤ w.toNat := by
  cases r <;> simp [tagOfWord]

theorem layoutAtOk : layoutAt r m start tagWord = .ok layout ↔
    ∃ t, tagOfWord r tagWord = some t ∧ m.layoutOf t = .ok layout := by
  unfold layoutAt
  cases tagOfWord r tagWord <;> simp [mapErrorOk]

theorem layoutAtFault (here : h.imageAt start = tagWord :: rest)
    (failed : layoutAt r m start tagWord = .error fault) : Halts r m h start fault := by
  unfold layoutAt at failed
  split at failed
  · rename_i untagged
    cases failed
    exact .untagged here untagged
  · rename_i t tagged
    obtain ⟨inner, unknown, rfl⟩ := mapErrorFault.mp failed
    exact .unknown here tagged unknown

theorem insideOf (here : h.imageAt start = tagWord :: rest) :
    start < h.size ∧ (tagWord :: rest).length = h.size - start := by
  have length := congrArg List.length here
  simp only [imageAt, List.length_drop, List.length_cons] at length ⊢
  simp only [WordHeap.size]
  omega

theorem advanceInside (finished : m.Finished) (advances : Advances r m h start next) :
    start < next ∧ next ≤ h.size := by
  cases advances with
  | @across tagWord rest t layout size here tagged known sized =>
    obtain ⟨claimed, fits⟩ := Layout.sizedIff.mp sized
    have positive := UInt64.lt_iff_toNat_lt.mp
      (Layout.claimPositive (ObjectModel.layoutProper finished known) claimed)
    obtain ⟨inside, length⟩ := insideOf here
    rw [UInt64.toNat_zero] at positive
    omega

theorem haltInside (halts : Halts r m h start fault) : start < h.size := by
  cases halts with
  | untagged here | unknown here | truncated here => exact (insideOf here).1

theorem advanceOrHalt (r : Reading) (m : ObjectModel α ω) (inside : start < h.size) :
    (∃ next, Advances r m h start next) ∨ ∃ fault, Halts r m h start fault := by
  cases here : h.imageAt start with
  | nil =>
    have empty := List.drop_eq_nil_iff.mp here
    exact absurd inside (Nat.not_lt.mpr empty)
  | cons tagWord rest =>
    cases located : layoutAt r m start tagWord with
    | error fault => exact .inr ⟨_, layoutAtFault here located⟩
    | ok layout =>
      obtain ⟨t, tagged, known⟩ := layoutAtOk.mp located
      cases sized : layout.objectSize (tagWord :: rest) with
      | none => exact .inr ⟨_, .truncated here tagged known sized⟩
      | some size => exact .inl ⟨_, .across here tagged known sized⟩

theorem haltsUntagged (here : h.imageAt start = tagWord :: rest) :
    Halts r m h start (.untagged start) ↔ r = .strict ∧ UInt32.size ≤ tagWord.toNat := by
  rw [← untaggedIff]
  constructor
  · intro halts
    cases halts with
    | untagged here' untagged =>
      cases here.symm.trans here'
      exact untagged
  · exact .untagged here

theorem pathInside (finished : m.Finished) {w : Walk} (path : Path r m h start w) :
    w.starts.Pairwise (· < ·) ∧ ∀ other ∈ w.starts, start ≤ other ∧ other < h.size := by
  induction path with
  | arrived => simp
  | halted halts => simpa using haltInside halts
  | @onward start next later advances path ih =>
    obtain ⟨increasing, bounds⟩ := ih
    obtain ⟨less, most⟩ := advanceInside finished advances
    have first : start < h.size := Nat.lt_of_lt_of_le less most
    refine ⟨List.pairwise_cons.mpr ⟨fun other member => ?_, increasing⟩, ?_⟩
    · exact Nat.lt_of_lt_of_le less (bounds other member).1
    · intro other member
      rcases List.mem_cons.mp member with rfl | later
      · exact ⟨Nat.le_refl _, first⟩
      · have := bounds other later
        omega

theorem sizeAtIff : sizeAt r m start tagWord rest = .ok size ↔
    ∃ layout, layoutAt r m start tagWord = .ok layout ∧
      layout.objectSize (tagWord :: rest) = some size ∧ size ≠ 0 := by
  unfold sizeAt
  split
  · rename_i failed
    simp [failed]
  · rename_i layout located
    split
    · rename_i short
      simp [located, short]
    · rename_i found sized
      simp only [located, Except.ok.injEq, exists_eq_left', sized, Option.some.injEq]
      split
      · rename_i zero
        simp [zero, eq_comm]
      · rename_i nonzero
        rw [Except.ok.injEq]
        exact ⟨fun same => ⟨same, same ▸ nonzero⟩, And.left⟩

theorem sizeAtFault (finished : m.Finished) (here : h.imageAt start = tagWord :: rest)
    (failed : sizeAt r m start tagWord rest = .error fault) : Halts r m h start fault := by
  unfold sizeAt at failed
  split at failed
  · rename_i unlocated
    cases failed
    exact layoutAtFault here unlocated
  · rename_i layout located
    obtain ⟨t, tagged, known⟩ := layoutAtOk.mp located
    split at failed
    · rename_i short
      cases failed
      exact .truncated here tagged known short
    · rename_i size sized
      have claimed := (Layout.sizedIff.mp sized).1
      have positive := Layout.claimPositive (ObjectModel.layoutProper finished known) claimed
      split at failed <;> cases failed
      rename_i zero
      exact absurd zero (UInt64.pos_iff_ne_zero.mp positive)

theorem walkFromNil : walkFrom r m start [] = ⟨[], none⟩ := by
  rw [walkFrom]

theorem walkFromFault (failed : sizeAt r m start tagWord rest = .error fault) :
    walkFrom r m start (tagWord :: rest) = ⟨[start], some fault⟩ := by
  rw [walkFrom]
  split <;> simp_all

theorem walkFromStep (sized : sizeAt r m start tagWord rest = .ok size) :
    walkFrom r m start (tagWord :: rest) =
      ⟨start :: (walkFrom r m (start + size.toNat) ((tagWord :: rest).drop size.toNat)).starts,
        (walkFrom r m (start + size.toNat) ((tagWord :: rest).drop size.toNat)).stop⟩ := by
  rw [walkFrom]
  split <;> simp_all

theorem walkPath (r : Reading) (finished : m.Finished) (h : WordHeap) (start : Nat)
    (inside : start ≤ h.size) : Path r m h start (walkFrom r m start (h.imageAt start)) := by
  -- On the words that are left, since a step passes over as many of them as it likes.
  generalize left : h.size - start = n
  induction n using Nat.strongRecOn generalizing start with
  | ind n ih =>
    cases here : h.imageAt start with
    | nil =>
      have atEnd : h.size ≤ start := List.drop_eq_nil_iff.mp here
      obtain rfl := Nat.le_antisymm inside atEnd
      rw [walkFromNil]
      exact .arrived
    | cons tagWord rest =>
      cases outcome : sizeAt r m start tagWord rest with
      | error fault =>
        rw [walkFromFault outcome]
        exact .halted (sizeAtFault finished here outcome)
      | ok size =>
        obtain ⟨layout, located, sized, _⟩ := sizeAtIff.mp outcome
        obtain ⟨t, tagged, known⟩ := layoutAtOk.mp located
        have advances : Advances r m h start (start + size.toNat) := .across here tagged known sized
        obtain ⟨less, most⟩ := advanceInside finished advances
        have later := ih (h.size - (start + size.toNat)) (by omega) _ most rfl
        have same : (tagWord :: rest).drop size.toNat = h.imageAt (start + size.toNat) := by
          rw [← here, imageAt, imageAt, List.drop_drop]
        rw [walkFromStep outcome, same]
        exact .onward advances later

def IsObject (m : ObjectModel α ω) (image : List Word) : Prop :=
  ∃ t rest, image = wordOfTag t :: rest ∧ t < m.space.last ∧
    ∀ layout, m.layoutOf t = .ok layout →
      (layout.objectSize image).map UInt64.toNat = some image.length

theorem objectOf {t : Tag} {layout : Layout} (below : t < m.space.last)
    (known : m.layoutOf t = .ok layout)
    (sized : (layout.objectSize (wordOfTag t :: rest)).map UInt64.toNat =
      some (wordOfTag t :: rest).length) : IsObject m (wordOfTag t :: rest) := by
  refine ⟨t, rest, rfl, below, fun other found => ?_⟩
  cases known.symm.trans found
  exact sized

def startsFrom (start : Nat) : List (List Word) → List Nat
  | [] => []
  | image :: later => start :: startsFrom (start + image.length) later

theorem objectSized (r : Reading) (finished : m.Finished) {t : Tag}
    (object : IsObject m (wordOfTag t :: rest)) (later : List Word) :
    ∃ size, sizeAt r m start (wordOfTag t) (rest ++ later) = .ok size ∧
      size.toNat = (wordOfTag t :: rest).length := by
  obtain ⟨other, _, same, below, exact⟩ := object
  cases (List.cons.inj same).2
  obtain rfl := wordOfTagInjective (List.cons.inj same).1
  obtain ⟨layout, known⟩ := ObjectModel.layoutKnown finished below
  obtain ⟨size, sized, length⟩ := Option.map_eq_some_iff.mp (exact layout known)
  have nonzero : size ≠ 0 := by
    rintro rfl
    simp at length
  have whole : layout.objectSize (wordOfTag t :: (rest ++ later)) = some size :=
    Layout.sizeAppend sized
  have located : layoutAt r m start (wordOfTag t) = .ok layout :=
    layoutAtOk.mpr ⟨t, tagOfWordOfTag r t, known⟩
  exact ⟨size, sizeAtIff.mpr ⟨layout, located, whole, nonzero⟩, length⟩

theorem walkObjects (r : Reading) (finished : m.Finished) {images : List (List Word)}
    (objects : ∀ image ∈ images, IsObject m image) (start : Nat) :
    walkFrom r m start images.flatten = ⟨startsFrom start images, none⟩ := by
  induction images generalizing start with
  | nil => exact walkFromNil
  | cons image later ih =>
    have object := objects image List.mem_cons_self
    have rest := ih fun other member => objects other (List.mem_cons_of_mem _ member)
    obtain ⟨t, tail, rfl, _⟩ := id object
    obtain ⟨size, sized, length⟩ := objectSized r finished object later.flatten
    have behind : (wordOfTag t :: (tail ++ later.flatten)).drop size.toNat = later.flatten := by
      rw [length, ← List.cons_append, List.drop_left]
    rw [List.flatten_cons, List.cons_append, walkFromStep sized, behind, length, rest]
    rfl

end WordHeap

/-- On a row of objects a walk meets just their starts and arrives at the end. On any words each step
gets on or halts, so that a walk gets to the end or to where it halts: there is no third way. A strict
walk halts, too, where the header is too large for a tag. -/
theorem finishedHeapWalks {α ω : Type} {m : ObjectModel α ω} (finished : m.Finished)
    (r : WordHeap.Reading) :
    (∀ t, t < m.space.last → ∃ layout, m.layoutOf t = .ok layout) ∧
    (∀ images : List (List Word), (∀ image ∈ images, WordHeap.IsObject m image) →
      WordHeap.walk r m ⟨images.flatten⟩ = ⟨WordHeap.startsFrom 0 images, none⟩) ∧
    ∀ h : WordHeap,
      (∀ start, start < h.size →
        (∃ next, WordHeap.Advances r m h start next) ∨ ∃ fault, WordHeap.Halts r m h start fault) ∧
      (∀ start next, WordHeap.Advances r m h start next → start < next ∧ next ≤ h.size) ∧
      (∀ start tagWord rest, h.imageAt start = tagWord :: rest →
        (WordHeap.Halts r m h start (.untagged start) ↔
          r = .strict ∧ UInt32.size ≤ tagWord.toNat)) ∧
      WordHeap.Path r m h 0 (WordHeap.walk r m h) ∧
      (WordHeap.walk r m h).starts.Pairwise (· < ·) ∧
      ∀ start ∈ (WordHeap.walk r m h).starts, start < h.size := by
  refine ⟨fun t => ObjectModel.layoutKnown finished, fun images objects => ?_, fun h => ?_⟩
  · exact WordHeap.walkObjects r finished objects 0
  · have path : WordHeap.Path r m h 0 (WordHeap.walk r m h) :=
      WordHeap.walkPath r finished h 0 (Nat.zero_le _)
    obtain ⟨increasing, bounds⟩ := WordHeap.pathInside finished path
    exact ⟨fun start => WordHeap.advanceOrHalt r m, fun _ _ => WordHeap.advanceInside finished,
      fun _ _ _ => WordHeap.haltsUntagged, path, increasing,
      fun start member => (bounds start member).2⟩

-- A pair, a toplevel of three fields, and a word with the tag of a boundary.
def miniatureImages : List (List Word) := [[4, 70, 71], [0, 3, 72, 73, 74], [1]]

theorem miniatureBoundaryLayout : miniatureModel.layoutOf 1 = .ok (.atomic 1) :=
  ObjectModel.layoutStored.mpr (by decide +kernel)

theorem miniatureObjects : ∀ image ∈ miniatureImages, WordHeap.IsObject miniatureModel image := by
  have pair : miniatureModel.layoutOf 4 = .ok Standard.cellLayout :=
    ObjectModel.layoutStored.mpr (by decide +kernel)
  have toplevel : miniatureModel.layoutOf 0 = .ok Standard.recordLayout :=
    ObjectModel.layoutStored.mpr (by decide +kernel)
  intro image member
  rcases List.mem_cons.mp member with rfl | member
  · exact WordHeap.objectOf (by decide +kernel) pair (by decide)
  rcases List.mem_cons.mp member with rfl | member
  · exact WordHeap.objectOf (by decide +kernel) toplevel (by decide)
  · cases List.mem_singleton.mp member
    exact WordHeap.objectOf (by decide +kernel) miniatureBoundaryLayout (by decide)

-- The tag of a pair stands in the low half of the second word.
def miniatureWide : WordHeap := ⟨[1, 4294967300, 70, 71]⟩

theorem wideStops :
    WordHeap.walk .strict miniatureModel miniatureWide = ⟨[0, 1], some (.untagged 1)⟩ := by
  have located : WordHeap.layoutAt .strict miniatureModel 0 1 = .ok (.atomic 1) :=
    WordHeap.layoutAtOk.mpr ⟨1, rfl, miniatureBoundaryLayout⟩
  have across : WordHeap.sizeAt .strict miniatureModel 0 1 [4294967300, 70, 71] = .ok 1 :=
    WordHeap.sizeAtIff.mpr ⟨_, located, rfl, by decide⟩
  have stops : WordHeap.sizeAt .strict miniatureModel 1 4294967300 [70, 71] =
      .error (.untagged 1) := rfl
  have halted : WordHeap.walkFrom .strict miniatureModel 1 [4294967300, 70, 71] =
      ⟨[1], some (.untagged 1)⟩ := WordHeap.walkFromFault stops
  rw [WordHeap.walk, miniatureWide, WordHeap.walkFromStep across]
  exact congrArg (fun later : Walk => Walk.mk (0 :: later.starts) later.stop) halted

theorem miniatureWalks :
    (∃ layout, miniatureModel.layoutOf 6 = .ok layout) ∧
    (∀ r, WordHeap.walk r miniatureModel ⟨miniatureImages.flatten⟩ = ⟨[0, 3, 8], none⟩) ∧
    WordHeap.Path .strict miniatureModel miniatureWide 0 ⟨[0, 1], some (.untagged 1)⟩ := by
  have walks := finishedHeapWalks miniatureModelFinished
  obtain ⟨known, _, paths⟩ := walks .strict
  refine ⟨known 6 (by decide +kernel), fun r => (walks r).2.1 miniatureImages miniatureObjects, ?_⟩
  rw [← wideStops]
  exact (paths miniatureWide).2.2.2.1

end TaggedHeap
