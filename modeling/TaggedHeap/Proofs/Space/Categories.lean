import TaggedHeap.Classifier
import TaggedHeap.Proofs.Space.History

/-! The boundaries, the slots, the names and the classifier of a space tell the same story: each tag
lies in the range of one category, and that is the category of what its slot holds. The classifier
never looks at the slots, so this rests on how the space was built and grown. -/
namespace TaggedHeap

def Boundaries.Covers (b : Boundaries) (category : Category) (t : Tag) : Prop :=
  (b.ends category).1 ≤ t ∧ t < (b.ends category).2

def Boundaries.position (b : Boundaries) : Boundary → Tag
  | .values => b.values
  | .compiledValues => b.compiledValues

theorem orderedIff {b : Boundaries} : b.isOrdered = true ↔
    b.values.toNat < b.compiledValues.toNat ∧ b.compiledValues.toNat < b.lastNormal.toNat ∧
      b.lastNormal.toNat ≤ b.last.toNat := by
  simp [Boundaries.isOrdered, UInt32.lt_iff_toNat_lt, UInt32.le_iff_toNat_le, and_assoc]

theorem classifyIff {c : Classifier} (ordered : c.bounds.isOrdered = true) {category : Category}
    {t : Tag} : c.classify t = .ok category ↔ c.bounds.Covers category t := by
  have inOrder := orderedIff.mp ordered
  simp only [Classifier.classify, Boundaries.Covers, UInt32.lt_iff_toNat_lt,
    UInt32.le_iff_toNat_le]
  repeat' split
  all_goals cases category <;> simp [Boundaries.ends] <;> omega

theorem coversUnique {b : Boundaries} (ordered : b.isOrdered = true) {x y : Category} {t : Tag}
    (first : b.Covers x t) (second : b.Covers y t) : x = y := by
  have named : (⟨b⟩ : Classifier).classify t = .ok x := (classifyIff ordered).mpr first
  exact Except.ok.inj (named.symm.trans ((classifyIff ordered).mpr second))

theorem classifyBeyond {c : Classifier} (ordered : c.bounds.isOrdered = true) {t : Tag}
    (beyond : c.bounds.last ≤ t) : c.classify t = .error (.unknownTag t c.bounds.last) := by
  have inOrder := orderedIff.mp ordered
  have far := UInt32.le_iff_toNat_le.mp beyond
  simp only [Classifier.classify, UInt32.lt_iff_toNat_lt]
  rw [if_neg (by omega), if_neg (by omega), if_neg (by omega), if_neg (by omega)]

theorem Classifier.classifyFault {c : Classifier} {t : Tag} {fault}
    (failed : c.classify t = .error fault) : fault = .unknownTag t c.bounds.last := by
  unfold classify at failed
  repeat' split at failed
  all_goals cases failed
  rfl

def Slot.category : Slot → Category
  | .kind _ category => category
  | .reserved marker => marker.opens

namespace TagSpace

variable {s : TagSpace} {t : Tag}

theorem requiredFrozen {wanted : Derived} :
    s.requireFrozen wanted = .ok () ↔ s.isFrozen = true := by
  unfold requireFrozen
  split <;> simp_all

theorem frozenThen {α : Type} {wanted : Derived} {made a : α} :
    (do s.requireFrozen wanted; return made) = .ok a ↔ s.isFrozen = true ∧ a = made := by
  rw [bindOk]
  constructor
  · intro ok
    obtain ⟨_, frozen, last⟩ := ok
    cases last
    exact ⟨requiredFrozen.mp frozen, rfl⟩
  · intro facts
    obtain ⟨frozen, rfl⟩ := facts
    exact ⟨(), requiredFrozen.mpr frozen, rfl⟩

theorem lastReduced : s.last.toNat = s.slots.size % UInt32.size := UInt32.toNat_ofNat'

theorem lastExact (room : s.slots.size < UInt32.size) : s.last.toNat = s.slots.size :=
  lastReduced.trans (Nat.mod_eq_of_lt room)

theorem partitionedOrdered (partitioned : s.Partitioned) (room : s.slots.size < UInt32.size) :
    s.boundaries.isOrdered = true :=
  orderedIff.mpr ⟨partitioned.inOrder, partitioned.opened, by
    simpa only [boundaries, lastExact room] using partitioned.inside⟩

-- Of full spaces, too, in which `last` has wrapped to zero.
theorem belowSlot (below : t < s.last) : ∃ slot, s.slotAt t = some slot := by
  have inside : t.toNat < s.slots.size := by
    refine Nat.lt_of_lt_of_le (UInt32.lt_iff_toNat_lt.mp below) ?_
    rw [lastReduced]
    exact Nat.mod_le s.slots.size UInt32.size
  exact ⟨_, Array.getElem?_eq_getElem inside⟩

theorem slotBelow (room : s.slots.size < UInt32.size) :
    t < s.last ↔ ∃ slot, s.slotAt t = some slot := by
  refine ⟨belowSlot, ?_⟩
  intro facts
  obtain ⟨slot, found⟩ := facts
  rw [UInt32.lt_iff_toNat_lt, lastExact room]
  exact (Array.getElem?_eq_some_iff.mp found).1

theorem slotCovered (partitioned : s.Partitioned) (room : s.slots.size < UInt32.size) {slot : Slot}
    (found : s.slotAt t = some slot) : s.boundaries.Covers slot.category t := by
  have inside : t.toNat < s.last.toNat :=
    UInt32.lt_iff_toNat_lt.mp ((slotBelow room).mpr ⟨slot, found⟩)
  have fits := partitioned.arranged t.toNat slot found
  have inOrder := partitioned.inOrder
  have opened := partitioned.opened
  simp only [Boundaries.Covers, UInt32.lt_iff_toNat_lt, UInt32.le_iff_toNat_le]
  rcases slot with ⟨name, _ | _ | _ | _⟩ | ⟨_ | _⟩ <;>
    simp only [Slot.FitsAt] at fits <;>
    simp [Slot.category, Boundary.opens, Boundaries.ends, boundaries] <;> omega

theorem slotCoversIff (sound : s.Sound) (room : s.slots.size < UInt32.size) {slot : Slot}
    (found : s.slotAt t = some slot) {category : Category} :
    s.boundaries.Covers category t ↔ category = slot.category := by
  have partitioned := sound.partitioned room
  have here := slotCovered partitioned room found
  constructor
  · intro covers
    exact coversUnique (partitionedOrdered partitioned room) covers here
  · intro same
    exact same ▸ here

theorem markerSlot {marker : Boundary} :
    s.markerAt t = some marker ↔ s.slotAt t = some (.reserved marker) := by
  unfold markerAt
  split <;> simp_all

theorem nameSlot {name : String} :
    s.nameAt t = some name ↔ ∃ category, s.slotAt t = some (.kind name category) := by
  unfold nameAt
  split <;> simp_all

theorem kindSlot {k : KindInfo} :
    s.kindAt t = some k ↔ s.slotAt t = some (.kind k.name k.category) ∧ k.tag = t := by
  unfold kindAt
  split
  · rename_i name category found
    simp only [found, Option.some.injEq, Slot.kind.injEq]
    constructor
    · intro same
      obtain rfl := same
      exact ⟨⟨rfl, rfl⟩, rfl⟩
    · intro facts
      obtain ⟨⟨rfl, rfl⟩, rfl⟩ := facts
      rfl
  · rename_i other
    exact ⟨fun h => (by cases h), fun h => absurd h.1 (other _ _)⟩

theorem tagNamedIff {name : String} : s.tagNamed name = .ok t ↔ s.names[name]? = some t := by
  unfold tagNamed
  split <;> simp_all

theorem namedIff (indexed : Indexed s.slots s.names) {name : String} :
    s.tagNamed name = .ok t ↔ s.nameAt t = some name := by
  rw [tagNamedIff, nameSlot, indexed]
  rfl

def Declares (s : TagSpace) (name : String) : Prop := ∃ t, s.nameAt t = some name

theorem undeclaredIff (indexed : Indexed s.slots s.names) {name : String} :
    ¬ s.Declares name ↔ s.names[name]? = none := by
  rw [Option.eq_none_iff_forall_ne_some, Declares, not_exists]
  exact forall_congr' fun t => not_congr ((namedIff indexed).symm.trans tagNamedIff)

theorem undeclared (indexed : Indexed s.slots s.names) {name : String} (unknown : ¬ s.Declares name) :
    s.tagNamed name = .error (.unknownKindName name) := by
  rw [tagNamed, (undeclaredIff indexed).mp unknown]

theorem markerIff (partitioned : s.Partitioned) {marker : Boundary} :
    s.markerAt t = some marker ↔ t = s.boundaries.position marker := by
  obtain ⟨arranged, inOrder, opened, inside, _⟩ := partitioned
  rw [markerSlot]
  constructor
  · intro found
    have fits := arranged t.toNat _ found
    cases marker <;> exact UInt32.toNat_inj.mp fits
  · intro same
    obtain rfl := same
    have present : (s.boundaries.position marker).toNat < s.slots.size := by
      cases marker <;> simp only [Boundaries.position, boundaries] <;> omega
    have found := Array.getElem?_eq_getElem present
    have fits := arranged _ _ found
    rw [slotAt, found]
    generalize s.slots[(s.boundaries.position marker).toNat] = slot at fits
    rcases slot with ⟨name, _ | _ | _ | _⟩ | ⟨_ | _⟩ <;> cases marker <;>
      simp only [Slot.FitsAt, Boundaries.position, boundaries] at fits ⊢ <;> omega

theorem kindUnreserved {name : String} {category : Category}
    (found : s.slotAt t = some (.kind name category)) : s.isReserved t = false := by
  simp [isReserved, markerAt, found]

theorem markerReserved {marker : Boundary} (found : s.slotAt t = some (.reserved marker)) :
    s.isReserved t = true := by
  simp [isReserved, markerAt, found]

theorem reservedIff (partitioned : s.Partitioned) :
    s.isReserved t = true ↔ t = s.values ∨ t = s.compiledValues := by
  rw [isReserved, Option.isSome_iff_exists]
  constructor
  · intro facts
    obtain ⟨_ | _, found⟩ := facts
    · exact .inl ((markerIff partitioned).mp found)
    · exact .inr ((markerIff partitioned).mp found)
  · intro either
    rcases either with rfl | rfl
    · exact ⟨.values, (markerIff partitioned).mpr rfl⟩
    · exact ⟨.compiledValues, (markerIff partitioned).mpr rfl⟩

structure Coherent (s : TagSpace) : Prop where
  inOrder : s.values < s.compiledValues ∧ s.compiledValues < s.lastNormal ∧ s.lastNormal ≤ s.last
  counted : s.last.toNat = s.size
  reserved : ∀ t, s.isReserved t = true ↔ t = s.values ∨ t = s.compiledValues
  marked : ∀ t marker, s.markerAt t = some marker ↔ t = s.boundaries.position marker
  named : ∀ name t, s.tagNamed name = .ok t ↔ s.nameAt t = some name
  covered : ∀ t k, s.kindAt t = some k →
    ∀ category, s.boundaries.Covers category t ↔ category = k.category

theorem soundCoherent (sound : s.Sound) (room : s.slots.size < UInt32.size) : s.Coherent where
  inOrder := by
    simp only [UInt32.lt_iff_toNat_lt, UInt32.le_iff_toNat_le]
    exact orderedIff.mp (partitionedOrdered (sound.partitioned room) room)
  counted := lastExact room
  reserved _ := reservedIff (sound.partitioned room)
  marked _ _ := markerIff (sound.partitioned room)
  named _ _ := namedIff sound.indexed
  covered _ _ found _ := slotCoversIff sound room (kindSlot.mp found).1

theorem tierlessEnd (sound : s.Sound) (room : s.slots.size < UInt32.size)
    (tierless : s.internalTier = false) : s.last = s.lastNormal := by
  have atEnd := (sound.partitioned room).tierless tierless
  exact UInt32.toNat_inj.mp ((lastExact room).trans atEnd.symm)

theorem noInternal (atEnd : s.last = s.lastNormal) : ¬ s.boundaries.Covers .internalOnly t := by
  intro facts
  obtain ⟨low, high⟩ := facts
  have below : t < s.lastNormal := atEnd ▸ high
  exact UInt32.not_lt.mpr low below

end TagSpace

namespace Classifier

structure Agrees (c : Classifier) (s : TagSpace) : Prop where
  unique : ∀ t, t < s.last → ∃ category, c.classify t = .ok category ∧
    ∀ other, s.boundaries.Covers other t ↔ other = category
  ofKind : ∀ t k, s.kindAt t = some k → c.classify t = .ok k.category
  ofMarker : ∀ t marker, s.markerAt t = some marker → c.classify t = .ok marker.opens
  monotone : ∀ t u x y, t ≤ u → c.classify t = .ok x → c.classify u = .ok y → x ≤ y
  beyond : ∀ t, s.last ≤ t → c.classify t = .error (.unknownTag t s.last)

theorem ofSpaceIff {s : TagSpace} {c : Classifier} :
    ofSpace s = .ok c ↔ s.isFrozen = true ∧ c = ⟨s.boundaries⟩ :=
  TagSpace.frozenThen

theorem coversMonotone {b : Boundaries} (ordered : b.isOrdered = true) {t u : Tag} {x y : Category}
    (le : t ≤ u) (low : b.Covers x t) (high : b.Covers y u) : x ≤ y := by
  have inOrder := orderedIff.mp ordered
  simp only [Boundaries.Covers, UInt32.le_iff_toNat_le, UInt32.lt_iff_toNat_lt] at le low high
  change x.rank ≤ y.rank
  cases x <;> cases y <;> simp only [Boundaries.ends, Category.rank] at * <;> omega

theorem slotClassified {s : TagSpace} (sound : s.Sound) (room : s.slots.size < UInt32.size) {t : Tag}
    {slot : Slot} (found : s.slotAt t = some slot) :
    (⟨s.boundaries⟩ : Classifier).classify t = .ok slot.category :=
  (classifyIff (TagSpace.partitionedOrdered (sound.partitioned room) room)).mpr
    (TagSpace.slotCovered (sound.partitioned room) room found)

theorem soundAgrees {s : TagSpace} (sound : s.Sound) (room : s.slots.size < UInt32.size) :
    Agrees ⟨s.boundaries⟩ s := by
  have ordered : (⟨s.boundaries⟩ : Classifier).bounds.isOrdered = true :=
    TagSpace.partitionedOrdered (sound.partitioned room) room
  refine ⟨?unique, ?ofKind, ?ofMarker, ?monotone, fun t => classifyBeyond ordered⟩
  case unique =>
    intro t below
    obtain ⟨slot, found⟩ := (TagSpace.slotBelow room).mp below
    have here := slotClassified sound room found
    refine ⟨slot.category, here, fun other => ?_⟩
    rw [← classifyIff ordered, here, Except.ok.injEq]
    exact eq_comm
  case ofKind =>
    intro t k found
    exact slotClassified sound room (TagSpace.kindSlot.mp found).1
  case ofMarker =>
    intro t marker found
    exact slotClassified sound room (TagSpace.markerSlot.mp found)
  case monotone =>
    intro t u x y le atT atU
    exact coversMonotone ordered le ((classifyIff ordered).mp atT) ((classifyIff ordered).mp atU)

end Classifier

/-- Whatever is done to a built space, its categories stay coherent; once it is frozen, its
classifier agrees with it; and without the internal tier there is no internal tag. -/
theorem lifeKeepsCategories {catalog tier start} (built : TagSpace.build catalog tier = .ok start)
    (changes : List Change) (room : (start.evolve changes).size ≤ 4294967295) :
    (start.evolve changes).Coherent ∧
    ((start.evolve changes).isFrozen = true →
      ∃ c, Classifier.ofSpace (start.evolve changes) = .ok c ∧ c.Agrees (start.evolve changes) ∧
        (tier = false → ∀ t, c.classify t ≠ .ok .internalOnly)) ∧
    (tier = false → (start.evolve changes).last = (start.evolve changes).lastNormal ∧
      ∀ t, ¬ (start.evolve changes).boundaries.Covers .internalOnly t ∧
        ∀ k, (start.evolve changes).kindAt t = some k → k.category ≠ .internalOnly) := by
  obtain ⟨sound, same⟩ := TagSpace.evolvedSound built changes
  generalize start.evolve changes = s at *
  have small : s.slots.size < UInt32.size := Nat.lt_succ_of_le room
  have ordered := TagSpace.partitionedOrdered (sound.partitioned small) small
  have coherent := TagSpace.soundCoherent sound small
  have tierless : tier = false → s.last = s.lastNormal := fun off =>
    TagSpace.tierlessEnd sound small (same.trans off)
  refine ⟨coherent, fun frozen => ?_, fun off => ⟨tierless off, fun t => ?_⟩⟩
  · refine ⟨⟨s.boundaries⟩, Classifier.ofSpaceIff.mpr ⟨frozen, rfl⟩,
      Classifier.soundAgrees sound small, ?_⟩
    intro off t internal
    exact TagSpace.noInternal (tierless off) ((classifyIff ordered).mp internal)
  · have none := TagSpace.noInternal (t := t) (tierless off)
    refine ⟨none, fun k found internal => none ?_⟩
    exact (coherent.covered t k found .internalOnly).mpr internal.symm

def miniature : Catalog :=
  ((((Catalog.empty.kind "toplevel" .compiledSyntaxForm).boundary .values).kind "variable"
    .registeredValueOrSlot).boundary .compiledValues).kind "pair" .runtimeKind

def miniatureSpace : TagSpace where
  slots := #[.kind "toplevel" .compiledSyntaxForm, .reserved .values,
    .kind "variable" .registeredValueOrSlot, .reserved .compiledValues, .kind "pair" .runtimeKind]
  names := ((Std.TreeMap.empty.insert "toplevel" 0).insert "variable" 2).insert "pair" 4
  values := 1
  compiledValues := 3
  lastNormal := 5
  internalTier := true
  lifecycle := .built

-- The second registration and the last one fail.
def miniatureLife : List Change :=
  [.register ⟨"box", .runtimeKind⟩, .register ⟨"pair", .runtimeKind⟩, .append ⟨["saved-stack"]⟩,
    .register ⟨"late", .runtimeKind⟩, .freeze]

theorem miniatureReachable : (miniatureSpace.evolve miniatureLife).Reachable :=
  ⟨miniature, true, miniatureSpace, miniatureLife, rfl, rfl⟩

theorem miniatureKeepsCategories : TagSpace.build miniature true = .ok miniatureSpace ∧
    (miniatureSpace.evolve miniatureLife).Coherent ∧
    ∃ c, Classifier.ofSpace (miniatureSpace.evolve miniatureLife) = .ok c ∧
      c.Agrees (miniatureSpace.evolve miniatureLife) := by
  have built : TagSpace.build miniature true = .ok miniatureSpace := rfl
  obtain ⟨coherent, classified, _⟩ := lifeKeepsCategories built miniatureLife (by decide)
  obtain ⟨c, derived, agrees, _⟩ := classified rfl
  exact ⟨built, coherent, c, derived, agrees⟩

end TaggedHeap
