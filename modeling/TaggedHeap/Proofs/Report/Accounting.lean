import Mathlib.Data.List.Nodup
import TaggedHeap.Proofs.Space.Listing
import TaggedHeap.Report.Basic

/-! A report on a space accounts for each of its tags once. Kinds are read off the slots, reserved rows
off a search through the tags below `last`, and a single category is picked by what the slots say of
themselves: that these fit together, and fit the boundaries beside them, is due to how a space is
arranged. -/
namespace TaggedHeap

section Ascending

variable {α : Type} {key : α → Tag} {l m : List α}

theorem ascendingApart (ascends : l.Pairwise fun a b => key a < key b) : (l.map key).Nodup := by
  refine List.pairwise_map.mpr (ascends.imp ?_)
  intro a b before same
  exact UInt32.lt_irrefl _ (same ▸ before)

theorem ascendingUnique (key : α → Tag) (first : l.Pairwise fun a b => key a < key b)
    (second : m.Pairwise fun a b => key a < key b) (same : ∀ a, a ∈ l ↔ a ∈ m) : l = m := by
  have rearranged : l.Perm m := (List.perm_ext_iff_of_nodup
    (ascendingApart first).of_map (ascendingApart second).of_map).mpr same
  exact rearranged.eq_of_pairwise (fun _ _ _ _ before after => absurd after (UInt32.lt_asymm before))
    first second

end Ascending

instance {b : Boundaries} {category : Category} {t : Tag} : Decidable (b.Covers category t) :=
  inferInstanceAs (Decidable (_ ∧ _))

namespace TagSpace

variable {s : TagSpace} {t : Tag} {category : Category}

def tags (s : TagSpace) : List Tag := (List.range s.last.toNat).map UInt32.ofNat

theorem rangeExact {n : Nat} (inside : n ∈ List.range s.last.toNat) : (UInt32.ofNat n).toNat = n :=
  Nat.mod_eq_of_lt (Nat.lt_trans (List.mem_range.mp inside) s.last.toNat_lt)

theorem rangeAscends : (List.range s.last.toNat).Pairwise fun i j =>
    (UInt32.ofNat i : Tag) < UInt32.ofNat j := by
  refine List.pairwise_lt_range.imp_of_mem fun here there before => ?_
  rw [UInt32.lt_iff_toNat_lt, rangeExact here, rangeExact there]
  exact before

theorem tagBelow : t ∈ s.tags ↔ t < s.last := by
  rw [tags, List.mem_map, UInt32.lt_iff_toNat_lt]
  constructor
  · rintro ⟨n, inside, rfl⟩
    rw [rangeExact inside]
    exact List.mem_range.mp inside
  · intro below
    exact ⟨t.toNat, List.mem_range.mpr below, UInt32.ofNat_toNat⟩

theorem reservedListed (room : s.slots.size < UInt32.size) {r : ReservedRow} :
    r ∈ s.reservedRows ↔ s.markerAt r.tag = some r.marker := by
  simp only [reservedRows, List.mem_filterMap, List.mem_range, Option.map_eq_some_iff]
  constructor
  · rintro ⟨_, _, marker, found, rfl⟩
    exact found
  · intro found
    have below := (slotBelow room).mpr ⟨_, markerSlot.mp found⟩
    refine ⟨r.tag.toNat, UInt32.lt_iff_toNat_lt.mp below, r.marker, ?_⟩
    rw [UInt32.ofNat_toNat]
    exact ⟨found, rfl⟩

theorem reservedAscend : s.reservedRows.Pairwise fun r q => r.tag < q.tag := by
  refine List.pairwise_filterMap.mpr (rangeAscends.imp fun before => ?_)
  intro r first q second
  obtain ⟨_, _, rfl⟩ := Option.map_eq_some_iff.mp first
  obtain ⟨_, _, rfl⟩ := Option.map_eq_some_iff.mp second
  exact before

theorem reservedBoth (sound : s.Sound) (room : s.slots.size < UInt32.size) :
    s.reservedRows = [⟨s.values, .values⟩, ⟨s.compiledValues, .compiledValues⟩] := by
  have partitioned := sound.partitioned room
  have inOrder : s.values < s.compiledValues := (soundCoherent sound room).inOrder.1
  refine ascendingUnique ReservedRow.tag reservedAscend (by simpa using inOrder) fun r => ?_
  obtain ⟨tag, marker⟩ := r
  rw [reservedListed room, markerIff partitioned]
  cases marker <;> simp [Boundaries.position, boundaries]

theorem tagsAccounted (sound : s.Sound) (room : s.slots.size < UInt32.size) :
    (s.kinds.map KindInfo.tag ++ s.reservedRows.map ReservedRow.tag).Perm s.tags := by
  have kinds := ascendingApart (kindsAscend sound.bounded)
  have reserved := ascendingApart (reservedAscend (s := s))
  refine (List.perm_ext_iff_of_nodup (List.nodup_append.mpr ⟨kinds, reserved, ?apart⟩)
    (ascendingApart rangeAscends)).mpr fun t => ?_
  case apart =>
    rintro _ here _ there rfl
    obtain ⟨k, listed, same⟩ := List.mem_map.mp here
    obtain ⟨r, row, rfl⟩ := List.mem_map.mp there
    have kind := (listedSlot sound.bounded).mp listed
    rw [same, markerSlot.mp ((reservedListed room).mp row)] at kind
    cases kind
  · rw [List.mem_append, List.mem_map, List.mem_map, ← tags, tagBelow, slotBelow room]
    constructor
    · rintro (⟨k, listed, rfl⟩ | ⟨r, row, rfl⟩)
      · exact ⟨_, (listedSlot sound.bounded).mp listed⟩
      · exact ⟨_, markerSlot.mp ((reservedListed room).mp row)⟩
    · rintro ⟨⟨name, category⟩ | ⟨marker⟩, found⟩
      · exact .inl ⟨⟨t, name, category⟩, (listedSlot sound.bounded).mpr found, rfl⟩
      · exact .inr ⟨⟨t, marker⟩, (reservedListed room).mpr (markerSlot.mpr found), rfl⟩

theorem listedCovered (sound : s.Sound) (room : s.slots.size < UInt32.size) {k : KindInfo}
    (listed : k ∈ s.kinds) : s.boundaries.Covers category k.tag ↔ category = k.category :=
  slotCoversIff sound room ((listedSlot sound.bounded).mp listed)

theorem coveredSlot (sound : s.Sound) (room : s.slots.size < UInt32.size)
    (covers : s.boundaries.Covers category t) : ∃ slot, s.slotAt t = some slot := by
  have ordered := partitionedOrdered (sound.partitioned room) room
  have known := (classifyIff (c := ⟨s.boundaries⟩) ordered).mpr covers
  refine belowSlot (UInt32.not_le.mp fun beyond => ?_)
  cases (classifyBeyond (c := ⟨s.boundaries⟩) ordered beyond).symm.trans known

theorem categoriesJoin (sound : s.Sound) (room : s.slots.size < UInt32.size) :
    (Category.all.flatMap fun category => s.kinds.filter (·.category == category)) = s.kinds := by
  have ordered := partitionedOrdered (sound.partitioned room) room
  have ranks : Category.all.Pairwise (· < ·) := by decide
  refine ascendingUnique KindInfo.tag (List.pairwise_flatMap.mpr ⟨fun category _ =>
    (kindsAscend sound.bounded).filter _, ranks.imp fun lower k here l there => ?_⟩)
    (kindsAscend sound.bounded) fun k => ?_
  · obtain ⟨listed, first⟩ := List.mem_filter.mp here
    obtain ⟨listed', second⟩ := List.mem_filter.mp there
    have low := (listedCovered sound room listed).mpr (beq_iff_eq.mp first).symm
    have high := (listedCovered sound room listed').mpr (beq_iff_eq.mp second).symm
    -- a later tag is never of an earlier category
    refine UInt32.not_le.mp fun back => ?_
    exact absurd (Classifier.coversMonotone ordered back high low) (Nat.not_le_of_lt lower)
  · simp [Category.memAll]

end TagSpace

namespace CatalogReport

variable {s : TagSpace}

structure Accounts (s : TagSpace) (whole : CatalogReport) : Prop where
  tags : (whole.kinds.map KindInfo.tag ++ whole.reserved.map ReservedRow.tag).Perm s.tags
  kindsAscend : whole.kinds.Pairwise fun k l => k.tag < l.tag
  reservedAscend : whole.reserved.Pairwise fun r q => r.tag < q.tag
  declared : ∀ k, k ∈ whole.kinds ↔ s.kindAt k.tag = some k
  reserved : whole.reserved = [⟨s.values, .values⟩, ⟨s.compiledValues, .compiledValues⟩]

structure Narrows (s : TagSpace) (category : Category) (part whole : CatalogReport) : Prop where
  rows : part.kinds = whole.kinds.filter fun k => s.boundaries.Covers category k.tag
  tags : ∀ t, t ∈ part.kinds.map KindInfo.tag ↔
    s.boundaries.Covers category t ∧ s.isReserved t = false
  rest : { part with kinds := whole.kinds } = whole

theorem wholeKinds {ranges : Option Standard.Ranges} : (ofSpace s ranges none).kinds = s.kinds :=
  List.filter_eq_self.mpr fun _ _ => rfl

theorem wholeAccounts (sound : s.Sound) (room : s.slots.size < UInt32.size)
    (ranges : Option Standard.Ranges) : Accounts s (ofSpace s ranges none) where
  tags := by
    rw [wholeKinds]
    exact TagSpace.tagsAccounted sound room
  kindsAscend := by
    rw [wholeKinds]
    exact TagSpace.kindsAscend sound.bounded
  reservedAscend := TagSpace.reservedAscend
  declared k := by
    rw [wholeKinds]
    exact TagSpace.listedKind sound.bounded
  reserved := TagSpace.reservedBoth sound room

theorem partNarrows (sound : s.Sound) (room : s.slots.size < UInt32.size)
    (ranges : Option Standard.Ranges) (category : Category) :
    Narrows s category (ofSpace s ranges (some category)) (ofSpace s ranges none) where
  rows := by
    rw [wholeKinds]
    refine List.filter_congr fun k listed => ?_
    rw [Bool.eq_iff_iff, decide_eq_true_iff, TagSpace.listedCovered sound room listed]
    exact beq_iff_eq.trans eq_comm
  tags t := by
    have rows : ∀ k, k ∈ (ofSpace s ranges (some category)).kinds ↔
        k ∈ s.kinds ∧ k.category = category := fun k => by simp [ofSpace]
    rw [List.mem_map]
    constructor
    · rintro ⟨k, row, rfl⟩
      obtain ⟨listed, rfl⟩ := (rows k).mp row
      have found := (TagSpace.listedSlot sound.bounded).mp listed
      exact ⟨(TagSpace.listedCovered sound room listed).mpr rfl, TagSpace.kindUnreserved found⟩
    · rintro ⟨covers, unreserved⟩
      obtain ⟨slot, found⟩ := TagSpace.coveredSlot sound room covers
      have same := (TagSpace.slotCoversIff sound room found).mp covers
      cases slot with
      | kind name own =>
        exact ⟨⟨t, name, own⟩, (rows _).mpr
          ⟨(TagSpace.listedSlot sound.bounded).mpr found, same.symm⟩, rfl⟩
      | reserved marker => cases (TagSpace.markerReserved found).symm.trans unreserved
  rest := by
    rw [wholeKinds]
    simp [ofSpace]

end CatalogReport

/-- The report on a whole space has a row for each of its tags, the two boundaries' apart from the
kinds'. A report on one category picks the rows between two boundaries, and the four of them in a row
are the whole. -/
theorem catalogAccounts {s : TagSpace} (reachable : s.Reachable) (room : s.size ≤ 4294967295)
    (ranges : Option Standard.Ranges) :
    CatalogReport.Accounts s (.ofSpace s ranges none) ∧
    (∀ category, CatalogReport.Narrows s category (.ofSpace s ranges (some category))
      (.ofSpace s ranges none)) ∧
    (Category.all.flatMap fun category => (CatalogReport.ofSpace s ranges (some category)).kinds) =
      (CatalogReport.ofSpace s ranges none).kinds ∧
    ∀ gaps, (CheckReport.ofGaps s gaps).kinds = (CatalogReport.ofSpace s ranges none).kinds.length ∧
      (CheckReport.ofGaps s gaps).kinds + 2 = s.last.toNat := by
  have sound := TagSpace.reachableSound reachable
  have small : s.slots.size < UInt32.size := Nat.lt_succ_of_le room
  have accounts := CatalogReport.wholeAccounts sound small ranges
  refine ⟨accounts, CatalogReport.partNarrows sound small ranges, ?_, fun gaps => ?_⟩
  · rw [CatalogReport.wholeKinds]
    exact TagSpace.categoriesJoin sound small
  · have counted := accounts.tags.length_eq
    rw [accounts.reserved, CatalogReport.wholeKinds, TagSpace.tags] at counted
    rw [CatalogReport.wholeKinds]
    exact ⟨rfl, show s.kinds.length + 2 = _ by simpa using counted⟩

theorem miniatureAccounts :
    (CatalogReport.ofSpace (miniatureSpace.evolve miniatureLife) none none).reserved =
      [⟨1, .values⟩, ⟨3, .compiledValues⟩] ∧
    (CatalogReport.ofSpace (miniatureSpace.evolve miniatureLife) none (some .runtimeKind)).kinds =
      [⟨4, "pair", .runtimeKind⟩, ⟨5, "box", .runtimeKind⟩] := by
  obtain ⟨accounts, narrows, _, _⟩ := catalogAccounts miniatureReachable (by decide) none
  refine ⟨accounts.reserved, (narrows .runtimeKind).rows.trans ?_⟩
  decide

end TaggedHeap
