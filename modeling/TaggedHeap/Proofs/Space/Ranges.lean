import Mathlib.Data.List.Sort
import TaggedHeap.Proofs.Space.Listing
import TaggedHeap.TagSpace.Range

/-! Ranges of kinds. Only the two ends are looked at when a range is made, and yet whoever has the
range takes each tag in it for a kind of that category. That nothing else stands between two kinds of
one category is due to how a space is arranged, boundaries and tiers included. -/
namespace TaggedHeap

theorem KindRange.containsIff {r : KindRange} {t : Tag} :
    r.contains t = true ↔ r.start ≤ t ∧ t < r.stop := by
  simp [contains]

namespace TagSpace

variable {s : TagSpace} {first last : String} {category : Category} {t u v : Tag} {fault : Fault}

structure Joins (s : TagSpace) (first last : String) (t u : Tag) (category : Category) : Prop where
  start : s.tagNamed first = .ok t
  stop : s.tagNamed last = .ok u
  inOrder : t ≤ u
  lower : s.kindAt t = some ⟨t, first, category⟩
  upper : s.kindAt u = some ⟨u, last, category⟩

inductive Unjoined (s : TagSpace) (first last : String) : Fault → Prop where
  | first (unknown : ¬ s.Declares first) : Unjoined s first last (.unknownKindName first)
  | last {t : Tag} (start : s.nameAt t = some first) (unknown : ¬ s.Declares last) :
      Unjoined s first last (.unknownKindName last)
  | inverted {t u : Tag} (start : s.nameAt t = some first) (stop : s.nameAt u = some last)
      (back : u < t) : Unjoined s first last (.invertedRange first last t u)
  | mixed {t u : Tag} {lower upper : Category} (inOrder : t ≤ u)
      (start : s.kindAt t = some ⟨t, first, lower⟩) (stop : s.kindAt u = some ⟨u, last, upper⟩)
      (apart : lower ≠ upper) : Unjoined s first last (.mixedRange first last)

theorem kindNamed {name : String} (found : s.kindAt t = some ⟨t, name, category⟩) :
    s.nameAt t = some name :=
  nameSlot.mpr ⟨category, (kindSlot.mp found).1⟩

theorem joined (indexed : Indexed s.slots s.names)
    (lower : s.slotAt t = some (.kind first category))
    (upper : s.slotAt u = some (.kind last category)) (inOrder : t ≤ u) :
    s.Joins first last t u category where
  start := (namedIff indexed).mpr (nameSlot.mpr ⟨category, lower⟩)
  stop := (namedIff indexed).mpr (nameSlot.mpr ⟨category, upper⟩)
  inOrder := inOrder
  lower := kindSlot.mpr ⟨lower, rfl⟩
  upper := kindSlot.mpr ⟨upper, rfl⟩

theorem joinedRange (joins : s.Joins first last t u category) :
    s.range first last = .ok ⟨t, u + 1⟩ := by
  obtain ⟨start, stop, inOrder, lower, upper⟩ := joins
  have forward : ¬ t > u := UInt32.not_lt.mpr inOrder
  simp [range, start, stop, forward, lower, upper, bind, Except.bind, pure, Except.pure]

theorem unjoinedRange (indexed : Indexed s.slots s.names) (unjoined : s.Unjoined first last fault) :
    s.range first last = .error fault := by
  have named {name : String} {t : Tag} (held : s.nameAt t = some name) : s.tagNamed name = .ok t :=
    (namedIff indexed).mpr held
  cases unjoined with
  | first unknown => simp [range, undeclared indexed unknown, bind, Except.bind]
  | last start unknown => simp [range, named start, undeclared indexed unknown, bind, Except.bind]
  | inverted start stop back =>
    simp [range, named start, named stop, back, bind, Except.bind, throw, throwThe,
      MonadExceptOf.throw]
  | mixed inOrder start stop apart =>
    have forward := UInt32.not_lt.mpr inOrder
    simp [range, named (kindNamed start), named (kindNamed stop), forward, start, stop, apart, bind,
      Except.bind, throw, throwThe, MonadExceptOf.throw]

theorem joinsOrNot (indexed : Indexed s.slots s.names) (first last : String) :
    (∃ t u category, s.Joins first last t u category) ∨ ∃ fault, s.Unjoined first last fault := by
  by_cases known : s.Declares first
  case neg => exact .inr ⟨_, .first known⟩
  obtain ⟨t, start⟩ := known
  by_cases known : s.Declares last
  case neg => exact .inr ⟨_, .last start known⟩
  obtain ⟨u, stop⟩ := known
  by_cases back : u < t
  case pos => exact .inr ⟨_, .inverted start stop back⟩
  obtain ⟨lower, atStart⟩ := nameSlot.mp start
  obtain ⟨upper, atStop⟩ := nameSlot.mp stop
  have inOrder := UInt32.not_lt.mp back
  by_cases same : lower = upper
  · subst same
    exact .inl ⟨t, u, lower, joined indexed atStart atStop inOrder⟩
  · exact .inr ⟨_, .mixed inOrder (kindSlot.mpr ⟨atStart, rfl⟩) (kindSlot.mpr ⟨atStop, rfl⟩) same⟩

theorem rangedIff (indexed : Indexed s.slots s.names) {r : KindRange} :
    s.range first last = .ok r ↔
      ∃ t u category, s.Joins first last t u category ∧ r = ⟨t, u + 1⟩ := by
  constructor
  · intro ok
    rcases joinsOrNot indexed first last with ⟨t, u, category, joins⟩ | ⟨fault, unjoined⟩
    · rw [joinedRange joins] at ok
      exact ⟨t, u, category, joins, (Except.ok.inj ok).symm⟩
    · rw [unjoinedRange indexed unjoined] at ok
      cases ok
  · rintro ⟨t, u, category, joins, rfl⟩
    exact joinedRange joins

theorem unrangedIff (indexed : Indexed s.slots s.names) :
    s.range first last = .error fault ↔ s.Unjoined first last fault := by
  refine ⟨fun failed => ?_, unjoinedRange indexed⟩
  rcases joinsOrNot indexed first last with ⟨t, u, category, joins⟩ | ⟨other, unjoined⟩
  · rw [joinedRange joins] at failed
    cases failed
  · rw [unjoinedRange indexed unjoined] at failed
    cases failed
    exact unjoined

theorem unjoinedKind (unjoined : s.Unjoined first last fault) :
    s.Declares first ∧ s.Declares last ∧ fault.kind = .misplacedKind ∨
      ¬ (s.Declares first ∧ s.Declares last) ∧ fault.kind = .unknownKindName := by
  cases unjoined with
  | first unknown => exact .inr ⟨fun known => unknown known.1, rfl⟩
  | last start unknown => exact .inr ⟨fun known => unknown known.2, rfl⟩
  | inverted start stop => exact .inl ⟨⟨_, start⟩, ⟨_, stop⟩, rfl⟩
  | mixed inOrder start stop => exact .inl ⟨⟨_, kindNamed start⟩, ⟨_, kindNamed stop⟩, rfl⟩

theorem betweenKinds (partitioned : s.Partitioned)
    (lower : s.slotAt t = some (.kind first category))
    (upper : s.slotAt u = some (.kind last category)) (low : t ≤ v) (high : v ≤ u) :
    ∃ name, s.slotAt v = some (.kind name category) := by
  obtain ⟨arranged, inOrder, opened, _, _⟩ := partitioned
  have atLow := UInt32.le_iff_toNat_le.mp low
  have atHigh := UInt32.le_iff_toNat_le.mp high
  have inside := (Array.getElem?_eq_some_iff.mp upper).1
  have found := Array.getElem?_eq_getElem (Nat.lt_of_le_of_lt atHigh inside)
  have fits := arranged _ _ found
  have fitsLower := arranged _ _ lower
  have fitsUpper := arranged _ _ upper
  change ∃ name, s.slots[v.toNat]? = _
  generalize s.slots[v.toNat] = slot at found fits
  -- In the slot of another category or of a boundary `v` would be on the far side of an edge.
  cases category <;> rcases slot with ⟨name, _ | _ | _ | _⟩ | ⟨_ | _⟩ <;>
    simp only [Slot.FitsAt] at fits fitsLower fitsUpper <;>
    first | exact ⟨name, found⟩ | omega

theorem kindsBetween (bounded : s.slots.size ≤ UInt32.size) {r : KindRange}
    (declared : ∀ v, r.contains v = true → ∃ k, s.kindAt v = some k) :
    ((s.kinds.filter fun k => r.contains k.tag).map fun k => k.tag.toNat) =
      List.range' r.start.toNat (r.stop.toNat - r.start.toNat) := by
  have ascending : ((s.kinds.filter fun k => r.contains k.tag).map
      fun k => k.tag.toNat).Pairwise (· < ·) :=
    List.pairwise_map.mpr (((kindsAscend bounded).filter _).imp UInt32.lt_iff_toNat_lt.mp)
  refine ascending.eq_of_mem_iff List.pairwise_lt_range' fun n => ?_
  simp only [List.mem_map, List.mem_filter, List.mem_range'_1]
  constructor
  · rintro ⟨k, ⟨_, inside⟩, rfl⟩
    obtain ⟨low, high⟩ := KindRange.containsIff.mp inside
    rw [UInt32.le_iff_toNat_le] at low
    rw [UInt32.lt_iff_toNat_lt] at high
    omega
  · intro bounds
    have below := r.stop.toNat_lt
    have small : (UInt32.ofNat n).toNat = n := UInt32.toNat_ofNat_of_lt' (by
      change n < 2 ^ 32
      omega)
    have inside : r.contains (UInt32.ofNat n) = true := by
      rw [KindRange.containsIff, UInt32.le_iff_toNat_le, UInt32.lt_iff_toNat_lt, small]
      omega
    obtain ⟨k, found⟩ := declared _ inside
    obtain ⟨here, same⟩ := kindSlot.mp found
    refine ⟨k, ⟨(listedSlot bounded).mpr (same ▸ here), same ▸ inside⟩, ?_⟩
    rw [same, small]

end TagSpace

structure KindRange.Holds (r : KindRange) (s : TagSpace) (t u : Tag) (category : Category) :
    Prop where
  tags : ∀ v, r.contains v = true ↔ t ≤ v ∧ v ≤ u
  kinds : ∀ v, r.contains v = true → ∃ name, s.kindAt v = some ⟨v, name, category⟩
  unreserved : ∀ v, r.contains v = true → s.isReserved v = false
  counted : r.count = (s.kinds.filter fun k => r.contains k.tag).length
  positive : 1 ≤ r.count
  unwrapped : r.stop.toNat = u.toNat + 1
  inside : r.stop ≤ s.last

namespace TagSpace

variable {s : TagSpace} {first last : String} {category : Category} {t u : Tag}

theorem joinedHolds (partitioned : s.Partitioned) (room : s.slots.size < UInt32.size)
    (joins : s.Joins first last t u category) :
    KindRange.Holds ⟨t, u + 1⟩ s t u category := by
  have lower := (kindSlot.mp joins.lower).1
  have upper := (kindSlot.mp joins.upper).1
  have inside := (Array.getElem?_eq_some_iff.mp upper).1
  have inOrder := UInt32.le_iff_toNat_le.mp joins.inOrder
  have unwrapped : (u + 1).toNat = u.toNat + 1 := by
    rw [UInt32.toNat_add]
    exact Nat.mod_eq_of_lt (Nat.lt_of_le_of_lt inside room)
  have tags : ∀ v, (KindRange.mk t (u + 1)).contains v = true ↔ t ≤ v ∧ v ≤ u := by
    intro v
    simp only [KindRange.containsIff, UInt32.lt_iff_toNat_lt, UInt32.le_iff_toNat_le, unwrapped]
    omega
  have kinds : ∀ v, (KindRange.mk t (u + 1)).contains v = true →
      ∃ name, s.kindAt v = some ⟨v, name, category⟩ := by
    intro v held
    obtain ⟨low, high⟩ := (tags v).mp held
    obtain ⟨name, found⟩ := betweenKinds partitioned lower upper low high
    exact ⟨name, kindSlot.mpr ⟨found, rfl⟩⟩
  have count : (KindRange.mk t (u + 1)).count = u.toNat + 1 - t.toNat := by
    have forward : t ≤ u + 1 := by
      rw [UInt32.le_iff_toNat_le, unwrapped]
      omega
    rw [KindRange.count, UInt32.toNat_sub_of_le _ _ forward, unwrapped]
  refine ⟨tags, kinds, ?unreserved, ?counted, by omega, unwrapped, ?inside⟩
  case unreserved =>
    intro v held
    obtain ⟨name, found⟩ := kinds v held
    exact kindUnreserved (kindSlot.mp found).1
  case counted =>
    have declared : ∀ v, (KindRange.mk t (u + 1)).contains v = true → ∃ k, s.kindAt v = some k := by
      intro v held
      obtain ⟨name, found⟩ := kinds v held
      exact ⟨_, found⟩
    have listed := kindsBetween (Nat.le_of_lt room) declared
    have lengths := congrArg List.length listed
    rw [List.length_map, List.length_range'] at lengths
    rw [count, lengths, unwrapped]
  case inside =>
    rw [UInt32.le_iff_toNat_le, unwrapped, lastExact room]
    exact inside

end TagSpace

/-- A range is made just between two kinds of one category that stand in this order; it has all the
kinds from the one to the other, each of that category, and nothing else. Otherwise it is refused,
and a name that is not declared is the first reason for that. -/
theorem rangesJoinKinds {s : TagSpace} (reachable : s.Reachable) (room : s.size ≤ 4294967295)
    (first last : String) :
    ((∃ r, s.range first last = .ok r) ↔ ∃ t u category, s.Joins first last t u category) ∧
    (∀ r, s.range first last = .ok r →
      ∃ t u category, s.Joins first last t u category ∧ r.Holds s t u category) ∧
    ∀ fault, (s.range first last = .error fault ↔ s.Unjoined first last fault) ∧
      (s.range first last = .error fault →
        s.Declares first ∧ s.Declares last ∧ fault.kind = .misplacedKind ∨
          ¬ (s.Declares first ∧ s.Declares last) ∧ fault.kind = .unknownKindName) := by
  have sound := TagSpace.reachableSound reachable
  have small : s.slots.size < UInt32.size := Nat.lt_succ_of_le room
  refine ⟨⟨?made, ?found⟩, fun r ok => ?_, fun fault => ?_⟩
  case made =>
    rintro ⟨r, ok⟩
    obtain ⟨t, u, category, joins, _⟩ := (TagSpace.rangedIff sound.indexed).mp ok
    exact ⟨t, u, category, joins⟩
  case found =>
    rintro ⟨t, u, category, joins⟩
    exact ⟨_, TagSpace.joinedRange joins⟩
  · obtain ⟨t, u, category, joins, rfl⟩ := (TagSpace.rangedIff sound.indexed).mp ok
    exact ⟨t, u, category, joins, TagSpace.joinedHolds (sound.partitioned small) small joins⟩
  · have refused : s.range first last = .error fault ↔ s.Unjoined first last fault :=
      TagSpace.unrangedIff sound.indexed
    exact ⟨refused, fun failed => TagSpace.unjoinedKind (refused.mp failed)⟩

theorem miniatureRanges :
    (∃ category, KindRange.Holds ⟨4, 6⟩ (miniatureSpace.evolve miniatureLife) 4 5 category) ∧
    (miniatureSpace.evolve miniatureLife).Unjoined "variable" "pair"
      (.mixedRange "variable" "pair") ∧
    (miniatureSpace.evolve miniatureLife).Unjoined "box" "late" (.unknownKindName "late") := by
  obtain ⟨_, holds, _⟩ := rangesJoinKinds miniatureReachable (by decide) "pair" "box"
  obtain ⟨_, _, mixed⟩ := rangesJoinKinds miniatureReachable (by decide) "variable" "pair"
  obtain ⟨_, _, unknown⟩ := rangesJoinKinds miniatureReachable (by decide) "box" "late"
  obtain ⟨t, u, category, joins, held⟩ := holds ⟨4, 6⟩ rfl
  cases joins.start
  cases joins.stop
  exact ⟨⟨category, held⟩, (mixed _).1.mp rfl, (unknown _).1.mp rfl⟩

end TaggedHeap
