import Std.Data.String.ToNat
import TaggedHeap.Proofs.Space.Acceptance

/-! How far the numbering goes. `last` is a tag too, so a space has to leave one tag to it. Building a
space and registering a kind number what comes after the new slot and fail where that has no tag; an
internal kind is numbered itself, and may take the tag that `last` needs. -/
namespace TaggedHeap

theorem Classifier.runtimeBetween {c : Classifier} {t : Tag}
    (classified : c.classify t = .ok .runtimeKind) :
    c.bounds.compiledValues ≤ t ∧ t < c.bounds.lastNormal := by
  unfold classify at classified
  repeat' split at classified
  all_goals cases classified
  rename_i _ low high
  exact ⟨UInt32.not_lt.mp low, high⟩

namespace TagSpace

variable {s grown : TagSpace} {k : Declaration} {tier : InternalTier}

theorem reachableAfter (reachable : s.Reachable) (change : Change) : (s.after change).Reachable := by
  obtain ⟨catalog, tier, start, changes, built, rfl⟩ := reachable
  refine ⟨catalog, tier, start, changes ++ [change], built, ?_⟩
  rw [evolve, evolve, List.foldl_append]
  rfl

theorem reachableSize (reachable : s.Reachable) : s.size ≤ UInt32.size :=
  (reachableSound reachable).bounded

theorem foldCounted {offered : List String} (ok : offered.foldlM addInternal s = .ok grown) :
    grown.size = s.size + offered.length := by
  induction offered generalizing s with
  | nil =>
    cases ok
    rfl
  | cons name rest ih =>
    rw [List.foldlM_cons] at ok
    obtain ⟨next, added, later⟩ := bindOk.mp ok
    obtain ⟨_, tag, names, _, _, rfl⟩ := addInternalOk added
    rw [ih later, size, size, Array.size_push, List.length_cons]
    omega

theorem appendCounted (ok : tier.appendTo s = .ok grown) : grown.size = s.size + tier.size :=
  foldCounted (appendIff.mp ok).2.2

theorem afterAppend (ok : tier.appendTo s = .ok grown) : s.after (.append tier) = grown := by
  rw [after, ok]

theorem appendFits (reachable : s.Reachable) (ok : tier.appendTo s = .ok grown) :
    s.size + tier.size ≤ UInt32.size := by
  rw [← appendCounted ok, ← afterAppend ok]
  exact reachableSize (reachableAfter reachable _)

theorem registerFailed {fault : Fault} (failed : (s.register k).1 = .error fault) :
    (s.register k).2 = s ∨ s.size + 1 = UInt32.size ∧ fault = .numberingExhausted UInt32.size := by
  unfold register at failed ⊢
  split at failed
  · exact .inl rfl
  · rename_i tag names accepted
    right
    obtain ⟨_, _, _, numbered, _⟩ := acceptedFacts accepted
    have room := (tagAtOk numbered).1
    dsimp only at failed
    split at failed <;> cases failed
    rename_i exhausted
    obtain ⟨full, rfl⟩ := tagAtError exhausted
    rw [Array.size_push] at full ⊢
    have exact : s.slots.size + 1 = UInt32.size := by omega
    exact ⟨exact, congrArg Fault.numberingExhausted exact⟩

theorem registerNumbered {tag : Tag} (ok : (s.register k).1 = .ok tag) :
    (s.register k).2.size = s.size + 1 ∧ s.size + 1 < UInt32.size := by
  unfold register at ok ⊢
  split at ok
  · cases ok
  · dsimp only at ok ⊢
    split at ok <;> try contradiction
    rename_i lastNormal next
    rw [Array.size_push] at next
    exact ⟨Array.size_push _, (tagAtOk next).1⟩

structure Numbered (s : TagSpace) : Prop where
  counted : s.last.toNat = s.size
  inOrder : s.boundaries.isOrdered = true
  derived : ∃ c, Classifier.ofSpace s.freeze = .ok c ∧ ∀ t, c.isValid t = s.isValid t

structure Overrun (s : TagSpace) : Prop where
  wrapped : s.last = 0
  disorder : s.boundaries.isOrdered = false
  derived : ∃ c, Classifier.ofSpace s.freeze = .ok c ∧
    ∀ t, c.isValid t = false ∧ s.isValid t = true

theorem numbered (sound : s.Sound) (room : s.slots.size < UInt32.size) : s.Numbered where
  counted := lastExact room
  inOrder := partitionedOrdered (sound.partitioned room) room
  derived := by
    refine ⟨_, Classifier.ofSpaceIff.mpr ⟨rfl, rfl⟩, fun t => ?_⟩
    change decide (t < s.last) = decide (t.toNat < s.slots.size)
    rw [decide_eq_decide, UInt32.lt_iff_toNat_lt, lastExact room]

theorem overrun (full : s.size = UInt32.size) : s.Overrun := by
  have wrapped : s.last = 0 := by
    rw [← UInt32.toNat_inj, lastReduced, show s.slots.size = UInt32.size from full, Nat.mod_self]
    rfl
  refine ⟨wrapped, ?_, _, Classifier.ofSpaceIff.mpr ⟨rfl, rfl⟩, fun t => ⟨?_, ?_⟩⟩
  · refine Bool.eq_false_iff.mpr fun ordered => ?_
    have inOrder := orderedIff.mp ordered
    simp only [boundaries, wrapped, UInt32.toNat_zero] at inOrder
    omega
  · change decide (t < s.last) = false
    simp [wrapped]
  · change decide (t.toNat < s.slots.size) = true
    rw [show s.slots.size = UInt32.size from full]
    exact decide_eq_true t.toNat_lt

inductive Fills (s : TagSpace) : Change → Prop where
  | register {k : Declaration} (lastTag : s.size + 1 = UInt32.size)
      (refused : (s.register k).1 = .error (.numberingExhausted UInt32.size)) :
      Fills s (.register k)
  | append {tier : InternalTier} {grown : TagSpace} (exact : s.size + tier.size = UInt32.size)
      (accepted : tier.appendTo s = .ok grown) : Fills s (.append tier)

theorem filled {change : Change} (room : s.size < UInt32.size)
    (full : (s.after change).size = UInt32.size) : s.Fills change := by
  cases change with
  | freeze => exact absurd full (Nat.ne_of_lt room)
  | register k =>
    change (s.register k).2.size = _ at full
    cases outcome : (s.register k).1 with
    | ok tag =>
      obtain ⟨counted, below⟩ := registerNumbered outcome
      omega
    | error fault =>
      rcases registerFailed outcome with same | ⟨lastTag, rfl⟩
      · rw [same] at full
        exact absurd full (Nat.ne_of_lt room)
      · exact .register lastTag outcome
  | append tier =>
    cases outcome : tier.appendTo s with
    | ok grown =>
      rw [afterAppend outcome, appendCounted outcome] at full
      exact .append full outcome
    | error fault =>
      simp only [after, outcome] at full
      exact absurd full (Nat.ne_of_lt room)

structure Settled (s : TagSpace) : Prop where
  fits : ∀ (i : Nat) (slot : Slot), i < s.lastNormal.toNat → s.slots[i]? = some slot →
    slot.FitsAt s.values.toNat s.compiledValues.toNat s.lastNormal.toNat i
  inOrder : s.values.toNat < s.compiledValues.toNat
  opened : s.compiledValues.toNat < s.lastNormal.toNat
  inside : s.lastNormal.toNat ≤ s.slots.size

theorem partitionedSettled (partitioned : s.Partitioned) : s.Settled :=
  ⟨fun i slot _ => partitioned.arranged i slot, partitioned.inOrder, partitioned.opened,
    partitioned.inside⟩

theorem pushSettled (settled : s.Settled) (names : NameIndex) (slot : Slot) :
    Settled { s with names, slots := s.slots.push slot } := by
  obtain ⟨fits, inOrder, opened, inside⟩ := settled
  refine ⟨fun i other below found => ?_, inOrder, opened, ?_⟩
  · have old : i ≠ s.slots.size := Nat.ne_of_lt (Nat.lt_of_lt_of_le below inside)
    exact fits i other below (pushedBelow old ▸ found)
  · rw [Array.size_push]
    exact Nat.le_succ_of_le inside

theorem stepSettled {next : TagSpace} (step : Step s next) (settled : s.Settled) : next.Settled := by
  cases step with
  | freeze => exact ⟨settled.fits, settled.inOrder, settled.opened, settled.inside⟩
  | overrun | internal => exact pushSettled settled _ _
  | @runtime name tag names lastNormal growing atEnd numbered declares next =>
    obtain ⟨fits, inOrder, opened, inside⟩ := settled
    obtain ⟨_, position⟩ := tagAtOk next
    refine ⟨fun i slot below found => ?_, inOrder, ?_, ?_⟩
    · rw [Array.getElem?_push] at found
      split at found
      · rename_i new
        cases Option.some.inj found
        exact ⟨new ▸ atEnd ▸ opened, below⟩
      · have old := (Array.getElem?_eq_some_iff.mp found).1
        have moves : EdgeMoves s.slots.size s.lastNormal.toNat lastNormal.toNat :=
          .inr ⟨Nat.le_of_eq atEnd, by omega⟩
        exact fitsMoved (fits i slot (atEnd ▸ old) found) old (edgeStays _ _) (edgeStays _ _) moves
    · change s.compiledValues.toNat < lastNormal.toNat
      omega
    · rw [Array.size_push]
      exact Nat.le_of_eq position

theorem builtCounted {catalog : Catalog} {internalTier : Bool}
    (built : build catalog internalTier = .ok s) :
    s.size = catalog.size ∧ catalog.size < UInt32.size := by
  obtain ⟨d, _, finished, follows, _⟩ := builtFrom built
  have counted : d.slots.size = catalog.size := Draft.followsSize follows
  obtain ⟨_, _, _, _, _, numbered, rfl⟩ := Draft.finishedIff.mp finished
  exact ⟨counted, counted ▸ (tagAtOk numbered).1⟩

theorem reachableSettled (reachable : s.Reachable) : s.Settled := by
  obtain ⟨_, _, start, changes, built, rfl⟩ := reachable
  obtain ⟨counted, room⟩ := builtCounted built
  have small : start.slots.size < UInt32.size := Nat.lt_of_le_of_lt (Nat.le_of_eq counted) room
  have first : start.Settled := partitionedSettled ((builtSound built).1.partitioned small)
  have steps := evolveSteps start changes
  generalize start.evolve changes = last at steps
  induction steps with
  | refl => exact first
  | tail _ step ih => exact stepSettled step ih

theorem runtimeSlot (reachable : s.Reachable) {t : Tag}
    (classified : (⟨s.boundaries⟩ : Classifier).classify t = .ok .runtimeKind) :
    ∃ slot, s.slotAt t = some slot ∧ slot.category = .runtimeKind := by
  obtain ⟨fits, inOrder, opened, inside⟩ := reachableSettled reachable
  obtain ⟨low, high⟩ := Classifier.runtimeBetween classified
  have low : s.compiledValues.toNat ≤ t.toNat := UInt32.le_iff_toNat_le.mp low
  have high : t.toNat < s.lastNormal.toNat := UInt32.lt_iff_toNat_lt.mp high
  have found := Array.getElem?_eq_getElem (Nat.lt_of_lt_of_le high inside)
  refine ⟨_, found, ?_⟩
  have here := fits t.toNat _ high found
  generalize s.slots[t.toNat] = slot at here
  rcases slot with ⟨name, _ | _ | _ | _⟩ | ⟨_ | _⟩ <;> simp only [Slot.FitsAt] at here <;>
    first | rfl | omega

end TagSpace

theorem refusedUnless {ε α : Type} {outcome : Except ε α} (never : ∀ a, outcome ≠ .ok a) :
    ∃ fault, outcome = .error fault := by
  cases outcome with
  | ok a => exact absurd rfl (never a)
  | error fault => exact ⟨fault, rfl⟩

/-- The numbering holds in just the spaces that leave a tag to `last`. Catalogs and registrations that
leave it none are refused; so is an internal tier, unless it ends on the very last tag. -/
theorem numberingCounts {s : TagSpace} (reachable : s.Reachable) :
    s.size ≤ 4294967296 ∧
    (s.Numbered ↔ s.size ≤ 4294967295) ∧
    (s.Overrun ↔ s.size = 4294967296) ∧
    (∀ change, s.size ≤ 4294967295 → (s.after change).size = 4294967296 → s.Fills change) ∧
    (∀ catalog tier, 4294967295 < catalog.size →
      ∃ fault, TagSpace.build catalog tier = .error fault) ∧
    (∀ k, 4294967295 < s.size + 1 → ∃ fault, (s.register k).1 = .error fault) ∧
    ∀ tier : InternalTier, 4294967295 < s.size + tier.size → s.size + tier.size ≠ 4294967296 →
      ∃ fault, tier.appendTo s = .error fault := by
  have bounded : s.size ≤ 4294967296 := TagSpace.reachableSize reachable
  refine ⟨bounded, ⟨fun holds => ?_, fun room => ?_⟩, ⟨fun overrun => ?_, TagSpace.overrun⟩,
    fun change room => TagSpace.filled (Nat.lt_succ_of_le room), fun catalog tier large => ?build,
    fun k large => ?register, fun tier large other => ?append⟩
  · have below := s.last.toNat_lt
    rw [holds.counted] at below
    exact Nat.le_of_lt_succ below
  · exact TagSpace.numbered (TagSpace.reachableSound reachable) (Nat.lt_succ_of_le room)
  · obtain ⟨_, _, _, _, all⟩ := overrun
    have last : 4294967295 < s.size := of_decide_eq_true (all 4294967295).2
    exact Nat.le_antisymm bounded last
  case build =>
    refine refusedUnless fun built ok => ?_
    exact absurd (TagSpace.builtCounted ok).2 (Nat.not_lt.mpr large)
  case register =>
    refine refusedUnless fun tag ok => ?_
    exact absurd (TagSpace.registerNumbered ok).2 (Nat.not_lt.mpr large)
  case append =>
    refine refusedUnless fun grown ok => ?_
    have fits : s.size + tier.size ≤ 4294967296 := TagSpace.appendFits reachable ok
    omega

theorem miniatureNumbered : (miniatureSpace.evolve miniatureLife).Numbered := by
  obtain ⟨_, counts, _⟩ := numberingCounts miniatureReachable
  exact counts.mpr (by decide)

def Catalog.numbered (n : Nat) : Catalog :=
  layers [] [] ((List.range n).map fun i => "k-" ++ toString i)

theorem Catalog.numberedNames (n : Nat) :
    names (numbered n).entries = (List.range n).map fun i => "k-" ++ toString i := by
  simp only [numbered, layers, kindsNames, boundaryNames]
  rfl

theorem Catalog.numberedWellFormed (n : Nat) : (numbered n).WellFormed := by
  refine ⟨[], [], _, rfl, ?_⟩
  refine List.Nodup.map (fun i j same => ?_) List.nodup_range
  exact Nat.repr_inj.mp (String.append_right_inj _ |>.mp same)

theorem Catalog.numberedSize (n : Nat) : (numbered n).size = n + 2 := by
  simp [numbered, layers, size, kinds, boundary, empty]

theorem TagSpace.builtFresh {catalog : Catalog} {tier : Bool} {s : TagSpace} {name : String}
    (built : TagSpace.build catalog tier = .ok s) (fresh : name ∉ Catalog.names catalog.entries) :
    s.isFrozen = false ∧ s.internalTier = tier ∧ s.names[name]? = none := by
  obtain ⟨d, _, finished, follows, _⟩ := builtFrom built
  obtain ⟨_, _, _, _, _, _, rfl⟩ := Draft.finishedIff.mp finished
  refine ⟨rfl, rfl, Option.eq_none_iff_forall_ne_some.mpr fun t found => fresh ?_⟩
  obtain ⟨category, here⟩ := (Draft.followsName follows).mp found
  exact Catalog.namesMem.mpr ⟨_, category, here⟩

theorem TagSpace.addInternalFresh {s : TagSpace} {name : String} (growing : s.isFrozen = false)
    (fresh : s.names[name]? = none) (room : s.slots.size < UInt32.size) :
    ∃ grown, s.addInternal name = .ok grown := by
  have declares : s.names.declare name (UInt32.ofNat s.slots.size) =
      .ok (s.names.insert name (UInt32.ofNat s.slots.size)) := by
    rw [NameIndex.declare, fresh]
  have grows : s.requireGrowing = .ok () := by simp [requireGrowing, growing]
  exact ⟨_, bindOk.mpr ⟨_, grows, bindOk.mpr ⟨_, tagAtRoom room, bindOk.mpr ⟨_, declares, rfl⟩⟩⟩⟩

theorem lastTagTaken : ∃ s grown c,
    TagSpace.build (.numbered 4294967293) true = .ok s ∧ s.Numbered ∧
    InternalTier.appendTo ⟨["saved-stack"]⟩ s = .ok grown ∧
    grown.size = 4294967296 ∧ grown.last = 0 ∧ grown.boundaries.isOrdered = false ∧
    Classifier.ofSpace grown.freeze = .ok c ∧ grown.isValid 0 = true ∧ c.isValid 0 = false := by
  generalize count : 4294967293 = n
  have size : (Catalog.numbered n).size = 4294967295 := by
    rw [Catalog.numberedSize]
    omega
  obtain ⟨s, built⟩ := builtIff.mpr ⟨Catalog.numberedWellFormed n, size ▸ by decide⟩
  have counted : s.size = 4294967295 := (TagSpace.builtCounted built).1.trans size
  have room : s.slots.size < UInt32.size := Nat.lt_of_le_of_lt (Nat.le_of_eq counted) (by decide)
  have fresh : "saved-stack" ∉ Catalog.names (Catalog.numbered n).entries := by
    rw [Catalog.numberedNames]
    intro member
    obtain ⟨i, _, same⟩ := List.mem_map.mp member
    simpa using congrArg String.toList same
  obtain ⟨growing, tier, free⟩ := TagSpace.builtFresh built fresh
  obtain ⟨grown, added⟩ := TagSpace.addInternalFresh growing free room
  have appended : InternalTier.appendTo ⟨["saved-stack"]⟩ s = .ok grown :=
    TagSpace.appendIff.mpr ⟨growing, tier, by rw [List.foldlM_cons, added]; rfl⟩
  have full : grown.size = UInt32.size := by
    rw [TagSpace.appendCounted appended, counted]
    rfl
  obtain ⟨wrapped, disorder, c, derived, differ⟩ := TagSpace.overrun full
  exact ⟨s, grown, c, built, TagSpace.numbered (builtSound built).1 room, appended, full, wrapped,
    disorder, derived, (differ 0).2, (differ 0).1⟩

end TaggedHeap
