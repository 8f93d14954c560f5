import TaggedHeap.Proofs.Dispatch.Completeness

/-! What a later space keeps of an earlier one. Slots are only added, and only at the end, so a tag
keeps what was assigned to it; the end of the runtime kinds stops moving with the first internal
kind; and nothing at all happens to a frozen space. -/
namespace TaggedHeap

namespace TagSpace

variable {s middle later : TagSpace}

structure Extends (s later : TagSpace) : Prop where
  slots : ∀ (i : Nat) (slot : Slot), s.slots[i]? = some slot → later.slots[i]? = some slot
  size : s.slots.size ≤ later.slots.size
  values : later.values = s.values
  compiledValues : later.compiledValues = s.compiledValues
  lastNormal : s.lastNormal.toNat ≤ later.lastNormal.toNat
  settled : s.lastNormal.toNat < s.slots.size → later.lastNormal = s.lastNormal
  frozen : s.isFrozen = true → later = s

theorem extendsRefl (s : TagSpace) : Extends s s where
  slots _ _ found := found
  size := Nat.le_refl _
  values := rfl
  compiledValues := rfl
  lastNormal := Nat.le_refl _
  settled _ := rfl
  frozen _ := rfl

theorem extendsTrans (first : Extends s middle) (second : Extends middle later) :
    Extends s later where
  slots i slot found := second.slots i slot (first.slots i slot found)
  size := Nat.le_trans first.size second.size
  values := second.values.trans first.values
  compiledValues := second.compiledValues.trans first.compiledValues
  lastNormal := Nat.le_trans first.lastNormal second.lastNormal
  settled internal := by
    have same := first.settled internal
    have still : middle.lastNormal.toNat < middle.slots.size :=
      same ▸ Nat.lt_of_lt_of_le internal first.size
    exact (second.settled still).trans same
  frozen done := by
    have same := first.frozen done
    subst same
    exact second.frozen done

theorem freezeFrozen (done : s.isFrozen = true) : s.freeze = s := by
  cases s
  cases eq_of_beq done
  rfl

theorem pushKeeps {slots : Array Slot} {slot added : Slot} {i : Nat} (found : slots[i]? = some slot) :
    (slots.push added)[i]? = some slot := by
  have inside := (Array.getElem?_eq_some_iff.mp found).1
  rw [pushedBelow (Nat.ne_of_lt inside)]
  exact found

theorem stepExtends (step : Step s later) : Extends s later := by
  cases step with
  | freeze =>
    exact ⟨fun _ _ found => found, Nat.le_refl _, rfl, rfl, Nat.le_refl _, fun _ => rfl,
      freezeFrozen⟩
  | @runtime name tag names lastNormal growing atEnd numbered declares next =>
    obtain ⟨_, position⟩ := tagAtOk next
    refine ⟨fun _ _ => pushKeeps, by simp, rfl, rfl, ?_, ?_, ?_⟩
    · change s.lastNormal.toNat ≤ lastNormal.toNat
      omega
    · intro internal
      omega
    · intro done
      simp [done] at growing
  | overrun growing atEnd numbered declares full =>
    exact ⟨fun _ _ => pushKeeps, by simp, rfl, rfl, Nat.le_refl _, fun _ => rfl,
      fun done => by simp [done] at growing⟩
  | internal growing tier numbered declares =>
    exact ⟨fun _ _ => pushKeeps, by simp, rfl, rfl, Nat.le_refl _, fun _ => rfl,
      fun done => by simp [done] at growing⟩

theorem stepsExtend (steps : Steps s later) : Extends s later := by
  induction steps with
  | refl => exact extendsRefl s
  | tail _ step ih => exact extendsTrans ih (stepExtends step)

theorem evolveAppend (s : TagSpace) (early late : List Change) :
    s.evolve (early ++ late) = (s.evolve early).evolve late := List.foldl_append

theorem evolveExtends (s : TagSpace) (changes : List Change) : Extends s (s.evolve changes) :=
  stepsExtend (evolveSteps s changes)

theorem frozenOn {changes : List Change} (member : .freeze ∈ changes) (s : TagSpace) :
    (s.evolve changes).isFrozen = true := by
  obtain ⟨early, late, rfl⟩ := List.append_of_mem member
  rw [evolveAppend]
  have same := (evolveExtends (s.evolve early).freeze late).frozen rfl
  change ((s.evolve early).freeze.evolve late).isFrozen = true
  rw [same]
  rfl

theorem frozenRegister (done : s.isFrozen = true) (k : Declaration) :
    s.register k = (.error .spaceFrozen, s) := by
  have refused : s.accept k = .error .spaceFrozen := by
    simp [accept, requireGrowing, done, bind, Except.bind]
  rw [register, refused]

theorem frozenAppend (done : s.isFrozen = true) (tier : InternalTier) :
    tier.appendTo s = .error .spaceFrozen := by
  simp [InternalTier.appendTo, append, requireGrowing, done, bind, Except.bind]

structure Keeps (now later : TagSpace) : Prop where
  assigned : ∀ t, t < now.last → later.nameAt t = now.nameAt t ∧ later.kindAt t = now.kindAt t ∧
    later.markerAt t = now.markerAt t ∧ later.isReserved t = now.isReserved t
  named : ∀ name t, now.tagNamed name = .ok t → later.tagNamed name = .ok t
  covered : ∀ t, t < now.last → ∃ category,
    (∀ other, now.boundaries.Covers other t ↔ other = category) ∧
      ∀ other, later.boundaries.Covers other t ↔ other = category
  values : later.values = now.values
  compiledValues : later.compiledValues = now.compiledValues
  lastNormal : now.lastNormal ≤ later.lastNormal
  last : now.last ≤ later.last
  settled : ∀ t k, now.kindAt t = some k → k.category = .internalOnly →
    later.lastNormal = now.lastNormal

theorem extendsNamed (grown : Extends s later) (before : s.Sound) (after : later.Sound)
    {name : String} {t : Tag} (named : s.tagNamed name = .ok t) : later.tagNamed name = .ok t := by
  obtain ⟨category, found⟩ := nameSlot.mp ((namedIff before.indexed).mp named)
  exact (namedIff after.indexed).mpr (nameSlot.mpr ⟨category, grown.slots _ _ found⟩)

theorem internalInside (partitioned : s.Partitioned) {t : Tag} {k : KindInfo}
    (found : s.kindAt t = some k) (internal : k.category = .internalOnly) :
    s.lastNormal.toNat < s.slots.size := by
  have held := (kindSlot.mp found).1
  rw [internal] at held
  have low : s.lastNormal.toNat ≤ t.toNat := partitioned.arranged t.toNat _ held
  exact Nat.lt_of_le_of_lt low (Array.getElem?_eq_some_iff.mp held).1

theorem extendsKeeps (grown : Extends s later) (before : s.Sound) (after : later.Sound)
    (room : later.slots.size < UInt32.size) : s.Keeps later := by
  have earlier : s.slots.size < UInt32.size := Nat.lt_of_le_of_lt grown.size room
  refine ⟨?assigned, fun _ _ => extendsNamed grown before after, ?covered, grown.values,
    grown.compiledValues, UInt32.le_iff_toNat_le.mpr grown.lastNormal, ?last, ?settled⟩
  case assigned =>
    intro t below
    obtain ⟨slot, found⟩ := belowSlot below
    have same : later.slotAt t = s.slotAt t := (grown.slots _ _ found).trans found.symm
    simp [nameAt, kindAt, markerAt, isReserved, same]
  case covered =>
    intro t below
    obtain ⟨slot, found⟩ := belowSlot below
    exact ⟨slot.category, fun _ => slotCoversIff before earlier found,
      fun _ => slotCoversIff after room (grown.slots _ _ found)⟩
  case last =>
    rw [UInt32.le_iff_toNat_le, lastExact earlier, lastExact room]
    exact grown.size
  case settled =>
    intro t k found internal
    exact grown.settled (internalInside (before.partitioned earlier) found internal)

end TagSpace

/-- From any point of a space's life to any later one the tags in use keep what they stand for. A
frozen space stays as it is, refuses whatever is offered, and is what its classifier and its tables
go on telling of. -/
theorem lifeKeepsTags {α ω : Type} {catalog tier start} (built : TagSpace.build catalog tier = .ok start)
    (early late : List Change) (room : (start.evolve (early ++ late)).size ≤ 4294967295) :
    (start.evolve early).Keeps (start.evolve (early ++ late)) ∧
    (.freeze ∈ early →
      start.evolve (early ++ late) = start.evolve early ∧
      (∀ k, (start.evolve (early ++ late)).register k = (.error .spaceFrozen, start.evolve early)) ∧
      (∀ offered : InternalTier,
        offered.appendTo (start.evolve (early ++ late)) = .error .spaceFrozen) ∧
      (∃ c, Classifier.ofSpace (start.evolve early) = .ok c ∧
        c.Agrees (start.evolve (early ++ late))) ∧
      ∀ (fresh : DispatchBuilder α ω) subsystems d,
        DispatchBuilder.ofSpace (start.evolve early) = .ok fresh →
        (fresh.installEach subsystems).finish = .ok d →
          d.space = start.evolve (early ++ late) ∧ d.Complete) := by
  have before := (TagSpace.evolvedSound built early).1
  have after := (TagSpace.evolvedSound built (early ++ late)).1
  have small : (start.evolve (early ++ late)).slots.size < UInt32.size := Nat.lt_succ_of_le room
  have grown : (start.evolve early).Extends (start.evolve (early ++ late)) :=
    TagSpace.evolveAppend start early late ▸ TagSpace.evolveExtends _ late
  refine ⟨TagSpace.extendsKeeps grown before after small, fun member => ?_⟩
  have frozen := TagSpace.frozenOn member start
  have reachable : (start.evolve early).Reachable := ⟨catalog, tier, start, early, built, rfl⟩
  rw [grown.frozen frozen] at small ⊢
  refine ⟨rfl, TagSpace.frozenRegister frozen, TagSpace.frozenAppend frozen,
    ⟨_, Classifier.ofSpaceIff.mpr ⟨frozen, rfl⟩, Classifier.soundAgrees before small⟩, ?_⟩
  intro fresh subsystems d made finished
  obtain ⟨same, _, complete⟩ := DispatchTable.finishedHistory reachable made finished
  exact ⟨same, complete⟩

def miniatureAfterlife : List Change :=
  [.register ⟨"later", .runtimeKind⟩, .append .empty, .append ⟨["pair", "pair"]⟩]

theorem miniatureKeepsTags :
    (miniatureSpace.evolve [.register ⟨"box", .runtimeKind⟩]).Keeps
      (miniatureSpace.evolve miniatureLife) ∧
    miniatureSpace.evolve (miniatureLife ++ miniatureAfterlife) =
      miniatureSpace.evolve miniatureLife ∧
    ∃ c, Classifier.ofSpace (miniatureSpace.evolve miniatureLife) = .ok c ∧
      c.Agrees (miniatureSpace.evolve (miniatureLife ++ miniatureAfterlife)) := by
  have built : TagSpace.build miniature true = .ok miniatureSpace := rfl
  obtain ⟨keeps, _⟩ := lifeKeepsTags (α := Unit) (ω := Unit) built
    [.register ⟨"box", .runtimeKind⟩] miniatureLife.tail (by decide)
  obtain ⟨_, still⟩ := lifeKeepsTags (α := Unit) (ω := Unit) built miniatureLife miniatureAfterlife
    (by decide)
  obtain ⟨same, _, _, classified, _⟩ := still (by decide)
  exact ⟨keeps, same, classified⟩

end TaggedHeap
