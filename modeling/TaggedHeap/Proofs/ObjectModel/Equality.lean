import TaggedHeap.Proofs.ObjectModel.Answers

/-! Equality and hashing of values. Subsystems answer for the equalities of their own kinds; that they
make up one equality over all values, with a hash to it, is the model's part. Operands that are no
values are another matter: only the first of them is looked at. -/
namespace TaggedHeap

structure Equality.Lawful {α : Type} (equality : Equality α) (domain : HeapObject α → Prop) : Prop where
  reflexive : ∀ a, domain a → equality.equals a a = true
  symmetric : ∀ a b, domain a → domain b → equality.equals a b = true → equality.equals b a = true
  transitive : ∀ a b c, domain a → domain b → domain c →
    equality.equals a b = true → equality.equals b c = true → equality.equals a c = true
  digests : ∀ a b, domain a → domain b →
    equality.equals a b = true → equality.digest a = equality.digest b

theorem Equality.identityLawful {α : Type} (domain : HeapObject α → Prop) :
    (Equality.identity : Equality α).Lawful domain := by
  constructor <;> simp +contextual [identity]

namespace ObjectModel

variable {α ω : Type} {m : ObjectModel α ω} {t : Tag} {a b c : HeapObject α}

def EqualitiesLawful (m : ObjectModel α ω) : Prop :=
  ∀ t name e equality, m.space.slotAt t = some (.kind name .runtimeKind) →
    m.lookup t = .ok e → e.equality = some equality → equality.Lawful fun o => o.tag = t

theorem reservedEntry (finished : m.Finished) {marker : Boundary} {e : Entry α ω}
    (reserved : m.space.markerAt t = some marker) (found : m.lookup t = .ok e) :
    e = Entry.reserved := by
  cases finished with
  | of reachable made subsystems finished modelled =>
    obtain ⟨same, consistent, _⟩ := DispatchTable.finishedHistory reachable made finished
    obtain ⟨_, rfl⟩ := DispatchBuilder.finishedIff.mp finished
    obtain ⟨_, rfl⟩ := ofTableIff.mp modelled
    rw [← (consistent.reserved t marker reserved).1]
    simp [DispatchBuilder.entryAt, DispatchTable.lookupIff.mp found]

theorem tagEquality (finished : m.Finished) (room : m.space.slots.size < UInt32.size)
    (value : m.IsValue a) : ∃ equality, (m.EqualitiesLawful → equality.Lawful fun o => o.tag = a.tag) ∧
      ∀ o, o.tag = a.tag → m.hash o = .ok (hashed equality o) ∧
        ∀ b, m.equals o b = .ok (if o.tag = b.tag then equality.equals o b else false) := by
  have whole := finishedWhole finished
  obtain ⟨e, printer, equality, found, prints, compares⟩ := valueEquipped whole room value
  refine ⟨equality, fun lawful => ?_, fun o same => ?_⟩
  · obtain ⟨slot, here⟩ := TagSpace.belowSlot (valueBelow whole room value)
    cases slot with
    | kind name category =>
      have classified := Classifier.slotClassified (TagSpace.reachableSound whole.reachable) room here
      rw [← whole.classifier] at classified
      cases classified.symm.trans value
      exact lawful a.tag name e equality here found compares
    | reserved marker =>
      -- no subsystem answers for a boundary's slot, whose equality is built in
      cases reservedEntry finished (TagSpace.markerSlot.mpr here) found
      cases compares
      exact Equality.identityLawful _
  · have value' : m.IsValue o := (congrArg m.classify same).trans value
    exact (answered value' (same.symm ▸ found) prints compares).2

theorem differentTags (finished : m.Finished) (room : m.space.slots.size < UInt32.size)
    (other : a.tag ≠ b.tag) : (m.IsValue a → m.equals a b = .ok false) ∧ m.equals a b ≠ .ok true := by
  by_cases value : m.IsValue a
  · obtain ⟨equality, _, answers⟩ := tagEquality finished room value
    have unequal : m.equals a b = .ok false := by rw [(answers a rfl).2 b, if_neg other]
    exact ⟨fun _ => unequal, by simp [unequal]⟩
  · exact ⟨fun same => absurd same value,
      by simp [(refused (finishedWhole finished) value).2.2 b]⟩

theorem equalTags (finished : m.Finished) (room : m.space.slots.size < UInt32.size)
    (equal : m.equals a b = .ok true) : a.tag = b.tag :=
  Decidable.byContradiction fun other => (differentTags finished room other).2 equal

structure EqualityLaws (m : ObjectModel α ω) : Prop where
  reflexive : ∀ a, m.IsValue a → m.equals a a = .ok true
  symmetric : ∀ a b, m.IsValue a → m.IsValue b → m.equals a b = m.equals b a
  transitive : ∀ a b c, m.IsValue a → m.IsValue b → m.IsValue c →
    m.equals a b = .ok true → m.equals b c = .ok true → m.equals a c = .ok true
  hashes : ∀ a b, m.IsValue a → m.IsValue b → m.equals a b = .ok true →
    ∃ h, m.hash a = .ok h ∧ m.hash b = .ok h

theorem lawfulEquality (finished : m.Finished) (room : m.space.slots.size < UInt32.size)
    (lawful : m.EqualitiesLawful) : m.EqualityLaws := by
  refine ⟨?reflexive, ?symmetric, ?transitive, ?hashes⟩
  case reflexive =>
    intro a value
    obtain ⟨equality, laws, answers⟩ := tagEquality finished room value
    rw [(answers a rfl).2 a, if_pos rfl, (laws lawful).reflexive a rfl]
  case symmetric =>
    intro a b value value'
    by_cases same : b.tag = a.tag
    · obtain ⟨equality, laws, answers⟩ := tagEquality finished room value
      have symmetric := (laws lawful).symmetric
      rw [(answers a rfl).2 b, (answers b same).2 a, if_pos same.symm, if_pos same,
        Bool.eq_iff_iff.mpr ⟨symmetric a b rfl same, symmetric b a same rfl⟩]
    · rw [(differentTags finished room (Ne.symm same)).1 value,
        (differentTags finished room same).1 value']
  case transitive =>
    intro a b c value _ _ first second
    have same : b.tag = a.tag := (equalTags finished room first).symm
    have same' : c.tag = a.tag := (equalTags finished room second).symm.trans same
    obtain ⟨equality, laws, answers⟩ := tagEquality finished room value
    rw [(answers a rfl).2 b, if_pos same.symm] at first
    rw [(answers b same).2 c, if_pos (same.trans same'.symm)] at second
    rw [(answers a rfl).2 c, if_pos same'.symm, (laws lawful).transitive a b c rfl same same'
      (Except.ok.inj first) (Except.ok.inj second)]
  case hashes =>
    intro a b value _ equal
    have same : b.tag = a.tag := (equalTags finished room equal).symm
    obtain ⟨equality, laws, answers⟩ := tagEquality finished room value
    rw [(answers a rfl).2 b, if_pos same.symm] at equal
    have digests := (laws lawful).digests a b rfl same (Except.ok.inj equal)
    refine ⟨_, (answers a rfl).1, (answers b same).1.trans ?_⟩
    rw [hashed, hashed, same, digests]

end ObjectModel

/-- Equality of values always has an answer and never holds across tags, whoever registered what; and
where the registered equalities are lawful, each for its own kind, the whole of it is. -/
theorem valuesCompare {α ω : Type} {m : ObjectModel α ω} (finished : m.Finished)
    (room : m.space.size ≤ 4294967295) :
    (∀ a b, m.IsValue a → ∃ equal, m.equals a b = .ok equal) ∧
    (∀ a b, a.tag ≠ b.tag → (m.IsValue a → m.equals a b = .ok false) ∧ m.equals a b ≠ .ok true) ∧
    (m.EqualitiesLawful → m.EqualityLaws) := by
  have small : m.space.slots.size < UInt32.size := Nat.lt_succ_of_le room
  refine ⟨fun a b value => ?_, fun a b => ObjectModel.differentTags finished small,
    ObjectModel.lawfulEquality finished small⟩
  obtain ⟨_, _, answers⟩ := ObjectModel.tagEquality finished small value
  exact ⟨_, (answers a rfl).2 b⟩

theorem parityLawful (domain : HeapObject Nat → Prop) : parity.Lawful domain := by
  refine ⟨?_, ?_, ?_, ?_⟩ <;> simp only [parity, beq_iff_eq]
  · exact fun _ _ => trivial
  · exact fun _ _ _ _ same => same.symm
  · exact fun _ _ _ _ _ _ first second => first.trans second
  · exact fun _ _ _ _ same => by rw [same]

theorem countingLawful : countingModel.EqualitiesLawful := by
  intro t name e equality here found has
  have values : ∀ i < 7, countingModel.space.slots[i]?.map Slot.category = some .runtimeKind →
      i = 3 ∨ i = 4 ∨ i = 5 := by decide +kernel
  have inside : t.toNat < 7 := (Array.getElem?_eq_some_iff.mp here).1
  have stored : countingModel.dispatch.entries[t.toNat]?.bind Entry.equality = some equality := by
    rw [DispatchTable.lookupIff.mp found]
    exact has
  have four : countingModel.dispatch.entries[4]?.bind Entry.equality = some parity := by
    with_unfolding_all rfl
  have five : countingModel.dispatch.entries[5]?.bind Entry.equality = some Equality.identity := by
    with_unfolding_all rfl
  rcases values t.toNat inside (by rw [← TagSpace.slotAt, here]; rfl) with at3 | at4 | at5
  · rw [TagSpace.slotAt, at3] at here
    cases here
  · rw [at4, four] at stored
    cases stored
    exact parityLawful _
  · rw [at5, five] at stored
    cases stored
    exact Equality.identityLawful _

theorem countingCompares : countingModel.equals (countingObject 4 7) (countingObject 4 9) = .ok true ∧
    ∃ h, countingModel.hash (countingObject 4 7) = .ok h ∧
      countingModel.hash (countingObject 4 9) = .ok h := by
  obtain ⟨_, _, laws⟩ := valuesCompare (miniatureWithFinished countingGapless) (by decide)
  have equal : countingModel.equals (countingObject 4 7) (countingObject 4 9) = .ok true := by
    with_unfolding_all rfl
  exact ⟨equal, (laws countingLawful).hashes _ _ rfl rfl equal⟩

/-- An operand that is no value is a fault on the left and goes unnoticed on the right, unless it has
the tag of the left one. -/
theorem leftFaultsSurface {α ω : Type} {m : ObjectModel α ω} (finished : m.Finished)
    (room : m.space.size ≤ 4294967295) (a b : HeapObject α) :
    ((∃ fault, m.equals a b = .error fault) ↔ ¬ m.IsValue a) ∧
    (¬ m.IsValue a → m.equals a b = .error (m.space.refusal .equals a.tag) ∧
      (m.space.refusal .equals a.tag).kind =
        if a.tag < m.space.last then .wrongCategory else .unknownTag) ∧
    (m.IsValue a → ¬ m.IsValue b → m.equals a b = .ok false ∧
      m.equals b a = .error (m.space.refusal .equals b.tag)) := by
  have whole := ObjectModel.finishedWhole finished
  have small : m.space.slots.size < UInt32.size := Nat.lt_succ_of_le room
  have refusal := TagSpace.refusalKind (TagSpace.reachableSound whole.reachable) small .equals
  have refuses : ∀ {a b}, ¬ m.IsValue a → m.equals a b = .error (m.space.refusal .equals a.tag) :=
    fun other => (ObjectModel.refused whole other).2.2 _
  refine ⟨⟨fun facts value => ?_, fun other => ⟨_, refuses other⟩⟩,
    fun other => ⟨refuses other, refusal a.tag⟩, fun value other => ⟨?_, refuses other⟩⟩
  · obtain ⟨fault, failed⟩ := facts
    obtain ⟨_, _, answers⟩ := ObjectModel.tagEquality finished small value
    exact nomatch failed.symm.trans ((answers a rfl).2 b)
  · have tags : a.tag ≠ b.tag := fun same => other ((congrArg m.classify same).symm.trans value)
    exact (ObjectModel.differentTags finished small tags).1 value

theorem countingSurfaces :
    countingModel.equals (countingObject 99 9) (countingObject 4 7) = .error (.unknownTag 99 7) := by
  obtain ⟨_, surfaces, _⟩ := leftFaultsSurface (miniatureWithFinished countingGapless) (by decide)
    (countingObject 99 9) (countingObject 4 7)
  exact (surfaces nofun).1

theorem rightFaultsPass :
    countingModel.equals (countingObject 4 7) (countingObject 99 9) = .ok false ∧
    countingModel.equals (countingObject 4 7) (countingObject 0 9) = .ok false ∧
    countingModel.equals (countingObject 99 9) (countingObject 4 7) = .error (.unknownTag 99 7) ∧
    countingModel.equals (countingObject 0 9) (countingObject 4 7) =
      .error (.notAValue .equals 0 "toplevel" .compiledSyntaxForm) := by
  with_unfolding_all exact ⟨rfl, rfl, rfl, rfl⟩

end TaggedHeap
