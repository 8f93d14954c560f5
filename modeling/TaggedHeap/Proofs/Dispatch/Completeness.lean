import TaggedHeap.ObjectModel.Basic
import TaggedHeap.Proofs.Dispatch.Registration
import TaggedHeap.Standard.Behaviors

/-! A finished table has no gap, for the tags of declared kinds and for those of boundaries alike.
The check before a table is finished looks at declared kinds and their stored category; the object
model asks the classifier and takes any tag. That the two fit is a matter of the space. -/
namespace TaggedHeap

namespace TagSpace

variable {s : TagSpace} {t : Tag}

theorem kindListed {name : String} {category : Category}
    (found : s.slotAt t = some (.kind name category)) : ⟨t, name, category⟩ ∈ s.kinds := by
  refine List.mem_filterMap.mpr ⟨(.kind name category, t.toNat), ?_, ?_⟩
  · rw [List.mk_mem_zipIdx_iff_getElem?, Array.getElem?_toList]
    exact found
  · simp [Slot.declared]

end TagSpace

namespace DispatchBuilder

variable {α ω : Type} {b fresh : DispatchBuilder α ω} {d : DispatchTable α ω} {t : Tag}

theorem finishedIff : b.finish = .ok d ↔ b.gaps = [] ∧ d = ⟨b.space, b.entries⟩ := by
  unfold finish
  split
  · rename_i none
    simp [none, eq_comm]
  · rename_i gaps
    exact ⟨fun failed => (by cases failed), fun done => absurd done.1 gaps⟩

theorem gapless {k : KindInfo} {op : Operation} (none : b.gaps = []) (listed : k ∈ b.space.kinds)
    (required : op ∈ k.category.requiredOperations) : (b.entryAt k.tag).has op = true := by
  have closed : b.gap? k = Option.none := List.filterMap_eq_nil_iff.mp none k listed
  have nothing : b.missing k = [] := by
    unfold gap? at closed
    split at closed <;> first | assumption | cases closed
  have kept := List.filter_eq_nil_iff.mp nothing op required
  simpa using kept

theorem slotComplete (consistent : b.Consistent) (none : b.gaps = []) {slot : Slot}
    (found : b.space.slotAt t = some slot) {op : Operation}
    (required : op ∈ slot.category.requiredOperations) : (b.entryAt t).has op = true := by
  cases slot with
  | kind name category => exact gapless none (TagSpace.kindListed found) required
  | reserved marker =>
    rw [(consistent.reserved t marker (TagSpace.markerSlot.mpr found)).1]
    cases marker <;> cases op <;> first | rfl | simp [Slot.category, Boundary.opens,
      Category.requiredOperations] at required

theorem scanRequired (category : Category) : .scan ∈ category.requiredOperations := by
  cases category <;> decide

end DispatchBuilder

namespace DispatchTable

variable {α ω : Type} {d : DispatchTable α ω} {t : Tag} {e : Entry α ω}

theorem lookupIff : d.lookup t = .ok e ↔ d.entries[t.toNat]? = some e := by
  unfold lookup
  split <;> simp_all

theorem lookupFault {fault} (failed : d.lookup t = .error fault) :
    fault = .noEntry t d.entries.size := by
  unfold lookup at failed
  split at failed <;> cases failed
  rfl

structure Complete (d : DispatchTable α ω) : Prop where
  tags : ∀ t, (∃ e, d.lookup t = .ok e) ↔ ∃ slot, d.space.slotAt t = some slot
  required : ∀ t slot e, d.space.slotAt t = some slot → d.lookup t = .ok e →
    ∀ op ∈ slot.category.requiredOperations, e.has op = true

theorem finishedComplete {b : DispatchBuilder α ω} (consistent : b.Consistent)
    (finished : b.finish = .ok d) : d.Complete := by
  obtain ⟨none, rfl⟩ := DispatchBuilder.finishedIff.mp finished
  constructor
  · intro t
    have sizes := consistent.entriesSize
    constructor
    · intro facts
      obtain ⟨e, found⟩ := facts
      have inside := (Array.getElem?_eq_some_iff.mp (lookupIff.mp found)).1
      exact ⟨_, Array.getElem?_eq_getElem (sizes ▸ inside)⟩
    · intro facts
      obtain ⟨slot, found⟩ := facts
      have inside := (Array.getElem?_eq_some_iff.mp found).1
      exact ⟨_, lookupIff.mpr (Array.getElem?_eq_getElem (sizes.symm ▸ inside))⟩
  · intro t slot e found looked op required
    have here : b.entryAt t = e := by
      simp [DispatchBuilder.entryAt, lookupIff.mp looked]
    exact here ▸ DispatchBuilder.slotComplete consistent none found required

theorem finishedHistory {s : TagSpace} (reachable : s.Reachable) {fresh : DispatchBuilder α ω}
    (made : DispatchBuilder.ofSpace s = .ok fresh) {subsystems : List (Subsystem α ω)}
    (finished : (fresh.installEach subsystems).finish = .ok d) :
    d.space = s ∧ (fresh.installEach subsystems).Consistent ∧ d.Complete := by
  have indexed := (TagSpace.reachableSound reachable).indexed
  obtain ⟨space, consistent⟩ := DispatchBuilder.historyConsistent indexed made subsystems
  refine ⟨?_, consistent, finishedComplete consistent finished⟩
  rw [(DispatchBuilder.finishedIff.mp finished).2]
  exact space

end DispatchTable

namespace ObjectModel

variable {α ω : Type} {m : ObjectModel α ω} {o : HeapObject α} {query : Query}

theorem observedIff {e : Entry α ω} : m.observe query o = .ok e ↔
    m.classify o.tag = .ok .runtimeKind ∧ m.lookup o.tag = .ok e := by
  rw [observe, bindOk]
  constructor
  · intro ok
    obtain ⟨category, classified, ok⟩ := ok
    dsimp only at ok
    split at ok <;> try contradiction
    rename_i observable
    exact ⟨by simpa [Category.isObservable] using (beq_iff_eq.mp observable) ▸ classified, ok⟩
  · intro facts
    obtain ⟨classified, found⟩ := facts
    exact ⟨_, classified, found⟩

theorem observeFault {fault} (failed : m.observe query o = .error fault) :
    fault.kind ≠ .incompleteDispatch := by
  rcases bindError.mp failed with unclassified | ⟨category, classified, failed⟩
  · simp [Classifier.classifyFault unclassified, Fault.kind]
  · dsimp only at failed
    split at failed
    · simp [DispatchTable.lookupFault failed, Fault.kind]
    · cases failed
      simp [Fault.kind]

theorem demandFault {β : Type} {t : Tag} {facility : Facility} {part : Option β} {fault}
    (failed : demand t facility part = .error fault) : part = none := by
  unfold demand at failed
  split at failed
  · cases failed
  · rfl

structure Equipped (m : ObjectModel α ω) : Prop where
  layout : ∀ t e, m.lookup t = .ok e → e.has .scan = true
  value : ∀ t e, m.classify t = .ok .runtimeKind → m.lookup t = .ok e →
    e.has .describe = true ∧ e.has .equality = true

theorem layoutAnswers (equipped : m.Equipped) {t : Tag} {fault}
    (failed : m.layoutOf t = .error fault) : fault.kind ≠ .incompleteDispatch := by
  rcases bindError.mp failed with unknown | ⟨e, found, lacking⟩
  · simp [DispatchTable.lookupFault unknown, Fault.kind]
  · have has := equipped.layout t e found
    simp [Entry.has, demandFault lacking] at has

theorem queriedFault {β γ : Type} {first : Queried α β} {next : β → Queried α γ} {fault} :
    (first >>= next).answer = .error fault ↔ first.answer = .error fault ∨
      ∃ value, first.answer = .ok value ∧ (next value).answer = .error fault := by
  rw [Queried.answerThen, bindError]

theorem describeAnswers (equipped : m.Equipped) {fault} (failed : m.describe o = .error fault) :
    fault.kind ≠ .incompleteDispatch := by
  rcases queriedFault.mp failed with unobserved | ⟨e, observed, failed⟩
  · exact observeFault unobserved
  · obtain ⟨classified, found⟩ := observedIff.mp observed
    rcases queriedFault.mp failed with lacking | ⟨printer, _, failed⟩
    · have has := (equipped.value o.tag e classified found).1
      simp [Entry.has, demandFault lacking] at has
    · rw [Queried.printThen] at failed
      cases said : printer o (m.nameAt o.tag) with
      | some text =>
        rw [said] at failed
        cases failed
      | none =>
        rw [said] at failed
        cases failed
        simp [Fault.kind]

theorem equalsAnswers (equipped : m.Equipped) {other : HeapObject α} {fault}
    (failed : m.equals o other = .error fault) : fault.kind ≠ .incompleteDispatch := by
  rcases queriedFault.mp failed with unobserved | ⟨e, observed, failed⟩
  · exact observeFault unobserved
  · obtain ⟨classified, found⟩ := observedIff.mp observed
    split at failed
    · rcases queriedFault.mp failed with lacking | ⟨_, _, failed⟩
      · have has := (equipped.value o.tag e classified found).2
        simp [Entry.has, demandFault lacking] at has
      · cases failed
    · cases failed

theorem hashAnswers (equipped : m.Equipped) {fault} (failed : m.hash o = .error fault) :
    fault.kind ≠ .incompleteDispatch := by
  rcases queriedFault.mp failed with unobserved | ⟨e, observed, failed⟩
  · exact observeFault unobserved
  · obtain ⟨classified, found⟩ := observedIff.mp observed
    rcases queriedFault.mp failed with lacking | ⟨_, _, failed⟩
    · have has := (equipped.value o.tag e classified found).2
      simp [Entry.has, demandFault lacking] at has
    · cases failed

theorem ofTableIff {d : DispatchTable α ω} : ofTable d = .ok m ↔
    d.space.isFrozen = true ∧ m = ⟨d.space, ⟨d.space.boundaries⟩, d⟩ := by
  rw [ofTable, bindOk]
  constructor
  · intro ok
    obtain ⟨classifier, derived, last⟩ := ok
    cases last
    obtain ⟨frozen, rfl⟩ := Classifier.ofSpaceIff.mp derived
    exact ⟨frozen, rfl⟩
  · intro facts
    obtain ⟨frozen, rfl⟩ := facts
    exact ⟨_, Classifier.ofSpaceIff.mpr ⟨frozen, rfl⟩, rfl⟩

theorem completeEquipped {d : DispatchTable α ω} (complete : d.Complete) (sound : d.space.Sound)
    (room : d.space.slots.size < UInt32.size) :
    Equipped ⟨d.space, ⟨d.space.boundaries⟩, d⟩ := by
  constructor
  · intro t e found
    obtain ⟨slot, here⟩ := (complete.tags t).mp ⟨e, found⟩
    exact complete.required t slot e here found _ (DispatchBuilder.scanRequired _)
  · intro t e classified found
    obtain ⟨slot, here⟩ := (complete.tags t).mp ⟨e, found⟩
    have same : slot.category = .runtimeKind := Except.ok.inj
      ((Classifier.slotClassified sound room here).symm.trans classified)
    have required := complete.required t slot e here found
    rw [same] at required
    exact ⟨required _ (by decide), required _ (by decide)⟩

end ObjectModel

/-- Whatever was installed, in whatever order and with whatever failures: a table that is finished
answers for exactly the tags of the space, and the model made of it finds every operation that it
needs. -/
theorem finishedModelEquipped {α ω : Type} {s : TagSpace} (reachable : s.Reachable)
    (room : s.size ≤ 4294967295) {fresh : DispatchBuilder α ω}
    (made : DispatchBuilder.ofSpace s = .ok fresh) (subsystems : List (Subsystem α ω))
    {d : DispatchTable α ω} (finished : (fresh.installEach subsystems).finish = .ok d) :
    (∀ t, (∃ e, d.lookup t = .ok e) ↔ t < s.last) ∧
    (∀ t e, d.lookup t = .ok e → e.has .scan = true) ∧
    ∃ m, ObjectModel.ofTable d = .ok m ∧
      m.classify s.compiledValues = .ok .runtimeKind ∧
      (∀ t e, m.classify t = .ok .runtimeKind → d.lookup t = .ok e →
        e.has .describe = true ∧ e.has .equality = true) ∧
      (∀ t fault, m.layoutOf t = .error fault → fault.kind ≠ .incompleteDispatch) ∧
      (∀ o fault, m.describe o = .error fault → fault.kind ≠ .incompleteDispatch) ∧
      (∀ a b fault, m.equals a b = .error fault → fault.kind ≠ .incompleteDispatch) ∧
      (∀ o fault, m.hash o = .error fault → fault.kind ≠ .incompleteDispatch) := by
  have sound := TagSpace.reachableSound reachable
  have small : s.slots.size < UInt32.size := Nat.lt_succ_of_le room
  obtain ⟨rfl, _, complete⟩ := DispatchTable.finishedHistory reachable made finished
  have equipped := ObjectModel.completeEquipped complete sound small
  have atMarker : d.space.slotAt d.space.compiledValues = some (.reserved .compiledValues) :=
    TagSpace.markerSlot.mp ((TagSpace.markerIff (sound.partitioned small)).mpr rfl)
  refine ⟨fun t => ?_, equipped.layout, _, ObjectModel.ofTableIff.mpr
    ⟨(DispatchBuilder.madeIff.mp made).1, rfl⟩, ?_, equipped.value,
    fun _ _ => ObjectModel.layoutAnswers equipped, fun _ _ => ObjectModel.describeAnswers equipped,
    fun _ _ _ => ObjectModel.equalsAnswers equipped, fun _ _ => ObjectModel.hashAnswers equipped⟩
  · rw [complete.tags, TagSpace.slotBelow small]
  · exact Classifier.slotClassified sound small atMarker

def miniatureBuilder : DispatchBuilder Unit Unit where
  space := miniatureSpace.evolve miniatureLife
  entries := (miniatureSpace.evolve miniatureLife).slots.map DispatchBuilder.firstEntry
  owners := (miniatureSpace.evolve miniatureLife).slots.map DispatchBuilder.firstOwners

theorem miniatureMade :
    DispatchBuilder.ofSpace (miniatureSpace.evolve miniatureLife) = .ok miniatureBuilder := rfl

-- The second goes on past an error and then gives up, so that the third may claim the same layout.
def miniatureSubsystems : List (Subsystem Unit Unit) :=
  [Standard.opaqueBehaviors [],
   ⟨"undecided", fun _ => .lenient (.error .alreadyInstalled)
     [.scan "pair" (.atomic 2), .finalizer "atom" fun _ world => world]⟩,
   Standard.layouts]

theorem miniatureFinished :
    ∃ d, (miniatureBuilder.installEach miniatureSubsystems).finish = .ok d :=
  ⟨_, DispatchBuilder.finishedIff.mpr ⟨by decide +kernel, rfl⟩⟩

theorem miniatureEquipped : ∃ d m,
    (miniatureBuilder.installEach miniatureSubsystems).finish = .ok d ∧
      ObjectModel.ofTable d = .ok m ∧ (∃ e, d.lookup 6 = .ok e) ∧
      ∀ o fault, m.describe o = .error fault → fault.kind ≠ .incompleteDispatch := by
  obtain ⟨d, finished⟩ := miniatureFinished
  obtain ⟨tags, _, m, modelled, _, _, _, answers, _⟩ := finishedModelEquipped miniatureReachable
    (by decide) miniatureMade miniatureSubsystems finished
  exact ⟨d, m, finished, modelled, (tags 6).mpr (by decide), answers⟩

end TaggedHeap
