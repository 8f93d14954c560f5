import TaggedHeap.Proofs.Dispatch.Tracing

/-! Finished models: whatever was installed before, and whatever the space went through, there was no
gap when the table was finished. -/
namespace TaggedHeap

namespace ObjectModel

variable {α ω : Type} {m : ObjectModel α ω} {t : Tag}

inductive Finished : ObjectModel α ω → Prop where
  | of {s : TagSpace} {fresh : DispatchBuilder α ω} {d : DispatchTable α ω} {m : ObjectModel α ω}
      (reachable : s.Reachable) (made : DispatchBuilder.ofSpace s = .ok fresh)
      (subsystems : List (Subsystem α ω))
      (finished : (fresh.installEach subsystems).finish = .ok d) (modelled : ofTable d = .ok m) :
      Finished m

structure Whole (m : ObjectModel α ω) : Prop where
  reachable : m.space.Reachable
  frozen : m.space.isFrozen = true
  table : m.dispatch.space = m.space
  classifier : m.classifier = ⟨m.space.boundaries⟩
  complete : m.dispatch.Complete
  proper : ∀ t e layout, m.lookup t = .ok e → e.layout = some layout → layout.Proper

theorem finishedWhole (finished : m.Finished) : m.Whole := by
  cases finished with
  | of reachable made subsystems finished modelled =>
    obtain ⟨same, consistent, complete⟩ := DispatchTable.finishedHistory reachable made finished
    obtain ⟨frozen, rfl⟩ := ofTableIff.mp modelled
    exact ⟨same.symm ▸ reachable, frozen, rfl, rfl, complete,
      fun _ _ _ => tableLayoutProper consistent finished⟩

theorem demandIff {β : Type} {facility : Facility} {part? : Option β} {part : β} :
    demand t facility part? = .ok part ↔ part? = some part := by
  unfold demand
  split <;> simp_all

theorem layoutIff {layout : Layout} :
    m.layoutOf t = .ok layout ↔ ∃ e, m.lookup t = .ok e ∧ e.layout = some layout := by
  simp only [layoutOf, bindOk, demandIff]

theorem layoutStored {layout : Layout} : m.layoutOf t = .ok layout ↔
    m.dispatch.entries[t.toNat]?.bind Entry.layout = some layout := by
  simp only [layoutIff, lookup, DispatchTable.lookupIff, Option.bind_eq_some_iff]

theorem slotEntry (whole : m.Whole) {slot : Slot} (here : m.space.slotAt t = some slot) :
    ∃ e, m.lookup t = .ok e ∧ ∀ op ∈ slot.category.requiredOperations, e.has op = true := by
  rw [← whole.table] at here
  obtain ⟨e, found⟩ := (whole.complete.tags t).mpr ⟨slot, here⟩
  exact ⟨e, found, whole.complete.required t slot e here found⟩

theorem layoutKnown (finished : m.Finished) (below : t < m.space.last) :
    ∃ layout, m.layoutOf t = .ok layout := by
  obtain ⟨slot, here⟩ := TagSpace.belowSlot below
  obtain ⟨e, found, required⟩ := slotEntry (finishedWhole finished) here
  have has := required _ (DispatchBuilder.scanRequired _)
  obtain ⟨layout, present⟩ := Option.isSome_iff_exists.mp has
  exact ⟨layout, layoutIff.mpr ⟨e, found, present⟩⟩

theorem layoutProper (finished : m.Finished) {layout : Layout} (known : m.layoutOf t = .ok layout) :
    layout.Proper := by
  obtain ⟨e, found, present⟩ := layoutIff.mp known
  exact (finishedWhole finished).proper t e layout found present

end ObjectModel

section Miniature

variable {α ω : Type}

def miniatureFresh : DispatchBuilder α ω where
  space := miniatureSpace.evolve miniatureLife
  entries := (miniatureSpace.evolve miniatureLife).slots.map DispatchBuilder.firstEntry
  owners := (miniatureSpace.evolve miniatureLife).slots.map DispatchBuilder.firstOwners

def miniatureWith (subsystems : List (Subsystem α ω)) : ObjectModel α ω where
  space := miniatureSpace.evolve miniatureLife
  classifier := ⟨(miniatureSpace.evolve miniatureLife).boundaries⟩
  dispatch := ⟨miniatureSpace.evolve miniatureLife, (miniatureFresh.installEach subsystems).entries⟩

theorem miniatureFreshMade : DispatchBuilder.ofSpace (miniatureSpace.evolve miniatureLife) =
    .ok (miniatureFresh : DispatchBuilder α ω) := rfl

theorem miniatureTabled {subsystems : List (Subsystem α ω)}
    (gapless : (miniatureFresh.installEach subsystems).gaps = []) :
    (miniatureFresh.installEach subsystems).finish = .ok (miniatureWith subsystems).dispatch := by
  have space : (miniatureFresh.installEach subsystems).space = miniatureSpace.evolve miniatureLife :=
    DispatchBuilder.workingSpace miniatureFreshMade (DispatchBuilder.installEachWorking .fresh _)
  exact DispatchBuilder.finishedIff.mpr ⟨gapless, by rw [space]; rfl⟩

theorem miniatureModelled (subsystems : List (Subsystem α ω)) :
    ObjectModel.ofTable (miniatureWith subsystems).dispatch = .ok (miniatureWith subsystems) :=
  ObjectModel.ofTableIff.mpr ⟨rfl, rfl⟩

theorem miniatureWithFinished {subsystems : List (Subsystem α ω)}
    (gapless : (miniatureFresh.installEach subsystems).gaps = []) :
    (miniatureWith subsystems).Finished :=
  .of miniatureReachable miniatureFreshMade subsystems (miniatureTabled gapless)
    (miniatureModelled subsystems)

end Miniature

def miniatureModel : ObjectModel Unit Unit where
  space := miniatureSpace.evolve miniatureLife
  classifier := ⟨(miniatureSpace.evolve miniatureLife).boundaries⟩
  dispatch := ⟨miniatureSpace.evolve miniatureLife,
    (miniatureBuilder.installEach miniatureSubsystems).entries⟩

theorem miniatureModelFinished : miniatureModel.Finished :=
  miniatureWithFinished (by decide +kernel : (miniatureFresh.installEach miniatureSubsystems).gaps = [])

end TaggedHeap
