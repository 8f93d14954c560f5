import TaggedHeap.Proofs.Dispatch.Completeness
import TaggedHeap.Proofs.Layout.Validity

/-! Every layout in a finished table has passed its check, by whichever way it came there, so that a
collector which traces by the table is safe on any words whatever. -/
namespace TaggedHeap

theorem tableLayoutProper {α ω : Type} {b : DispatchBuilder α ω} {d : DispatchTable α ω}
    (consistent : b.Consistent) (finished : b.finish = .ok d) {t : Tag} {e : Entry α ω}
    {layout : Layout} (found : d.lookup t = .ok e) (has : e.layout = some layout) :
    layout.Proper := by
  obtain ⟨_, rfl⟩ := DispatchBuilder.finishedIff.mp finished
  have here : b.entryAt t = e := by
    simp [DispatchBuilder.entryAt, DispatchTable.lookupIff.mp found]
  exact Layout.validateIff.mp (consistent.valid t layout (here ▸ has))

/-- Whatever was installed before a table was finished, each tag below `last` has a layout, and that
and any other layout of the table traces every image safely. -/
theorem finishedTableTraces {α ω : Type} {s : TagSpace} (reachable : s.Reachable)
    {fresh : DispatchBuilder α ω} (made : DispatchBuilder.ofSpace s = .ok fresh)
    (subsystems : List (Subsystem α ω)) {d : DispatchTable α ω}
    (finished : (fresh.installEach subsystems).finish = .ok d) :
    (∀ t, t < s.last → ∃ e layout, d.lookup t = .ok e ∧ e.layout = some layout) ∧
    ∀ t e layout, d.lookup t = .ok e → e.layout = some layout →
      ∀ image, layout.TracesSafely image := by
  obtain ⟨same, consistent, complete⟩ := DispatchTable.finishedHistory reachable made finished
  constructor
  · intro t below
    obtain ⟨slot, here⟩ := TagSpace.belowSlot (same ▸ below)
    obtain ⟨e, found⟩ := (complete.tags t).mpr ⟨slot, here⟩
    have has := complete.required t slot e here found _ (DispatchBuilder.scanRequired _)
    obtain ⟨layout, present⟩ := Option.isSome_iff_exists.mp has
    exact ⟨e, layout, found, present⟩
  · intro t e layout found has image
    exact Layout.properTraces (tableLayoutProper consistent finished found has) image

theorem miniatureTraces : ∃ d e layout,
    (miniatureBuilder.installEach miniatureSubsystems).finish = .ok d ∧
      d.lookup 4 = .ok e ∧ e.layout = some layout ∧ ∀ image, layout.TracesSafely image := by
  obtain ⟨d, finished⟩ := miniatureFinished
  obtain ⟨present, safe⟩ := finishedTableTraces miniatureReachable miniatureMade
    miniatureSubsystems finished
  obtain ⟨e, layout, found, has⟩ := present 4 (by decide)
  exact ⟨d, e, layout, finished, found, has, safe 4 e layout found has⟩

end TaggedHeap
