import TaggedHeap.Proofs.ObjectModel.Finished
import TaggedHeap.Report.Basic

/-! Which tags are valid is decided in four places: by the slots of the space, by the boundaries in
the classifier, by the entries of the dispatch table, and by the slot again when a header is stamped.
In a finished model they agree on every tag, and so do the reports made of the answers. -/
namespace TaggedHeap

namespace TagSpace

variable {s : TagSpace} {t : Tag}

theorem validIff : s.isValid t = true ↔ ∃ slot, s.slotAt t = some slot := by
  rw [isValid, decide_eq_true_eq]
  constructor
  · intro inside
    exact ⟨_, Array.getElem?_eq_getElem inside⟩
  · intro facts
    obtain ⟨slot, found⟩ := facts
    exact (Array.getElem?_eq_some_iff.mp found).1

theorem unreservedIff : s.isReserved t = false ↔ s.markerAt t = none :=
  Option.isSome_eq_false_iff.trans Option.isNone_iff_eq_none

theorem declaredIff :
    s.isValid t = true ∧ s.isReserved t = false ↔ ∃ name, s.nameAt t = some name := by
  rw [validIff, unreservedIff]
  constructor
  · intro facts
    obtain ⟨⟨slot, found⟩, unmarked⟩ := facts
    cases slot with
    | kind name category => exact ⟨name, nameSlot.mpr ⟨category, found⟩⟩
    | reserved marker => exact nomatch unmarked.symm.trans (markerSlot.mpr found)
  · intro facts
    obtain ⟨name, named⟩ := facts
    obtain ⟨category, found⟩ := nameSlot.mp named
    refine ⟨⟨_, found⟩, Option.eq_none_iff_forall_ne_some.mpr fun marker marked => ?_⟩
    exact nomatch found.symm.trans (markerSlot.mp marked)

end TagSpace

theorem Header.stampIff {s : TagSpace} {t : Tag} {h : Header} : Header.stamp s t = .ok h ↔
    s.isFrozen = true ∧ (∃ name, s.nameAt t = some name) ∧ h = ⟨t⟩ := by
  rw [← TagSpace.declaredIff, TagSpace.unreservedIff, Header.stamp, bindOk]
  constructor
  · intro ok
    obtain ⟨_, frozen, ok⟩ := ok
    dsimp only at ok
    split at ok <;> try contradiction
    rename_i valid
    split at ok <;> cases ok
    rename_i unmarked
    exact ⟨TagSpace.requiredFrozen.mp frozen, ⟨valid, unmarked⟩, rfl⟩
  · intro facts
    obtain ⟨frozen, ⟨valid, unmarked⟩, rfl⟩ := facts
    refine ⟨(), TagSpace.requiredFrozen.mpr frozen, ?_⟩
    simp only [valid, unmarked, if_true]
    rfl

theorem Entry.operationListed {α ω : Type} {e : Entry α ω} {op : Operation} :
    op ∈ e.operations ↔ e.has op = true := by
  rw [operations, List.mem_filter, and_iff_right_iff_imp]
  intro
  cases op <;> decide

namespace ObjectModel

variable {α ω : Type} {m : ObjectModel α ω} {t : Tag}

structure Known (m : ObjectModel α ω) (t : Tag) (category : Category) (e : Entry α ω)
    (layout : Layout) : Prop where
  classified : m.classify t = .ok category
  found : m.lookup t = .ok e
  scanned : e.layout = some layout
  equipped : ∀ op ∈ category.requiredOperations, op ∈ e.operations

theorem belowKnown (whole : m.Whole) (room : m.space.slots.size < UInt32.size)
    (below : t < m.space.last) : ∃ category e layout, m.Known t category e layout := by
  obtain ⟨slot, here⟩ := TagSpace.belowSlot below
  obtain ⟨e, found, required⟩ := slotEntry whole here
  have classified : m.classify t = .ok slot.category := by
    rw [classify, whole.classifier]
    exact Classifier.slotClassified (TagSpace.reachableSound whole.reachable) room here
  obtain ⟨layout, scanned⟩ :=
    Option.isSome_iff_exists.mp (required _ (DispatchBuilder.scanRequired _))
  exact ⟨slot.category, e, layout, classified, found, scanned,
    fun op needed => Entry.operationListed.mpr (required op needed)⟩

theorem beyondClassified (whole : m.Whole) (room : m.space.slots.size < UInt32.size)
    (beyond : ¬ t < m.space.last) : m.classify t = .error (.unknownTag t m.space.last) := by
  rw [classify, whole.classifier]
  exact (Classifier.soundAgrees (TagSpace.reachableSound whole.reachable) room).beyond t
    (UInt32.not_lt.mp beyond)

theorem tableSize (finished : m.Finished) : m.dispatch.size = m.space.size := by
  cases finished with
  | of reachable made subsystems finished modelled =>
    obtain ⟨_, consistent, _⟩ := DispatchTable.finishedHistory reachable made finished
    obtain ⟨_, rfl⟩ := DispatchBuilder.finishedIff.mp finished
    obtain ⟨_, rfl⟩ := ofTableIff.mp modelled
    exact consistent.entriesSize

theorem beyondFound (finished : m.Finished) (room : m.space.slots.size < UInt32.size)
    (beyond : ¬ t < m.space.last) : m.lookup t = .error (.noEntry t m.space.size) := by
  have size : m.dispatch.entries.size = m.space.slots.size := tableSize finished
  have outside : m.dispatch.entries.size ≤ t.toNat := by
    rw [UInt32.lt_iff_toNat_lt, TagSpace.lastExact room] at beyond
    omega
  rw [lookup, DispatchTable.lookup, Array.getElem?_eq_none outside, size]
  rfl

theorem belowReports {category : Category} {e : Entry α ω} {layout : Layout}
    (known : m.Known t category e layout) :
    m.classifyReport t = ⟨true, t, m.space.nameAt t, some category, none⟩ ∧
    m.lookupReport t = ⟨true, t, m.space.nameAt t, e.operations, some layout, none⟩ := by
  rw [classifyReport, lookupReport, mapErrorOk.mpr known.classified, mapErrorOk.mpr known.found,
    ClassifyReport.ofAnswer, LookupReport.ofAnswer, known.scanned]
  exact ⟨rfl, rfl⟩

theorem beyondReports (finished : m.Finished) (room : m.space.slots.size < UInt32.size)
    (beyond : ¬ t < m.space.last) :
    m.classifyReport t =
      ⟨false, t, m.space.nameAt t, none, some (Fault.unknownTag t m.space.last).text⟩ ∧
    m.lookupReport t =
      ⟨false, t, m.space.nameAt t, [], none, some (Fault.noEntry t m.space.size).text⟩ := by
  rw [classifyReport, lookupReport, beyondClassified (finishedWhole finished) room beyond,
    beyondFound finished room beyond]
  exact ⟨rfl, rfl⟩

structure SameTags (m : ObjectModel α ω) (t : Tag) : Prop where
  slots : m.space.isValid t = true ↔ t < m.space.last
  boundaries : m.isValid t = true ↔ t < m.space.last
  classified : (∃ category, m.classify t = .ok category) ↔ t < m.space.last
  found : (∃ e, m.lookup t = .ok e) ↔ t < m.space.last

theorem sameTags (finished : m.Finished) (room : m.space.slots.size < UInt32.size) (t : Tag) :
    m.SameTags t := by
  have whole := finishedWhole finished
  constructor
  case slots => rw [TagSpace.validIff, TagSpace.slotBelow room]
  case boundaries =>
    rw [isValid, whole.classifier]
    exact decide_eq_true_iff
  case classified =>
    refine ⟨fun facts => Decidable.byContradiction fun beyond => ?_, fun below => ?_⟩
    · obtain ⟨category, classified⟩ := facts
      exact nomatch classified.symm.trans (beyondClassified whole room beyond)
    · obtain ⟨category, _, _, known⟩ := belowKnown whole room below
      exact ⟨category, known.classified⟩
  case found =>
    rw [TagSpace.slotBelow room, ← whole.table]
    exact whole.complete.tags t

structure StampsDeclared (m : ObjectModel α ω) (t : Tag) : Prop where
  unreserved : (∃ h, m.stamp t = .ok h) ↔ m.space.isValid t = true ∧ m.space.isReserved t = false
  named : (∃ h, m.stamp t = .ok h) ↔ ∃ name, m.space.nameAt t = some name
  carried : ∀ h, m.stamp t = .ok h → h.tag = t
  answered : ∀ h, m.stamp t = .ok h → (∃ category, m.classify h.tag = .ok category) ∧
    (∃ e, m.lookup h.tag = .ok e) ∧ ∃ layout, m.layoutOf h.tag = .ok layout

theorem stampsDeclared (finished : m.Finished) (room : m.space.slots.size < UInt32.size) (t : Tag) :
    m.StampsDeclared t := by
  have whole := finishedWhole finished
  have named : (∃ h, m.stamp t = .ok h) ↔ ∃ name, m.space.nameAt t = some name := by
    simp [stamp, Header.stampIff, whole.frozen]
  refine ⟨named.trans TagSpace.declaredIff.symm, named, ?carried, ?answered⟩
  case carried =>
    intro h stamped
    rw [(Header.stampIff.mp stamped).2.2]
  case answered =>
    intro h stamped
    obtain ⟨_, declared, rfl⟩ := Header.stampIff.mp stamped
    have valid := (TagSpace.declaredIff.mpr declared).1
    have below : t < m.space.last := (sameTags finished room t).slots.mp valid
    exact ⟨(sameTags finished room t).classified.mpr below, (sameTags finished room t).found.mpr below,
      layoutKnown finished below⟩

structure ReportsAgree (m : ObjectModel α ω) (t : Tag) : Prop where
  verdict : (m.classifyReport t).ok = decide (t < m.space.last) ∧
    (m.lookupReport t).ok = decide (t < m.space.last)
  name : (m.classifyReport t).name = m.space.nameAt t ∧ (m.lookupReport t).name = m.space.nameAt t
  named : ((m.classifyReport t).name.isSome = true ↔ ∃ h, m.stamp t = .ok h) ∧
    ((m.lookupReport t).name.isSome = true ↔ ∃ h, m.stamp t = .ok h)
  answers : t < m.space.last → ∃ category layout, m.classify t = .ok category ∧
    m.layoutOf t = .ok layout ∧ (m.classifyReport t).category = some category ∧
    (m.lookupReport t).layout = some layout ∧
    ∀ op ∈ category.requiredOperations, op ∈ (m.lookupReport t).operations

theorem reportsAgree (finished : m.Finished) (room : m.space.slots.size < UInt32.size) (t : Tag) :
    m.ReportsAgree t := by
  have named : (m.space.nameAt t).isSome = true ↔ ∃ h, m.stamp t = .ok h :=
    Option.isSome_iff_exists.trans (stampsDeclared finished room t).named.symm
  by_cases below : t < m.space.last
  · obtain ⟨category, e, layout, known⟩ := belowKnown (finishedWhole finished) room below
    obtain ⟨classified, found⟩ := belowReports known
    refine ⟨?_, ?_, ?_, fun _ => ⟨category, layout, known.classified,
      layoutIff.mpr ⟨e, known.found, known.scanned⟩, ?_⟩⟩ <;> rw [classified, found]
    · exact ⟨(decide_eq_true below).symm, (decide_eq_true below).symm⟩
    · exact ⟨rfl, rfl⟩
    · exact ⟨named, named⟩
    · exact ⟨rfl, rfl, known.equipped⟩
  · obtain ⟨unknown, missing⟩ := beyondReports finished room below
    refine ⟨?_, ?_, ?_, fun other => absurd other below⟩ <;> rw [unknown, missing]
    · exact ⟨(decide_eq_false below).symm, (decide_eq_false below).symm⟩
    · exact ⟨rfl, rfl⟩
    · exact ⟨named, named⟩

end ObjectModel

/-- However it is asked, a finished model takes the same tags for valid, those below `last`; it stamps
headers for the declared ones among them; and its reports say just that. -/
theorem validityAgrees {α ω : Type} {m : ObjectModel α ω} (finished : m.Finished)
    (room : m.space.size ≤ 4294967295) :
    m.dispatch.size = m.space.size ∧ m.space.size = m.space.last.toNat ∧
    ∀ t, m.SameTags t ∧ m.StampsDeclared t ∧ m.ReportsAgree t := by
  have small : m.space.slots.size < UInt32.size := Nat.lt_succ_of_le room
  exact ⟨ObjectModel.tableSize finished, (TagSpace.lastExact small).symm, fun t =>
    ⟨ObjectModel.sameTags finished small t, ObjectModel.stampsDeclared finished small t,
      ObjectModel.reportsAgree finished small t⟩⟩

theorem miniatureValidity :
    (∃ h, miniatureModel.stamp 4 = .ok h) ∧
    ((∃ e, miniatureModel.lookup 3 = .ok e) ∧ ¬ ∃ h, miniatureModel.stamp 3 = .ok h) ∧
    (miniatureModel.lookupReport 7).ok = false ∧ (miniatureModel.lookupReport 7).name = none := by
  obtain ⟨_, _, all⟩ := validityAgrees miniatureModelFinished (by decide)
  obtain ⟨_, pair, _⟩ := all 4
  obtain ⟨same, boundary, _⟩ := all 3
  obtain ⟨_, _, beyond⟩ := all 7
  refine ⟨pair.named.mpr ⟨"pair", rfl⟩, ⟨same.found.mpr (by decide +kernel), fun stamped => ?_⟩,
    beyond.verdict.2.trans (by decide +kernel), beyond.name.2⟩
  obtain ⟨name, named⟩ := boundary.named.mp stamped
  cases named

end TaggedHeap
