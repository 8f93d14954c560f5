import TaggedHeap.Proofs.ObjectModel.Answers
import TaggedHeap.Proofs.Standard.Equipment

/-! What the two standard subsystems leave in a builder, over any space and in either order: for each
kind one whole entry, told by its name and category. They register through names, kind after kind, and
yet none of their registrations can be refused. -/
namespace TaggedHeap.Standard

variable {α ω : Type} {s : TagSpace} {fresh b : DispatchBuilder α ω} {skipped : List String}
  {k l : KindInfo}

theorem shownIff : k ∈ shown s skipped ↔
    k ∈ s.kinds ∧ k.category = .runtimeKind ∧ k.name ∉ skipped := by
  simp [shown]

def entryOf (skipped : List String) (k : KindInfo) : Entry α ω :=
  if k.category = .runtimeKind ∧ k.name ∉ skipped then
    ⟨some Printer.kindName, some Equality.identity, some (layoutOf k.name), none⟩
  else ⟨none, none, some (layoutOf k.name), none⟩

theorem claimedParts (sound : s.Sound) (listed : k ∈ s.kinds) {op : Operation} {part : Part α ω} :
    (∃ c ∈ (equipment skipped).flatMap (StrictSubsystem.claims s),
      c.pair = (k.name, op) ∧ part = c.registration.part) ↔
      (entryOf skipped k).part op = some part := by
  have shows : k ∈ shown s skipped ↔ k.category = .runtimeKind ∧ k.name ∉ skipped :=
    shownIff.trans (and_iff_right listed)
  constructor
  · rintro ⟨c, member, pair, rfl⟩
    obtain ⟨l, there, made⟩ := equipmentClaim.mp member
    obtain ⟨named, rfl⟩ := Prod.mk.inj pair
    rcases made with rfl | ⟨shown, r, offered, rfl⟩
    · obtain rfl := TagSpace.listedApart sound listed there named
      unfold entryOf
      split <;> rfl
    · simp only [behaviorsOf, List.mem_cons, List.not_mem_nil, or_false] at offered
      rcases offered with rfl | rfl <;>
      · obtain rfl := TagSpace.listedApart sound listed there named
        rw [entryOf, if_pos (shows.mp shown)]
        rfl
  · intro has
    unfold entryOf at has
    split at has
    · rename_i proper
      have behaves {r : Registration α ω} (offered : r ∈ behaviorsOf k) :=
        equipmentClaim.mpr ⟨k, listed, .inr ⟨shows.mpr proper, r, offered, rfl⟩⟩
      cases op with
      | describe => exact ⟨_, behaves (.head _), rfl, (Option.some.inj has).symm⟩
      | equality => exact ⟨_, behaves (.tail _ (.head _)), rfl, (Option.some.inj has).symm⟩
      | scan =>
        exact ⟨_, equipmentClaim.mpr ⟨k, listed, .inl rfl⟩, rfl, (Option.some.inj has).symm⟩
      | finalizer => cases has
    · cases op with
      | scan =>
        exact ⟨_, equipmentClaim.mpr ⟨k, listed, .inl rfl⟩, rfl, (Option.some.inj has).symm⟩
      | describe | equality | finalizer => cases has

theorem filled (sound : s.Sound) (made : DispatchBuilder.ofSpace s = .ok fresh)
    (installed : fresh.installAll [layouts, opaqueBehaviors skipped] = .ok b)
    (listed : k ∈ s.kinds) : b.entryAt k.tag = entryOf skipped k := by
  have space : fresh.space = s := DispatchBuilder.workingSpace made .fresh
  rw [← equipmentSubsystems, StrictSubsystem.allInstalledIff, space] at installed
  refine Entry.partExt fun op => Option.ext fun part => ?_
  rw [DispatchBuilder.partClaimed sound.indexed made installed (TagSpace.listedNamed sound listed),
    claimedParts sound listed]

structure Plain (k : KindInfo) (e : Entry α ω) : Prop where
  layout : e.layout = some (layoutOf k.name)
  value : k.category = .runtimeKind →
    e.printer = some Printer.kindName ∧ e.equality = some Equality.identity
  other : k.category ≠ .runtimeKind → e.printer = none ∧ e.equality = none
  finalizer : e.finalizer = none

theorem entryPlain (unskipped : k.category = .runtimeKind → k.name ∉ skipped) :
    Plain k (entryOf skipped k : Entry α ω) := by
  by_cases value : k.category = .runtimeKind
  · rw [entryOf, if_pos ⟨value, unskipped value⟩]
    exact ⟨rfl, fun _ => ⟨rfl, rfl⟩, fun other => absurd value other, rfl⟩
  · rw [entryOf, if_neg fun proper => value proper.1]
    exact ⟨rfl, fun here => absurd here value, fun _ => ⟨rfl, rfl⟩, rfl⟩

theorem eitherOrder (sound : s.Sound) (made : DispatchBuilder.ofSpace s = .ok fresh)
    (installed : fresh.installAll [layouts, opaqueBehaviors skipped] = .ok b) :
    fresh.installAll [opaqueBehaviors skipped, layouts] = .ok b := by
  have space : fresh.space = s := DispatchBuilder.workingSpace made .fresh
  exact StrictSubsystem.allInstalledPerm (space.symm ▸ sound) (DispatchBuilder.freshConsistent made)
    (List.reverse_perm (equipment skipped)).symm installed

theorem plainAnswers {m : ObjectModel α ω} (whole : m.Whole)
    (room : m.space.slots.size < UInt32.size) (declared : m.space.kindAt k.tag = some k)
    (value : k.category = .runtimeKind) {e : Entry α ω} (found : m.lookup k.tag = .ok e)
    (plain : Plain k e) {o : HeapObject α} (tagged : o.tag = k.tag) :
    m.describe o = .ok ("#<" ++ k.name ++ ">") ∧
    ∀ other, m.equals o other = .ok (o.tag == other.tag && o.address == other.address) := by
  obtain ⟨prints, compares⟩ := plain.value value
  have slot := (TagSpace.kindSlot.mp declared).1
  have isValue : m.IsValue o := by
    have classified := Classifier.slotClassified (TagSpace.reachableSound whole.reachable) room slot
    rw [← whole.classifier, ← tagged] at classified
    exact classified.trans (congrArg Except.ok value)
  obtain ⟨described, _, compared⟩ := ObjectModel.answered isValue (tagged ▸ found) prints compares
  rw [tagged, TagSpace.nameSlot.mpr ⟨_, slot⟩] at described
  refine ⟨described, fun other => (compared other).trans ?_⟩
  by_cases same : o.tag = other.tag <;> simp [same, Equality.identity]

theorem listedFound (sound : s.Sound) (made : DispatchBuilder.ofSpace s = .ok fresh)
    {subsystems : List (Subsystem α ω)} (installed : fresh.installAll subsystems = .ok b)
    {d : DispatchTable α ω} (finished : b.finish = .ok d) (listed : k ∈ s.kinds) :
    d.lookup k.tag = .ok (b.entryAt k.tag) := by
  obtain ⟨space, consistent⟩ := DispatchBuilder.historyConsistent sound.indexed made subsystems
  rw [DispatchBuilder.allEach installed] at space consistent
  obtain ⟨_, rfl⟩ := DispatchBuilder.finishedIff.mp finished
  have slot := (TagSpace.listedSlot sound.bounded).mp listed
  have inside : k.tag.toNat < b.space.slots.size :=
    space ▸ (Array.getElem?_eq_some_iff.mp slot).1
  exact DispatchTable.lookupIff.mpr (DispatchBuilder.stored consistent inside).1

/-- Whatever the space and the names left out, neither standard subsystem is ever refused, and it is
all one which of them goes first. What is missing afterwards are printers and equalities of the runtime
kinds that were left out. Where none was, each kind has its standard layout, and values print as their
kind and are equal to nothing but themselves. -/
theorem defaultsComplete {s : TagSpace} (reachable : s.Reachable) (frozen : s.isFrozen = true)
    (room : s.size ≤ 4294967295) (skipped : List String) :
    ∃ fresh b : DispatchBuilder α ω, DispatchBuilder.ofSpace s = .ok fresh ∧
      fresh.installAll [layouts, opaqueBehaviors skipped] = .ok b ∧
      fresh.installAll [opaqueBehaviors skipped, layouts] = .ok b ∧
      b.gaps = gapsLeft s skipped ∧
      ((∃ d, b.finish = .ok d) ↔
        ∀ k ∈ s.kinds, k.category = .runtimeKind → k.name ∉ skipped) ∧
      ∀ d, b.finish = .ok d → ∃ m, ObjectModel.ofTable d = .ok m ∧
        ∀ k ∈ s.kinds, ∃ e, d.lookup k.tag = .ok e ∧ Plain k e ∧
          (k.category = .runtimeKind → ∀ o, o.tag = k.tag →
            m.describe o = .ok ("#<" ++ k.name ++ ">") ∧
            ∀ other, m.equals o other = .ok (o.tag == other.tag && o.address == other.address)) := by
  have sound := TagSpace.reachableSound reachable
  have small : s.slots.size < UInt32.size := Nat.lt_succ_of_le room
  obtain ⟨fresh, made⟩ : ∃ fresh : DispatchBuilder α ω, DispatchBuilder.ofSpace s = .ok fresh :=
    freshMade frozen
  obtain ⟨b, installed, equips⟩ := equipped sound made skipped
  have closed : b.gaps = [] ↔ ∀ k ∈ s.kinds, k.category = .runtimeKind → k.name ∉ skipped := by
    rw [equips.gaps, noneLeft]
  refine ⟨fresh, b, made, installed, eitherOrder sound made installed, equips.gaps, ?finishes,
    fun d finished => ?filled⟩
  case finishes =>
    simp only [DispatchBuilder.finishedIff, exists_and_left, exists_eq, and_true, closed]
  case filled =>
    obtain ⟨modelled, whole⟩ := ObjectModel.tableModelled reachable made installed finished
    refine ⟨_, modelled, fun k listed => ?_⟩
    have declared := (TagSpace.listedKind sound.bounded).mp listed
    have found := listedFound sound made installed finished listed
    have gapless := (DispatchBuilder.finishedIff.mp finished).1
    have plain : Plain k (b.entryAt k.tag) := by
      rw [filled sound made installed listed]
      exact entryPlain (closed.mp gapless k listed)
    refine ⟨_, found, plain, fun value o tagged => ?_⟩
    exact plainAnswers (ObjectModel.finishedWhole whole) small declared value found plain tagged

theorem miniatureDefaults :
    (∃ fresh b : DispatchBuilder Unit Unit,
      fresh.installAll [opaqueBehaviors ["toplevel", "cons", "pair"], layouts] = .ok b ∧
        b.gaps = [⟨4, "pair", .runtimeKind, [.describe, .equality]⟩] ∧ ¬ ∃ d, b.finish = .ok d) ∧
    ∃ m : ObjectModel Unit Unit, ∀ o : HeapObject Unit, o.tag = 4 → m.describe o = .ok "#<pair>" := by
  constructor
  · obtain ⟨fresh, b, _, _, installed, gaps, finishes, _⟩ := defaultsComplete (α := Unit) (ω := Unit)
      miniatureReachable rfl (by decide) ["toplevel", "cons", "pair"]
    refine ⟨fresh, b, installed, gaps.trans (by decide), fun finished => ?_⟩
    exact finishes.mp finished ⟨4, "pair", .runtimeKind⟩ (by decide) rfl (by decide)
  · obtain ⟨_, b, _, _, _, _, finishes, filled⟩ := defaultsComplete (α := Unit) (ω := Unit)
      miniatureReachable rfl (by decide) ["toplevel", "cons"]
    obtain ⟨d, finished⟩ := finishes.mpr (by decide)
    obtain ⟨m, _, kinds⟩ := filled d finished
    obtain ⟨_, _, _, answers⟩ := kinds ⟨4, "pair", .runtimeKind⟩ (by decide)
    exact ⟨m, fun o tagged => (answers rfl o tagged).1⟩

end TaggedHeap.Standard
