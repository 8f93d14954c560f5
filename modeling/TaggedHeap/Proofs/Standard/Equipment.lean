import Mathlib.Data.List.Nodup
import TaggedHeap.ObjectModel.Standard
import TaggedHeap.Proofs.Dispatch.Ordering
import TaggedHeap.Proofs.ObjectModel.Finished
import TaggedHeap.Proofs.Space.Listing
import TaggedHeap.Proofs.Standard.Spaces

/-! The standard subsystems complete any frozen space: their claims are valid and apart, whatever the
kinds are called, and together they are all that the categories demand, but for the runtime kinds
that are left out. -/
namespace TaggedHeap

section Claims

variable {α ω : Type} {s : TagSpace} {fresh b : DispatchBuilder α ω} {claims : List (Claim α ω)}
  {subsystems : List (Subsystem α ω)} {kind : String} {t : Tag} {op : Operation}

theorem DispatchBuilder.allEach (ok : fresh.installAll subsystems = .ok b) :
    fresh.installEach subsystems = b := by
  induction subsystems generalizing fresh with
  | nil =>
    cases ok
    rfl
  | cons subsystem rest ih =>
    rw [installAll] at ok
    split at ok
    · rename_i next installed
      rw [← ih ok, installEach, List.foldl_cons, installed]
      rfl
    · cases ok

theorem DispatchBuilder.partClaimed (indexed : Indexed s.slots s.names)
    (made : DispatchBuilder.ofSpace s = .ok fresh) (ok : claims.foldlM Claim.enter fresh = .ok b)
    (named : s.tagNamed kind = .ok t) {part : Part α ω} : (b.entryAt t).part op = some part ↔
      ∃ c ∈ claims, c.pair = (kind, op) ∧ part = c.registration.part := by
  have space : fresh.space = s := workingSpace made .fresh
  have consistent := freshConsistent made
  have indexedHere : Indexed fresh.space.slots fresh.space.names := space.symm ▸ indexed
  have namedHere : b.space.tagNamed kind = .ok t := by
    rw [foldSpace ok, space]
    exact named
  have held {holding : Holding α ω} : b.ledger kind op = some holding ↔
      ∃ c ∈ claims, c.pair = (kind, op) ∧ holding = ⟨c.claimant, c.registration.part⟩ := by
    rw [foldLedger indexedHere consistent ok, freshLedger indexed made]
    exact or_iff_right nofun
  simp only [heldPart (foldConsistent indexedHere consistent ok), ← ledgerNamed namedHere, held]
  constructor
  · rintro ⟨_, c, member, pair, same⟩
    exact ⟨c, member, pair, (Holding.mk.inj same).2⟩
  · rintro ⟨c, member, pair, rfl⟩
    exact ⟨_, c, member, pair, rfl⟩

theorem DispatchBuilder.hasClaimed (indexed : Indexed s.slots s.names)
    (made : DispatchBuilder.ofSpace s = .ok fresh) (ok : claims.foldlM Claim.enter fresh = .ok b)
    (named : s.tagNamed kind = .ok t) :
    (b.entryAt t).has op = true ↔ ∃ c ∈ claims, c.pair = (kind, op) := by
  rw [← Entry.partHas, Option.isSome_iff_exists]
  simp only [partClaimed indexed made ok named]
  constructor
  · rintro ⟨_, c, member, pair, _⟩
    exact ⟨c, member, pair⟩
  · rintro ⟨c, member, pair⟩
    exact ⟨_, c, member, pair, rfl⟩

theorem ObjectModel.tableModelled (reachable : s.Reachable)
    (made : DispatchBuilder.ofSpace s = .ok fresh) (installed : fresh.installAll subsystems = .ok b)
    {d : DispatchTable α ω} (finished : b.finish = .ok d) :
    ObjectModel.ofTable d = .ok ⟨s, ⟨s.boundaries⟩, d⟩ ∧
      ObjectModel.Finished ⟨s, ⟨s.boundaries⟩, d⟩ := by
  have history : (fresh.installEach subsystems).finish = .ok d := by
    rw [DispatchBuilder.allEach installed]
    exact finished
  obtain ⟨rfl, _, _⟩ := DispatchTable.finishedHistory reachable made history
  have modelled : ObjectModel.ofTable d = .ok ⟨d.space, ⟨d.space.boundaries⟩, d⟩ :=
    ObjectModel.ofTableIff.mpr ⟨(DispatchBuilder.madeIff.mp made).1, rfl⟩
  exact ⟨modelled, .of reachable made subsystems history modelled⟩

end Claims

namespace Standard

variable {α ω : Type} {s : TagSpace} {fresh b : DispatchBuilder α ω} {skipped : List String}
  {k : KindInfo} {op : Operation}

theorem layoutValid (kind : String) : (layoutOf kind).validate = .ok () := by
  unfold layoutOf
  repeat' split
  all_goals rfl

def shown (s : TagSpace) (skipped : List String) : List KindInfo :=
  s.kinds.filter fun k => k.category == .runtimeKind && !skipped.contains k.name

def equipment (skipped : List String) : List (StrictSubsystem α ω) :=
  [⟨"standard-layouts", fun s => s.kinds.map fun k => .scan k.name (layoutOf k.name)⟩,
   ⟨"opaque-behaviors", fun s => (shown s skipped).flatMap behaviorsOf⟩]

theorem equipmentSubsystems : (equipment skipped).map StrictSubsystem.subsystem =
    [layouts, (opaqueBehaviors skipped : Subsystem α ω)] := rfl

def claimed (s : TagSpace) (skipped : List String) : List (String × Operation) :=
  s.kinds.map (fun k : KindInfo => (k.name, Operation.scan)) ++
    (shown s skipped).flatMap fun k => [(k.name, .describe), (k.name, .equality)]

theorem equipmentPairs :
    ((equipment skipped).flatMap (StrictSubsystem.claims s : _ → List (Claim α ω))).map Claim.pair =
      claimed s skipped := by
  simp only [equipment, List.flatMap_cons, List.flatMap_nil, List.append_nil, List.map_append,
    StrictSubsystem.claims, List.map_map, List.map_flatMap]
  rfl

theorem claimedApart (sound : s.Sound) : (claimed s skipped).Nodup := by
  have names := List.pairwise_map.mp (TagSpace.kindNamesApart sound)
  refine List.nodup_append.mpr ⟨?_, List.nodup_flatMap.mpr ⟨fun k _ => by simp, ?_⟩, ?_⟩
  · exact List.pairwise_map.mpr (names.imp fun differ same => differ (Prod.mk.inj same).1)
  · refine (names.sublist List.filter_sublist).imp fun differ => ?_
    simp [Function.onFun, differ.symm]
  · rintro pair first other second rfl
    obtain ⟨k, _, rfl⟩ := List.mem_map.mp first
    obtain ⟨l, _, member⟩ := List.mem_flatMap.mp second
    simp at member

theorem claimedIff (sound : s.Sound) (listed : k ∈ s.kinds) : (k.name, op) ∈ claimed s skipped ↔
    op = .scan ∨
      (op = .describe ∨ op = .equality) ∧ k.category = .runtimeKind ∧ k.name ∉ skipped := by
  simp only [claimed, List.mem_append, List.mem_map, List.mem_flatMap, shown, List.mem_filter]
  constructor
  · rintro (⟨l, _, same⟩ | ⟨l, ⟨member, proper⟩, same⟩)
    · exact .inl (Prod.mk.inj same).2.symm
    · simp only [List.mem_cons, Prod.mk.injEq, List.not_mem_nil, or_false] at same
      have here : l = k := TagSpace.listedApart sound listed member
        (by rcases same with same | same <;> exact same.1.symm)
      subst here
      exact .inr ⟨by simpa using same, by simpa using proper⟩
  · rintro (rfl | ⟨shows, proper⟩)
    · exact .inl ⟨k, listed, rfl⟩
    · exact .inr ⟨k, ⟨listed, by simpa using proper⟩, by simpa using shows⟩

theorem equipmentClaim {c : Claim α ω} :
    c ∈ (equipment skipped).flatMap (StrictSubsystem.claims s) ↔ ∃ k ∈ s.kinds,
      c = ⟨"standard-layouts", .scan k.name (layoutOf k.name)⟩ ∨
        k ∈ shown s skipped ∧ ∃ r ∈ behaviorsOf k, c = ⟨"opaque-behaviors", r⟩ := by
  simp only [equipment, List.flatMap_cons, List.flatMap_nil, List.append_nil, List.mem_append,
    StrictSubsystem.claims, List.mem_map, List.mem_flatMap]
  constructor
  · rintro (⟨_, ⟨k, listed, rfl⟩, rfl⟩ | ⟨r, ⟨k, shows, offered⟩, rfl⟩)
    · exact ⟨k, listed, .inl rfl⟩
    · exact ⟨k, (List.mem_filter.mp shows).1, .inr ⟨shows, r, offered, rfl⟩⟩
  · rintro ⟨k, listed, rfl | ⟨shows, r, offered, rfl⟩⟩
    · exact .inl ⟨_, ⟨k, listed, rfl⟩, rfl⟩
    · exact .inr ⟨r, ⟨k, shows, offered⟩, rfl⟩

theorem equipmentAdmitted (sound : s.Sound) :
    s.Admits ((equipment skipped).flatMap (StrictSubsystem.claims s : _ → List (Claim α ω))) := by
  have each : ∀ c ∈ (equipment skipped).flatMap (StrictSubsystem.claims s : _ → List (Claim α ω)),
      (∃ k ∈ s.kinds, c.registration.kind = k.name) ∧ c.registration.check = .ok () := by
    intro c member
    obtain ⟨k, listed, rfl | ⟨_, r, offered, rfl⟩⟩ := equipmentClaim.mp member
    · exact ⟨⟨k, listed, rfl⟩, mapErrorOk.mpr (layoutValid k.name)⟩
    · simp only [behaviorsOf, List.mem_cons, List.not_mem_nil, or_false] at offered
      rcases offered with rfl | rfl <;> exact ⟨⟨k, listed, rfl⟩, rfl⟩
  refine ⟨fun c member => ?_, fun c member => (each c member).2, ?_⟩
  · obtain ⟨⟨k, listed, same⟩, _⟩ := each c member
    exact (TagSpace.declaredListed sound).mpr ⟨k, listed, same.symm⟩
  · rw [equipmentPairs]
    exact claimedApart sound

def gapsLeft (s : TagSpace) (skipped : List String) : List Gap :=
  (s.kinds.filter fun k => k.category == .runtimeKind && skipped.contains k.name).map fun k =>
    ⟨k.tag, k.name, k.category, [.describe, .equality]⟩

structure Equipped (s : TagSpace) (skipped : List String) (b : DispatchBuilder α ω) : Prop where
  space : b.space = s
  has : ∀ k ∈ s.kinds, ∀ op, (b.entryAt k.tag).has op = true ↔ op = .scan ∨
    (op = .describe ∨ op = .equality) ∧ k.category = .runtimeKind ∧ k.name ∉ skipped

theorem equipped (sound : s.Sound) (made : DispatchBuilder.ofSpace s = .ok fresh)
    (skipped : List String) : ∃ b : DispatchBuilder α ω,
      fresh.installAll [layouts, opaqueBehaviors skipped] = .ok b ∧ Equipped s skipped b := by
  have space : fresh.space = s := DispatchBuilder.workingSpace made .fresh
  have free : ∀ c : Claim α ω, c.FreeIn fresh.ledger := fun c => by
    rw [DispatchBuilder.freshLedger sound.indexed made]
    rfl
  obtain ⟨b, ok⟩ := (DispatchBuilder.foldAdmitted (space.symm ▸ sound.indexed)
    (DispatchBuilder.freshConsistent made)).mpr
    ⟨space.symm ▸ equipmentAdmitted sound, fun c _ => free c⟩
  have installed : fresh.installAll [layouts, opaqueBehaviors skipped] = .ok b := by
    rw [← equipmentSubsystems]
    exact StrictSubsystem.allInstalledIff.mpr ok
  refine ⟨b, installed, (DispatchBuilder.foldSpace ok).trans space, ?_⟩
  intro k listed op
  have named := TagSpace.listedNamed sound listed
  rw [DispatchBuilder.hasClaimed sound.indexed made ok named, ← claimedIff sound listed,
    ← equipmentPairs, List.mem_map, space]

theorem missingShown (scans : (b.entryAt k.tag).has .scan = true) : b.missing k =
    if k.category = .runtimeKind then
      [Operation.describe, .equality].filter fun op => !(b.entryAt k.tag).has op
    else [] := by
  unfold DispatchBuilder.missing
  cases k.category <;> simp [Category.requiredOperations, List.filter_cons, scans]

theorem missingOffered {offers : List (String × Operation)}
    (has : ∀ op, (b.entryAt k.tag).has op = true ↔ (k.name, op) ∈ offers ∨ op = .scan ∨
      (op = .describe ∨ op = .equality) ∧ k.category = .runtimeKind ∧ k.name ∉ skipped) :
    b.missing k = if k.category == .runtimeKind && skipped.contains k.name then
      [Operation.describe, .equality].filter fun op => (k.name, op) ∉ offers else [] := by
  rw [missingShown ((has .scan).mpr (.inr (.inl rfl)))]
  by_cases value : k.category = .runtimeKind
  · have shows {op : Operation} (shown : op = .describe ∨ op = .equality) :
        (b.entryAt k.tag).has op = true ↔ (k.name, op) ∈ offers ∨ k.name ∉ skipped := by
      rw [has]
      rcases shown with rfl | rfl <;> simp [value]
    by_cases left : k.name ∈ skipped
    · rw [if_pos value, if_pos (by simp [value, left])]
      refine List.filter_congr fun op member => ?_
      have offered := shows (show op = .describe ∨ op = .equality by simpa using member)
      rw [or_iff_left (not_not_intro left)] at offered
      rw [Bool.eq_iff_iff, Bool.not_eq_true', ← Bool.not_eq_true, offered, decide_eq_true_iff]
    · simp [value, left, shows (.inl rfl), shows (.inr rfl)]
  · simp [value]

theorem gapsWhere {lacks : KindInfo → Bool} {lacking : KindInfo → List Operation}
    (space : b.space = s) (each : ∀ k ∈ s.kinds, b.missing k = if lacks k then lacking k else []) :
    b.gaps = (s.kinds.filter fun k => lacks k && lacking k != []).map
      fun k => ⟨k.tag, k.name, k.category, lacking k⟩ := by
  have found : ∀ k ∈ s.kinds, b.gap? k = if lacks k && lacking k != [] then
      some ⟨k.tag, k.name, k.category, lacking k⟩ else none := by
    intro k listed
    rw [DispatchBuilder.gap?, each k listed]
    cases lacks k <;> cases lacking k <;> rfl
  rw [DispatchBuilder.gaps, space, List.filterMap_congr found, ← List.filterMap_eq_map',
    List.filterMap_filter]

theorem Equipped.gaps (equips : Equipped s skipped b) : b.gaps = gapsLeft s skipped := by
  have each : ∀ k ∈ s.kinds, b.missing k =
      if k.category == .runtimeKind && skipped.contains k.name then [.describe, .equality]
      else [] := by
    intro k listed
    have has (op : Operation) : (b.entryAt k.tag).has op = true ↔
        (k.name, op) ∈ ([] : List (String × Operation)) ∨ _ :=
      (equips.has k listed op).trans (or_iff_right List.not_mem_nil).symm
    rw [missingOffered has]
    simp
  have some : ([.describe, .equality] != ([] : List Operation)) = true := rfl
  simp only [gapsWhere equips.space each, gapsLeft, some, Bool.and_true]

theorem noneLeft : gapsLeft s skipped = [] ↔
    ∀ k ∈ s.kinds, k.category = .runtimeKind → k.name ∉ skipped := by
  simp [gapsLeft]

theorem Equipped.gapless (equips : Equipped s [] b) : b.gaps = [] := by
  rw [equips.gaps, noneLeft]
  exact fun _ _ _ => List.not_mem_nil

theorem freshMade (frozen : s.isFrozen = true) :
    ∃ fresh : DispatchBuilder α ω, DispatchBuilder.ofSpace s = .ok fresh :=
  ⟨_, DispatchBuilder.madeIff.mpr ⟨frozen, rfl⟩⟩

theorem modelled (reachable : s.Reachable) (frozen : s.isFrozen = true) :
    ∃ (d : DispatchTable α ω) (m : ObjectModel α ω),
      DispatchTable.build s [layouts, opaqueBehaviors []] = .ok d ∧
      ObjectModel.ofTable d = .ok m ∧ m.Finished ∧ m.space = s := by
  obtain ⟨fresh, made⟩ : ∃ fresh : DispatchBuilder α ω, DispatchBuilder.ofSpace s = .ok fresh :=
    freshMade frozen
  obtain ⟨b, installed, equips⟩ := equipped (TagSpace.reachableSound reachable) made []
  have finished : b.finish = .ok ⟨b.space, b.entries⟩ :=
    DispatchBuilder.finishedIff.mpr ⟨equips.gapless, rfl⟩
  obtain ⟨derived, whole⟩ := ObjectModel.tableModelled reachable made installed finished
  exact ⟨_, _, bindOk.mpr ⟨fresh, made, bindOk.mpr ⟨b, installed, finished⟩⟩, derived, whole, rfl⟩

theorem standardModelled {settings : Settings} (made : space settings.internalTier = .ok s)
    (formed : Formed settings.internalTier s) : ∃ m : ObjectModel α ω,
      ObjectModel.standard settings = .ok m ∧ m.Finished ∧ m.space = s := by
  obtain ⟨d, m, built, derived, finished, same⟩ := modelled formed.reachable formed.frozen
  exact ⟨m, bindOk.mpr ⟨s, made, bindOk.mpr ⟨d, built, derived⟩⟩, finished, same⟩

end Standard

end TaggedHeap
