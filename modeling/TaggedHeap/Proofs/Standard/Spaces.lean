import TaggedHeap.Proofs.Space.Ranges
import TaggedHeap.Proofs.Space.Tiers
import TaggedHeap.Standard.Kinds
import TaggedHeap.Standard.Ranges

/-! The standard space comes about with the internal tier and without it, for its names are pairwise
distinct, and the standard ranges resolve in both. -/
namespace TaggedHeap

namespace Standard

variable {s : TagSpace} {tier : Bool}

def names : List String :=
  compiledSyntaxForms ++ registeredValuesAndSlots ++ runtimeKinds ++ internalKinds

def code (name : String) : Nat :=
  name.toByteArray.data.toList.foldl (fun n byte => 256 * n + byte.toNat) 0

-- Sorted first: then neighbours tell all, where else every pair would have to be compared.
theorem codesAscend : ((names.map code).insertionSort (· ≤ ·)).IsChain (· < ·) := by decide +kernel

theorem namesApart : names.Nodup := by
  have sorted := (List.isChain_iff_pairwise.mp codesAscend).imp Nat.ne_of_lt
  exact ((List.perm_insertionSort _ _).nodup_iff.mp sorted).of_map code

theorem catalogLayers :
    catalog = Catalog.layers compiledSyntaxForms registeredValuesAndSlots runtimeKinds := rfl

theorem catalogSize : catalog.size + internalKinds.length < UInt32.size := by decide +kernel

theorem catalogNames : Catalog.names catalog.entries =
    compiledSyntaxForms ++ registeredValuesAndSlots ++ runtimeKinds := by
  simp only [catalog, Catalog.kindsNames, Catalog.boundaryNames]
  rfl

theorem internalNew {name : String} (member : name ∈ internalKinds) :
    name ∉ Catalog.names catalog.entries := by
  rw [catalogNames]
  exact fun declared => (List.nodup_append.mp namesApart).2.2 name declared name member rfl

theorem catalogBuilt (tier : Bool) : ∃ s, TagSpace.build catalog tier = .ok s :=
  builtIff.mpr ⟨⟨_, _, _, catalogLayers, (List.nodup_append.mp namesApart).1⟩,
    Nat.lt_of_le_of_lt (Nat.le_add_right _ _) catalogSize⟩

structure Formed (tier : Bool) (s : TagSpace) : Prop where
  reachable : s.Reachable
  frozen : s.isFrozen = true
  internalTier : s.internalTier = tier
  room : s.slots.size < UInt32.size
  listed : ∀ (i : Nat) (entry : CatalogEntry), catalog.entries[i]? = some entry →
    s.slots[i]? = some entry.slot

theorem evolvedFormed (built : TagSpace.build catalog tier = .ok s) (changes : List Change)
    (done : (s.evolve changes).isFrozen = true)
    (room : (s.evolve changes).slots.size < UInt32.size) : Formed tier (s.evolve changes) where
  reachable := ⟨catalog, tier, s, changes, built, rfl⟩
  frozen := done
  internalTier := (TagSpace.evolvedSound built changes).2
  room := room
  listed i entry there := (TagSpace.evolveExtends s changes).slots i _ (by
    rw [(builtMirrors built).1.slots, there]
    rfl)

theorem spaceFormed (tier : Bool) : ∃ s, space tier = .ok s ∧ Formed tier s := by
  obtain ⟨base, built⟩ := catalogBuilt tier
  have size : base.slots.size = catalog.size := (TagSpace.builtCounted built).1
  have small := catalogSize
  cases tier with
  | false =>
    refine ⟨base.freeze, bindOk.mpr ⟨base, built, rfl⟩, evolvedFormed built [.freeze] rfl ?_⟩
    exact size ▸ Nat.lt_of_le_of_lt (Nat.le_add_right _ _) small
  | true =>
    have fresh := fun (name : String) (member : name ∈ internalKinds) =>
      TagSpace.builtFresh built (internalNew member)
    obtain ⟨growing, tiered, _⟩ := fresh "will" (by decide)
    obtain ⟨grown, ok, _⟩ := TagSpace.appended growing tiered
      (List.nodup_append.mp namesApart).2.1 (fun name member => (fresh name member).2.2)
      (Nat.le_of_lt (size ▸ small))
    have appends : internalTier.appendTo base = .ok grown := ok
    have counted : grown.slots.size = base.slots.size + internalKinds.length :=
      TagSpace.appendCounted appends
    have same : base.evolve [.append internalTier, .freeze] = grown.freeze :=
      congrArg TagSpace.freeze (TagSpace.afterAppend appends)
    refine ⟨grown.freeze, bindOk.mpr ⟨base, built, bindOk.mpr ⟨grown, appends, rfl⟩⟩, ?_⟩
    refine same ▸ evolvedFormed built [.append internalTier, .freeze] (by rw [same]; rfl) ?_
    rw [same]
    exact counted ▸ size ▸ small

theorem rangesResolve (formed : Formed tier s) : ∃ ranges, Ranges.resolve s = .ok ranges := by
  have indexed := (TagSpace.reachableSound formed.reachable).indexed
  have spans {first last : String} {category : Category} {t u : Tag}
      (lower : catalog.entries[t.toNat]? = some (.kind ⟨first, category⟩))
      (upper : catalog.entries[u.toNat]? = some (.kind ⟨last, category⟩)) (inOrder : t ≤ u) :
      s.range first last = .ok ⟨t, u + 1⟩ :=
    TagSpace.joinedRange
      (TagSpace.joined indexed (formed.listed _ _ lower) (formed.listed _ _ upper) inOrder)
  have procedure : s.range "prim" "native-closure" = .ok ⟨27, 34 + 1⟩ := spans rfl rfl (by decide)
  have procedureOrStruct : s.range "prim" "structure" = .ok ⟨27, 35 + 1⟩ := spans rfl rfl (by decide)
  have number : s.range "integer" "complex" = .ok ⟨37, 43 + 1⟩ := spans rfl rfl (by decide)
  exact ⟨_, bindOk.mpr ⟨_, procedure, bindOk.mpr ⟨_, procedureOrStruct,
    bindOk.mpr ⟨_, number, rfl⟩⟩⟩⟩

end Standard

end TaggedHeap
