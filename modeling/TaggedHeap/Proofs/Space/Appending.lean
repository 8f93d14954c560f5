import TaggedHeap.Proofs.Space.Arrangement
import TaggedHeap.Proofs.Outcome
import TaggedHeap.TagSpace.Growth

/-! What it takes to append a tier of internal kinds: a growing space that admits one, and kinds that
can be added one by one. -/
namespace TaggedHeap.TagSpace

variable {s grown : TagSpace} {name : String} {offered : List String}

theorem requiredGrowing {s : TagSpace} {u} (ok : s.requireGrowing = .ok u) :
    s.isFrozen = false := by
  unfold requireGrowing at ok
  split at ok <;> try contradiction
  rename_i growing
  exact Bool.not_eq_true _ ▸ growing

theorem addInternalOk (ok : s.addInternal name = .ok grown) : s.isFrozen = false ∧
    ∃ tag names, tagAt s.slots.size = .ok tag ∧ s.names.declare name tag = .ok names ∧
      grown = { s with names, slots := s.slots.push (.kind name .internalOnly) } := by
  obtain ⟨_, growing, ok⟩ := bindOk.mp ok
  obtain ⟨tag, numbered, ok⟩ := bindOk.mp ok
  obtain ⟨names, declares, last⟩ := bindOk.mp ok
  cases last
  exact ⟨requiredGrowing growing, tag, names, numbered, declares, rfl⟩

theorem foldWithin (ok : offered.foldlM addInternal s = .ok grown) :
    ∃ names slots, grown = { s with names, slots } := by
  refine foldKeeps (fun now => ∃ names slots, now = { s with names, slots }) ?_ ⟨_, _, rfl⟩ ok
  rintro now name next ⟨names, slots, rfl⟩ added
  obtain ⟨_, tag, names, _, _, rfl⟩ := addInternalOk added
  exact ⟨names, _, rfl⟩

theorem foldTier (ok : offered.foldlM addInternal s = .ok grown) :
    grown.isFrozen = s.isFrozen ∧ grown.internalTier = s.internalTier := by
  obtain ⟨names, slots, rfl⟩ := foldWithin ok
  exact ⟨rfl, rfl⟩

theorem foldFresh (ok : offered.foldlM addInternal s = .ok grown) :
    offered.Nodup ∧ ∀ name ∈ offered, s.names[name]? = none := by
  induction offered generalizing s with
  | nil => exact ⟨.nil, fun _ member => by cases member⟩
  | cons name rest ih =>
    rw [List.foldlM_cons] at ok
    obtain ⟨next, added, later⟩ := bindOk.mp ok
    obtain ⟨_, tag, names, _, declares, rfl⟩ := addInternalOk added
    obtain ⟨free, rfl⟩ := declared declares
    obtain ⟨distinct, fresh⟩ := ih later
    have apart : ∀ other ∈ rest, name ≠ other ∧ s.names[other]? = none := by
      intro other member
      have absent := fresh other member
      rw [Std.TreeMap.getElem?_insert] at absent
      split at absent <;> try contradiction
      rename_i differs
      exact ⟨fun same => differs (by simp [same]), absent⟩
    refine ⟨List.nodup_cons.mpr ⟨fun member => (apart name member).1 rfl, distinct⟩, ?_⟩
    intro other member
    rcases List.mem_cons.mp member with rfl | later
    · exact free
    · exact (apart other later).2

theorem firstTakenNone {seen : List String} (distinct : offered.Nodup)
    (fresh : ∀ name ∈ offered, name ∉ seen ∧ s.names[name]? = none) :
    s.firstTaken seen offered = none := by
  induction offered generalizing seen with
  | nil => rfl
  | cons name rest ih =>
    obtain ⟨apart, distinct⟩ := List.nodup_cons.mp distinct
    obtain ⟨unseen, free⟩ := fresh name List.mem_cons_self
    have absent : s.names.contains name = false := by
      rw [Std.TreeMap.contains_eq_isSome_getElem?, free]
      rfl
    rw [firstTaken, if_neg (by simp [unseen, absent])]
    refine ih distinct fun other member => ?_
    obtain ⟨before, free⟩ := fresh other (List.mem_cons_of_mem _ member)
    refine ⟨?_, free⟩
    intro seenNow
    rcases List.mem_cons.mp seenNow with rfl | earlier
    · exact apart member
    · exact before earlier

theorem appendIff : s.append offered = .ok grown ↔
    s.isFrozen = false ∧ s.internalTier = true ∧ offered.foldlM addInternal s = .ok grown := by
  constructor
  · intro ok
    obtain ⟨_, growing, ok⟩ := bindOk.mp ok
    dsimp only at ok
    split at ok <;> try contradiction
    rename_i tier
    split at ok <;> try contradiction
    exact ⟨requiredGrowing growing, tier, ok⟩
  · intro facts
    obtain ⟨growing, tier, ok⟩ := facts
    obtain ⟨distinct, fresh⟩ := foldFresh ok
    have untaken : s.firstTaken [] offered = none :=
      firstTakenNone distinct fun name member => ⟨List.not_mem_nil, fresh name member⟩
    simp [append, requireGrowing, growing, tier, untaken, ok, bind, Except.bind]

theorem appendSplit {first second : List String} : s.append (first ++ second) = .ok grown ↔
    ∃ middle, s.append first = .ok middle ∧ middle.append second = .ok grown := by
  simp only [appendIff, List.foldlM_append, bindOk]
  constructor
  · intro facts
    obtain ⟨growing, tier, middle, earlier, later⟩ := facts
    obtain ⟨sameFrozen, sameTier⟩ := foldTier earlier
    exact ⟨middle, ⟨growing, tier, earlier⟩, sameFrozen.trans growing, sameTier.trans tier, later⟩
  · intro facts
    obtain ⟨middle, ⟨growing, tier, earlier⟩, _, _, later⟩ := facts
    exact ⟨growing, tier, middle, earlier, later⟩

end TaggedHeap.TagSpace
