import Mathlib.Data.List.Induction
import TaggedHeap.Proofs.Space.Capacity
import TaggedHeap.Proofs.Space.Persistence

/-! A tier that goes in: names that are new and pairwise distinct fill the slots after the last one,
as long as there are tags for them. The names are searched before the first of them goes in, so that
no tier stops halfway. -/
namespace TaggedHeap

namespace TagSpace

variable {s grown : TagSpace} {offered seen before after : List String} {name : String}
  {fault : Fault}

def tierSlots (offered : List String) : List Slot := offered.map (Slot.kind · .internalOnly)

theorem tierAdded (growing : s.isFrozen = false) (distinct : offered.Nodup)
    (fresh : ∀ name ∈ offered, s.names[name]? = none)
    (room : s.slots.size + offered.length ≤ UInt32.size) :
    ∃ grown, offered.foldlM addInternal s = .ok grown ∧
      grown.slots.toList = s.slots.toList ++ tierSlots offered := by
  induction offered generalizing s with
  | nil => exact ⟨s, rfl, (List.append_nil _).symm⟩
  | cons name rest ih =>
    obtain ⟨apart, distinct⟩ := List.nodup_cons.mp distinct
    rw [List.length_cons] at room
    obtain ⟨next, added⟩ := addInternalFresh growing (fresh name List.mem_cons_self) (by omega)
    obtain ⟨_, tag, names, _, declares, same⟩ := addInternalOk added
    obtain ⟨_, rfl⟩ := declared declares
    have slots : next.slots = s.slots.push (.kind name .internalOnly) := by rw [same]
    have later : ∀ other ∈ rest, next.names[other]? = none := by
      intro other member
      have differs : name ≠ other := fun here => apart (here ▸ member)
      simp [same, Std.TreeMap.getElem?_insert, differs, fresh other (List.mem_cons_of_mem _ member)]
    obtain ⟨grown, ok, whole⟩ := ih (same ▸ growing) distinct later
      (by rw [slots, Array.size_push]; omega)
    refine ⟨grown, by rw [List.foldlM_cons, added]; exact ok, whole.trans ?_⟩
    rw [slots, Array.toList_push, List.append_assoc]
    rfl

theorem appended (growing : s.isFrozen = false) (tier : s.internalTier = true)
    (distinct : offered.Nodup) (fresh : ∀ name ∈ offered, s.names[name]? = none)
    (room : s.slots.size + offered.length ≤ UInt32.size) :
    ∃ grown, s.append offered = .ok grown ∧
      grown.slots.toList = s.slots.toList ++ tierSlots offered := by
  obtain ⟨grown, ok, slots⟩ := tierAdded growing distinct fresh room
  exact ⟨grown, appendIff.mpr ⟨growing, tier, ok⟩, slots⟩

structure Fresh (s : TagSpace) (offered : List String) : Prop where
  distinct : offered.Nodup
  unknown : ∀ name ∈ offered, ¬ s.Declares name

-- The name in the last case is the first that was offered twice or is declared already.
inductive Declines (s : TagSpace) (offered : List String) : Fault → Prop where
  | frozen (done : s.isFrozen = true) : Declines s offered .spaceFrozen
  | tierless (growing : s.isFrozen = false) (off : s.internalTier = false) :
      Declines s offered (.internalTierDisabled offered.length)
  | clash {before after : List String} {name : String} (growing : s.isFrozen = false)
      (tier : s.internalTier = true) (split : offered = before ++ name :: after)
      (fresh : s.Fresh before) (taken : name ∈ before ∨ s.Declares name) :
      Declines s offered (.duplicateInternalKind name)

theorem takenIff (indexed : Indexed s.slots s.names) :
    s.names.contains name = true ↔ s.Declares name := by
  rw [← not_iff_not, undeclaredIff indexed, Std.TreeMap.contains_eq_isSome_getElem?]
  simp

theorem firstTakenSome (indexed : Indexed s.slots s.names) (fresh : s.Fresh before)
    (unseen : ∀ other ∈ before, other ∉ seen)
    (taken : name ∈ seen ∨ name ∈ before ∨ s.Declares name) :
    s.firstTaken seen (before ++ name :: after) = some name := by
  induction before generalizing seen with
  | nil =>
    have hit : (seen.contains name || s.names.contains name) = true := by
      simpa [takenIff indexed] using taken
    rw [List.nil_append, firstTaken, if_pos hit]
  | cons other rest ih =>
    obtain ⟨distinct, unknown⟩ := fresh
    obtain ⟨apart, distinct⟩ := List.nodup_cons.mp distinct
    have miss : ¬ (seen.contains other || s.names.contains other) = true := by
      simpa [takenIff indexed] using
        ⟨unseen other List.mem_cons_self, unknown other List.mem_cons_self⟩
    rw [List.cons_append, firstTaken, if_neg miss]
    refine ih ⟨distinct, fun name member => unknown name (List.mem_cons_of_mem _ member)⟩ ?_ ?_
    · intro name member here
      rcases List.mem_cons.mp here with rfl | earlier
      · exact apart member
      · exact unseen name (List.mem_cons_of_mem _ member) earlier
    · simp only [List.mem_cons] at taken ⊢
      tauto

theorem freshOrClash (s : TagSpace) (offered : List String) : s.Fresh offered ∨
    ∃ before name after, offered = before ++ name :: after ∧ s.Fresh before ∧
      (name ∈ before ∨ s.Declares name) := by
  -- From the end backwards, since a name clashes with those before it.
  induction offered using List.reverseRecOn with
  | nil => exact .inl ⟨.nil, fun _ member => by cases member⟩
  | append_singleton earlier last ih =>
    rcases ih with fresh | ⟨before, name, after, rfl, fresh, taken⟩
    · by_cases taken : last ∈ earlier ∨ s.Declares last
      · exact .inr ⟨earlier, last, [], rfl, fresh, taken⟩
      · obtain ⟨apart, unknown⟩ := not_or.mp taken
        refine .inl ⟨fresh.distinct.append (List.nodup_singleton last) ?_, fun name member => ?_⟩
        · intro name old new
          exact apart (List.mem_singleton.mp new ▸ old)
        · rcases List.mem_append.mp member with old | new
          · exact fresh.unknown name old
          · exact List.mem_singleton.mp new ▸ unknown
    · exact .inr ⟨before, name, after ++ [last], by simp, fresh, taken⟩

theorem freshIff (indexed : Indexed s.slots s.names) : s.Fresh offered ↔
    offered.Nodup ∧ ∀ name ∈ offered, s.names[name]? = none := by
  constructor
  · rintro ⟨distinct, unknown⟩
    exact ⟨distinct, fun name member => (undeclaredIff indexed).mp (unknown name member)⟩
  · rintro ⟨distinct, free⟩
    exact ⟨distinct, fun name member => (undeclaredIff indexed).mpr (free name member)⟩

theorem declinedAppend (indexed : Indexed s.slots s.names) (declines : s.Declines offered fault) :
    s.append offered = .error fault := by
  cases declines with
  | frozen done => simp [append, requireGrowing, done, bind, Except.bind]
  | tierless growing off =>
    simp [append, requireGrowing, growing, off, bind, Except.bind, throw, throwThe,
      MonadExceptOf.throw]
  | @clash before after name growing tier split fresh taken =>
    have first : s.firstTaken [] offered = some name := split ▸ firstTakenSome indexed fresh
      (fun _ _ => List.not_mem_nil) (.inr taken)
    simp [append, requireGrowing, growing, tier, first, bind, Except.bind, throw, throwThe,
      MonadExceptOf.throw]

theorem declinesOrFresh (s : TagSpace) (offered : List String) :
    (s.isFrozen = false ∧ s.internalTier = true ∧ s.Fresh offered) ∨
      ∃ fault, s.Declines offered fault := by
  by_cases growing : s.isFrozen = false
  case neg => exact .inr ⟨_, .frozen (Bool.not_eq_false _ ▸ growing)⟩
  by_cases tier : s.internalTier = true
  case neg => exact .inr ⟨_, .tierless growing (Bool.not_eq_true _ ▸ tier)⟩
  rcases freshOrClash s offered with fresh | ⟨before, name, after, split, fresh, taken⟩
  · exact .inl ⟨growing, tier, fresh⟩
  · exact .inr ⟨_, .clash growing tier split fresh taken⟩

structure Gains (s grown : TagSpace) (offered : List String) : Prop where
  slots : grown.slots.toList = s.slots.toList ++ tierSlots offered
  values : grown.values = s.values
  compiledValues : grown.compiledValues = s.compiledValues
  lastNormal : grown.lastNormal = s.lastNormal
  last : grown.last.toNat = s.last.toNat + offered.length
  flags : grown.lifecycle = s.lifecycle ∧ grown.internalTier = s.internalTier
  added : ∀ (i : Nat) (name : String), offered[i]? = some name →
    ∃ t, t.toNat = s.last.toNat + i ∧ grown.kindAt t = some ⟨t, name, .internalOnly⟩ ∧
      grown.tagNamed name = .ok t
  classified : ∀ t, s.last ≤ t → t < grown.last → ∀ changes c,
    (grown.evolve changes).size ≤ 4294967295 → Classifier.ofSpace (grown.evolve changes) = .ok c →
      c.classify t = .ok .internalOnly

theorem gainedSlot (slots : grown.slots.toList = s.slots.toList ++ tierSlots offered) (i : Nat) :
    grown.slots[s.slots.size + i]? = offered[i]?.map (Slot.kind · .internalOnly) := by
  rw [← Array.getElem?_toList, slots, List.getElem?_append_right (by simp)]
  simp [tierSlots]

theorem lastingCategory (sound : s.Sound) {t : Tag} {slot : Slot} (found : s.slotAt t = some slot)
    {changes : List Change} {c : Classifier} (room : (s.evolve changes).size ≤ 4294967295)
    (derived : Classifier.ofSpace (s.evolve changes) = .ok c) :
    c.classify t = .ok slot.category := by
  obtain ⟨_, rfl⟩ := Classifier.ofSpaceIff.mp derived
  have still : (s.evolve changes).slotAt t = some slot := (evolveExtends s changes).slots _ _ found
  exact Classifier.slotClassified (stepsSound (evolveSteps s changes) sound)
    (Nat.lt_succ_of_le room) still

theorem appendGains (after : grown.Sound) (ok : s.append offered = .ok grown)
    (slots : grown.slots.toList = s.slots.toList ++ tierSlots offered)
    (room : s.slots.size + offered.length < UInt32.size) : s.Gains grown offered := by
  obtain ⟨_, _, folded⟩ := appendIff.mp ok
  obtain ⟨names, all, same⟩ := foldWithin folded
  have counted : grown.slots.size = s.slots.size + offered.length := foldCounted folded
  have last : s.last.toNat = s.slots.size := lastExact (by omega)
  have grownLast : grown.last.toNat = s.slots.size + offered.length :=
    (lastExact (counted ▸ room)).trans counted
  refine ⟨slots, by rw [same], by rw [same], by rw [same], grownLast.trans (by rw [last]),
    by rw [same]; exact ⟨rfl, rfl⟩, ?added, ?classified⟩
  case added =>
    intro i name offers
    have inside := (List.getElem?_eq_some_iff.mp offers).1
    have position : (UInt32.ofNat (s.slots.size + i)).toNat = s.slots.size + i :=
      UInt32.toNat_ofNat_of_lt' (by omega)
    have found : grown.slotAt (UInt32.ofNat (s.slots.size + i)) =
        some (.kind name .internalOnly) := by
      rw [slotAt, position, gainedSlot slots, offers]
      rfl
    exact ⟨_, position.trans (by rw [last]), kindSlot.mpr ⟨found, rfl⟩,
      (namedIff after.indexed).mpr (nameSlot.mpr ⟨_, found⟩)⟩
  case classified =>
    intro t low high changes c room' derived
    rw [UInt32.le_iff_toNat_le, last] at low
    rw [UInt32.lt_iff_toNat_lt, grownLast] at high
    have place := gainedSlot slots (t.toNat - s.slots.size)
    rw [Nat.add_sub_cancel' low, List.getElem?_eq_getElem (by omega)] at place
    exact lastingCategory after place room' derived

theorem freshAppend (indexed : Indexed s.slots s.names) (growing : s.isFrozen = false)
    (tier : s.internalTier = true) (fresh : s.Fresh offered)
    (room : s.slots.size + offered.length ≤ UInt32.size) : ∃ grown, s.append offered = .ok grown ∧
      grown.slots.toList = s.slots.toList ++ tierSlots offered := by
  obtain ⟨distinct, free⟩ := (freshIff indexed).mp fresh
  exact appended growing tier distinct free room

theorem acceptedIff (indexed : Indexed s.slots s.names)
    (room : s.slots.size + offered.length ≤ UInt32.size) : (∃ grown, s.append offered = .ok grown) ↔
      s.isFrozen = false ∧ s.internalTier = true ∧ s.Fresh offered := by
  constructor
  · rintro ⟨grown, ok⟩
    obtain ⟨growing, tier, folded⟩ := appendIff.mp ok
    exact ⟨growing, tier, (freshIff indexed).mpr (foldFresh folded)⟩
  · rintro ⟨growing, tier, fresh⟩
    obtain ⟨grown, ok, _⟩ := freshAppend indexed growing tier fresh room
    exact ⟨grown, ok⟩

theorem declinedIff (indexed : Indexed s.slots s.names)
    (room : s.slots.size + offered.length ≤ UInt32.size) :
    s.append offered = .error fault ↔ s.Declines offered fault := by
  refine ⟨fun failed => ?_, declinedAppend indexed⟩
  rcases declinesOrFresh s offered with accepted | ⟨other, declines⟩
  · obtain ⟨grown, ok⟩ := (acceptedIff indexed room).mpr accepted
    rw [ok] at failed
    cases failed
  · rw [declinedAppend indexed declines] at failed
    cases failed
    exact declines

theorem searchSuffices (indexed : Indexed s.slots s.names) (growing : s.isFrozen = false)
    (untaken : s.firstTaken [] offered = none)
    (room : s.slots.size + offered.length ≤ UInt32.size) :
    ∃ grown, offered.foldlM addInternal s = .ok grown := by
  rcases freshOrClash s offered with fresh | ⟨before, name, after, rfl, fresh, taken⟩
  · obtain ⟨distinct, free⟩ := (freshIff indexed).mp fresh
    obtain ⟨grown, ok, _⟩ := tierAdded growing distinct free room
    exact ⟨grown, ok⟩
  · rw [firstTakenSome indexed fresh (fun _ _ => List.not_mem_nil) (.inr taken)] at untaken
    cases untaken

end TagSpace

/-- A tier goes in as a whole or not at all: into a growing space that was built for one, and if its
names are new and no two of them alike. Once the search for a taken name is over, nothing fails. -/
theorem tiersGoInWhole {catalog tier start} (built : TagSpace.build catalog tier = .ok start)
    (changes : List Change) (offered : InternalTier)
    (room : (start.evolve changes).size + offered.size ≤ 4294967295) :
    ((∃ grown, offered.appendTo (start.evolve changes) = .ok grown) ↔
      (start.evolve changes).isFrozen = false ∧ tier = true ∧
        (start.evolve changes).Fresh offered.names) ∧
    (∀ grown, offered.appendTo (start.evolve changes) = .ok grown →
      (start.evolve changes).Gains grown offered.names) ∧
    (∀ fault, offered.appendTo (start.evolve changes) = .error fault ↔
      (start.evolve changes).Declines offered.names fault) ∧
    (∀ fault, offered.appendTo (start.evolve changes) = .error fault →
      (start.evolve changes).after (.append offered) = start.evolve changes) ∧
    ((start.evolve changes).isFrozen = false →
      (start.evolve changes).firstTaken [] offered.names = none →
        ∃ grown, offered.names.foldlM TagSpace.addInternal (start.evolve changes) = .ok grown) := by
  have reachable : (start.evolve changes).Reachable := ⟨catalog, tier, start, changes, built, rfl⟩
  obtain ⟨sound, same⟩ := TagSpace.evolvedSound built changes
  generalize start.evolve changes = s at *
  have small : s.slots.size + offered.names.length < UInt32.size := Nat.lt_succ_of_le room
  have room := Nat.le_of_lt small
  have accepted := TagSpace.acceptedIff sound.indexed room
  refine ⟨same ▸ accepted, fun grown ok => ?_, fun fault => TagSpace.declinedIff sound.indexed room,
    fun fault failed => ?_, fun growing untaken => ?_⟩
  · obtain ⟨growing, on, fresh⟩ := accepted.mp ⟨grown, ok⟩
    obtain ⟨other, again, slots⟩ := TagSpace.freshAppend sound.indexed growing on fresh room
    obtain rfl : other = grown := Except.ok.inj (again.symm.trans ok)
    exact TagSpace.appendGains (TagSpace.stepsSound (TagSpace.appendSteps ok) sound) ok slots small
  · rw [TagSpace.after, failed]
  · exact TagSpace.searchSuffices sound.indexed growing untaken room

theorem miniatureTiers :
    (∃ grown, (miniatureSpace.evolve [.append ⟨["saved-stack"]⟩]).Gains grown
      ["frame", "thread-data"]) ∧
    (miniatureSpace.evolve [.append ⟨["saved-stack"]⟩]).Declines
      ["frame", "thread-data", "frame", "pair"] (.duplicateInternalKind "frame") ∧
    (miniatureSpace.evolve [.append ⟨["saved-stack"]⟩]).Declines ["frame", "saved-stack"]
      (.duplicateInternalKind "saved-stack") := by
  have built : TagSpace.build miniature true = .ok miniatureSpace := rfl
  obtain ⟨accepted, gains, _⟩ := tiersGoInWhole built [.append ⟨["saved-stack"]⟩]
    ⟨["frame", "thread-data"]⟩ (by decide)
  obtain ⟨_, _, repeated, _⟩ := tiersGoInWhole built [.append ⟨["saved-stack"]⟩]
    ⟨["frame", "thread-data", "frame", "pair"]⟩ (by decide)
  obtain ⟨_, _, taken, _⟩ := tiersGoInWhole built [.append ⟨["saved-stack"]⟩]
    ⟨["frame", "saved-stack"]⟩ (by decide)
  exact ⟨⟨_, gains _ rfl⟩, (repeated _).mp rfl, (taken _).mp rfl⟩

end TaggedHeap
