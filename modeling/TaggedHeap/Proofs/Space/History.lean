import Mathlib.Logic.Relation
import TaggedHeap.Proofs.Space.Appending
import TaggedHeap.Proofs.Space.Drafting

/-! The life of a space. After it is built, registrations, appends and freezes follow in any order,
and each may fail. `Step` says what any of them can do; what holds of every reachable space is
carried along steps. An `overrun` is a registration that fails when its kind has the last tag already. -/
namespace TaggedHeap

inductive Change where
  | register (kind : Declaration)
  | append (tier : InternalTier)
  | freeze
  deriving DecidableEq, Repr

namespace TagSpace

def after (s : TagSpace) : Change → TagSpace
  | .register k => (s.register k).2
  | .append tier =>
    match tier.appendTo s with
    | .ok grown => grown
    | .error _ => s
  | .freeze => s.freeze

def evolve (s : TagSpace) (changes : List Change) : TagSpace := changes.foldl after s

def Reachable (s : TagSpace) : Prop :=
  ∃ catalog tier start changes, build catalog tier = .ok start ∧ s = start.evolve changes

inductive Step (s : TagSpace) : TagSpace → Prop where
  | freeze : Step s s.freeze
  | runtime {name tag names lastNormal} (growing : s.isFrozen = false)
      (atEnd : s.slots.size = s.lastNormal.toNat) (numbered : tagAt s.slots.size = .ok tag)
      (declares : s.names.declare name tag = .ok names)
      (next : tagAt (s.slots.size + 1) = .ok lastNormal) :
      Step s { s with names, slots := s.slots.push (.kind name .runtimeKind), lastNormal }
  | overrun {name tag names} (growing : s.isFrozen = false)
      (atEnd : s.slots.size = s.lastNormal.toNat) (numbered : tagAt s.slots.size = .ok tag)
      (declares : s.names.declare name tag = .ok names) (full : s.slots.size + 1 = UInt32.size) :
      Step s { s with names, slots := s.slots.push (.kind name .runtimeKind) }
  | internal {name tag names} (growing : s.isFrozen = false) (tier : s.internalTier = true)
      (numbered : tagAt s.slots.size = .ok tag) (declares : s.names.declare name tag = .ok names) :
      Step s { s with names, slots := s.slots.push (.kind name .internalOnly) }

abbrev Steps : TagSpace → TagSpace → Prop := Relation.ReflTransGen Step

theorem acceptedFacts {s : TagSpace} {k tag names} (ok : s.accept k = .ok (tag, names)) :
    s.isFrozen = false ∧ k.category = .runtimeKind ∧ s.slots.size = s.lastNormal.toNat ∧
      tagAt s.slots.size = .ok tag ∧ s.names.declare k.name tag = .ok names := by
  obtain ⟨_, growing, ok⟩ := bindOk.mp ok
  dsimp only at ok
  split at ok <;> try contradiction
  rename_i category
  split at ok <;> try contradiction
  rename_i atEnd
  obtain ⟨_, numbered, ok⟩ := bindOk.mp ok
  obtain ⟨_, declares, last⟩ := bindOk.mp ok
  cases last
  exact ⟨requiredGrowing growing, category, atEnd, numbered, declares⟩

theorem tagAtError {position : Nat} {fault} (failed : tagAt position = .error fault) :
    UInt32.size ≤ position ∧ fault = .numberingExhausted position := by
  unfold tagAt at failed
  split at failed <;> try contradiction
  rename_i full
  cases failed
  exact ⟨Nat.le_of_not_lt full, rfl⟩

theorem registerSteps (s : TagSpace) (k : Declaration) : Steps s (s.register k).2 := by
  unfold register
  split
  · exact .refl
  · rename_i tag names accepted
    obtain ⟨growing, _, atEnd, numbered, declares⟩ := acceptedFacts accepted
    dsimp only
    split
    · -- the slot is in, and only the end after it has no number
      rename_i fault failed
      have room := (tagAtOk numbered).1
      have full := (tagAtError failed).1
      rw [Array.size_push] at full
      exact .single (.overrun growing atEnd numbered declares (by omega))
    · rename_i lastNormal next
      rw [Array.size_push] at next
      exact .single (.runtime growing atEnd numbered declares next)

theorem addInternalStep {s grown : TagSpace} {name} (tier : s.internalTier = true)
    (ok : s.addInternal name = .ok grown) : Step s grown ∧ grown.internalTier = true := by
  obtain ⟨growing, tag, names, numbered, declares, rfl⟩ := addInternalOk ok
  exact ⟨.internal growing tier numbered declares, tier⟩

theorem appendSteps {s grown : TagSpace} {offered} (ok : s.append offered = .ok grown) :
    Steps s grown := by
  obtain ⟨_, tier, ok⟩ := appendIff.mp ok
  refine (foldKeeps (fun now => Steps s now ∧ now.internalTier = true) ?_ ⟨.refl, tier⟩ ok).1
  intro now name next kept added
  obtain ⟨step, stays⟩ := addInternalStep kept.2 added
  exact ⟨kept.1.tail step, stays⟩

theorem afterSteps (s : TagSpace) (change : Change) : Steps s (s.after change) := by
  cases change with
  | register k => exact registerSteps s k
  | append tier =>
    simp only [after, InternalTier.appendTo]
    split
    · exact appendSteps (by assumption)
    · exact .refl
  | freeze => exact .single .freeze

theorem evolveSteps (s : TagSpace) (changes : List Change) : Steps s (s.evolve changes) := by
  induction changes generalizing s with
  | nil => exact .refl
  | cons change rest ih => exact (afterSteps s change).trans (ih (s.after change))

theorem stepSize {s next : TagSpace} (step : Step s next) : s.slots.size ≤ next.slots.size := by
  cases step <;> simp [freeze]

theorem stepPartitioned {s next : TagSpace} (step : Step s next)
    (room : next.slots.size < UInt32.size) (partitioned : s.Partitioned) : next.Partitioned := by
  obtain ⟨arranged, inOrder, opened, inside, tierless⟩ := partitioned
  cases step with
  | freeze => exact ⟨arranged, inOrder, opened, inside, tierless⟩
  | @runtime name tag names lastNormal growing atEnd numbered declares next =>
    obtain ⟨_, position⟩ := tagAtOk next
    have fits : (Slot.kind name .runtimeKind).FitsAt s.values.toNat s.compiledValues.toNat
        lastNormal.toNat s.slots.size := ⟨by omega, by omega⟩
    have moves : EdgeMoves s.slots.size s.lastNormal.toNat lastNormal.toNat :=
      .inr ⟨Nat.le_of_eq atEnd, by omega⟩
    refine ⟨arrangedPush arranged fits (edgeStays _ _) (edgeStays _ _) moves, inOrder, ?_, ?_, ?_⟩
    · change s.compiledValues.toNat < lastNormal.toNat
      omega
    · simp [position]
    · simp [position]
  | overrun growing atEnd numbered declares full =>
    rw [Array.size_push] at room
    omega
  | internal growing tier numbered declares =>
    refine ⟨arrangedPush arranged inside (edgeStays _ _) (edgeStays _ _) (edgeStays _ _), inOrder,
      opened, ?_, ?_⟩
    · rw [Array.size_push]
      exact Nat.le_succ_of_le inside
    · intro off
      exact absurd tier (by simpa using off)

theorem stepIndexed {s next : TagSpace} (step : Step s next) (indexed : Indexed s.slots s.names) :
    Indexed next.slots next.names := by
  cases step with
  | freeze => exact indexed
  | runtime _ _ numbered declares _ | overrun _ _ numbered declares _
  | internal _ _ numbered declares =>
    exact indexedDeclare indexed (tagAtOk numbered).2 declares

theorem stepBounded {s next : TagSpace} (step : Step s next) (bounded : s.slots.size ≤ UInt32.size) :
    next.slots.size ≤ UInt32.size := by
  cases step with
  | freeze => exact bounded
  | runtime _ _ numbered _ _ | overrun _ _ numbered _ _ | internal _ _ numbered _ =>
    exact pushBounded (tagAtOk numbered).1 _

theorem stepSound {s next : TagSpace} (step : Step s next) (sound : s.Sound) : next.Sound where
  indexed := stepIndexed step sound.indexed
  bounded := stepBounded step sound.bounded
  partitioned room :=
    stepPartitioned step room (sound.partitioned (Nat.lt_of_le_of_lt (stepSize step) room))

theorem stepsSound {s last : TagSpace} (steps : Steps s last) (sound : s.Sound) : last.Sound := by
  induction steps with
  | refl => exact sound
  | tail _ step ih => exact stepSound step ih

theorem stepTier {s next : TagSpace} (step : Step s next) : next.internalTier = s.internalTier := by
  cases step <;> rfl

theorem stepsTier {s last : TagSpace} (steps : Steps s last) :
    last.internalTier = s.internalTier := by
  induction steps with
  | refl => rfl
  | tail _ step ih => exact (stepTier step).trans ih

theorem evolvedSound {catalog tier start} (built : build catalog tier = .ok start)
    (changes : List Change) :
    (start.evolve changes).Sound ∧ (start.evolve changes).internalTier = tier := by
  obtain ⟨sound, same⟩ := builtSound built
  have steps := evolveSteps start changes
  exact ⟨stepsSound steps sound, (stepsTier steps).trans same⟩

theorem reachableSound {s : TagSpace} (reachable : s.Reachable) : s.Sound := by
  obtain ⟨_, _, start, changes, built, rfl⟩ := reachable
  exact (evolvedSound built changes).1

end TagSpace

end TaggedHeap
