import TaggedHeap.TagSpace.Build
import TaggedHeap.Proofs.Outcome
import TaggedHeap.Proofs.Space.Arrangement

/-! What a draft keeps while it takes the entries of a catalog, and what a space built from it
therefore starts with. -/
namespace TaggedHeap

namespace Draft

def edge (d : Draft) : Option Tag → Nat
  | some tag => tag.toNat
  | none => d.slots.size

inductive Phase (size : Nat) : Category → Option Tag → Option Tag → Prop where
  | syntaxForms : Phase size .compiledSyntaxForm none none
  | registered {v} (inside : v.toNat < size) : Phase size .registeredValueOrSlot (some v) none
  | runtime {v w} (inOrder : v.toNat < w.toNat) (inside : w.toNat < size) :
      Phase size .runtimeKind (some v) (some w)

theorem phaseGrows {size current v w} (phase : Phase size current v w) :
    Phase (size + 1) current v w := by
  cases phase with
  | syntaxForms => exact .syntaxForms
  | registered inside => exact .registered (Nat.lt_succ_of_lt inside)
  | runtime inOrder inside => exact .runtime inOrder (Nat.lt_succ_of_lt inside)

structure Sound (d : Draft) : Prop where
  phase : Phase d.slots.size d.current d.values d.compiledValues
  arranged : Arranged d.slots (d.edge d.values) (d.edge d.compiledValues) d.slots.size
  indexed : Indexed d.slots d.names
  bounded : d.slots.size ≤ UInt32.size

theorem emptySound : empty.Sound where
  phase := .syntaxForms
  arranged := arrangedEmpty _ _ _
  indexed := indexedEmpty
  bounded := by simp [empty]

theorem edgeMoves (d : Draft) (slot : Slot) (at? : Option Tag) :
    EdgeMoves d.slots.size (d.edge at?) (edge { d with slots := d.slots.push slot } at?) := by
  cases at? with
  | none => exact .inr ⟨Nat.le_refl _, by simp [edge]⟩
  | some tag => exact .inl rfl

theorem addBoundarySound {d next : Draft} {tag marker} (sound : d.Sound)
    (position : tag.toNat = d.slots.size) (room : d.slots.size < UInt32.size)
    (ok : d.addBoundary tag marker = .ok next) : next.Sound := by
  obtain ⟨phase, arranged, indexed, _⟩ := sound
  obtain ⟨slots, names, values, compiledValues, current⟩ := d
  unfold addBoundary at ok
  split at ok <;> try contradiction
  rename_i expected
  cases ok
  have here : EdgeMoves slots.size slots.size tag.toNat :=
    .inr ⟨Nat.le_refl _, Nat.le_of_eq position.symm⟩
  have last : tag.toNat < (slots.push (.reserved marker)).size := by simp [position]
  cases phase with
  | syntaxForms =>
    cases marker with
    | values =>
      exact ⟨.registered last,
        arrangedPush arranged position.symm here (endMoves _ _) (endMoves _ _),
        indexedReserve indexed _, pushBounded room _⟩
    | compiledValues => simp [expects] at expected
  | registered inside =>
    cases marker with
    | values => simp [expects] at expected
    | compiledValues =>
      exact ⟨.runtime (position ▸ inside) last,
        arrangedPush arranged position.symm (edgeStays _ _) here (endMoves _ _),
        indexedReserve indexed _, pushBounded room _⟩
  | runtime inOrder inside => cases marker <;> simp [expects] at expected

theorem addKindSound {d next : Draft} {tag k} (sound : d.Sound)
    (position : tag.toNat = d.slots.size) (room : d.slots.size < UInt32.size)
    (ok : d.addKind tag k = .ok next) : next.Sound := by
  obtain ⟨phase, arranged, indexed, _⟩ := sound
  unfold addKind at ok
  split at ok <;> try contradiction
  rename_i current
  obtain ⟨names, declares, last⟩ := bindOk.mp ok
  cases last
  have fits : (Slot.kind k.name k.category).FitsAt
      (edge { d with slots := d.slots.push (.kind k.name k.category) } d.values)
      (edge { d with slots := d.slots.push (.kind k.name k.category) } d.compiledValues)
      (d.slots.push (.kind k.name k.category)).size d.slots.size := by
    rw [current]
    generalize d.current = category, d.values = v, d.compiledValues = w at phase
    cases phase <;> simp_all [Slot.FitsAt, edge]
  exact ⟨by simpa using phaseGrows phase,
    arrangedPush arranged fits (edgeMoves d _ _) (edgeMoves d _ _) (endMoves _ _),
    indexedDeclare indexed position declares, pushBounded room _⟩

theorem addSound {d next : Draft} {entry} (sound : d.Sound) (ok : d.add entry = .ok next) :
    next.Sound := by
  obtain ⟨tag, numbered, last⟩ := bindOk.mp ok
  obtain ⟨room, position⟩ := tagAtOk numbered
  cases entry with
  | boundary marker => exact addBoundarySound sound position room last
  | kind k => exact addKindSound sound position room last

theorem placedAt {marker at? tag} (ok : placed marker at? = .ok tag) : at? = some tag := by
  unfold placed at ok
  split at ok <;> cases ok
  rfl

theorem finishSound {d : Draft} {tier s} (sound : d.Sound) (ok : d.finish tier = .ok s) :
    s.Sound ∧ s.internalTier = tier := by
  obtain ⟨phase, arranged, indexed, bounded⟩ := sound
  obtain ⟨slots, names, values, compiledValues, current⟩ := d
  obtain ⟨v, atV, ok⟩ := bindOk.mp ok
  obtain ⟨w, atW, ok⟩ := bindOk.mp ok
  obtain ⟨lastNormal, numbered, last⟩ := bindOk.mp ok
  cases last
  cases placedAt atV
  cases placedAt atW
  obtain ⟨_, atEnd⟩ := tagAtOk numbered
  cases phase with
  | runtime inOrder inside =>
    have partitioned : TagSpace.Partitioned ⟨slots, names, v, w, lastNormal, tier, .built⟩ :=
      ⟨atEnd ▸ arranged, inOrder, atEnd ▸ inside, Nat.le_of_eq atEnd, fun _ => atEnd⟩
    exact ⟨⟨indexed, bounded, fun _ => partitioned⟩, rfl⟩

end Draft

theorem builtSound {catalog tier s} (built : TagSpace.build catalog tier = .ok s) :
    s.Sound ∧ s.internalTier = tier := by
  obtain ⟨draft, drafted, finished⟩ := bindOk.mp built
  exact Draft.finishSound (foldKeeps _ Draft.addSound Draft.emptySound drafted) finished

end TaggedHeap
