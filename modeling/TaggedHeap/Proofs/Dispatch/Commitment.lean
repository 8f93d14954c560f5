import TaggedHeap.Proofs.Dispatch.Refinement

/-! Where the functions of a table come from. Of all that subsystems tried to register there are those
registrations that were accepted by an installation that went through; what serves the objects of a
tag is one of them, made for the kind at that tag, or is built in where a boundary has the tag. -/
namespace TaggedHeap

variable {α ω : Type}

def Part.operation : Part α ω → Operation
  | .printer _ => .describe
  | .equality _ => .equality
  | .layout _ => .scan
  | .finalizer _ => .finalizer

theorem Registration.partOperation (r : Registration α ω) : r.part.operation = r.operation := by
  cases r <;> rfl

theorem Entry.partOperation {e : Entry α ω} {op : Operation} {part : Part α ω}
    (has : e.part op = some part) : part.operation = op := by
  cases op <;> obtain ⟨_, _, rfl⟩ := Option.map_eq_some_iff.mp has <;> rfl

inductive Committed : DispatchBuilder α ω → List (Subsystem α ω) → String → Registration α ω → Prop
  where
  | first {b : DispatchBuilder α ω} {x : Subsystem α ω} {rest : List (Subsystem α ω)}
      {r : Registration α ω} (installed : (b.install x).1 = .ok ())
      (accepted : r ∈ (x.program b.space).accepted x.name b) : Committed b (x :: rest) x.name r
  | later {b : DispatchBuilder α ω} {x : Subsystem α ω} {rest : List (Subsystem α ω)}
      {claimant : String} {r : Registration α ω}
      (committed : Committed (b.install x).2 rest claimant r) : Committed b (x :: rest) claimant r

theorem committedNone {b : DispatchBuilder α ω} {claimant : String} {r : Registration α ω} :
    ¬ Committed b [] claimant r := nofun

theorem committedCons {b : DispatchBuilder α ω} {x : Subsystem α ω} {rest : List (Subsystem α ω)}
    {claimant : String} {r : Registration α ω} : Committed b (x :: rest) claimant r ↔
      ((b.install x).1 = .ok () ∧ r ∈ (x.program b.space).accepted x.name b ∧ claimant = x.name) ∨
        Committed (b.install x).2 rest claimant r := by
  constructor
  · intro committed
    cases committed with
    | first installed accepted => exact .inl ⟨installed, accepted, rfl⟩
    | later committed => exact .inr committed
  · intro either
    rcases either with ⟨installed, accepted, rfl⟩ | committed
    · exact .first installed accepted
    · exact .later committed

inductive Serves (fresh : DispatchBuilder α ω) (subsystems : List (Subsystem α ω)) (t : Tag) :
    Part α ω → Prop where
  | registered {claimant : String} {r : Registration α ω}
      (committed : Committed fresh subsystems claimant r)
      (named : fresh.space.nameAt t = some r.kind) : Serves fresh subsystems t r.part
  | builtIn {marker : Boundary} {op : Operation} {part : Part α ω}
      (reserved : fresh.space.markerAt t = some marker) (has : Entry.reserved.part op = some part) :
      Serves fresh subsystems t part

namespace DispatchBuilder

variable {b fresh : DispatchBuilder α ω} {t : Tag} {kind : String} {op : Operation}
  {held : Holding α ω} {part : Part α ω}

theorem installLedger (indexed : Indexed b.space.slots b.space.names) (consistent : b.Consistent)
    (x : Subsystem α ω) : (b.install x).2.ledger kind op = some held ↔
      b.ledger kind op = some held ∨ ∃ r, ((b.install x).1 = .ok () ∧
        r ∈ (x.program b.space).accepted x.name b ∧ held.owner = x.name) ∧
          kind = r.kind ∧ op = r.operation ∧ held.part = r.part := by
  have installs := consistentInstalls indexed consistent
  cases outcome : (b.install x).1 with
  | error fault =>
    rw [installs.rollsBack x fault outcome]
    simp
  | ok =>
    rw [installs.commits x outcome]
    obtain ⟨owner, part⟩ := held
    simp only [Holding.mk.injEq, true_and]
    refine or_congr_right (exists_congr fun r => ?_)
    exact ⟨fun ⟨accepted, kind, op, owner, part⟩ => ⟨⟨accepted, owner⟩, kind, op, part⟩,
      fun ⟨⟨accepted, owner⟩, kind, op, part⟩ => ⟨accepted, kind, op, owner, part⟩⟩

theorem ledgerCommitted (indexed : Indexed b.space.slots b.space.names) (consistent : b.Consistent)
    {subsystems : List (Subsystem α ω)} : (b.installEach subsystems).ledger kind op = some held ↔
      b.ledger kind op = some held ∨ ∃ r, Committed b subsystems held.owner r ∧
        kind = r.kind ∧ op = r.operation ∧ held.part = r.part := by
  induction subsystems generalizing b with
  | nil => simp [installEach, committedNone]
  | cons x rest ih =>
    obtain ⟨space, consistent'⟩ := installConsistent indexed consistent x
    have later := @ih (b.install x).2 (space.symm ▸ indexed) consistent'
    rw [installLedger indexed consistent x, or_assoc, ← exists_or] at later
    simp only [← or_and_right] at later
    simp only [committedCons]
    exact later

theorem servesIff {s : TagSpace} (reachable : s.Reachable) (made : ofSpace s = .ok fresh)
    (subsystems : List (Subsystem α ω)) {slot : Slot} (found : s.slotAt t = some slot) :
    ((fresh.installEach subsystems).entryAt t).part part.operation = some part ↔
      Serves fresh subsystems t part := by
  have indexed := (TagSpace.reachableSound reachable).indexed
  obtain ⟨same, consistent⟩ := historyConsistent indexed made subsystems
  have space : fresh.space = s := workingSpace made .fresh
  subst space
  cases slot with
  | reserved marker =>
    have reserved := TagSpace.markerSlot.mpr found
    rw [(consistent.reserved t marker (same.symm ▸ reserved)).1]
    constructor
    · exact .builtIn reserved
    · intro serves
      cases serves with
      | registered _ named =>
        obtain ⟨_, other⟩ := TagSpace.nameSlot.mp named
        cases found.symm.trans other
      | builtIn _ has => exact (Entry.partOperation has).symm ▸ has
  | kind name category =>
    have named : fresh.space.nameAt t = some name := TagSpace.nameSlot.mpr ⟨category, found⟩
    have tagged : (fresh.installEach subsystems).space.tagNamed name = .ok t :=
      same.symm ▸ (TagSpace.namedIff indexed).mpr named
    have committed : ∀ owner, (fresh.installEach subsystems).heldAt t part.operation =
        some ⟨owner, part⟩ ↔ ∃ r, Committed fresh subsystems owner r ∧
          name = r.kind ∧ part.operation = r.operation ∧ part = r.part := by
      intro owner
      rw [← ledgerNamed tagged, ledgerCommitted indexed (freshConsistent made),
        freshLedger indexed made]
      simp [Ledger.empty]
    simp only [heldPart consistent, committed]
    constructor
    · intro facts
      obtain ⟨owner, r, kept, rfl, _, rfl⟩ := facts
      exact .registered kept named
    · intro serves
      cases serves with
      | @registered claimant r kept other =>
        cases named.symm.trans other
        exact ⟨claimant, r, kept, rfl, r.partOperation, rfl⟩
      | builtIn reserved _ => cases found.symm.trans (TagSpace.markerSlot.mp reserved)

end DispatchBuilder

end TaggedHeap
