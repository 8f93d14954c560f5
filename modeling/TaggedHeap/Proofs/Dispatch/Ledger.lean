import TaggedHeap.Proofs.Dispatch.Registration

/-! The builder as a ledger: for each declared kind and each operation at most one subsystem holds
it, with the value that it registered. The same programs run on a ledger, which has neither tags nor
arrays, and forgets a failed installation by not taking its outcome. -/
namespace TaggedHeap

inductive Part (α ω : Type) where
  | printer (printer : Printer α)
  | equality (equality : Equality α)
  | layout (layout : Layout)
  | finalizer (finalizer : Finalizer α ω)

structure Holding (α ω : Type) where
  owner : String
  part : Part α ω

def Ledger (α ω : Type) : Type := String → Operation → Option (Holding α ω)

variable {α ω : Type}

def Registration.part : Registration α ω → Part α ω
  | .describe _ printer => .printer printer
  | .equality _ eq => .equality eq
  | .scan _ layout => .layout layout
  | .finalizer _ action => .finalizer action

def Entry.part (e : Entry α ω) : Operation → Option (Part α ω)
  | .describe => e.printer.map .printer
  | .equality => e.equality.map .equality
  | .scan => e.layout.map .layout
  | .finalizer => e.finalizer.map .finalizer

theorem Entry.partHas (e : Entry α ω) (op : Operation) : (e.part op).isSome = e.has op := by
  cases op <;> simp [part, has]

theorem Registration.putPart (e : Entry α ω) (r : Registration α ω) (op : Operation) :
    (r.put e).part op = if op = r.operation then some r.part else e.part op := by
  cases r <;> cases op <;> rfl

namespace Ledger

def empty : Ledger α ω := fun _ _ => none

def record (l : Ledger α ω) (claimant : String) (r : Registration α ω) : Ledger α ω :=
  fun kind op => if kind = r.kind ∧ op = r.operation then some ⟨claimant, r.part⟩ else l kind op

def perform (l : Ledger α ω) (s : TagSpace) (claimant : String) (r : Registration α ω) :
    Except Fault (Ledger α ω) := do
  r.check
  let _ ← s.tagNamed r.kind
  match l r.kind r.operation with
  | some held => throw (.duplicateRegistration r.operation r.kind held.owner claimant)
  | none => return l.record claimant r

def run (s : TagSpace) (claimant : String) :
    Program α ω → Ledger α ω → Except Fault Unit × Ledger α ω
  | .done outcome, l => (outcome, l)
  | .step r next, l =>
    match l.perform s claimant r with
    | .ok after => run s claimant (next (.ok ())) after
    | .error fault => run s claimant (next (.error fault)) l

def install (l : Ledger α ω) (s : TagSpace) (subsystem : Subsystem α ω) :
    Except Fault Unit × Ledger α ω :=
  match run s subsystem.name (subsystem.program s) l with
  | (.ok (), after) => (.ok (), after)
  | (.error fault, _) => (.error fault, l)

def installEach (l : Ledger α ω) (s : TagSpace) (subsystems : List (Subsystem α ω)) :
    Ledger α ω :=
  subsystems.foldl (fun l subsystem => (l.install s subsystem).2) l

end Ledger

namespace DispatchBuilder

variable {b after fresh : DispatchBuilder α ω} {claimant : String} {r : Registration α ω}
  {t u : Tag} {op : Operation}

def heldAt (b : DispatchBuilder α ω) (t : Tag) (op : Operation) : Option (Holding α ω) := do
  let owner ← (b.ownersAt t).get op
  let part ← (b.entryAt t).part op
  return ⟨owner, part⟩

def ledger (b : DispatchBuilder α ω) : Ledger α ω := fun kind op =>
  match b.space.tagNamed kind with
  | .ok t => b.heldAt t op
  | .error _ => none

theorem ledgerNamed {kind : String} (named : b.space.tagNamed kind = .ok t) :
    b.ledger kind op = b.heldAt t op := by
  simp only [ledger, named]

theorem heldEnter (consistent : b.Consistent) (inside : t.toNat < b.space.slots.size) :
    (b.enter t claimant r).heldAt u op =
      if u = t ∧ op = r.operation then some ⟨claimant, r.part⟩ else b.heldAt u op := by
  rw [heldAt, enterEntry (consistent.entriesSize.symm ▸ inside),
    enterOwners (consistent.ownersSize.symm ▸ inside)]
  by_cases here : u = t
  · subst here
    rw [if_pos rfl, if_pos rfl, Owners.getSet, Registration.putPart]
    by_cases same : op = r.operation <;> simp [same, heldAt]
  · simp [here, heldAt]

theorem heldOwner (consistent : b.Consistent) {holder : String} :
    (b.ownersAt t).get op = some holder ↔ ∃ part, b.heldAt t op = some ⟨holder, part⟩ := by
  have both := (Entry.partHas (b.entryAt t) op).trans (consistent.owned t op)
  constructor
  · intro owned
    rw [owned] at both
    obtain ⟨part, has⟩ := Option.isSome_iff_exists.mp both
    exact ⟨part, by simp [heldAt, owned, has]⟩
  · intro facts
    obtain ⟨part, held⟩ := facts
    obtain ⟨owner, owned, held⟩ := Option.bind_eq_some_iff.mp held
    obtain ⟨_, _, last⟩ := Option.bind_eq_some_iff.mp held
    cases last
    exact owned

theorem heldPart (consistent : b.Consistent) {part : Part α ω} :
    (b.entryAt t).part op = some part ↔ ∃ owner, b.heldAt t op = some ⟨owner, part⟩ := by
  constructor
  · intro has
    have owned := consistent.owned t op
    rw [← Entry.partHas, has] at owned
    obtain ⟨owner, found⟩ := Option.isSome_iff_exists.mp owned.symm
    exact ⟨owner, by simp [heldAt, found, has]⟩
  · intro facts
    obtain ⟨owner, held⟩ := facts
    obtain ⟨_, _, held⟩ := Option.bind_eq_some_iff.mp held
    obtain ⟨_, has, last⟩ := Option.bind_eq_some_iff.mp held
    cases last
    exact has

theorem unheldIff (consistent : b.Consistent) :
    b.heldAt t op = none ↔ (b.ownersAt t).get op = none := by
  constructor
  · intro unheld
    refine Option.eq_none_iff_forall_ne_some.mpr fun holder owned => ?_
    obtain ⟨part, held⟩ := (heldOwner consistent).mp owned
    exact nomatch unheld.symm.trans held
  · intro free
    simp [heldAt, free]

theorem sameName (indexed : Indexed b.space.slots b.space.names) {kind other : String}
    (named : b.space.tagNamed kind = .ok t) (again : b.space.tagNamed other = .ok t) :
    kind = other :=
  Option.some.inj (((TagSpace.namedIff indexed).mp named).symm.trans
    ((TagSpace.namedIff indexed).mp again))

theorem enterLedger (indexed : Indexed b.space.slots b.space.names) (consistent : b.Consistent)
    (named : b.space.tagNamed r.kind = .ok t) :
    (b.enter t claimant r).ledger = b.ledger.record claimant r := by
  have inside := (namedInside indexed named).1
  funext kind op
  cases found : b.space.tagNamed kind with
  | error fault =>
    have other : kind ≠ r.kind := fun same => by
      rw [same, named] at found
      cases found
    simp [ledger, Ledger.record, enter, found, other]
  | ok u =>
    rw [ledgerNamed (b := b.enter t claimant r) found, heldEnter consistent inside]
    -- names and tags of kinds determine each other, so either tells which entry was touched
    have same : u = t ↔ kind = r.kind := by
      constructor
      · intro same
        obtain rfl := same
        exact sameName indexed found named
      · intro same
        obtain rfl := same
        exact Except.ok.inj (found.symm.trans named)
    simp only [Ledger.record, same, ledgerNamed found]

theorem freshLedger {s : TagSpace} (indexed : Indexed s.slots s.names)
    (made : ofSpace s = .ok fresh) : fresh.ledger = Ledger.empty := by
  obtain ⟨_, rfl⟩ := madeIff.mp made
  funext kind op
  cases found : s.tagNamed kind with
  | error fault => simp [ledger, Ledger.empty, found]
  | ok t =>
    rw [ledgerNamed (b := ⟨s, _, _⟩) found]
    obtain ⟨category, here⟩ := TagSpace.nameSlot.mp ((TagSpace.namedIff indexed).mp found)
    have slot : s.slots[t.toNat]? = some (.kind kind category) := here
    cases op <;> simp [heldAt, ownersAt, slot, firstOwners, Owners.none, Owners.get, Ledger.empty]

end DispatchBuilder

end TaggedHeap
