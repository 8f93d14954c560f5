import TaggedHeap.Proofs.Dispatch.Refinement

/-! Subsystems that stop at their first error go in in any order. Whether all of them go in is said of
their claims together, with no word of an order; and a builder is known by its space and its ledger,
so that it cannot tell afterwards which of them came first. -/
namespace TaggedHeap

variable {α ω : Type}

theorem Entry.partExt {e f : Entry α ω} (same : ∀ op, e.part op = f.part op) : e = f := by
  obtain ⟨printer, equality, layout, action⟩ := e
  obtain ⟨printer', equality', layout', action'⟩ := f
  have printers := (Option.map_inj_right fun _ _ => Part.printer.inj).mp (same .describe)
  have equalities := (Option.map_inj_right fun _ _ => Part.equality.inj).mp (same .equality)
  have layouts := (Option.map_inj_right fun _ _ => Part.layout.inj).mp (same .scan)
  have actions := (Option.map_inj_right fun _ _ => Part.finalizer.inj).mp (same .finalizer)
  simp_all

theorem Owners.getExt {o p : Owners} (same : ∀ op, o.get op = p.get op) : o = p := by
  obtain ⟨describe, equality, scan, action⟩ := o
  obtain ⟨describe', equality', scan', action'⟩ := p
  have first : describe = describe' := same .describe
  have second : equality = equality' := same .equality
  have third : scan = scan' := same .scan
  have fourth : action = action' := same .finalizer
  rw [first, second, third, fourth]

namespace DispatchBuilder

variable {b c : DispatchBuilder α ω} {t : Tag}

theorem sameHeld (first : b.Consistent) (second : c.Consistent)
    (same : ∀ op, b.heldAt t op = c.heldAt t op) :
    b.entryAt t = c.entryAt t ∧ b.ownersAt t = c.ownersAt t := by
  constructor
  · refine Entry.partExt fun op => Option.ext fun part => ?_
    rw [heldPart first, heldPart second, same op]
  · refine Owners.getExt fun op => Option.ext fun owner => ?_
    rw [heldOwner first, heldOwner second, same op]

theorem sameAt (indexed : Indexed b.space.slots b.space.names) (first : b.Consistent)
    (second : c.Consistent) (space : b.space = c.space) (ledger : b.ledger = c.ledger) {slot : Slot}
    (found : b.space.slotAt t = some slot) :
    b.entryAt t = c.entryAt t ∧ b.ownersAt t = c.ownersAt t := by
  cases slot with
  | kind name category =>
    have named : b.space.tagNamed name = .ok t :=
      (TagSpace.namedIff indexed).mpr (TagSpace.nameSlot.mpr ⟨category, found⟩)
    refine sameHeld first second fun op => ?_
    rw [← ledgerNamed named, ← ledgerNamed (space ▸ named), ledger]
  | reserved marker =>
    have reserved := TagSpace.markerSlot.mpr found
    obtain ⟨entry, owners⟩ := first.reserved t marker reserved
    obtain ⟨entry', owners'⟩ := second.reserved t marker (space ▸ reserved)
    exact ⟨entry.trans entry'.symm, owners.trans owners'.symm⟩

theorem stored (consistent : b.Consistent) (inside : t.toNat < b.space.slots.size) :
    b.entries[t.toNat]? = some (b.entryAt t) ∧ b.owners[t.toNat]? = some (b.ownersAt t) := by
  have entry := consistent.entriesSize.symm ▸ inside
  have owner := consistent.ownersSize.symm ▸ inside
  constructor
  · simp [entryAt, entry]
  · simp [ownersAt, owner]

theorem sameBuilder (sound : b.space.Sound) (first : b.Consistent) (second : c.Consistent)
    (space : b.space = c.space) (ledger : b.ledger = c.ledger) : b = c := by
  have each : ∀ i : Nat, b.entries[i]? = c.entries[i]? ∧ b.owners[i]? = c.owners[i]? := by
    intro i
    by_cases inside : i < b.space.slots.size
    · have exact : (UInt32.ofNat i).toNat = i :=
        Nat.mod_eq_of_lt (Nat.lt_of_lt_of_le inside sound.bounded)
      rw [← exact] at inside ⊢
      obtain ⟨entries, owners⟩ := stored first inside
      obtain ⟨entries', owners'⟩ := stored second (space ▸ inside)
      obtain ⟨entry, owner⟩ := sameAt sound.indexed first second space ledger
        (Array.getElem?_eq_getElem inside)
      exact ⟨by rw [entries, entries', entry], by rw [owners, owners', owner]⟩
    · have outside := Nat.le_of_not_lt inside
      have outside' : c.space.slots.size ≤ i := space ▸ outside
      rw [Array.getElem?_eq_none (first.entriesSize.symm ▸ outside),
        Array.getElem?_eq_none (second.entriesSize.symm ▸ outside'),
        Array.getElem?_eq_none (first.ownersSize.symm ▸ outside),
        Array.getElem?_eq_none (second.ownersSize.symm ▸ outside')]
      exact ⟨rfl, rfl⟩
  have entries : b.entries = c.entries := Array.ext_getElem? fun i => (each i).1
  have owners : b.owners = c.owners := Array.ext_getElem? fun i => (each i).2
  obtain ⟨_, _, _⟩ := b
  obtain ⟨_, _, _⟩ := c
  simp_all

end DispatchBuilder

structure Claim (α ω : Type) where
  claimant : String
  registration : Registration α ω

namespace Claim

def pair (c : Claim α ω) : String × Operation := (c.registration.kind, c.registration.operation)

def FreeIn (l : Ledger α ω) (c : Claim α ω) : Prop :=
  l c.registration.kind c.registration.operation = none

def enter (b : DispatchBuilder α ω) (c : Claim α ω) : Except Fault (DispatchBuilder α ω) :=
  b.perform c.claimant c.registration

theorem freeRecord {l : Ledger α ω} {c d : Claim α ω} :
    d.FreeIn (l.record c.claimant c.registration) ↔ d.FreeIn l ∧ d.pair ≠ c.pair := by
  simp only [FreeIn, Ledger.record, pair, ne_eq, Prod.mk.injEq]
  split <;> simp_all

end Claim

structure TagSpace.Admits (s : TagSpace) (claims : List (Claim α ω)) : Prop where
  declared : ∀ c ∈ claims, ∃ t, s.nameAt t = some c.registration.kind
  valid : ∀ c ∈ claims, c.registration.check = .ok ()
  apart : (claims.map Claim.pair).Nodup

theorem admitsCons {s : TagSpace} {c : Claim α ω} {rest : List (Claim α ω)} :
    s.Admits (c :: rest) ↔ ((∃ t, s.nameAt t = some c.registration.kind) ∧
      c.registration.check = .ok ()) ∧ (∀ d ∈ rest, d.pair ≠ c.pair) ∧ s.Admits rest := by
  constructor
  · intro admits
    obtain ⟨declared, valid, apart⟩ := admits
    simp only [List.forall_mem_cons, List.map_cons, List.nodup_cons] at declared valid apart
    refine ⟨⟨declared.1, valid.1⟩, fun d member same => apart.1 ?_, declared.2, valid.2, apart.2⟩
    exact List.mem_map.mpr ⟨d, member, same⟩
  · intro facts
    obtain ⟨⟨first, checked⟩, other, declared, valid, apart⟩ := facts
    refine ⟨List.forall_mem_cons.mpr ⟨first, declared⟩, List.forall_mem_cons.mpr ⟨checked, valid⟩,
      List.nodup_cons.mpr ⟨fun member => ?_, apart⟩⟩
    obtain ⟨d, inside, same⟩ := List.mem_map.mp member
    exact other d inside same

theorem admitsPerm {s : TagSpace} {first second : List (Claim α ω)}
    (rearranged : first.Perm second) (admits : s.Admits first) : s.Admits second where
  declared c member := admits.declared c (rearranged.mem_iff.mpr member)
  valid c member := admits.valid c (rearranged.mem_iff.mpr member)
  apart := (rearranged.map Claim.pair).nodup_iff.mp admits.apart

namespace DispatchBuilder

variable {b after : DispatchBuilder α ω} {claims : List (Claim α ω)}

theorem enteredFacts (indexed : Indexed b.space.slots b.space.names) (consistent : b.Consistent)
    {c : Claim α ω} (ok : c.enter b = .ok after) :
    Indexed after.space.slots after.space.names ∧ after.Consistent ∧ after.space = b.space ∧
      after.ledger = b.ledger.record c.claimant c.registration :=
  ⟨(performSpace ok).symm ▸ indexed, performConsistent indexed consistent ok, performSpace ok,
    (performRecords indexed consistent ok).2⟩

theorem enteredIff (indexed : Indexed b.space.slots b.space.names) (consistent : b.Consistent)
    {c : Claim α ω} : (∃ after, c.enter b = .ok after) ↔
      ((∃ t, b.space.nameAt t = some c.registration.kind) ∧ c.registration.check = .ok ()) ∧
        c.FreeIn b.ledger := by
  rw [Registration.checkIff, and_assoc]
  exact (consistentRegisters indexed consistent).admits c.claimant c.registration

theorem foldAdmitted (indexed : Indexed b.space.slots b.space.names) (consistent : b.Consistent) :
    (∃ after, claims.foldlM Claim.enter b = .ok after) ↔
      b.space.Admits claims ∧ ∀ c ∈ claims, c.FreeIn b.ledger := by
  induction claims generalizing b with
  | nil => simpa [pure, Except.pure] using (⟨by simp, by simp, by simp⟩ : b.space.Admits [])
  | cons c rest ih =>
    have halves : (∃ after, (c :: rest).foldlM Claim.enter b = .ok after) ↔
        ∃ next, c.enter b = .ok next ∧ ∃ after, rest.foldlM Claim.enter next = .ok after := by
      simp only [List.foldlM_cons, bindOk]
      exact ⟨fun ⟨after, next, first, later⟩ => ⟨next, first, after, later⟩,
        fun ⟨next, first, after, later⟩ => ⟨after, next, first, later⟩⟩
    rw [halves, admitsCons, List.forall_mem_cons]
    constructor
    · intro facts
      obtain ⟨next, first, later⟩ := facts
      obtain ⟨known, free⟩ := (enteredIff indexed consistent).mp ⟨next, first⟩
      obtain ⟨indexed', consistent', space, entered⟩ := enteredFacts indexed consistent first
      obtain ⟨admits, free'⟩ := (ih indexed' consistent').mp later
      rw [entered] at free'
      exact ⟨⟨known, fun d member => (Claim.freeRecord.mp (free' d member)).2, space ▸ admits⟩, free,
        fun d member => (Claim.freeRecord.mp (free' d member)).1⟩
    · intro facts
      obtain ⟨⟨known, other, admits⟩, free, free'⟩ := facts
      obtain ⟨next, first⟩ := (enteredIff indexed consistent).mpr ⟨known, free⟩
      obtain ⟨indexed', consistent', space, entered⟩ := enteredFacts indexed consistent first
      refine ⟨next, first, (ih indexed' consistent').mpr ⟨space.symm ▸ admits, ?_⟩⟩
      intro d member
      rw [entered]
      exact Claim.freeRecord.mpr ⟨free' d member, other d member⟩

theorem foldSpace (ok : claims.foldlM Claim.enter b = .ok after) : after.space = b.space :=
  foldKeeps (fun now => now.space = b.space) (fun same entered => (performSpace entered).trans same)
    rfl ok

theorem foldConsistent (indexed : Indexed b.space.slots b.space.names) (consistent : b.Consistent)
    (ok : claims.foldlM Claim.enter b = .ok after) : after.Consistent :=
  (foldKeeps (fun now => now.space = b.space ∧ now.Consistent) (performKept indexed)
    ⟨rfl, consistent⟩ ok).2

theorem foldLedger (indexed : Indexed b.space.slots b.space.names) (consistent : b.Consistent)
    (ok : claims.foldlM Claim.enter b = .ok after) {kind : String} {op : Operation}
    {held : Holding α ω} : after.ledger kind op = some held ↔ b.ledger kind op = some held ∨
      ∃ c ∈ claims, c.pair = (kind, op) ∧ held = ⟨c.claimant, c.registration.part⟩ := by
  induction claims generalizing b with
  | nil =>
    cases ok
    simp
  | cons c rest ih =>
    rw [List.foldlM_cons] at ok
    obtain ⟨next, first, later⟩ := bindOk.mp ok
    obtain ⟨free, _⟩ := performRecords indexed consistent first
    obtain ⟨indexed', consistent', _, entered⟩ := enteredFacts indexed consistent first
    rw [ih indexed' consistent' later, entered, Ledger.recordHeld free, or_assoc]
    simp only [List.mem_cons, exists_eq_or_imp, Claim.pair, Prod.mk.injEq, and_assoc,
      eq_comm (a := kind), eq_comm (a := op)]

theorem foldPerm (sound : b.space.Sound) (consistent : b.Consistent) {others : List (Claim α ω)}
    (rearranged : claims.Perm others) (ok : claims.foldlM Claim.enter b = .ok after) :
    others.foldlM Claim.enter b = .ok after := by
  have indexed := sound.indexed
  obtain ⟨admits, free⟩ := (foldAdmitted indexed consistent).mp ⟨after, ok⟩
  obtain ⟨other, done⟩ := (foldAdmitted indexed consistent).mpr
    ⟨admitsPerm rearranged admits, fun c member => free c (rearranged.mem_iff.mpr member)⟩
  have space := foldSpace ok
  have ledger : after.ledger = other.ledger := by
    funext kind op
    refine Option.ext fun held => ?_
    rw [foldLedger indexed consistent ok, foldLedger indexed consistent done]
    simp only [rearranged.mem_iff]
  have same := sameBuilder (space.symm ▸ sound) (foldConsistent indexed consistent ok)
    (foldConsistent indexed consistent done) (space.trans (foldSpace done).symm) ledger
  exact same ▸ done

end DispatchBuilder

theorem DispatchTable.tableBuiltIff {s : TagSpace} {fresh : DispatchBuilder α ω}
    {subsystems : List (Subsystem α ω)} {d : DispatchTable α ω}
    (made : DispatchBuilder.ofSpace s = .ok fresh) : DispatchTable.build s subsystems = .ok d ↔
      ∃ b, fresh.installAll subsystems = .ok b ∧ b.gaps = [] ∧ d = ⟨b.space, b.entries⟩ := by
  simp only [DispatchTable.build, made, bindOk, Except.ok.injEq, exists_eq_left',
    DispatchBuilder.finishedIff]

structure StrictSubsystem (α ω : Type) where
  name : String
  registrations : TagSpace → List (Registration α ω)

namespace StrictSubsystem

variable {b after : DispatchBuilder α ω} {x : StrictSubsystem α ω}
  {xs ys : List (StrictSubsystem α ω)}

def subsystem (x : StrictSubsystem α ω) : Subsystem α ω := Subsystem.strict x.name x.registrations

def claims (s : TagSpace) (x : StrictSubsystem α ω) : List (Claim α ω) :=
  (x.registrations s).map (Claim.mk x.name)

theorem strictRun {claimant : String} {registrations : List (Registration α ω)} :
    (Program.strict (.ok ()) registrations).run claimant b = (.ok (), after) ↔
      registrations.foldlM (fun b r => b.perform claimant r) b = .ok after := by
  induction registrations generalizing b with
  | nil => simp [Program.strict, Program.run, pure, Except.pure]
  | cons r rest ih =>
    rw [List.foldlM_cons, Program.strict, Program.run]
    cases outcome : b.perform claimant r with
    | ok next => exact ih
    | error fault => simp [Program.run, bind, Except.bind]

theorem installedIff : b.install x.subsystem = (.ok (), after) ↔
    (x.claims b.space).foldlM Claim.enter b = .ok after := by
  rw [claims, List.foldlM_map]
  refine Iff.trans ?_ strictRun
  unfold DispatchBuilder.install
  split <;> rename_i ran
  · exact ⟨fun done => ran.trans done, fun done => ran.symm.trans done⟩
  · constructor
    · intro done
      cases (Prod.mk.inj done).1
    · intro done
      cases (Prod.mk.inj (ran.symm.trans done)).1

theorem allInstalledIff : b.installAll (xs.map subsystem) = .ok after ↔
    (xs.flatMap (claims b.space)).foldlM Claim.enter b = .ok after := by
  induction xs generalizing b with
  | nil => rfl
  | cons x rest ih =>
    rw [List.map_cons, DispatchBuilder.installAll, List.flatMap_cons, List.foldlM_append, bindOk]
    split <;> rename_i next done
    · have entered := installedIff.mp done
      rw [ih, DispatchBuilder.foldSpace entered]
      constructor
      · intro later
        exact ⟨next, entered, later⟩
      · intro facts
        obtain ⟨other, again, later⟩ := facts
        cases entered.symm.trans again
        exact later
    · constructor
      · intro failed
        cases failed
      · intro facts
        obtain ⟨other, again, _⟩ := facts
        cases done.symm.trans (installedIff.mpr again)

theorem allInstalledPerm (sound : b.space.Sound) (consistent : b.Consistent)
    (rearranged : xs.Perm ys) (ok : b.installAll (xs.map subsystem) = .ok after) :
    b.installAll (ys.map subsystem) = .ok after :=
  allInstalledIff.mpr
    (DispatchBuilder.foldPerm sound consistent (rearranged.flatMap_right _) (allInstalledIff.mp ok))

end StrictSubsystem

/-- Strict subsystems can all be installed just when their claims can stand together, and then any
order of them gives the same builder, owners and gaps included, and the same table or none. -/
theorem orderIrrelevant {s : TagSpace} (reachable : s.Reachable) (frozen : s.isFrozen = true)
    {xs ys : List (StrictSubsystem α ω)} (rearranged : xs.Perm ys) :
    ∃ fresh : DispatchBuilder α ω, DispatchBuilder.ofSpace s = .ok fresh ∧
      ((∃ b, fresh.installAll (xs.map StrictSubsystem.subsystem) = .ok b) ↔
        s.Admits (xs.flatMap (StrictSubsystem.claims s))) ∧
      (∀ b, fresh.installAll (xs.map StrictSubsystem.subsystem) = .ok b ↔
        fresh.installAll (ys.map StrictSubsystem.subsystem) = .ok b) ∧
      (∀ d, DispatchTable.build s (xs.map StrictSubsystem.subsystem) = .ok d ↔
        DispatchTable.build s (ys.map StrictSubsystem.subsystem) = .ok d) ∧
      ∀ d, DispatchTable.build s (xs.map StrictSubsystem.subsystem) = .ok d →
        ∃ b, fresh.installAll (xs.map StrictSubsystem.subsystem) = .ok b ∧ b.gaps = [] ∧
          d.entries = b.entries := by
  have sound := TagSpace.reachableSound reachable
  refine ⟨⟨s, s.slots.map DispatchBuilder.firstEntry, s.slots.map DispatchBuilder.firstOwners⟩,
    DispatchBuilder.madeIff.mpr ⟨frozen, rfl⟩, ?_⟩
  generalize begun : (⟨s, _, _⟩ : DispatchBuilder α ω) = fresh
  have made : DispatchBuilder.ofSpace s = .ok fresh :=
    DispatchBuilder.madeIff.mpr ⟨frozen, begun.symm⟩
  have space : fresh.space = s := DispatchBuilder.workingSpace made .fresh
  have consistent := DispatchBuilder.freshConsistent made
  have either : ∀ b, fresh.installAll (xs.map StrictSubsystem.subsystem) = .ok b ↔
      fresh.installAll (ys.map StrictSubsystem.subsystem) = .ok b := fun b =>
    ⟨StrictSubsystem.allInstalledPerm (space ▸ sound) consistent rearranged,
      StrictSubsystem.allInstalledPerm (space ▸ sound) consistent rearranged.symm⟩
  refine ⟨?_, either, fun d => ?_, fun d built => ?_⟩
  · simp only [StrictSubsystem.allInstalledIff]
    rw [DispatchBuilder.foldAdmitted (space ▸ sound.indexed) consistent,
      DispatchBuilder.freshLedger sound.indexed made, space]
    exact and_iff_left fun _ _ => rfl
  · simp only [DispatchTable.tableBuiltIff made, either]
  · obtain ⟨b, installed, gapless, rfl⟩ := (DispatchTable.tableBuiltIff made).mp built
    exact ⟨b, installed, gapless, rfl⟩

def miniatureStrict : List (StrictSubsystem Unit Unit) :=
  [⟨"layouts", fun s => s.kinds.map fun k => .scan k.name (Standard.layoutOf k.name)⟩,
   ⟨"finalizers", fun _ => [.finalizer "toplevel" fun _ world => world]⟩,
   ⟨"behaviors", fun s =>
     (s.kinds.filter (·.category == .runtimeKind)).flatMap Standard.behaviorsOf⟩]

theorem miniatureRearranged : ∃ d,
    DispatchTable.build (miniatureSpace.evolve miniatureLife)
      (miniatureStrict.map StrictSubsystem.subsystem) = .ok d ∧
    DispatchTable.build (miniatureSpace.evolve miniatureLife)
      (miniatureStrict.reverse.map StrictSubsystem.subsystem) = .ok d := by
  have built : ∃ d, DispatchTable.build (miniatureSpace.evolve miniatureLife)
      (miniatureStrict.map StrictSubsystem.subsystem) = .ok d := isOkIff.mp (by decide +kernel)
  obtain ⟨d, built⟩ := built
  obtain ⟨_, _, _, _, tables, _⟩ :=
    orderIrrelevant miniatureReachable rfl miniatureStrict.reverse_perm.symm
  exact ⟨d, built, (tables d).mp built⟩

end TaggedHeap
