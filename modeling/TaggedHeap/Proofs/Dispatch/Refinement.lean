import TaggedHeap.Proofs.Dispatch.Completeness
import TaggedHeap.Proofs.Dispatch.Ledger

/-! The builder refines the ledger: a registration, a program and an installation have the same
outcome on both, and leave a builder whose ledger is the one that they leave. -/
namespace TaggedHeap

variable {α ω : Type}

namespace Registration

theorem checkIff {r : Registration α ω} : r.check = .ok () ↔
    ∀ kind layout, r = .scan kind layout → layout.validate = .ok () := by
  cases r with
  | scan kind layout =>
    refine mapErrorOk.trans ⟨fun valid _ _ same => ?_, fun valid => valid kind layout rfl⟩
    cases same
    exact valid
  | describe | equality | finalizer => simp [check]

theorem checkFault {r : Registration α ω} {fault} (failed : r.check = .error fault) :
    ∃ kind inner, fault = .invalidLayout (some kind) inner := by
  cases r with
  | scan kind layout =>
    obtain ⟨inner, _, same⟩ := mapErrorFault.mp failed
    exact ⟨kind, inner, same⟩
  | describe | equality | finalizer => cases failed

end Registration

theorem TagSpace.tagNamedFault {s : TagSpace} {kind : String} {fault}
    (failed : s.tagNamed kind = .error fault) : fault = .unknownKindName kind := by
  unfold tagNamed at failed
  split at failed <;> cases failed
  rfl

namespace Ledger

variable {l after : Ledger α ω} {s : TagSpace} {claimant : String} {r : Registration α ω}

theorem performedIff : l.perform s claimant r = .ok after ↔
    r.check = .ok () ∧ (∃ t, s.tagNamed r.kind = .ok t) ∧ l r.kind r.operation = none ∧
      after = l.record claimant r := by
  rw [perform, bindOk]
  constructor
  · intro ok
    obtain ⟨_, checked, ok⟩ := ok
    obtain ⟨t, named, ok⟩ := bindOk.mp ok
    split at ok <;> cases ok
    exact ⟨checked, ⟨t, named⟩, by assumption, rfl⟩
  · intro facts
    obtain ⟨checked, ⟨t, named⟩, free, rfl⟩ := facts
    refine ⟨(), checked, bindOk.mpr ⟨t, named, ?_⟩⟩
    rw [free]
    rfl

theorem duplicateHeld {op : Operation} {kind holder other : String}
    (failed : l.perform s claimant r = .error (.duplicateRegistration op kind holder other)) :
    op = r.operation ∧ kind = r.kind ∧ other = claimant ∧
      ∃ part, l r.kind r.operation = some ⟨holder, part⟩ := by
  rcases bindError.mp failed with invalid | ⟨_, _, failed⟩
  · obtain ⟨_, _, same⟩ := Registration.checkFault invalid
    cases same
  · rcases bindError.mp failed with unknown | ⟨_, _, failed⟩
    · cases TagSpace.tagNamedFault unknown
    · split at failed <;> cases failed
      exact ⟨rfl, rfl, rfl, _, by assumption⟩

theorem recordHeld {kind : String} {op : Operation} {held : Holding α ω}
    (free : l r.kind r.operation = none) : l.record claimant r kind op = some held ↔
      l kind op = some held ∨ kind = r.kind ∧ op = r.operation ∧ held = ⟨claimant, r.part⟩ := by
  unfold record
  split
  · rename_i same
    obtain ⟨rfl, rfl⟩ := same
    simp [free, eq_comm]
  · rename_i other
    exact ⟨.inl, fun either => either.elim id fun new => absurd ⟨new.1, new.2.1⟩ other⟩

end Ledger

def Program.accepted (claimant : String) :
    Program α ω → DispatchBuilder α ω → List (Registration α ω)
  | .done _, _ => []
  | .step r next, b =>
    match b.perform claimant r with
    | .ok after => r :: (next (.ok ())).accepted claimant after
    | .error fault => (next (.error fault)).accepted claimant b

namespace DispatchBuilder

variable {b after fresh : DispatchBuilder α ω} {claimant : String} {r : Registration α ω}

theorem ledgerDeclared (indexed : Indexed b.space.slots b.space.names) {kind : String}
    {op : Operation} {held : Holding α ω} (found : b.ledger kind op = some held) :
    ∃ t, b.space.nameAt t = some kind ∧ (b.ownersAt t).get op = some held.owner ∧
      (b.entryAt t).part op = some held.part := by
  unfold ledger at found
  split at found
  · rename_i t named
    obtain ⟨owner, owned, found⟩ := Option.bind_eq_some_iff.mp found
    obtain ⟨part, has, last⟩ := Option.bind_eq_some_iff.mp found
    cases last
    exact ⟨t, (TagSpace.namedIff indexed).mp named, owned, has⟩
  · cases found

theorem performRefines (indexed : Indexed b.space.slots b.space.names) (consistent : b.Consistent) :
    (b.perform claimant r).map ledger = b.ledger.perform b.space claimant r := by
  unfold perform Ledger.perform claim
  cases r.check with
  | error fault => rfl
  | ok =>
    cases named : b.space.tagNamed r.kind with
    | error fault => rfl
    | ok t =>
      cases holds : (b.ownersAt t).get r.operation with
      | none =>
        have unheld : b.ledger r.kind r.operation = none :=
          (ledgerNamed named).trans ((unheldIff consistent).mpr holds)
        have entered : (b.enter t claimant r).ledger = b.ledger.record claimant r :=
          enterLedger indexed consistent named
        simpa [bind, Except.bind, Except.map, pure, Except.pure, holds, unheld, enter] using entered
      | some holder =>
        obtain ⟨part, held⟩ := (heldOwner consistent).mp holds
        have held := (ledgerNamed named).trans held
        simp [bind, Except.bind, Except.map, throw, throwThe, MonadExceptOf.throw, holds, held]

theorem performLedger (indexed : Indexed b.space.slots b.space.names) (consistent : b.Consistent)
    (ok : b.perform claimant r = .ok after) :
    b.ledger.perform b.space claimant r = .ok after.ledger := by
  rw [← performRefines indexed consistent, ok]
  rfl

theorem performFault (indexed : Indexed b.space.slots b.space.names) (consistent : b.Consistent)
    {fault} (failed : b.perform claimant r = .error fault) :
    b.ledger.perform b.space claimant r = .error fault := by
  rw [← performRefines indexed consistent, failed]
  rfl

theorem performRecords (indexed : Indexed b.space.slots b.space.names) (consistent : b.Consistent)
    (ok : b.perform claimant r = .ok after) :
    b.ledger r.kind r.operation = none ∧ after.ledger = b.ledger.record claimant r :=
  (Ledger.performedIff.mp (performLedger indexed consistent ok)).2.2

theorem runRefines (claimant : String) (p : Program α ω) {b : DispatchBuilder α ω}
    (indexed : Indexed b.space.slots b.space.names) (consistent : b.Consistent) :
    Ledger.run b.space claimant p b.ledger =
      ((p.run claimant b).1, (p.run claimant b).2.ledger) := by
  induction p generalizing b with
  | done outcome => rfl
  | step r next ih =>
    unfold Ledger.run Program.run
    cases outcome : b.perform claimant r with
    | ok after =>
      have same := performSpace outcome
      simp only [performLedger indexed consistent outcome]
      -- the ledger goes on with the space of the builder before, which is that of the one after
      rw [← same]
      exact ih _ (same.symm ▸ indexed) (performConsistent indexed consistent outcome)
    | error fault =>
      simp only [performFault indexed consistent outcome]
      exact ih _ indexed consistent

theorem installRefines (indexed : Indexed b.space.slots b.space.names) (consistent : b.Consistent)
    (s : Subsystem α ω) :
    b.ledger.install b.space s = ((b.install s).1, (b.install s).2.ledger) := by
  have ran := runRefines s.name (s.program b.space) indexed consistent
  unfold Ledger.install
  rw [ran]
  cases outcome : (b.install s).1 with
  | ok =>
    rw [installDone outcome, ← installOutcome, outcome]
  | error fault =>
    rw [installFailed outcome, ← installOutcome, outcome]

theorem runAccepted (p : Program α ω) {b : DispatchBuilder α ω}
    (indexed : Indexed b.space.slots b.space.names) (consistent : b.Consistent) {kind : String}
    {op : Operation} {held : Holding α ω} :
    (p.run claimant b).2.ledger kind op = some held ↔ b.ledger kind op = some held ∨
      ∃ r ∈ p.accepted claimant b,
        kind = r.kind ∧ op = r.operation ∧ held = ⟨claimant, r.part⟩ := by
  induction p generalizing b with
  | done outcome => simp [Program.run, Program.accepted]
  | step r next ih =>
    unfold Program.run Program.accepted
    cases outcome : b.perform claimant r with
    | ok after =>
      obtain ⟨free, entered⟩ := performRecords indexed consistent outcome
      have rest := ih (.ok ()) ((performSpace outcome).symm ▸ indexed)
        (performConsistent indexed consistent outcome)
      rw [entered, Ledger.recordHeld free] at rest
      simp only [rest, List.mem_cons, exists_eq_or_imp, or_assoc]
    | error fault => exact ih _ indexed consistent

structure Registers (b : DispatchBuilder α ω) : Prop where
  refines : ∀ claimant r, (b.perform claimant r).map ledger = b.ledger.perform b.space claimant r
  admits : ∀ claimant r, (∃ after, b.perform claimant r = .ok after) ↔
    (∃ t, b.space.nameAt t = some r.kind) ∧
      (∀ kind layout, r = .scan kind layout → layout.validate = .ok ()) ∧
      b.ledger r.kind r.operation = none
  records : ∀ claimant r after, b.perform claimant r = .ok after →
    after.ledger = b.ledger.record claimant r
  keeps : ∀ claimant r after, b.perform claimant r = .ok after →
    ∀ kind op held, b.ledger kind op = some held → after.ledger kind op = some held
  refuses : ∀ claimant r fault, b.perform claimant r = .error fault →
    ∀ next, (Program.step r next).run claimant b = (next (.error fault)).run claimant b
  blames : ∀ claimant r op kind holder other,
    b.perform claimant r = .error (.duplicateRegistration op kind holder other) →
    op = r.operation ∧ kind = r.kind ∧ other = claimant ∧
      ∃ part, b.ledger r.kind r.operation = some ⟨holder, part⟩

theorem consistentRegisters (indexed : Indexed b.space.slots b.space.names)
    (consistent : b.Consistent) : b.Registers where
  refines _ _ := performRefines indexed consistent
  admits claimant r := by
    have declares : (∃ t, b.space.nameAt t = some r.kind) ↔ ∃ t, b.space.tagNamed r.kind = .ok t :=
      exists_congr fun t => (TagSpace.namedIff indexed).symm
    rw [declares, ← Registration.checkIff]
    constructor
    · intro ok
      obtain ⟨after, ok⟩ := ok
      obtain ⟨checked, named, free, _⟩ :=
        Ledger.performedIff.mp (performLedger indexed consistent ok)
      exact ⟨named, checked, free⟩
    · intro facts
      obtain ⟨named, checked, free⟩ := facts
      cases outcome : b.perform claimant r with
      | ok after => exact ⟨after, rfl⟩
      | error fault =>
        have failed := performFault indexed consistent outcome
        rw [Ledger.performedIff.mpr ⟨checked, named, free, rfl⟩] at failed
        cases failed
  records _ _ _ ok := (performRecords indexed consistent ok).2
  keeps _ _ _ ok _ _ _ found := by
    obtain ⟨free, entered⟩ := performRecords indexed consistent ok
    rw [entered, Ledger.recordHeld free]
    exact .inl found
  refuses _ _ _ failed _ := by simp only [Program.run, failed]
  blames _ _ _ _ _ _ failed := Ledger.duplicateHeld (performFault indexed consistent failed)

structure Installs (b : DispatchBuilder α ω) : Prop where
  refines : ∀ s, b.ledger.install b.space s = ((b.install s).1, (b.install s).2.ledger)
  rollsBack : ∀ s fault, (b.install s).1 = .error fault → (b.install s).2 = b
  commits : ∀ s, (b.install s).1 = .ok () → ∀ kind op held,
    (b.install s).2.ledger kind op = some held ↔ b.ledger kind op = some held ∨
      ∃ r ∈ (s.program b.space).accepted s.name b,
        kind = r.kind ∧ op = r.operation ∧ held = ⟨s.name, r.part⟩
  keeps : ∀ s kind op held, b.ledger kind op = some held →
    (b.install s).2.ledger kind op = some held

theorem consistentInstalls (indexed : Indexed b.space.slots b.space.names)
    (consistent : b.Consistent) : b.Installs where
  refines := installRefines indexed consistent
  rollsBack _ _ := installFailed
  commits s done kind op held := by
    rw [installDone done]
    exact runAccepted _ indexed consistent
  keeps s kind op held found := by
    cases outcome : (b.install s).1 with
    | ok =>
      rw [installDone outcome]
      exact (runAccepted _ indexed consistent).mpr (.inl found)
    | error fault => rwa [installFailed outcome]

theorem historyRefines {s : TagSpace} (indexed : Indexed s.slots s.names)
    (made : ofSpace s = .ok fresh) (working : Working fresh b)
    (subsystems : List (Subsystem α ω)) :
    (b.installEach subsystems).ledger = b.ledger.installEach s subsystems := by
  induction subsystems generalizing b with
  | nil => rfl
  | cons first rest ih =>
    have same := workingSpace made working
    have consistent := workingConsistent indexed made working
    have refines := installRefines (same.symm ▸ indexed) consistent first
    have later := ih (installWorking working first)
    rw [same] at refines
    simp only [installEach, Ledger.installEach, List.foldl_cons] at later ⊢
    rw [later, refines]

end DispatchBuilder

/-- However subsystems are installed, the builder is a ledger that starts empty: what it holds after
a history is what the ledger holds, and at each registration on the way, as at each installation, the
two go together. -/
theorem installationsKeepLedger {s : TagSpace} (reachable : s.Reachable)
    {fresh : DispatchBuilder α ω} (made : DispatchBuilder.ofSpace s = .ok fresh) :
    fresh.ledger = Ledger.empty ∧
    (∀ subsystems, DispatchBuilder.Working fresh (fresh.installEach subsystems) ∧
      (fresh.installEach subsystems).ledger = Ledger.empty.installEach s subsystems) ∧
    ∀ b, DispatchBuilder.Working fresh b →
      b.space = s ∧ b.Consistent ∧ b.Registers ∧ b.Installs ∧
        ∀ kind op held, b.ledger kind op = some held →
          ∃ t, s.nameAt t = some kind ∧ (b.ownersAt t).get op = some held.owner ∧
            (b.entryAt t).part op = some held.part := by
  have indexed := (TagSpace.reachableSound reachable).indexed
  have begun := DispatchBuilder.freshLedger indexed made
  refine ⟨begun, fun subsystems => ?_, fun b working => ?_⟩
  · have whole := DispatchBuilder.historyRefines indexed made .fresh subsystems
    exact ⟨DispatchBuilder.installEachWorking .fresh subsystems, begun ▸ whole⟩
  · have consistent := DispatchBuilder.workingConsistent indexed made working
    obtain rfl := DispatchBuilder.workingSpace made working
    exact ⟨rfl, consistent, DispatchBuilder.consistentRegisters indexed consistent,
      DispatchBuilder.consistentInstalls indexed consistent,
      fun _ _ _ => DispatchBuilder.ledgerDeclared indexed⟩

theorem miniatureKeepsLedger :
    (miniatureBuilder.installEach miniatureSubsystems).ledger =
      Ledger.empty.installEach miniatureBuilder.space miniatureSubsystems ∧
    (miniatureBuilder.installEach miniatureSubsystems).Registers ∧
    (miniatureBuilder.installEach miniatureSubsystems).Installs := by
  obtain ⟨_, histories, each⟩ := installationsKeepLedger miniatureReachable miniatureMade
  obtain ⟨working, same⟩ := histories miniatureSubsystems
  obtain ⟨_, _, registers, installs, _⟩ := each _ working
  exact ⟨same, registers, installs⟩

end TaggedHeap
