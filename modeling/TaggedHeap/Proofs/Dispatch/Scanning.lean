import TaggedHeap.Proofs.Dispatch.Commitment
import TaggedHeap.Proofs.Layout.Acceptance

/-! What the check of a layout means for those who register layouts. It comes before the kind is looked
up and before anyone asks who holds the pair, so a layout that is not proper is always the reason
given. Such a registration leaves the builder to the next one as it was, and no history of
installations ever commits it. -/
namespace TaggedHeap

variable {α ω : Type}

namespace Registration

theorem scanFault {kind : String} {l : Layout} {fault} :
    (scan kind l : Registration α ω).check = .error fault ↔
      ∃ reason, l.Rejects reason ∧ fault = .invalidLayout (some kind) reason := by
  simp only [check, mapErrorFault, Layout.rejectsIff]

theorem scanChecked {kind : String} {l : Layout} :
    (scan kind l : Registration α ω).check = .ok () ↔ l.Proper := by
  rw [check, mapErrorOk, Layout.validateIff]

end Registration

theorem Program.acceptedChecked {claimant : String} {r : Registration α ω} (p : Program α ω)
    {b : DispatchBuilder α ω} (accepted : r ∈ p.accepted claimant b) : r.check = .ok () := by
  induction p generalizing b with
  | done outcome => cases accepted
  | step first next ih =>
    unfold Program.accepted at accepted
    split at accepted
    · rename_i after performed
      rcases List.mem_cons.mp accepted with same | later
      · subst same
        exact (DispatchBuilder.performedIff.mp performed).1
      · exact ih _ later
    · exact ih _ accepted

theorem committedChecked {b : DispatchBuilder α ω} {subsystems : List (Subsystem α ω)}
    {claimant : String} {r : Registration α ω} (committed : Committed b subsystems claimant r) :
    r.check = .ok () := by
  induction committed with
  | first installed accepted => exact Program.acceptedChecked _ accepted
  | later committed ih => exact ih

namespace DispatchBuilder

variable {b : DispatchBuilder α ω} {claimant kind : String} {r : Registration α ω} {l : Layout}
  {reason : LayoutFault}

theorem unclaimedIff {op : Operation} {fault} : b.claim claimant kind op = .error fault ↔
    b.space.tagNamed kind = .error fault ∨
      ∃ t holder, b.space.tagNamed kind = .ok t ∧ (b.ownersAt t).get op = some holder ∧
        fault = .duplicateRegistration op kind holder claimant := by
  rw [claim, bindError]
  refine or_congr_right ⟨fun failed => ?_, fun facts => ?_⟩
  · obtain ⟨t, named, failed⟩ := failed
    split at failed <;> cases failed
    exact ⟨t, _, named, by assumption, rfl⟩
  · obtain ⟨t, holder, named, held, rfl⟩ := facts
    refine ⟨t, named, ?_⟩
    rw [held]
    rfl

inductive Denies (b : DispatchBuilder α ω) (claimant : String) (r : Registration α ω) : Fault → Prop
  where
  | unsound {fault : Fault} (failed : r.check = .error fault) : Denies b claimant r fault
  | undeclared (checked : r.check = .ok ())
      (unknown : b.space.tagNamed r.kind = .error (.unknownKindName r.kind)) :
      Denies b claimant r (.unknownKindName r.kind)
  | taken {t : Tag} {holder : String} (checked : r.check = .ok ())
      (named : b.space.tagNamed r.kind = .ok t)
      (held : (b.ownersAt t).get r.operation = some holder) :
      Denies b claimant r (.duplicateRegistration r.operation r.kind holder claimant)

theorem deniedIff {fault} : b.perform claimant r = .error fault ↔ b.Denies claimant r fault := by
  rw [perform, bindError]
  constructor
  · intro failed
    rcases failed with unsound | ⟨_, checked, failed⟩
    · exact .unsound unsound
    · rcases bindError.mp failed with unclaimed | ⟨_, _, done⟩
      · rcases unclaimedIff.mp unclaimed with unknown | ⟨t, holder, named, held, rfl⟩
        · cases TagSpace.tagNamedFault unknown
          exact .undeclared checked unknown
        · exact .taken checked named held
      · cases done
  · intro denies
    cases denies with
    | unsound failed => exact .inl failed
    | undeclared checked unknown =>
      exact .inr ⟨(), checked, bindError.mpr (.inl (unclaimedIff.mpr (.inl unknown)))⟩
    | taken checked named held =>
      refine .inr ⟨(), checked, bindError.mpr (.inl ?_)⟩
      exact unclaimedIff.mpr (.inr ⟨_, _, named, held, rfl⟩)

theorem rejectedScan (rejects : l.Rejects reason) :
    b.perform claimant (.scan kind l) = .error (.invalidLayout (some kind) reason) :=
  deniedIff.mpr (.unsound (Registration.scanFault.mpr ⟨reason, rejects, rfl⟩))

theorem scanDenied {fault} (failed : b.perform claimant (.scan kind l) = .error fault) :
    fault.kind = .invalidDescriptor ↔ ¬ l.Proper := by
  have proper : (Registration.scan kind l : Registration α ω).check = .ok () ↔ l.Proper :=
    Registration.scanChecked
  rw [← proper]
  cases deniedIff.mp failed with
  | unsound unsound =>
    obtain ⟨_, _, rfl⟩ := Registration.scanFault.mp unsound
    simp [unsound, Fault.kind]
  | undeclared checked _ => simp [checked, Fault.kind]
  | taken checked _ _ => simp [checked, Fault.kind]

structure ClaimsNothing (b : DispatchBuilder α ω) (l : Layout) (reason : LayoutFault) : Prop where
  reported : ∀ claimant kind,
    b.perform claimant (.scan kind l) = .error (.invalidLayout (some kind) reason)
  untouched : ∀ claimant kind next, (Program.step (.scan kind l) next).run claimant b =
    (next (.error (.invalidLayout (some kind) reason))).run claimant b
  uncommitted : ∀ subsystems claimant kind, ¬ Committed b subsystems claimant (.scan kind l)

theorem rejectedClaims (rejects : l.Rejects reason) : b.ClaimsNothing l reason where
  reported _ _ := rejectedScan rejects
  untouched _ _ _ := by rw [Program.run, rejectedScan rejects]
  uncommitted subsystems claimant kind committed := by
    have checked := committedChecked committed
    rw [Registration.scanFault.mpr ⟨reason, rejects, rfl⟩] at checked
    cases checked

end DispatchBuilder

open DispatchBuilder in
/-- The check of a layout decides whether it is proper; of a fixed one with a header it decides with
that how every long enough image is traced, as any one of them shows. A refused layout is reported as
an invalid descriptor and claims nothing; no other is reported so. -/
theorem layoutsScreened (b : DispatchBuilder α ω) (l : Layout) :
    (l.validate = .ok () ↔ l.Proper) ∧
    (∀ words pointers, l = .fixed words pointers → 0 < words →
      (l.validate = .ok () ↔
        ∀ image : List Word, words.toNat ≤ image.length → l.VisitsInOrder image) ∧
      ∀ image : List Word, words.toNat ≤ image.length →
        (l.validate = .ok () ↔ l.VisitsInOrder image)) ∧
    (¬ l.Proper → ∃ reason, l.validate = .error reason ∧ l.Rejects reason ∧
      (∀ kind, (Fault.invalidLayout kind reason).kind = .invalidDescriptor) ∧
      b.ClaimsNothing l reason) ∧
    ∀ claimant kind fault, b.perform claimant (.scan kind l) = .error fault →
      (fault.kind = .invalidDescriptor ↔ ¬ l.Proper) := by
  refine ⟨Layout.validateIff, fun words pointers same headed => ?_, fun improper => ?_,
    fun _ _ _ => scanDenied⟩
  · subst same
    rw [Layout.validateIff]
    exact ⟨Layout.fixedVisitsAll headed, fun image long => (Layout.fixedVisits headed long).symm⟩
  · obtain ⟨reason, rejects⟩ := Layout.improperRejected improper
    exact ⟨reason, Layout.rejectsIff.mpr rejects, rejects, fun _ => rfl, rejectedClaims rejects⟩

theorem pairsScreened : ¬ (Layout.fixed 3 [2, 1]).VisitsInOrder [51, 8, 9] ∧
    (Layout.fixed 3 [2, 1]).validate = .error (.pointerOffset 1 3) ∧
    miniatureBuilder.ClaimsNothing (.fixed 3 [2, 1]) (.pointerOffset 1 3) ∧
    (Layout.fixed 3 [1, 2]).VisitsInOrder [51, 8, 9] ∧
    ∃ fault, miniatureBuilder.perform "late" (.scan "missing" (.fixed 3 [1, 2])) = .error fault ∧
      fault.kind ≠ .invalidDescriptor := by
  obtain ⟨decides, visits, rejects, _⟩ := layoutsScreened miniatureBuilder (.fixed 3 [2, 1])
  have failed : (Layout.fixed 3 [2, 1]).validate = .error (.pointerOffset 1 3) := rfl
  have invalid : (Layout.fixed 3 [2, 1]).validate ≠ .ok () := fun ok => nomatch failed.symm.trans ok
  obtain ⟨reason, named, _, _, claims⟩ := rejects fun proper => invalid (decides.mpr proper)
  cases failed.symm.trans named
  have unordered := (visits 3 [2, 1] rfl (by decide)).2 [51, 8, 9] (by decide)
  obtain ⟨decides, visits, _, blames⟩ := layoutsScreened miniatureBuilder (.fixed 3 [1, 2])
  have ordered := (visits 3 [1, 2] rfl (by decide)).2 [51, 8, 9] (by decide)
  have refused : miniatureBuilder.perform "late" (.scan "missing" (.fixed 3 [1, 2])) =
      .error (.unknownKindName "missing") := DispatchBuilder.deniedIff.mpr (.undeclared rfl rfl)
  refine ⟨fun seen => invalid (unordered.mpr seen), failed, claims, ordered.mp rfl, _, refused, ?_⟩
  exact fun same => (blames "late" "missing" _ refused).mp same (decides.mp rfl)

end TaggedHeap
