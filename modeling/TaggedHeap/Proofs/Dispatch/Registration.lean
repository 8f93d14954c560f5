import TaggedHeap.Dispatch.Subsystem
import TaggedHeap.Proofs.Space.Categories

/-! What one registration does to a builder, and what therefore holds of every builder that is met
while subsystems are installed: between installations, in the midst of one, and after one that was
rolled back. -/
namespace TaggedHeap

namespace DispatchBuilder

variable {α ω : Type} {b after fresh : DispatchBuilder α ω} {claimant : String}
  {r : Registration α ω} {t u : Tag}

def enter (b : DispatchBuilder α ω) (t : Tag) (claimant : String) (r : Registration α ω) :
    DispatchBuilder α ω where
  space := b.space
  entries := b.entries.modify t.toNat r.put
  owners := b.owners.modify t.toNat (·.set claimant r.operation)

theorem claimedIff {kind : String} {op : Operation} {claimed} :
    b.claim claimant kind op = .ok (t, claimed) ↔
      b.space.tagNamed kind = .ok t ∧ (b.ownersAt t).get op = none ∧
        claimed = { b with owners := b.owners.modify t.toNat (·.set claimant op) } := by
  rw [claim, bindOk]
  constructor
  · intro ok
    obtain ⟨tag, named, ok⟩ := ok
    split at ok <;> cases ok
    exact ⟨named, by assumption, rfl⟩
  · intro facts
    obtain ⟨named, free, rfl⟩ := facts
    refine ⟨t, named, ?_⟩
    rw [free]
    rfl

theorem performedIff : b.perform claimant r = .ok after ↔
    r.check = .ok () ∧ ∃ t, b.space.tagNamed r.kind = .ok t ∧
      (b.ownersAt t).get r.operation = none ∧ after = b.enter t claimant r := by
  rw [perform, bindOk]
  constructor
  · intro ok
    obtain ⟨_, checked, ok⟩ := ok
    obtain ⟨⟨t, claimed⟩, claims, last⟩ := bindOk.mp ok
    obtain ⟨named, free, rfl⟩ := claimedIff.mp claims
    cases last
    exact ⟨checked, t, named, free, rfl⟩
  · intro facts
    obtain ⟨checked, t, named, free, rfl⟩ := facts
    exact ⟨(), checked, bindOk.mpr ⟨(t, _), claimedIff.mpr ⟨named, free, rfl⟩, rfl⟩⟩

theorem performSpace (ok : b.perform claimant r = .ok after) : after.space = b.space := by
  obtain ⟨_, t, _, _, rfl⟩ := performedIff.mp ok
  rfl

theorem enterEntry (inside : t.toNat < b.entries.size) :
    (b.enter t claimant r).entryAt u = if u = t then r.put (b.entryAt t) else b.entryAt u := by
  simp only [entryAt, enter, Array.getElem?_modify, UInt32.toNat_inj, eq_comm (a := t)]
  split
  · rename_i same
    simp [same, inside]
  · rfl

theorem enterOwners (inside : t.toNat < b.owners.size) :
    (b.enter t claimant r).ownersAt u =
      if u = t then (b.ownersAt t).set claimant r.operation else b.ownersAt u := by
  simp only [ownersAt, enter, Array.getElem?_modify, UInt32.toNat_inj, eq_comm (a := t)]
  split
  · rename_i same
    simp [same, inside]
  · rfl

structure Consistent (b : DispatchBuilder α ω) : Prop where
  entriesSize : b.entries.size = b.space.slots.size
  ownersSize : b.owners.size = b.space.slots.size
  owned : ∀ t op, (b.entryAt t).has op = ((b.ownersAt t).get op).isSome
  reserved : ∀ t marker, b.space.markerAt t = some marker →
    b.entryAt t = Entry.reserved ∧ b.ownersAt t = Owners.core
  valid : ∀ t layout, (b.entryAt t).layout = some layout → layout.validate = .ok ()

theorem firstOwned (slot : Slot) (op : Operation) :
    (firstEntry slot : Entry α ω).has op = ((firstOwners slot).get op).isSome := by
  cases slot <;> cases op <;> rfl

theorem firstValid {slot : Slot} {layout : Layout}
    (found : (firstEntry slot : Entry α ω).layout = some layout) : layout.validate = .ok () := by
  cases slot with
  | kind name category => cases found
  | reserved marker =>
    cases found
    rfl

theorem madeIff {s : TagSpace} : ofSpace s = .ok fresh ↔
    s.isFrozen = true ∧ fresh = ⟨s, s.slots.map firstEntry, s.slots.map firstOwners⟩ :=
  TagSpace.frozenThen

theorem freshConsistent {s : TagSpace} (made : ofSpace s = .ok fresh) : fresh.Consistent := by
  obtain ⟨_, rfl⟩ := madeIff.mp made
  refine ⟨by simp, by simp, ?owned, ?reserved, ?valid⟩
  case owned =>
    intro t op
    simp only [entryAt, ownersAt, Array.getElem?_map]
    cases s.slots[t.toNat]? with
    | none => cases op <;> rfl
    | some slot => exact firstOwned slot op
  case reserved =>
    intro t marker found
    have here : s.slots[t.toNat]? = some (.reserved marker) := TagSpace.markerSlot.mp found
    simp [entryAt, ownersAt, here, firstEntry, firstOwners]
  case valid =>
    intro t layout found
    simp only [entryAt, Array.getElem?_map] at found
    cases here : s.slots[t.toNat]? with
    | none => simp [here, Entry.empty] at found
    | some slot => exact firstValid (by simpa [here] using found)

theorem putValid {e : Entry α ω} {layout : Layout} (checked : r.check = .ok ())
    (valid : ∀ old, e.layout = some old → old.validate = .ok ())
    (found : (r.put e).layout = some layout) : layout.validate = .ok () := by
  cases r with
  | scan kind new =>
    cases found
    exact mapErrorOk.mp checked
  | describe | equality | finalizer => exact valid layout found

theorem namedInside (indexed : Indexed b.space.slots b.space.names) {kind : String}
    (named : b.space.tagNamed kind = .ok t) :
    t.toNat < b.space.slots.size ∧ b.space.markerAt t = none := by
  obtain ⟨category, found⟩ := TagSpace.nameSlot.mp ((TagSpace.namedIff indexed).mp named)
  exact ⟨(Array.getElem?_eq_some_iff.mp found).1, by simp [TagSpace.markerAt, found]⟩

theorem enterConsistent (consistent : b.Consistent)
    (inside : t.toNat < b.space.slots.size) (unreserved : b.space.markerAt t = none)
    (checked : r.check = .ok ()) : (b.enter t claimant r).Consistent := by
  obtain ⟨entriesSize, ownersSize, owned, reserved, valid⟩ := consistent
  have entryNow : ∀ u, (b.enter t claimant r).entryAt u = _ := fun _ =>
    enterEntry (entriesSize.symm ▸ inside)
  have ownersNow : ∀ u, (b.enter t claimant r).ownersAt u = _ := fun _ =>
    enterOwners (ownersSize.symm ▸ inside)
  refine ⟨by simpa [enter] using entriesSize, by simpa [enter] using ownersSize, ?owned, ?reserved,
    ?valid⟩
  case owned =>
    intro u op
    rw [entryNow, ownersNow]
    split
    · rw [Registration.putHas, Owners.getSet]
      by_cases same : op = r.operation <;> simp [same, owned]
    · exact owned u op
  case reserved =>
    intro u marker found
    have other : u ≠ t := fun same => by
      subst same
      exact absurd found (by simp [enter, unreserved])
    rw [entryNow, ownersNow, if_neg other, if_neg other]
    exact reserved u marker found
  case valid =>
    intro u layout found
    rw [entryNow] at found
    split at found
    · exact putValid checked (valid t) found
    · exact valid u layout found

theorem performConsistent (indexed : Indexed b.space.slots b.space.names)
    (consistent : b.Consistent) (ok : b.perform claimant r = .ok after) : after.Consistent := by
  obtain ⟨checked, t, named, _, rfl⟩ := performedIff.mp ok
  obtain ⟨inside, unreserved⟩ := namedInside indexed named
  exact enterConsistent consistent inside unreserved checked

theorem performKept (indexed : Indexed b.space.slots b.space.names)
    {now next : DispatchBuilder α ω} (kept : now.space = b.space ∧ now.Consistent)
    (ok : now.perform claimant r = .ok next) : next.space = b.space ∧ next.Consistent :=
  ⟨(performSpace ok).trans kept.1, performConsistent (kept.1.symm ▸ indexed) kept.2 ok⟩

theorem runKeeps (keeps : DispatchBuilder α ω → Prop)
    (each : ∀ {b after r}, keeps b → b.perform claimant r = .ok after → keeps after)
    (p : Program α ω) {b} (start : keeps b) : keeps (p.run claimant b).2 := by
  induction p generalizing b with
  | done outcome => exact start
  | step r next ih =>
    unfold Program.run
    split
    · exact ih _ (each start (by assumption))
    · exact ih _ start

theorem runSpace (p : Program α ω) : (p.run claimant b).2.space = b.space := by
  refine runKeeps (fun now => now.space = b.space) ?_ p rfl
  intro now after r same ok
  exact (performSpace ok).trans same

theorem installOutcome {s : Subsystem α ω} :
    (b.install s).1 = ((s.program b.space).run s.name b).1 := by
  unfold install
  split <;> simp [*]

theorem installFailed {s : Subsystem α ω} {fault} (failed : (b.install s).1 = .error fault) :
    (b.install s).2 = b := by
  have same : ((s.program b.space).run s.name b).2.space = b.space := runSpace _
  unfold install at failed ⊢
  split at failed
  · cases failed
  · rename_i fault after ran
    rw [ran] at same
    change after.space = b.space at same
    simp only [same]

theorem installDone {s : Subsystem α ω} (done : (b.install s).1 = .ok ()) :
    (b.install s).2 = ((s.program b.space).run s.name b).2 := by
  unfold install at done ⊢
  split at done
  · rename_i after ran
    rw [ran]
  · cases done

theorem installKeeps (keeps : DispatchBuilder α ω → Prop) (s : Subsystem α ω)
    (each : ∀ {b after r}, keeps b → b.perform s.name r = .ok after → keeps after)
    (start : keeps b) : keeps (b.install s).2 := by
  cases outcome : (b.install s).1 with
  | error fault =>
    rw [installFailed outcome]
    exact start
  | ok =>
    rw [installDone outcome]
    exact runKeeps keeps each _ start

def installEach (b : DispatchBuilder α ω) (subsystems : List (Subsystem α ω)) :
    DispatchBuilder α ω :=
  subsystems.foldl (fun b s => (b.install s).2) b

inductive Working (fresh : DispatchBuilder α ω) : DispatchBuilder α ω → Prop where
  | fresh : Working fresh fresh
  | perform {b after : DispatchBuilder α ω} {claimant : String} {r : Registration α ω}
      (before : Working fresh b) (ok : b.perform claimant r = .ok after) : Working fresh after

theorem installConsistent (indexed : Indexed b.space.slots b.space.names) (consistent : b.Consistent)
    (s : Subsystem α ω) : (b.install s).2.space = b.space ∧ (b.install s).2.Consistent :=
  installKeeps (fun now => now.space = b.space ∧ now.Consistent) s (performKept indexed)
    ⟨rfl, consistent⟩

theorem installWorking (working : Working fresh b) (s : Subsystem α ω) :
    Working fresh (b.install s).2 :=
  installKeeps (Working fresh) s (fun before ok => .perform before ok) working

theorem installEachWorking (working : Working fresh b) (subsystems : List (Subsystem α ω)) :
    Working fresh (b.installEach subsystems) := by
  induction subsystems generalizing b with
  | nil => exact working
  | cons s rest ih => exact ih (installWorking working s)

theorem workingSpace {s : TagSpace} (made : ofSpace s = .ok fresh) (working : Working fresh b) :
    b.space = s := by
  induction working with
  | fresh =>
    obtain ⟨_, rfl⟩ := madeIff.mp made
    rfl
  | perform _ ok ih => exact (performSpace ok).trans ih

theorem workingConsistent {s : TagSpace} (indexed : Indexed s.slots s.names)
    (made : ofSpace s = .ok fresh) (working : Working fresh b) : b.Consistent := by
  induction working with
  | fresh => exact freshConsistent made
  | perform before ok ih =>
    exact performConsistent ((workingSpace made before).symm ▸ indexed) ih ok

theorem historyConsistent {s : TagSpace} (indexed : Indexed s.slots s.names)
    (made : ofSpace s = .ok fresh) (subsystems : List (Subsystem α ω)) :
    (fresh.installEach subsystems).space = s ∧ (fresh.installEach subsystems).Consistent := by
  have working : Working fresh (fresh.installEach subsystems) :=
    installEachWorking .fresh subsystems
  exact ⟨workingSpace made working, workingConsistent indexed made working⟩

end DispatchBuilder

end TaggedHeap
