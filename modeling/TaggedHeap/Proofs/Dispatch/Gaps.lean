import Mathlib.Data.List.Basic
import TaggedHeap.Dispatch.Table
import TaggedHeap.Proofs.Dispatch.Commitment
import TaggedHeap.Proofs.Space.Listing
import TaggedHeap.Proofs.Text.Lines

/-! What the check before a table is finished finds, told of the history of installations: the kinds
with a demanded operation that no installation which went through has registered. Nothing that is
installed later opens a gap or widens one. -/
namespace TaggedHeap

variable {α ω : Type}

def Gap.kind (g : Gap) : KindInfo := ⟨g.tag, g.name, g.category⟩

structure Gap.Within (g h : Gap) : Prop where
  kind : g.kind = h.kind
  missing : g.missing.Sublist h.missing

def Unregistered (fresh : DispatchBuilder α ω) (subsystems : List (Subsystem α ω)) (kind : String)
    (op : Operation) : Prop :=
  ∀ claimant r, Committed fresh subsystems claimant r → ¬ (r.kind = kind ∧ r.operation = op)

open Classical in
noncomputable def unregistered (fresh : DispatchBuilder α ω) (subsystems : List (Subsystem α ω))
    (k : KindInfo) : List Operation :=
  k.category.requiredOperations.filter fun op => Unregistered fresh subsystems k.name op

theorem unregisteredSome {fresh : DispatchBuilder α ω} {subsystems : List (Subsystem α ω)}
    {k : KindInfo} : unregistered fresh subsystems k ≠ [] ↔
      ∃ op ∈ k.category.requiredOperations, Unregistered fresh subsystems k.name op := by
  simp [unregistered]

namespace DispatchBuilder

variable {b fresh : DispatchBuilder α ω} {k : KindInfo} {g : Gap} {op : Operation}

theorem gapFound : b.gap? k = some g ↔ g.kind = k ∧ g.missing = b.missing k ∧ g.missing ≠ [] := by
  obtain ⟨tag, name, category, missing⟩ := g
  unfold gap?
  split
  · rename_i none
    simp [none]
  · rename_i some
    simp only [Option.some.injEq, Gap.mk.injEq, Gap.kind]
    constructor
    · rintro ⟨rfl, rfl, rfl, rfl⟩
      exact ⟨rfl, rfl, some⟩
    · rintro ⟨rfl, rfl, _⟩
      exact ⟨rfl, rfl, rfl, rfl⟩

theorem gapListed (bounded : b.space.slots.size ≤ UInt32.size) : g ∈ b.gaps ↔
    b.space.kindAt g.tag = some g.kind ∧ g.missing = b.missing g.kind ∧ g.missing ≠ [] := by
  have declared : b.space.kindAt g.tag = some g.kind ↔ g.kind ∈ b.space.kinds :=
    (TagSpace.listedKind (k := g.kind) bounded).symm
  simp only [gaps, List.mem_filterMap, gapFound, declared]
  constructor
  · rintro ⟨_, listed, rfl, rest⟩
    exact ⟨listed, rest⟩
  · rintro ⟨listed, rest⟩
    exact ⟨_, listed, rfl, rest⟩

theorem missingListed (bounded : b.space.slots.size ≤ UInt32.size)
    (declared : b.space.kindAt k.tag = some k) (some : b.missing k ≠ []) :
    ∃ g ∈ b.gaps, g.kind = k ∧ g.missing = b.missing k :=
  ⟨⟨k.tag, k.name, k.category, b.missing k⟩, (gapListed bounded).mpr ⟨declared, rfl, some⟩, rfl, rfl⟩

theorem gapsAscend (bounded : b.space.slots.size ≤ UInt32.size) :
    b.gaps.Pairwise fun g h => g.tag < h.tag := by
  refine List.pairwise_filterMap.mpr ((TagSpace.kindsAscend bounded).imp ?_)
  intro k l before g first h second
  obtain ⟨rfl, _⟩ := gapFound.mp first
  obtain ⟨rfl, _⟩ := gapFound.mp second
  exact before

theorem lacksUnheld (consistent : b.Consistent) (named : b.space.tagNamed k.name = .ok k.tag) :
    (b.entryAt k.tag).has op = false ↔ b.ledger k.name op = none := by
  rw [ledgerNamed named, unheldIff consistent, consistent.owned, Option.isSome_eq_false_iff,
    Option.isNone_iff_eq_none]

theorem missingUnheld (indexed : Indexed b.space.slots b.space.names) (consistent : b.Consistent)
    (declared : b.space.kindAt k.tag = some k) : b.missing k =
      k.category.requiredOperations.filter fun op => (b.ledger k.name op).isNone := by
  obtain ⟨found, _⟩ := TagSpace.kindSlot.mp declared
  have named := (TagSpace.namedIff indexed).mpr (TagSpace.nameSlot.mpr ⟨_, found⟩)
  refine List.filter_congr fun op _ => ?_
  rw [Bool.eq_iff_iff, Bool.not_eq_true', lacksUnheld consistent named, Option.isNone_iff_eq_none]

theorem unheldUnregistered {s : TagSpace} (indexed : Indexed s.slots s.names)
    (made : ofSpace s = .ok fresh) (subsystems : List (Subsystem α ω)) (kind : String) :
    (fresh.installEach subsystems).ledger kind op = none ↔
      Unregistered fresh subsystems kind op := by
  have committed : ∀ held, (fresh.installEach subsystems).ledger kind op = some held ↔ _ := fun _ =>
    ledgerCommitted (workingSpace made .fresh ▸ indexed) (freshConsistent made)
  rw [Option.eq_none_iff_forall_ne_some]
  constructor
  · rintro unheld claimant r kept ⟨rfl, rfl⟩
    exact unheld ⟨claimant, r.part⟩ ((committed _).mpr (.inr ⟨r, kept, rfl, rfl, rfl⟩))
  · intro unregistered held found
    rcases (committed held).mp found with begun | ⟨r, kept, rfl, rfl, _⟩
    · rw [freshLedger indexed made] at begun
      cases begun
    · exact unregistered _ r kept ⟨rfl, rfl⟩

theorem missingUnregistered {s : TagSpace} (indexed : Indexed s.slots s.names)
    (made : ofSpace s = .ok fresh) (subsystems : List (Subsystem α ω))
    (declared : s.kindAt k.tag = some k) :
    (fresh.installEach subsystems).missing k = unregistered fresh subsystems k := by
  obtain ⟨space, consistent⟩ := historyConsistent indexed made subsystems
  rw [missingUnheld (space.symm ▸ indexed) consistent (space.symm ▸ declared)]
  classical
  refine List.filter_congr fun op _ => ?_
  rw [Bool.eq_iff_iff, decide_eq_true_iff, Option.isNone_iff_eq_none,
    unheldUnregistered indexed made]

theorem refusedIff {fault : Fault} :
    b.finish = .error fault ↔ b.gaps ≠ [] ∧ fault = .incompleteDispatch b.gaps := by
  unfold finish
  split
  · rename_i none
    simp [none]
  · rename_i some
    exact ⟨fun failed => ⟨some, (Except.error.inj failed).symm⟩, fun facts => facts.2 ▸ rfl⟩

theorem installNarrows (sound : b.space.Sound) (consistent : b.Consistent) (x : Subsystem α ω) :
    ∀ g ∈ (b.install x).2.gaps, ∃ h ∈ b.gaps, g.Within h := by
  obtain ⟨indexed, bounded, _⟩ := sound
  obtain ⟨space, after⟩ := installConsistent indexed consistent x
  have keeps := (consistentInstalls indexed consistent).keeps x
  intro g member
  obtain ⟨declared, missing, some⟩ := (gapListed (space.symm ▸ bounded)).mp member
  rw [missingUnheld (space.symm ▸ indexed) after declared] at missing
  rw [space] at declared
  have fewer : g.missing.Sublist (b.missing g.kind) := by
    rw [missing, missingUnheld indexed consistent declared]
    refine List.monotone_filter_right _ fun op unheld => ?_
    rw [Option.isNone_iff_eq_none, Option.eq_none_iff_forall_ne_some] at unheld ⊢
    exact fun held found => unheld held (keeps _ op held found)
  have before : b.missing g.kind ≠ [] := fun none => some (List.sublist_nil.mp (none ▸ fewer))
  obtain ⟨h, listed, kind, all⟩ := missingListed bounded declared before
  exact ⟨h, listed, kind.symm, all ▸ fewer⟩

end DispatchBuilder

namespace Gap

open Text (Unbroken unbrokenAppend)

def heading (gaps : List Gap) : String :=
  toString gaps.length ++ " kind(s) lack required operations:"

def line (g : Gap) : String := "  - " ++ g.message

theorem refusalText {gaps : List Gap} (some : gaps ≠ []) : (Fault.incompleteDispatch gaps).message =
    "\n".intercalate (heading gaps :: gaps.map line) := by
  have lines : gaps.map line ≠ [] := fun none => some (List.map_eq_nil_iff.mp none)
  have first : heading gaps ++ "\n" =
      toString gaps.length ++ " kind(s) lack required operations:\n" :=
    String.toList_inj.mp (by simp [heading])
  rw [String.intercalate_cons_of_ne_nil lines, first]
  rfl

theorem headingUnbroken (gaps : List Gap) : Unbroken (heading gaps) :=
  unbrokenAppend (Text.unbrokenNumber _) (by decide)

theorem lineUnbroken {g : Gap} (plain : Unbroken g.name) : Unbroken g.line := by
  have operations : Unbroken (", ".intercalate (g.missing.map Operation.name)) := by
    refine Text.unbrokenJoined (by decide) fun text member => ?_
    obtain ⟨op, _, rfl⟩ := List.mem_map.mp member
    exact op.nameUnbroken
  refine unbrokenAppend (by decide) (unbrokenAppend ?_ operations)
  refine unbrokenAppend (unbrokenAppend ?_ g.category.nameUnbroken) (by decide)
  refine unbrokenAppend (unbrokenAppend ?_ plain) (by decide)
  exact unbrokenAppend (unbrokenAppend (by decide) (Text.unbrokenNumber _)) (by decide)

theorem refusalLines {gaps : List Gap} (some : gaps ≠ []) (plain : ∀ g ∈ gaps, Unbroken g.name) :
    (Fault.incompleteDispatch gaps).message.toList.splitOn '\n' =
      (heading gaps :: gaps.map line).map String.toList := by
  rw [refusalText some, String.toList_intercalate]
  refine List.splitOn_intercalate '\n' ?_ (by simp)
  rintro _ lines
  obtain ⟨text, member, rfl⟩ := List.mem_map.mp lines
  rcases List.mem_cons.mp member with rfl | member
  · exact headingUnbroken gaps
  · obtain ⟨g, listed, rfl⟩ := List.mem_map.mp member
    exact lineUnbroken (plain g listed)

end Gap

structure GapsTell (s : TagSpace) (fresh : DispatchBuilder α ω)
    (subsystems : List (Subsystem α ω)) (b : DispatchBuilder α ω) : Prop where
  ascending : b.gaps.Pairwise fun g h => g.tag < h.tag
  listed : ∀ g, g ∈ b.gaps ↔ s.kindAt g.tag = some g.kind ∧
    g.missing = unregistered fresh subsystems g.kind ∧ g.missing ≠ []
  complete : ∀ k, s.kindAt k.tag = some k → ((∃ g ∈ b.gaps, g.kind = k) ↔
    ∃ op ∈ k.category.requiredOperations, Unregistered fresh subsystems k.name op)
  refuses : (∃ fault, b.finish = .error fault) ↔ b.gaps ≠ []
  fault : ∀ fault, b.finish = .error fault → fault.kind = .incompleteDispatch ∧
    fault.message = "\n".intercalate (Gap.heading b.gaps :: b.gaps.map Gap.line)
  lines : ∀ fault, b.finish = .error fault → (∀ g ∈ b.gaps, Text.Unbroken g.name) →
    fault.message.toList.splitOn '\n' =
      (Gap.heading b.gaps :: b.gaps.map Gap.line).map String.toList
  narrows : ∀ x, ∀ g ∈ (b.install x).2.gaps, ∃ h ∈ b.gaps, g.Within h
  rolledBack : ∀ x fault, (b.install x).1 = .error fault → (b.install x).2.gaps = b.gaps

/-- After any history of installations the check tells what the history left out, message included,
and what is installed later only narrows it. -/
theorem gapsTellHistory {s : TagSpace} (reachable : s.Reachable) {fresh : DispatchBuilder α ω}
    (made : DispatchBuilder.ofSpace s = .ok fresh) (subsystems : List (Subsystem α ω)) :
    GapsTell s fresh subsystems (fresh.installEach subsystems) := by
  have sound := TagSpace.reachableSound reachable
  have missing {k} := DispatchBuilder.missingUnregistered sound.indexed made subsystems (k := k)
  obtain ⟨space, consistent⟩ := DispatchBuilder.historyConsistent sound.indexed made subsystems
  generalize fresh.installEach subsystems = b at *
  subst space
  have listed : ∀ g, g ∈ b.gaps ↔ _ := fun _ => DispatchBuilder.gapListed sound.bounded
  refine ⟨DispatchBuilder.gapsAscend sound.bounded, fun g => ?listed, fun k declared => ?complete,
    ?refuses, fun fault failed => ?fault, fun fault failed plain => ?lines,
    DispatchBuilder.installNarrows sound consistent, fun x fault failed => ?rolledBack⟩
  case listed =>
    rw [listed]
    exact and_congr_right fun declared => by rw [missing declared]
  case complete =>
    rw [← unregisteredSome, ← missing declared]
    constructor
    · rintro ⟨g, member, rfl⟩
      obtain ⟨_, same, some⟩ := (listed g).mp member
      exact same ▸ some
    · intro some
      obtain ⟨g, member, kind, _⟩ := DispatchBuilder.missingListed sound.bounded declared some
      exact ⟨g, member, kind⟩
  case refuses =>
    simp [DispatchBuilder.refusedIff]
  case fault =>
    obtain ⟨some, rfl⟩ := DispatchBuilder.refusedIff.mp failed
    exact ⟨rfl, Gap.refusalText some⟩
  case lines =>
    obtain ⟨some, rfl⟩ := DispatchBuilder.refusedIff.mp failed
    exact Gap.refusalLines some plain
  case rolledBack =>
    rw [DispatchBuilder.installFailed failed]

def miniatureUnfinished : DispatchBuilder Unit Unit :=
  miniatureBuilder.installEach (miniatureSubsystems.take 2)

theorem miniatureGaps :
    (∃ fault, miniatureUnfinished.finish = .error fault) ∧
    (∃ op ∈ Category.runtimeKind.requiredOperations,
      Unregistered miniatureBuilder (miniatureSubsystems.take 2) "pair" op) ∧
    ∀ g ∈ (miniatureUnfinished.install Standard.layouts).2.gaps,
      ∃ h ∈ miniatureUnfinished.gaps, g.Within h := by
  have tell : GapsTell _ _ _ miniatureUnfinished :=
    gapsTellHistory miniatureReachable miniatureMade (miniatureSubsystems.take 2)
  refine ⟨tell.refuses.mpr (by decide +kernel), ?_, tell.narrows _⟩
  refine (tell.complete ⟨4, "pair", .runtimeKind⟩ rfl).mp ?_
  exact ⟨⟨4, "pair", .runtimeKind, [.scan]⟩, by decide +kernel, rfl⟩

end TaggedHeap
