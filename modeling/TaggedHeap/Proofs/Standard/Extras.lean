import TaggedHeap.Proofs.Dispatch.Gaps
import TaggedHeap.Proofs.Standard.Equipment

/-! Models of the standard space with subsystems of one's own. These go in ahead of the standard ones,
which then claim every layout and the printer and equality of every value that is not set apart. Whether
there is a model in the end is said of what is offered, with no word of the order in which the standard
subsystems and the check for gaps find fault with it. -/
namespace TaggedHeap.Standard

variable {α ω : Type} {s : TagSpace} {fresh b : DispatchBuilder α ω} {structural : List String}
  {extras : List (StrictSubsystem α ω)} {offered more : List (Claim α ω)} {k : KindInfo}

def visible : List Operation := [.describe, .equality]

structure Suits (s : TagSpace) (structural : List String) (offered : List (Claim α ω)) : Prop where
  declared : ∀ c ∈ offered, ∃ k ∈ s.kinds, k.name = c.registration.kind
  apart : (offered.map Claim.pair).Nodup
  layoutless : ∀ c ∈ offered, c.registration.operation ≠ .scan
  outside : ∀ k ∈ s.kinds, k.category = .runtimeKind → k.name ∉ structural →
    ∀ op ∈ visible, ∀ c ∈ offered, c.pair ≠ (k.name, op)

def Supplies (s : TagSpace) (structural : List String) (offered : List (Claim α ω)) : Prop :=
  ∀ k ∈ s.kinds, k.category = .runtimeKind → k.name ∈ structural →
    ∀ op ∈ visible, ∃ c ∈ offered, c.pair = (k.name, op)

def lacking (offered : List (Claim α ω)) (k : KindInfo) : List Operation :=
  visible.filter fun op => (k.name, op) ∉ offered.map Claim.pair

def unsupplied (s : TagSpace) (structural : List String) (offered : List (Claim α ω)) : List Gap :=
  (s.kinds.filter fun k =>
      k.category == .runtimeKind && structural.contains k.name && lacking offered k != []).map
    fun k => ⟨k.tag, k.name, k.category, lacking offered k⟩

theorem lackingNone :
    lacking offered k = [] ↔ ∀ op ∈ visible, ∃ c ∈ offered, c.pair = (k.name, op) := by
  simp [lacking]

theorem unsuppliedNone : unsupplied s structural offered = [] ↔ Supplies s structural offered := by
  simp [unsupplied, Supplies, lackingNone]

theorem visibleIff {op : Operation} : op ∈ visible ↔ op = .describe ∨ op = .equality := by
  simp [visible]

theorem suitsAdmitted (sound : s.Sound) :
    s.Admits (offered ++ (equipment structural).flatMap (StrictSubsystem.claims s)) ↔
      Suits s structural offered := by
  have standard : s.Admits ((equipment structural).flatMap
      (StrictSubsystem.claims s : _ → List (Claim α ω))) := equipmentAdmitted sound
  have taken {k : KindInfo} {op : Operation} (listed : k ∈ s.kinds) :
      (k.name, op) ∈ claimed s structural ↔ _ := claimedIff sound listed
  constructor
  · rintro ⟨declared, _, apart⟩
    rw [List.map_append, equipmentPairs, List.nodup_append] at apart
    obtain ⟨within, _, across⟩ := apart
    have known : ∀ c ∈ offered, ∃ k ∈ s.kinds, k.name = c.registration.kind := fun c member =>
      (TagSpace.declaredListed sound).mp (declared c (List.mem_append_left _ member))
    have free : ∀ c ∈ offered, c.pair ∉ claimed s structural := fun c member there =>
      across _ (List.mem_map_of_mem member) _ there rfl
    refine ⟨known, within, fun c member scans => ?_,
      fun k listed value kept op shows c member same => ?_⟩
    · obtain ⟨k, listed, named⟩ := known c member
      refine free c member ?_
      rw [Claim.pair, ← named, scans]
      exact (taken listed).mpr (.inl rfl)
    · exact free c member (same ▸ (taken listed).mpr (.inr ⟨visibleIff.mp shows, value, kept⟩))
  · rintro ⟨known, within, layoutless, outside⟩
    refine ⟨List.forall_mem_append.mpr ⟨fun c member => ?_, standard.declared⟩,
      List.forall_mem_append.mpr ⟨fun c member => ?_, standard.valid⟩, ?_⟩
    · exact (TagSpace.declaredListed sound).mpr (known c member)
    · have other := layoutless c member
      cases made : c.registration with
      | scan => exact absurd (congrArg Registration.operation made) other
      | describe | equality | finalizer => rfl
    · rw [List.map_append, List.nodup_append]
      refine ⟨within, standard.apart, ?_⟩
      rw [equipmentPairs]
      rintro _ offers _ there rfl
      obtain ⟨c, member, rfl⟩ := List.mem_map.mp offers
      obtain ⟨k, listed, named⟩ := known c member
      have pair : c.pair = (k.name, c.registration.operation) := by rw [named, Claim.pair]
      rw [pair, taken listed] at there
      rcases there with scans | ⟨shows, value, kept⟩
      · exact layoutless c member scans
      · exact outside k listed value kept _ (visibleIff.mpr shows) c member pair

theorem extrasSubsystems : (extras ++ equipment structural).map StrictSubsystem.subsystem =
    extras.map StrictSubsystem.subsystem ++ [layouts, opaqueBehaviors structural] := by
  rw [List.map_append, equipmentSubsystems]

theorem extrasInstalled (sound : s.Sound) (made : DispatchBuilder.ofSpace s = .ok fresh) :
    (∃ b, fresh.installAll (extras.map StrictSubsystem.subsystem ++
      [layouts, opaqueBehaviors structural]) = .ok b) ↔
      Suits s structural (extras.flatMap (StrictSubsystem.claims s)) := by
  have space : fresh.space = s := DispatchBuilder.workingSpace made .fresh
  simp only [← extrasSubsystems, StrictSubsystem.allInstalledIff]
  rw [DispatchBuilder.foldAdmitted (space.symm ▸ sound.indexed)
    (DispatchBuilder.freshConsistent made), DispatchBuilder.freshLedger sound.indexed made, space,
    List.flatMap_append, suitsAdmitted sound]
  exact and_iff_left fun _ _ => rfl

theorem extrasGaps (sound : s.Sound) (made : DispatchBuilder.ofSpace s = .ok fresh)
    (installed : fresh.installAll (extras.map StrictSubsystem.subsystem ++
      [layouts, opaqueBehaviors structural]) = .ok b) :
    b.gaps = unsupplied s structural (extras.flatMap (StrictSubsystem.claims s)) := by
  have space : fresh.space = s := DispatchBuilder.workingSpace made .fresh
  rw [← extrasSubsystems, StrictSubsystem.allInstalledIff, space, List.flatMap_append] at installed
  refine gapsWhere ((DispatchBuilder.foldSpace installed).trans space) fun k listed =>
    missingOffered fun op => ?_
  rw [DispatchBuilder.hasClaimed sound.indexed made installed (TagSpace.listedNamed sound listed),
    ← List.mem_map, List.map_append, equipmentPairs, List.mem_append, claimedIff sound listed]

def Harmless (s : TagSpace) (r : Registration α ω) : Prop :=
  ∃ k ∈ s.kinds, k.name = r.kind ∧
    (r.operation = .finalizer ∨ r.operation ≠ .scan ∧ k.category ≠ .runtimeKind)

theorem harmlessPair (sound : s.Sound) {c : Claim α ω} (harmless : Harmless s c.registration)
    (listed : k ∈ s.kinds) (value : k.category = .runtimeKind) :
    ∀ op ∈ visible, c.pair ≠ (k.name, op) := by
  obtain ⟨l, there, named, allowed⟩ := harmless
  intro op shows same
  obtain ⟨kind, rfl⟩ := Prod.mk.inj same
  obtain rfl := TagSpace.listedApart sound listed there (named.trans kind)
  rcases allowed with finalizes | ⟨_, unobserved⟩
  · rw [finalizes] at shows
    exact absurd shows (by decide)
  · exact unobserved value

theorem harmlessSuits (sound : s.Sound) (harmless : ∀ c ∈ more, Harmless s c.registration)
    (apart : ((more ++ offered).map Claim.pair).Nodup) :
    Suits s structural (more ++ offered) ↔ Suits s structural offered := by
  constructor
  · rintro ⟨declared, _, layoutless, outside⟩
    rw [List.map_append] at apart
    exact ⟨fun c member => declared c (List.mem_append_right _ member), apart.of_append_right,
      fun c member => layoutless c (List.mem_append_right _ member),
      fun k listed value kept op shows c member =>
        outside k listed value kept op shows c (List.mem_append_right _ member)⟩
  · rintro ⟨declared, _, layoutless, outside⟩
    refine ⟨List.forall_mem_append.mpr ⟨fun c member => ?_, declared⟩, apart,
      List.forall_mem_append.mpr ⟨fun c member => ?_, layoutless⟩, fun k listed value kept op shows =>
        List.forall_mem_append.mpr ⟨fun c member => ?_, outside k listed value kept op shows⟩⟩
    · obtain ⟨k, listed, named, _⟩ := harmless c member
      exact ⟨k, listed, named⟩
    · obtain ⟨_, _, _, finalizes | ⟨unscanned, _⟩⟩ := harmless c member
      · simp [finalizes]
      · exact unscanned
    · exact harmlessPair sound (harmless c member) listed value op shows

theorem harmlessSupplies (sound : s.Sound) (harmless : ∀ c ∈ more, Harmless s c.registration) :
    Supplies s structural (more ++ offered) ↔ Supplies s structural offered := by
  constructor
  · intro supplies k listed value apart op shows
    obtain ⟨c, member, pair⟩ := supplies k listed value apart op shows
    rcases List.mem_append.mp member with member | member
    · exact absurd pair (harmlessPair sound (harmless c member) listed value op shows)
    · exact ⟨c, member, pair⟩
  · intro supplies k listed value apart op shows
    obtain ⟨c, member, pair⟩ := supplies k listed value apart op shows
    exact ⟨c, List.mem_append_right _ member, pair⟩

theorem lastSame {xs : List (Subsystem α ω)} {x y : Subsystem α ω} (name : x.name = y.name)
    (program : x.program b.space = y.program b.space) :
    b.installAll (xs ++ [x]) = b.installAll (xs ++ [y]) := by
  induction xs generalizing b with
  | nil => simp [DispatchBuilder.installAll, DispatchBuilder.install, name, program]
  | cons z rest ih =>
    rw [List.cons_append, List.cons_append, DispatchBuilder.installAll, DispatchBuilder.installAll]
    split
    · rename_i after done
      have space : (b.install z).2.space = b.space :=
        DispatchBuilder.installKeeps (fun now => now.space = b.space) z
          (fun same ok => (DispatchBuilder.performSpace ok).trans same) rfl
      rw [done] at space
      exact ih (space ▸ program)
    · rfl

theorem standardSteps {settings : Settings} (formed : space settings.internalTier = .ok s)
    (made : DispatchBuilder.ofSpace s = .ok fresh) (xs : List (Subsystem α ω)) :
    ObjectModel.standardWith settings xs structural =
      (fresh.installAll (xs ++ [layouts, opaqueBehaviors structural]) >>= fun b =>
        b.finish >>= ObjectModel.ofTable) := by
  have built : DispatchTable.build s (xs ++ [layouts, opaqueBehaviors structural]) =
      fresh.installAll (xs ++ [layouts, opaqueBehaviors structural]) >>= DispatchBuilder.finish :=
    bindFirst made
  have modelled : ObjectModel.standardWith settings xs structural =
      DispatchTable.build s (xs ++ [layouts, opaqueBehaviors structural]) >>= ObjectModel.ofTable :=
    bindFirst formed
  rw [modelled, built, bind_assoc]

theorem shownSame {others : List String} (agree : ∀ k ∈ s.kinds, k.category = .runtimeKind →
    (k.name ∈ structural ↔ k.name ∈ others)) : shown s structural = shown s others := by
  refine List.filter_congr fun k listed => ?_
  rw [Bool.eq_iff_iff]
  simpa [not_iff_not] using agree k listed

theorem standardSame {settings : Settings} (formed : space settings.internalTier = .ok s)
    (made : DispatchBuilder.ofSpace s = .ok fresh) (xs : List (Subsystem α ω))
    {others : List String} (agree : ∀ k ∈ s.kinds, k.category = .runtimeKind →
      (k.name ∈ structural ↔ k.name ∈ others)) :
    ObjectModel.standardWith settings xs structural =
      ObjectModel.standardWith settings xs others := by
  have space : fresh.space = s := DispatchBuilder.workingSpace made .fresh
  have last : (opaqueBehaviors structural : Subsystem α ω).program fresh.space =
      (opaqueBehaviors others).program fresh.space := by
    rw [space]
    exact congrArg (fun shown => Program.strict (.ok ()) (shown.flatMap behaviorsOf))
      (shownSame agree)
  have installed : fresh.installAll (xs ++ [layouts] ++ [opaqueBehaviors structural]) =
      fresh.installAll (xs ++ [layouts] ++ [opaqueBehaviors others]) := lastSame rfl last
  simp only [List.append_assoc, List.cons_append, List.nil_append] at installed
  rw [standardSteps formed made, standardSteps formed made, installed]

theorem standardIff {settings : Settings} (formed : space settings.internalTier = .ok s)
    (reachable : s.Reachable) (made : DispatchBuilder.ofSpace s = .ok fresh) :
    (∃ m, ObjectModel.standardWith settings (extras.map StrictSubsystem.subsystem) structural =
      .ok m) ↔ Suits s structural (extras.flatMap (StrictSubsystem.claims s)) ∧
        Supplies s structural (extras.flatMap (StrictSubsystem.claims s)) := by
  have sound := TagSpace.reachableSound reachable
  rw [standardSteps formed made, ← extrasInstalled sound made, ← unsuppliedNone]
  constructor
  · rintro ⟨m, ok⟩
    obtain ⟨b, installed, ok⟩ := bindOk.mp ok
    obtain ⟨d, finished, _⟩ := bindOk.mp ok
    refine ⟨⟨b, installed⟩, ?_⟩
    rw [← extrasGaps sound made installed]
    exact (DispatchBuilder.finishedIff.mp finished).1
  · rintro ⟨⟨b, installed⟩, supplied⟩
    have finished : b.finish = .ok ⟨b.space, b.entries⟩ :=
      DispatchBuilder.finishedIff.mpr ⟨(extrasGaps sound made installed).trans supplied, rfl⟩
    obtain ⟨modelled, _⟩ := ObjectModel.tableModelled reachable made installed finished
    exact ⟨_, bindOk.mpr ⟨b, installed, bindOk.mpr ⟨_, finished, modelled⟩⟩⟩

theorem standardRefused {settings : Settings} (formed : space settings.internalTier = .ok s)
    (reachable : s.Reachable) (made : DispatchBuilder.ofSpace s = .ok fresh)
    (suits : Suits s structural (extras.flatMap (StrictSubsystem.claims s)))
    (short : ¬ Supplies s structural (extras.flatMap (StrictSubsystem.claims s))) :
    ObjectModel.standardWith settings (extras.map StrictSubsystem.subsystem) structural =
      .error (.incompleteDispatch
        (unsupplied s structural (extras.flatMap (StrictSubsystem.claims s)))) := by
  have sound := TagSpace.reachableSound reachable
  obtain ⟨b, installed⟩ := (extrasInstalled sound made).mpr suits
  have gaps := extrasGaps sound made installed
  have refused : b.finish = .error (.incompleteDispatch b.gaps) := by
    refine DispatchBuilder.refusedIff.mpr ⟨fun none => short ?_, rfl⟩
    exact unsuppliedNone.mp (gaps.symm.trans none)
  rw [standardSteps formed made, ← gaps]
  exact bindError.mpr (.inr ⟨b, installed, bindError.mpr (.inl refused)⟩)

/-- There is a model just when what the extra subsystems offer suits the standard ones and supplies all
values that are set apart; where it suits and does not supply, the error names the values that go
without. To set a name apart that is no value's changes nothing, and neither do registrations that no
standard subsystem makes. -/
theorem extrasDecide (settings : Settings) (extras : List (StrictSubsystem α ω))
    (structural : List String) : ∃ s, space settings.internalTier = .ok s ∧
      ((∃ m, ObjectModel.standardWith settings (extras.map StrictSubsystem.subsystem) structural =
        .ok m) ↔ Suits s structural (extras.flatMap (StrictSubsystem.claims s)) ∧
          Supplies s structural (extras.flatMap (StrictSubsystem.claims s))) ∧
      (Suits s structural (extras.flatMap (StrictSubsystem.claims s)) →
        ¬ Supplies s structural (extras.flatMap (StrictSubsystem.claims s)) →
        ObjectModel.standardWith settings (extras.map StrictSubsystem.subsystem) structural =
          .error (.incompleteDispatch
            (unsupplied s structural (extras.flatMap (StrictSubsystem.claims s))))) ∧
      (∀ others : List String, (∀ k ∈ s.kinds, k.category = .runtimeKind →
          (k.name ∈ structural ↔ k.name ∈ others)) →
        ObjectModel.standardWith settings (extras.map StrictSubsystem.subsystem) structural =
          ObjectModel.standardWith settings (extras.map StrictSubsystem.subsystem) others) ∧
      ∀ x : StrictSubsystem α ω, (∀ r ∈ x.registrations s, Harmless s r) →
        (((x :: extras).flatMap (StrictSubsystem.claims s)).map Claim.pair).Nodup →
        ((∃ m, ObjectModel.standardWith settings ((x :: extras).map StrictSubsystem.subsystem)
            structural = .ok m) ↔
          ∃ m, ObjectModel.standardWith settings (extras.map StrictSubsystem.subsystem)
            structural = .ok m) := by
  obtain ⟨s, formed, facts⟩ := spaceFormed settings.internalTier
  have sound := TagSpace.reachableSound facts.reachable
  obtain ⟨fresh, made⟩ : ∃ fresh : DispatchBuilder α ω, DispatchBuilder.ofSpace s = .ok fresh :=
    freshMade facts.frozen
  refine ⟨s, formed, standardIff formed facts.reachable made,
    standardRefused formed facts.reachable made, fun others agree => standardSame formed made _ agree,
    fun x harmless apart => ?_⟩
  have each : ∀ c ∈ x.claims s, Harmless s c.registration := by
    intro c member
    obtain ⟨r, offers, rfl⟩ := List.mem_map.mp member
    exact harmless r offers
  rw [List.flatMap_cons] at apart
  rw [standardIff formed facts.reachable made, standardIff formed facts.reachable made,
    List.flatMap_cons, harmlessSuits sound each apart, harmlessSupplies sound each]

def pairsWith (registrations : List (Registration Unit Unit)) : StrictSubsystem Unit Unit :=
  ⟨"pairs", fun _ => registrations⟩

theorem pairListed (formed : Formed true s) : ⟨51, "pair", .runtimeKind⟩ ∈ s.kinds :=
  (TagSpace.listedSlot (TagSpace.reachableSound formed.reachable).bounded).mpr
    (formed.listed 51 (.kind ⟨"pair", .runtimeKind⟩) rfl)

theorem pairsSuit (formed : Formed true s) {registrations : List (Registration Unit Unit)}
    (own : ∀ r ∈ registrations, r.kind = "pair" ∧ r.operation ≠ .scan)
    (once : (registrations.map Registration.operation).Nodup) :
    Suits s ["pair"] ([pairsWith registrations].flatMap (StrictSubsystem.claims s)) := by
  rw [List.flatMap_singleton]
  refine ⟨fun c member => ?_, ?_, fun c member => ?_, fun k _ _ outside op _ c member same => ?_⟩
  case refine_2 =>
    refine List.Nodup.of_map Prod.snd ?_
    rw [List.map_map, StrictSubsystem.claims, List.map_map]
    exact once
  all_goals
    obtain ⟨r, offers, rfl⟩ := List.mem_map.mp member
    obtain ⟨named, unscanned⟩ := own r offers
  · exact ⟨_, pairListed formed, named.symm⟩
  · exact unscanned
  · exact outside (by simp [← (Prod.mk.inj same).1, named])

theorem pairsSupplied :
    (∃ m, ObjectModel.standardWith ⟨true⟩ [(pairsWith [.describe "pair" Printer.kindName,
      .equality "pair" Equality.identity]).subsystem] ["pair"] = .ok m) ∧
    ∃ gaps, ObjectModel.standardWith ⟨true⟩
      [(pairsWith [.describe "pair" Printer.kindName]).subsystem] ["pair"] =
        .error (.incompleteDispatch gaps) := by
  obtain ⟨s, made, formed⟩ := spaceFormed true
  constructor
  · obtain ⟨_, again, decides, _⟩ := extrasDecide ⟨true⟩ [pairsWith
      [.describe "pair" Printer.kindName, .equality "pair" Equality.identity]] ["pair"]
    cases made.symm.trans again
    refine decides.mpr ⟨pairsSuit formed (by decide) (by decide), fun k _ _ apart op shows => ?_⟩
    rw [List.mem_singleton.mp apart]
    rcases visibleIff.mp shows with rfl | rfl
    · exact ⟨_, .head _, rfl⟩
    · exact ⟨_, .tail _ (.head _), rfl⟩
  · obtain ⟨_, again, _, refuses, _⟩ := extrasDecide ⟨true⟩ [pairsWith
      [.describe "pair" Printer.kindName]] ["pair"]
    cases made.symm.trans again
    refine ⟨_, refuses (pairsSuit formed (by decide) (by decide)) fun supplies => ?_⟩
    obtain ⟨c, member, same⟩ :=
      supplies _ (pairListed formed) rfl (by decide) .equality (by decide)
    rw [List.flatMap_singleton] at member
    obtain ⟨r, offers, rfl⟩ := List.mem_map.mp member
    rw [List.mem_singleton.mp offers] at same
    cases same

end TaggedHeap.Standard
