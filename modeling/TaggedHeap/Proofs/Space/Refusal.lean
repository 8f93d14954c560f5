import TaggedHeap.Proofs.Space.Capacity
import TaggedHeap.Proofs.Space.Routes

/-! What a refused registration leaves behind. Most refusals come before anything is touched. One comes
when the kind is in its slot and has the last tag, so that none is left for the end of the runtime
kinds: this one keeps the kind. -/
namespace TaggedHeap

namespace TagSpace

variable {s : TagSpace} {k : Declaration} {fault : Fault}

-- That the next position has no number is no case: it is `lastNormal`, which is a tag.
inductive Refuses (s : TagSpace) (k : Declaration) : Fault → Prop where
  | frozen (done : s.isFrozen = true) : Refuses s k .spaceFrozen
  | category (growing : s.isFrozen = false) (other : k.category ≠ .runtimeKind) :
      Refuses s k (.notRuntimeKind k.name k.category)
  | internal (growing : s.isFrozen = false) (runtime : k.category = .runtimeKind)
      (passed : s.slots.size ≠ s.lastNormal.toNat) : Refuses s k (.afterInternalKinds k.name)
  | duplicate {first : Tag} (growing : s.isFrozen = false) (runtime : k.category = .runtimeKind)
      (atEnd : s.slots.size = s.lastNormal.toNat) (taken : s.names[k.name]? = some first) :
      Refuses s k (.duplicateKind k.name first s.lastNormal)

structure Overruns (s : TagSpace) (k : Declaration) : Prop where
  growing : s.isFrozen = false
  runtime : k.category = .runtimeKind
  atEnd : s.slots.size = s.lastNormal.toNat
  fresh : s.names[k.name]? = none
  lastTag : s.size = 4294967295

def withKind (s : TagSpace) (name : String) : TagSpace :=
  { s with
    names := s.names.insert name s.lastNormal
    slots := s.slots.push (.kind name .runtimeKind) }

theorem endNumbered (atEnd : s.slots.size = s.lastNormal.toNat) :
    tagAt s.slots.size = .ok s.lastNormal := by
  rw [atEnd, tagAtRoom s.lastNormal.toNat_lt, UInt32.ofNat_toNat]

theorem acceptAtEnd (growing : s.isFrozen = false) (runtime : k.category = .runtimeKind)
    (atEnd : s.slots.size = s.lastNormal.toNat) : s.accept k =
      (s.names.declare k.name s.lastNormal).map fun names => (s.lastNormal, names) := by
  obtain ⟨name, category⟩ := k
  cases runtime
  exact acceptRuntime growing atEnd (endNumbered atEnd)

theorem refusedAccept (refuses : s.Refuses k fault) : s.accept k = .error fault := by
  cases refuses with
  | frozen done => simp [accept, requireGrowing, done, bind, Except.bind]
  | category growing other =>
    simp [accept, requireGrowing, growing, other, bind, Except.bind, throw, throwThe,
      MonadExceptOf.throw]
  | internal growing runtime passed =>
    simp [accept, requireGrowing, growing, runtime, passed, bind, Except.bind, throw, throwThe,
      MonadExceptOf.throw]
  | duplicate growing runtime atEnd taken =>
    rw [acceptAtEnd growing runtime atEnd, declareFault.mpr ⟨_, taken, rfl⟩]
    rfl

theorem refusesOrAdmits (s : TagSpace) (k : Declaration) : (∃ fault, s.Refuses k fault) ∨
    s.isFrozen = false ∧ k.category = .runtimeKind ∧ s.slots.size = s.lastNormal.toNat ∧
      s.names[k.name]? = none := by
  by_cases growing : s.isFrozen = false
  case neg => exact .inl ⟨_, .frozen (Bool.not_eq_false _ ▸ growing)⟩
  by_cases runtime : k.category = .runtimeKind
  case neg => exact .inl ⟨_, .category growing runtime⟩
  by_cases atEnd : s.slots.size = s.lastNormal.toNat
  case neg => exact .inl ⟨_, .internal growing runtime atEnd⟩
  cases named : s.names[k.name]? with
  | some first => exact .inl ⟨_, .duplicate growing runtime atEnd named⟩
  | none => exact .inr ⟨growing, runtime, atEnd, rfl⟩

theorem refusedRegister (refuses : s.Refuses k fault) : s.register k = (.error fault, s) := by
  rw [register, refusedAccept refuses]

theorem admittedRegister (growing : s.isFrozen = false) (runtime : k.category = .runtimeKind)
    (atEnd : s.slots.size = s.lastNormal.toNat) (fresh : s.names[k.name]? = none) :
    s.register k = match tagAt (s.slots.size + 1) with
      | .error fault => (.error fault, s.withKind k.name)
      | .ok lastNormal => (.ok s.lastNormal, { s.withKind k.name with lastNormal }) := by
  rw [register, acceptAtEnd growing runtime atEnd, NameIndex.declare, fresh]
  simp only [Except.map, Array.size_push]
  cases tagAt (s.slots.size + 1) <;> rfl

theorem overrunRegister (overruns : s.Overruns k) :
    s.register k = (.error (.numberingExhausted 4294967296), s.withKind k.name) := by
  obtain ⟨growing, runtime, atEnd, fresh, lastTag⟩ := overruns
  have position : s.slots.size = 4294967295 := lastTag
  rw [admittedRegister growing runtime atEnd fresh, position]
  rfl

theorem registerFault : (s.register k).1 = .error fault ↔
    s.Refuses k fault ∨ s.Overruns k ∧ fault = .numberingExhausted 4294967296 := by
  constructor
  · intro failed
    rcases refusesOrAdmits s k with ⟨other, refuses⟩ | ⟨growing, runtime, atEnd, fresh⟩
    · rw [refusedRegister refuses] at failed
      cases failed
      exact .inl refuses
    · rw [admittedRegister growing runtime atEnd fresh] at failed
      cases next : tagAt (s.slots.size + 1) with
      | ok lastNormal =>
        rw [next] at failed
        cases failed
      | error exhausted =>
        rw [next] at failed
        cases failed
        obtain ⟨full, rfl⟩ := tagAtError next
        have below := s.lastNormal.toNat_lt
        have last : s.slots.size = 4294967295 := by
          change 4294967296 ≤ _ at full
          omega
        exact .inr ⟨⟨growing, runtime, atEnd, fresh, last⟩, by rw [last]⟩
  · intro either
    rcases either with refuses | ⟨overruns, rfl⟩
    · rw [refusedRegister refuses]
    · rw [overrunRegister overruns]

theorem refusesNumbered (refuses : s.Refuses k fault) (position : Nat) :
    fault ≠ .numberingExhausted position := by
  cases refuses <;> exact nofun

structure Leftover (s : TagSpace) (name : String) (later : TagSpace) : Prop where
  kept : later = s.withKind name
  unknown : s.tagNamed name = .error (.unknownKindName name)
  known : later.tagNamed name = .ok 4294967295
  held : later.nameAt 4294967295 = some name
  overrun : later.Overrun

theorem overrunLeaves (overruns : s.Overruns k) : s.Leftover k.name (s.withKind k.name) := by
  obtain ⟨_, _, atEnd, fresh, lastTag⟩ := overruns
  have position : s.slots.size = 4294967295 := lastTag
  have last : s.lastNormal = 4294967295 := UInt32.toNat_inj.mp (atEnd.symm.trans position)
  refine ⟨rfl, by rw [tagNamed, fresh], tagNamedIff.mpr ?_, nameSlot.mpr ⟨.runtimeKind, ?_⟩,
    overrun ?_⟩
  · simp [withKind, last]
  · change (s.slots.push _)[4294967295]? = _
    rw [← position, Array.getElem?_push_size]
  · rw [withKind, size, Array.size_push, position]

end TagSpace

/-- A refused registration leaves the space as it was, with the one exception that its kind was about
to get the last tag. Then it has got it, and the name that it gave is taken. -/
theorem refusalsRestore (s : TagSpace) (k : Declaration) {fault : Fault}
    (failed : (s.register k).1 = .error fault) :
    (fault ≠ .numberingExhausted 4294967296 → s.Refuses k fault ∧ (s.register k).2 = s) ∧
    (fault = .numberingExhausted 4294967296 →
      s.Overruns k ∧ s.Leftover k.name (s.register k).2) := by
  rcases TagSpace.registerFault.mp failed with refuses | ⟨overruns, rfl⟩
  · refine ⟨fun _ => ⟨refuses, ?_⟩, fun exhausted => ?_⟩
    · rw [TagSpace.refusedRegister refuses]
    · exact absurd exhausted (TagSpace.refusesNumbered refuses _)
  · refine ⟨fun other => absurd rfl other, fun _ => ⟨overruns, ?_⟩⟩
    rw [TagSpace.overrunRegister overruns]
    exact TagSpace.overrunLeaves overruns

theorem miniatureRestored :
    (miniatureSpace.register ⟨"pair", .runtimeKind⟩).1 = .error (.duplicateKind "pair" 4 5) ∧
    (miniatureSpace.register ⟨"pair", .runtimeKind⟩).2 = miniatureSpace := by
  have failed : (miniatureSpace.register ⟨"pair", .runtimeKind⟩).1 =
      .error (.duplicateKind "pair" 4 5) := rfl
  obtain ⟨restored, _⟩ := refusalsRestore miniatureSpace ⟨"pair", .runtimeKind⟩ failed
  exact ⟨failed, (restored (by decide)).2⟩

theorem TagSpace.builtAtEnd {catalog : Catalog} {tier : Bool} {s : TagSpace}
    (built : TagSpace.build catalog tier = .ok s) : s.slots.size = s.lastNormal.toNat := by
  rw [(builtMirrors built).1.lastNormal]
  exact (builtCounted built).1

theorem refusedKindStays : ∃ s later, TagSpace.build (.numbered 4294967293) false = .ok s ∧
    s.register ⟨"late", .runtimeKind⟩ = (.error (.numberingExhausted 4294967296), later) ∧
    s.tagNamed "late" = .error (.unknownKindName "late") ∧ later.tagNamed "late" = .ok 4294967295 ∧
    later.size ≠ s.size := by
  generalize count : 4294967293 = n
  have size : (Catalog.numbered n).size = 4294967295 := by
    rw [Catalog.numberedSize]
    omega
  obtain ⟨s, built⟩ := builtIff.mpr ⟨Catalog.numberedWellFormed n, size ▸ by decide⟩
  have counted : s.size = 4294967295 := (TagSpace.builtCounted built).1.trans size
  have fresh : "late" ∉ Catalog.names (Catalog.numbered n).entries := by
    rw [Catalog.numberedNames]
    intro member
    obtain ⟨i, _, same⟩ := List.mem_map.mp member
    simpa using congrArg String.toList same
  obtain ⟨growing, _, free⟩ := TagSpace.builtFresh built fresh
  have overruns : s.Overruns ⟨"late", .runtimeKind⟩ :=
    ⟨growing, rfl, TagSpace.builtAtEnd built, free, counted⟩
  have left := TagSpace.overrunLeaves overruns
  refine ⟨s, _, built, TagSpace.overrunRegister overruns, left.unknown, left.known, ?_⟩
  rw [TagSpace.withKind, TagSpace.size, Array.size_push]
  exact Nat.succ_ne_self _

end TaggedHeap
