import TaggedHeap.Proofs.Space.Acceptance
import TaggedHeap.Proofs.Space.History

/-! The same kinds in the same order make the same space, whichever way they come: in the catalog or
registered after it, in one internal tier or in two. Three pieces of code number and name kinds; here
each is compared with the others, down to the first fault. -/
namespace TaggedHeap

namespace TagSpace

variable {s : TagSpace} {name : String}

def registerEach (s : TagSpace) : List String → Except Fault TagSpace
  | [] => .ok s
  | name :: rest =>
    match s.register ⟨name, .runtimeKind⟩ with
    | (.ok _, grown) => grown.registerEach rest
    | (.error fault, _) => .error fault

theorem acceptRuntime {tag : Tag} (growing : s.isFrozen = false)
    (atEnd : s.slots.size = s.lastNormal.toNat) (numbered : tagAt s.slots.size = .ok tag) :
    s.accept ⟨name, .runtimeKind⟩ = (s.names.declare name tag).map fun names => (tag, names) := by
  have mutable : s.requireGrowing = .ok () := by simp [requireGrowing, growing]
  rw [accept, mutable, numbered]
  cases declares : s.names.declare name tag <;>
    simp [atEnd, declares, bind, Except.bind, pure, Except.pure, Except.map]

end TagSpace

namespace Draft

variable {d : Draft} {tier : Bool} {s : TagSpace} {fault : Fault}

theorem addRuntime {tag : Tag} (current : d.current = .runtimeKind)
    (numbered : tagAt d.slots.size = .ok tag) (name : String) :
    d.add (.kind ⟨name, .runtimeKind⟩) = (d.names.declare name tag).map fun names =>
      { d with names, slots := d.slots.push (.kind name .runtimeKind) } := by
  rw [add, numbered]
  change d.addKind tag _ = _
  rw [addKind, if_pos current.symm]
  cases d.names.declare name tag <;> rfl

theorem exhausted {v w : Tag} (atV : d.values = some v) (atW : d.compiledValues = some w)
    (full : tagAt d.slots.size = .error fault) (entries : List CatalogEntry) :
    (entries.foldlM add d >>= fun last => last.finish tier) = .error fault := by
  cases entries with
  | nil =>
    change d.finish tier = _
    simp [finish, atV, atW, placed, full, bind, Except.bind]
  | cons entry rest =>
    rw [List.foldlM_cons, add, full]
    rfl

theorem foldRegisters (finished : d.finish tier = .ok s) (current : d.current = .runtimeKind)
    (names : List String) :
    ((names.map fun name => CatalogEntry.kind ⟨name, .runtimeKind⟩).foldlM add d >>=
      fun last => last.finish tier) = s.registerEach names := by
  -- The draft stays one that could be finished, and what it would give is the space that registers.
  induction names generalizing d s with
  | nil => exact finished
  | cons name rest ih =>
    obtain ⟨v, w, n, atV, atW, numbered, rfl⟩ := finishedIff.mp finished
    have atEnd := (tagAtOk numbered).2.symm
    rw [List.map_cons, List.foldlM_cons, addRuntime current numbered, TagSpace.registerEach,
      TagSpace.register, TagSpace.acceptRuntime rfl atEnd numbered]
    cases d.names.declare name n with
    | error fault => rfl
    | ok names =>
      simp only [Except.map]
      cases next : tagAt (d.slots.push (.kind name .runtimeKind)).size with
      | error fault =>
        exact exhausted (d := ⟨d.slots.push _, names, _, _, d.current⟩) atV atW next _
      | ok lastNormal =>
        exact ih (finishedIff.mpr ⟨v, w, lastNormal, atV, atW, next, rfl⟩) current

end Draft

namespace TagSpace

variable {s : TagSpace}

theorem finishTier (d : Draft) (tier other : Bool) :
    d.finish other = (d.finish tier).map fun s => { s with internalTier := other } := by
  unfold Draft.finish
  cases Draft.placed .values d.values with
  | error fault => rfl
  | ok v =>
    cases Draft.placed .compiledValues d.compiledValues with
    | error fault => rfl
    | ok w => cases tagAt d.slots.size <;> rfl

theorem buildTier (catalog : Catalog) (tier other : Bool) :
    build catalog other = (build catalog tier).map fun s => { s with internalTier := other } := by
  rw [build, build]
  cases catalog.entries.foldlM Draft.add Draft.empty with
  | error fault => rfl
  | ok d => exact finishTier d tier other

theorem buildRegisters {catalog : Catalog} {tier : Bool} (built : build catalog tier = .ok s)
    (names : List String) :
    build (catalog.kinds .runtimeKind names) tier = s.registerEach names := by
  obtain ⟨d, drafted, finished, follows, _⟩ := builtFrom built
  rw [← Draft.foldRegisters finished (Draft.finishedRuntime follows.sound finished) names, build,
    Catalog.kinds, List.foldlM_append, drafted]
  rfl

end TagSpace

/-- A space depends on which kinds were declared in which order, not on the way they came: runtime
kinds in the catalog or registered one after another, internal kinds at once or in two parts, with
leave for an internal tier or without. -/
theorem declarationsDecide :
    (∀ catalog tier s names, TagSpace.build catalog tier = .ok s →
      TagSpace.build (catalog.kinds .runtimeKind names) tier = s.registerEach names) ∧
    (∀ (s grown : TagSpace) (first second : List String),
      InternalTier.appendTo ⟨first ++ second⟩ s = .ok grown ↔
        ∃ middle, InternalTier.appendTo ⟨first⟩ s = .ok middle ∧
          InternalTier.appendTo ⟨second⟩ middle = .ok grown) ∧
    ∀ catalog tier other, TagSpace.build catalog other =
      (TagSpace.build catalog tier).map fun s => { s with internalTier := other } :=
  ⟨fun _ _ _ names built => TagSpace.buildRegisters built names,
    fun _ _ _ _ => TagSpace.appendSplit, TagSpace.buildTier⟩

theorem miniatureDeclarations :
    TagSpace.build miniature true = .ok miniatureSpace ∧
    TagSpace.build (miniature.kinds .runtimeKind ["box", "vector"]) true =
      miniatureSpace.registerEach ["box", "vector"] ∧
    TagSpace.build (miniature.kinds .runtimeKind ["box", "pair", "box"]) true =
      .error (.duplicateKind "pair" 4 6) := by
  have built : TagSpace.build miniature true = .ok miniatureSpace := rfl
  obtain ⟨registers, _, _⟩ := declarationsDecide
  refine ⟨built, registers _ _ _ _ built, ?_⟩
  rw [registers _ _ _ ["box", "pair", "box"] built]
  rfl

end TaggedHeap
