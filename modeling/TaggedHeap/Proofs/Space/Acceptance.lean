import TaggedHeap.Proofs.Space.Categories
import TaggedHeap.Proofs.Space.Orderly

/-! A draft refuses exactly the first entry that offends, so that a space is built from the
well-formed catalogs that can be numbered and from no others. -/
namespace TaggedHeap

def CatalogEntry.slot : CatalogEntry → Slot
  | .kind k => .kind k.name k.category
  | .boundary marker => .reserved marker

theorem tagAtRoom {position : Nat} (room : position < UInt32.size) :
    tagAt position = .ok (UInt32.ofNat position) := if_pos room

theorem declareFault {names : NameIndex} {name : String} {tag : Tag} {fault : Fault} :
    names.declare name tag = .error fault ↔
      ∃ first, names[name]? = some first ∧ fault = .duplicateKind name first tag := by
  unfold NameIndex.declare
  split
  · rename_i first found
    simp [found, eq_comm (a := fault)]
  · rename_i free
    simp [free]

namespace Draft

variable {before : List CatalogEntry} {d next : Draft} {entry : CatalogEntry} {fault : Fault}

structure Follows (before : List CatalogEntry) (d : Draft) : Prop where
  sound : d.Sound
  slots : d.slots.toList = before.map CatalogEntry.slot
  markers : Catalog.markers before = d.current.opened

theorem emptyFollows : Follows [] empty := ⟨emptySound, rfl, rfl⟩

theorem followsSize (follows : Follows before d) : d.slots.size = before.length := by
  rw [← Array.length_toList, follows.slots, List.length_map]

theorem followsRange (follows : Follows before d) : Catalog.currentRange before = d.current := by
  have phase := follows.sound.phase
  rw [Catalog.currentRange, follows.markers]
  generalize d.current = current, d.values = v, d.compiledValues = w at phase
  cases phase <;> rfl

theorem followsDue (follows : Follows before d) {marker : Boundary} :
    d.expects marker = true ↔ Catalog.Due before marker := by
  have phase := follows.sound.phase
  rw [Catalog.Due, follows.markers]
  cases marker <;> rw [expects] <;>
    generalize d.current = current, d.values = v, d.compiledValues = w at phase <;>
    cases phase <;> simp [Category.opened]

theorem followsSlot (follows : Follows before d) {i : Nat} {name : String} {category : Category} :
    d.slots[i]? = some (.kind name category) ↔ before[i]? = some (.kind ⟨name, category⟩) := by
  rw [← Array.getElem?_toList, follows.slots, List.getElem?_map, Option.map_eq_some_iff]
  constructor
  · intro facts
    obtain ⟨entry, found, same⟩ := facts
    cases entry with
    | boundary marker => cases same
    | kind other =>
      cases same
      exact found
  · intro found
    exact ⟨_, found, rfl⟩

theorem followsName (follows : Follows before d) {name : String} {t : Tag} :
    d.names[name]? = some t ↔ ∃ category, before[t.toNat]? = some (.kind ⟨name, category⟩) := by
  rw [follows.sound.indexed]
  exact exists_congr fun category => followsSlot follows

theorem addBoundaryFault {tag : Tag} {marker : Boundary} :
    d.addBoundary tag marker = .error fault ↔
      ¬ d.expects marker = true ∧ fault = .boundaryOutOfOrder marker tag := by
  unfold addBoundary
  split
  · rename_i expected
    simp [expected]
  · rename_i undue
    rw [Except.error.injEq, eq_comm]
    exact (and_iff_right undue).symm

theorem addKindFault {tag : Tag} {k : Declaration} :
    d.addKind tag k = .error fault ↔
      (k.category ≠ d.current ∧ fault = .kindOutOfRange k.name k.category tag d.current) ∨
      (k.category = d.current ∧
        ∃ first, d.names[k.name]? = some first ∧ fault = .duplicateKind k.name first tag) := by
  unfold addKind
  split
  · rename_i here
    rw [bindError, declareFault]
    simp [here, pure, Except.pure]
  · rename_i elsewhere
    simp [elsewhere, eq_comm]

theorem addFault (follows : Follows before d) (room : before.length < UInt32.size) :
    d.add entry = .error fault ↔ Catalog.Offends before entry fault := by
  rw [add, followsSize follows, tagAtRoom room]
  cases entry with
  | boundary marker =>
    change d.addBoundary _ marker = _ ↔ _
    rw [addBoundaryFault, followsDue follows]
    constructor
    · intro facts
      obtain ⟨undue, rfl⟩ := facts
      exact .disorder undue
    · intro offends
      cases offends with
      | disorder undue => exact ⟨undue, rfl⟩
  | kind k =>
    change d.addKind _ k = _ ↔ _
    rw [addKindFault, ← followsRange follows]
    constructor
    · intro facts
      rcases facts with ⟨elsewhere, rfl⟩ | ⟨here, first, taken, rfl⟩
      · exact .misplaced elsewhere
      · obtain ⟨category, found⟩ := (followsName follows).mp taken
        have offends := Catalog.Offends.repeated here found
        rwa [UInt32.ofNat_toNat] at offends
    · intro offends
      cases offends with
      | misplaced elsewhere => exact .inl ⟨elsewhere, rfl⟩
      | @repeated _ first category here taken =>
        have inside := (List.getElem?_eq_some_iff.mp taken).1
        -- The name stands before the entry, so that its position is a tag too.
        have small : (UInt32.ofNat first).toNat = first :=
          UInt32.toNat_ofNat_of_lt' (Nat.lt_trans inside room)
        exact .inr ⟨here, _, (followsName follows).mpr ⟨category, small.symm ▸ taken⟩, rfl⟩

theorem addFits (follows : Follows before d) (ok : d.add entry = .ok next) :
    ∀ fault, ¬ Catalog.Offends before entry fault := by
  intro fault offends
  obtain ⟨tag, numbered, _⟩ := bindOk.mp ok
  have room : before.length < UInt32.size := followsSize follows ▸ (tagAtOk numbered).1
  rw [(addFault follows room).mpr offends] at ok
  cases ok

theorem addBoundaryOk {tag : Tag} {marker : Boundary} (ok : d.addBoundary tag marker = .ok next) :
    d.expects marker = true ∧ next.slots = d.slots.push (.reserved marker) ∧
      next.current = marker.opens := by
  unfold addBoundary at ok
  split at ok <;> cases ok
  exact ⟨by assumption, rfl, rfl⟩

theorem addKindOk {tag : Tag} {k : Declaration} (ok : d.addKind tag k = .ok next) :
    next.slots = d.slots.push (.kind k.name k.category) ∧ next.current = d.current := by
  unfold addKind at ok
  split at ok <;> try contradiction
  obtain ⟨names, _, last⟩ := bindOk.mp ok
  cases last
  exact ⟨rfl, rfl⟩

theorem expectedOpens (sound : d.Sound) {marker : Boundary} (expected : d.expects marker = true) :
    d.current.opened ++ [marker] = marker.opens.opened := by
  have phase := sound.phase
  cases marker <;> rw [expects] at expected <;>
    generalize d.current = current, d.values = v, d.compiledValues = w at phase expected <;>
    cases phase <;> first | rfl | cases expected

theorem addFollows (follows : Follows before d) (ok : d.add entry = .ok next) :
    Follows (before ++ [entry]) next := by
  have sound := addSound follows.sound ok
  obtain ⟨tag, _, last⟩ := bindOk.mp ok
  cases entry with
  | boundary marker =>
    obtain ⟨expected, slots, current⟩ := addBoundaryOk last
    refine ⟨sound, by simp [slots, follows.slots, CatalogEntry.slot], ?_⟩
    rw [current, Catalog.markersAppend, follows.markers, Catalog.markersBoundary]
    exact expectedOpens follows.sound expected
  | kind k =>
    obtain ⟨slots, current⟩ := addKindOk last
    refine ⟨sound, by simp [slots, follows.slots, CatalogEntry.slot], ?_⟩
    rw [current, Catalog.markersAppend, Catalog.markersKind, List.append_nil]
    exact follows.markers

theorem foldAccepted {entries : List CatalogEntry} {last : Draft} (follows : Follows before d)
    (orderly : Catalog.Orderly before) (ok : entries.foldlM add d = .ok last) :
    Follows (before ++ entries) last ∧ Catalog.Orderly (before ++ entries) := by
  induction entries generalizing before d with
  | nil =>
    cases ok
    exact ⟨by simpa using follows, by simpa using orderly⟩
  | cons entry rest ih =>
    rw [List.foldlM_cons] at ok
    obtain ⟨next, first, later⟩ := bindOk.mp ok
    have fits := addFits follows first
    rw [List.append_cons]
    exact ih (addFollows follows first) (Catalog.orderlySnoc.mpr ⟨orderly, fits⟩) later

theorem foldRefused {entries : List CatalogEntry} (follows : Follows before d)
    (orderly : Catalog.Orderly before) (room : (before ++ entries).length ≤ UInt32.size)
    (failed : entries.foldlM add d = .error fault) :
    ∃ earlier entry after, before ++ entries = earlier ++ entry :: after ∧
      Catalog.Orderly earlier ∧ Catalog.Offends earlier entry fault := by
  induction entries generalizing before d with
  | nil => cases failed
  | cons entry rest ih =>
    rw [List.foldlM_cons] at failed
    rcases bindError.mp failed with here | ⟨next, first, later⟩
    · have inside : before.length < UInt32.size := by
        simp only [List.length_append, List.length_cons] at room
        omega
      exact ⟨before, entry, rest, rfl, orderly, (addFault follows inside).mp here⟩
    · have fits := addFits follows first
      rw [List.append_cons] at room ⊢
      exact ih (addFollows follows first) (Catalog.orderlySnoc.mpr ⟨orderly, fits⟩) room later

theorem orderlyDrafted {entries : List CatalogEntry} (orderly : Catalog.Orderly entries)
    (room : entries.length ≤ UInt32.size) :
    ∃ d, entries.foldlM add empty = .ok d ∧ Follows entries d := by
  cases outcome : entries.foldlM add empty with
  | ok d => exact ⟨d, rfl, (foldAccepted emptyFollows Catalog.orderlyEmpty outcome).1⟩
  | error fault =>
    obtain ⟨before, entry, after, split, _, offends⟩ :=
      foldRefused emptyFollows Catalog.orderlyEmpty room outcome
    exact absurd offends (orderly before entry after split fault)

theorem placedIff {marker : Boundary} {at? : Option Tag} {tag : Tag} :
    placed marker at? = .ok tag ↔ at? = some tag :=
  ⟨placedAt, fun same => same ▸ rfl⟩

theorem finishedIff {tier : Bool} {s : TagSpace} : d.finish tier = .ok s ↔
    ∃ v w n, d.values = some v ∧ d.compiledValues = some w ∧ tagAt d.slots.size = .ok n ∧
      s = ⟨d.slots, d.names, v, w, n, tier, .built⟩ := by
  simp only [finish, bindOk, placedIff]
  constructor
  · intro ok
    obtain ⟨v, atV, w, atW, n, numbered, last⟩ := ok
    cases last
    exact ⟨v, w, n, atV, atW, numbered, rfl⟩
  · intro facts
    obtain ⟨v, w, n, atV, atW, numbered, rfl⟩ := facts
    exact ⟨v, atV, w, atW, n, numbered, rfl⟩

theorem finishedRuntime {tier : Bool} {s : TagSpace} (sound : d.Sound)
    (finished : d.finish tier = .ok s) : d.current = .runtimeKind := by
  obtain ⟨v, w, n, atV, atW, _, _⟩ := finishedIff.mp finished
  have phase := sound.phase
  rw [atV, atW] at phase
  generalize d.current = current at phase
  cases phase
  rfl

theorem finishFault {entries : List CatalogEntry} (follows : Follows entries d)
    (room : entries.length < UInt32.size) {tier : Bool} : d.finish tier = .error fault ↔
      ∃ marker, Catalog.Due entries marker ∧ fault = .missingBoundary marker := by
  have phase := follows.sound.phase
  have numbered := tagAtRoom (followsSize follows ▸ room)
  have markers := follows.markers
  obtain ⟨slots, names, values, compiledValues, current⟩ := d
  simp only [Catalog.Due, markers]
  cases phase with
  | syntaxForms =>
    change Except.error (Fault.missingBoundary .values) = _ ↔ _
    simp [Category.opened, eq_comm]
  | registered inside =>
    change Except.error (Fault.missingBoundary .compiledValues) = _ ↔ _
    simp [Category.opened, eq_comm]
  | runtime inOrder inside =>
    simp [finish, placed, numbered, Category.opened, bind, Except.bind, pure, Except.pure]

end Draft

theorem builtFrom {catalog : Catalog} {tier : Bool} {s : TagSpace}
    (built : TagSpace.build catalog tier = .ok s) :
    ∃ d, catalog.entries.foldlM Draft.add Draft.empty = .ok d ∧ d.finish tier = .ok s ∧
      Draft.Follows catalog.entries d ∧ Catalog.Orderly catalog.entries := by
  obtain ⟨d, drafted, finished⟩ := bindOk.mp built
  obtain ⟨follows, orderly⟩ :=
    Draft.foldAccepted Draft.emptyFollows Catalog.orderlyEmpty drafted
  exact ⟨d, drafted, finished, follows, orderly⟩

structure TagSpace.Mirrors (s : TagSpace) (catalog : Catalog) : Prop where
  slots : ∀ i : Nat, s.slots[i]? = catalog.entries[i]?.map CatalogEntry.slot
  boundaries : ∀ (i : Nat) (marker : Boundary),
    catalog.entries[i]? = some (.boundary marker) ↔ i = (s.boundaries.position marker).toNat
  lastNormal : s.lastNormal.toNat = catalog.size
  last : s.last.toNat = catalog.size

theorem slotReserved {entry : CatalogEntry} {marker : Boundary} :
    entry.slot = .reserved marker ↔ entry = .boundary marker := by
  cases entry <;> simp [CatalogEntry.slot]

theorem mirroredBoundaries {catalog : Catalog} {s : TagSpace} (partitioned : s.Partitioned)
    (slots : ∀ i : Nat, s.slots[i]? = catalog.entries[i]?.map CatalogEntry.slot)
    (room : catalog.size < UInt32.size) (i : Nat) (marker : Boundary) :
    catalog.entries[i]? = some (.boundary marker) ↔
      i = (s.boundaries.position marker).toNat := by
  have marked (t : Tag) : catalog.entries[t.toNat]? = some (.boundary marker) ↔
      t = s.boundaries.position marker := by
    rw [← TagSpace.markerIff partitioned, TagSpace.markerSlot]
    simp [TagSpace.slotAt, slots, slotReserved]
  constructor
  · intro found
    have inside : i < catalog.size := (List.getElem?_eq_some_iff.mp found).1
    have small : (UInt32.ofNat i).toNat = i :=
      UInt32.toNat_ofNat_of_lt' (Nat.lt_trans inside room)
    have here := (marked (UInt32.ofNat i)).mp (small.symm ▸ found)
    rw [← here, small]
  · rintro rfl
    exact (marked _).mpr rfl

theorem builtMirrors {catalog : Catalog} {tier : Bool} {s : TagSpace}
    (built : TagSpace.build catalog tier = .ok s) :
    s.Mirrors catalog ∧ catalog.size < UInt32.size := by
  have sound := (builtSound built).1
  obtain ⟨d, _, finished, follows, _⟩ := builtFrom built
  have size : d.slots.size = catalog.size := Draft.followsSize follows
  obtain ⟨v, w, n, _, _, numbered, rfl⟩ := Draft.finishedIff.mp finished
  obtain ⟨room, atEnd⟩ := tagAtOk numbered
  have slots : ∀ i : Nat, d.slots[i]? = catalog.entries[i]?.map CatalogEntry.slot := by
    intro i
    rw [← Array.getElem?_toList, follows.slots, List.getElem?_map]
  have boundaries := mirroredBoundaries (sound.partitioned room) slots (size ▸ room)
  exact ⟨⟨slots, boundaries, atEnd.trans size, (TagSpace.lastExact room).trans size⟩, size ▸ room⟩

theorem builtIff {catalog : Catalog} {tier : Bool} :
    (∃ s, TagSpace.build catalog tier = .ok s) ↔
      catalog.WellFormed ∧ catalog.size < UInt32.size := by
  rw [Catalog.wellFormedIff]
  constructor
  · intro facts
    obtain ⟨s, built⟩ := facts
    obtain ⟨d, _, finished, follows, orderly⟩ := builtFrom built
    have complete := follows.markers
    rw [Draft.finishedRuntime follows.sound finished] at complete
    exact ⟨⟨orderly, complete⟩, (builtMirrors built).2⟩
  · intro facts
    obtain ⟨⟨orderly, complete⟩, room⟩ := facts
    obtain ⟨d, drafted, follows⟩ := Draft.orderlyDrafted orderly (Nat.le_of_lt room)
    cases outcome : d.finish tier with
    | ok s => exact ⟨s, bindOk.mpr ⟨d, drafted, outcome⟩⟩
    | error fault =>
      obtain ⟨marker, due, _⟩ := (Draft.finishFault follows room).mp outcome
      have absent := Catalog.dueAbsent due
      rw [complete] at absent
      cases marker <;> simp at absent

theorem refusedIff {catalog : Catalog} {tier : Bool} {fault : Fault}
    (room : catalog.size < UInt32.size) :
    TagSpace.build catalog tier = .error fault ↔ Catalog.Refused catalog.entries fault := by
  rw [TagSpace.build, bindError]
  constructor
  · intro failed
    rcases failed with failed | ⟨d, drafted, failed⟩
    · obtain ⟨before, entry, after, split, orderly, offends⟩ :=
        Draft.foldRefused Draft.emptyFollows Catalog.orderlyEmpty (Nat.le_of_lt room) failed
      exact .offence split orderly offends
    · obtain ⟨follows, orderly⟩ :=
        Draft.foldAccepted Draft.emptyFollows Catalog.orderlyEmpty drafted
      obtain ⟨marker, due, rfl⟩ := (Draft.finishFault follows room).mp failed
      exact .incomplete orderly due
  · intro refused
    cases refused with
    | @offence before entry after _ split orderly offends =>
      have inside : before.length < UInt32.size := by
        have sizes : catalog.size = before.length + (after.length + 1) := by
          simp [Catalog.size, split]
        omega
      obtain ⟨d, drafted, follows⟩ := Draft.orderlyDrafted orderly (Nat.le_of_lt inside)
      have failed := (Draft.addFault follows inside).mpr offends
      left
      rw [split, List.foldlM_append]
      refine bindError.mpr (.inr ⟨d, drafted, ?_⟩)
      rw [List.foldlM_cons]
      exact bindError.mpr (.inl failed)
    | incomplete orderly due =>
      obtain ⟨d, drafted, follows⟩ := Draft.orderlyDrafted orderly (Nat.le_of_lt room)
      exact .inr ⟨d, drafted, (Draft.finishFault follows room).mpr ⟨_, due, rfl⟩⟩

/-- A space is built from the well-formed catalogs that leave a tag for the end of the numbering,
and mirrors them. Any other catalog of that size is refused for its first entry that offends, or,
where none does, for the boundary that should have come next. -/
theorem buildDecides (catalog : Catalog) (tier : Bool) :
    ((∃ s, TagSpace.build catalog tier = .ok s) ↔
      catalog.WellFormed ∧ catalog.size ≤ 4294967295) ∧
    (∀ s, TagSpace.build catalog tier = .ok s →
      s.Mirrors catalog ∧ s.internalTier = tier ∧ s.lifecycle = .built) ∧
    (catalog.size ≤ 4294967295 → ∀ fault,
      (TagSpace.build catalog tier = .error fault ↔ Catalog.Refused catalog.entries fault) ∧
      (TagSpace.build catalog tier = .error fault → (fault.kind = .missingBoundary ↔
        Catalog.Orderly catalog.entries ∧ ∃ marker, marker ∉ Catalog.markers catalog.entries))) := by
  refine ⟨builtIff.trans (and_congr_right' Nat.lt_succ_iff), fun s built => ?_, fun room fault => ?_⟩
  · obtain ⟨d, _, finished, _⟩ := builtFrom built
    refine ⟨(builtMirrors built).1, (builtSound built).2, ?_⟩
    obtain ⟨_, _, _, _, _, _, rfl⟩ := Draft.finishedIff.mp finished
    rfl
  · have refused : TagSpace.build catalog tier = .error fault ↔ _ :=
      refusedIff (Nat.lt_succ_of_le room)
    exact ⟨refused, fun failed => Catalog.refusedMissing (refused.mp failed)⟩

-- Its name at 2 and its boundary at 3 are both repeated.
def crowded : Catalog :=
  (((Catalog.empty.kind "toplevel" .compiledSyntaxForm).boundary .values).kind "toplevel"
    .registeredValueOrSlot).boundary .values

theorem miniatureDecides :
    miniature.WellFormed ∧ miniatureSpace.Mirrors miniature ∧
    Catalog.Refused crowded.entries (.duplicateKind "toplevel" 0 2) ∧
    Catalog.Orderly [.boundary .values] := by
  have built : TagSpace.build miniature true = .ok miniatureSpace := rfl
  have refused : TagSpace.build crowded false = .error (.duplicateKind "toplevel" 0 2) := rfl
  have missed : TagSpace.build ⟨[.boundary .values]⟩ true =
      .error (.missingBoundary .compiledValues) := rfl
  obtain ⟨accepted, mirrors, _⟩ := buildDecides miniature true
  obtain ⟨_, _, faults⟩ := buildDecides crowded false
  obtain ⟨_, _, incomplete⟩ := buildDecides ⟨[.boundary .values]⟩ true
  exact ⟨(accepted.mp ⟨_, built⟩).1, (mirrors _ built).1, (faults (by decide) _).1.mp refused,
    (((incomplete (by decide) _).2 missed).mp rfl).1⟩

end TaggedHeap
