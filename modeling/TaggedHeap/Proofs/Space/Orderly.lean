import Mathlib.Data.List.Induction
import Mathlib.Data.List.Nodup
import TaggedHeap.Catalog
import TaggedHeap.Fault

/-! The rules for a catalog, said of its entries alone: each has to fit what stands before it, and
both boundaries have to come. A catalog that keeps them has three layers of kinds with a boundary
between one layer and the next. -/
namespace TaggedHeap

def CatalogEntry.marker? : CatalogEntry → Option Boundary
  | .kind _ => none
  | .boundary marker => some marker

def CatalogEntry.name? : CatalogEntry → Option String
  | .kind k => some k.name
  | .boundary _ => none

def Category.opened : Category → List Boundary
  | .compiledSyntaxForm => []
  | .registeredValueOrSlot => [.values]
  | .runtimeKind | .internalOnly => [.values, .compiledValues]

namespace Catalog

def markers (entries : List CatalogEntry) : List Boundary := entries.filterMap CatalogEntry.marker?

def names (entries : List CatalogEntry) : List String := entries.filterMap CatalogEntry.name?

def currentRange (before : List CatalogEntry) : Category :=
  match (markers before).getLast? with
  | some marker => marker.opens
  | none => .compiledSyntaxForm

def Due (before : List CatalogEntry) (marker : Boundary) : Prop :=
  markers before ++ [marker] <+: [.values, .compiledValues]

inductive Offends (before : List CatalogEntry) : CatalogEntry → Fault → Prop where
  | disorder {marker} (undue : ¬ Due before marker) :
      Offends before (.boundary marker)
        (.boundaryOutOfOrder marker (UInt32.ofNat before.length))
  | misplaced {k} (elsewhere : k.category ≠ currentRange before) :
      Offends before (.kind k) (.kindOutOfRange k.name k.category (UInt32.ofNat before.length)
        (currentRange before))
  | repeated {k first category} (here : k.category = currentRange before)
      (taken : before[first]? = some (.kind ⟨k.name, category⟩)) :
      Offends before (.kind k)
        (.duplicateKind k.name (UInt32.ofNat first) (UInt32.ofNat before.length))

def Orderly (entries : List CatalogEntry) : Prop :=
  ∀ before entry after, entries = before ++ entry :: after → ∀ fault, ¬ Offends before entry fault

inductive Refused (entries : List CatalogEntry) : Fault → Prop where
  | offence {before entry after fault} (split : entries = before ++ entry :: after)
      (orderly : Orderly before) (offends : Offends before entry fault) : Refused entries fault
  | incomplete {marker} (orderly : Orderly entries) (due : Due entries marker) :
      Refused entries (.missingBoundary marker)

theorem orderlyEmpty : Orderly [] := by
  intro before entry after split
  simp at split

theorem orderlySnoc {before : List CatalogEntry} {entry : CatalogEntry} :
    Orderly (before ++ [entry]) ↔ Orderly before ∧ ∀ fault, ¬ Offends before entry fault := by
  constructor
  · intro orderly
    refine ⟨?_, orderly before entry [] rfl⟩
    intro earlier other later split
    exact orderly earlier other (later ++ [entry]) (by simp [split])
  · intro facts earlier other after split
    obtain ⟨orderly, fits⟩ := facts
    rcases List.eq_nil_or_concat after with rfl | ⟨middle, last, rfl⟩
    · obtain ⟨rfl, same⟩ := List.append_inj' split rfl
      cases same
      exact fits
    · have joined : before ++ [entry] = (earlier ++ other :: middle) ++ [last] := by
        simpa using split
      obtain ⟨same, _⟩ := List.append_inj' joined rfl
      exact orderly earlier other middle same

@[simp] theorem markersAppend (before after : List CatalogEntry) :
    markers (before ++ after) = markers before ++ markers after := List.filterMap_append

@[simp] theorem namesAppend (before after : List CatalogEntry) :
    names (before ++ after) = names before ++ names after := List.filterMap_append

theorem markersKind (k : Declaration) : markers [.kind k] = [] := rfl

theorem markersBoundary (marker : Boundary) : markers [.boundary marker] = [marker] := rfl

theorem namesMem {entries : List CatalogEntry} {name : String} :
    name ∈ names entries ↔ ∃ (i : Nat) (category : Category),
      entries[i]? = some (CatalogEntry.kind ⟨name, category⟩) := by
  rw [names, List.mem_filterMap]
  constructor
  · intro facts
    obtain ⟨entry, member, named⟩ := facts
    cases entry with
    | boundary marker => cases named
    | kind k =>
      cases named
      obtain ⟨i, found⟩ := List.getElem?_of_mem member
      exact ⟨i, k.category, found⟩
  · intro facts
    obtain ⟨i, category, found⟩ := facts
    exact ⟨_, List.mem_of_getElem? found, rfl⟩

theorem openedRange {before : List CatalogEntry} {category : Category}
    (opened : markers before = category.opened) (base : category ≠ .internalOnly) :
    currentRange before = category := by
  rw [currentRange, opened]
  cases category <;> first | rfl | contradiction

theorem dueAbsent {before : List CatalogEntry} {marker : Boundary} (due : Due before marker) :
    marker ∉ markers before := by
  have once : (markers before ++ [marker]).Nodup := due.sublist.nodup (by decide)
  intro member
  exact (List.nodup_append.mp once).2.2 marker member marker (List.mem_singleton_self _) rfl

theorem orderlyNames {entries : List CatalogEntry} (orderly : Orderly entries) :
    (names entries).Nodup := by
  induction entries using List.reverseRecOn with
  | nil => exact .nil
  | append_singleton before entry ih =>
    obtain ⟨earlier, fits⟩ := orderlySnoc.mp orderly
    rw [namesAppend]
    cases entry with
    | boundary marker =>
      rw [show names [.boundary marker] = [] from rfl, List.append_nil]
      exact ih earlier
    | kind k =>
      have here : k.category = currentRange before := by
        by_contra elsewhere
        exact fits _ (.misplaced elsewhere)
      refine (ih earlier).append (List.nodup_singleton k.name) ?_
      intro name old new
      obtain rfl := List.mem_singleton.mp new
      obtain ⟨i, category, taken⟩ := namesMem.mp old
      exact fits _ (.repeated here taken)

def layers (forms registered runtime : List String) : Catalog :=
  ((((empty.kinds .compiledSyntaxForm forms).boundary .values).kinds .registeredValueOrSlot
    registered).boundary .compiledValues).kinds .runtimeKind runtime

def WellFormed (c : Catalog) : Prop :=
  ∃ forms registered runtime, c = layers forms registered runtime ∧
    (forms ++ registered ++ runtime).Nodup

theorem kindsKind (c : Catalog) (category : Category) (added : List String) (name : String) :
    (c.kinds category added).kind name category = c.kinds category (added ++ [name]) := by
  simp [kinds, kind]

theorem kindKinds (c : Catalog) (category : Category) (name : String) (added : List String) :
    (c.kind name category).kinds category added = c.kinds category (name :: added) := by
  simp [kinds, kind]

theorem kindsNone (c : Catalog) (category : Category) : c.kinds category [] = c := by
  simp [kinds]

theorem kindsMarkers (c : Catalog) (category : Category) (added : List String) :
    markers (c.kinds category added).entries = markers c.entries := by
  simp [kinds, markers, List.filterMap_map, Function.comp_def, CatalogEntry.marker?]

theorem kindsNames (c : Catalog) (category : Category) (added : List String) :
    names (c.kinds category added).entries = names c.entries ++ added := by
  simp [kinds, names, List.filterMap_map, Function.comp_def, CatalogEntry.name?]

theorem boundaryMarkers (c : Catalog) (marker : Boundary) :
    markers (c.boundary marker).entries = markers c.entries ++ [marker] := markersAppend _ _

theorem boundaryNames (c : Catalog) (marker : Boundary) :
    names (c.boundary marker).entries = names c.entries := by
  simp [boundary, names, CatalogEntry.name?]

inductive Layered : Catalog → Category → Prop where
  | forms (forms) : Layered (empty.kinds .compiledSyntaxForm forms) .compiledSyntaxForm
  | registered (forms registered) :
      Layered (((empty.kinds .compiledSyntaxForm forms).boundary .values).kinds
        .registeredValueOrSlot registered) .registeredValueOrSlot
  | runtime (forms registered runtime) : Layered (layers forms registered runtime) .runtimeKind

theorem layeredMarkers {c : Catalog} {category : Category} (layered : Layered c category) :
    markers c.entries = category.opened ∧ category ≠ .internalOnly := by
  cases layered <;> simp only [layers, kindsMarkers, boundaryMarkers] <;> exact ⟨rfl, by decide⟩

theorem layeredKind {c : Catalog} {category : Category} (layered : Layered c category)
    (name : String) : Layered (c.kind name category) category := by
  cases layered with
  | forms forms => exact kindsKind .. ▸ .forms _
  | registered forms registered => exact kindsKind .. ▸ .registered _ _
  | runtime forms registered runtime => exact kindsKind .. ▸ .runtime _ _ _

theorem layeredBoundary {c : Catalog} {category : Category} (layered : Layered c category)
    {marker : Boundary} (due : Due c.entries marker) :
    Layered (c.boundary marker) marker.opens := by
  rw [Due, (layeredMarkers layered).1] at due
  cases layered with
  | forms forms =>
    cases marker with
    | values => exact kindsNone (boundary _ _) _ ▸ .registered forms []
    | compiledValues => simp [Category.opened] at due
  | registered forms registered =>
    cases marker with
    | values => simp [Category.opened] at due
    | compiledValues => exact kindsNone (boundary _ _) _ ▸ .runtime forms registered []
  | runtime forms registered runtime => simp [Category.opened] at due

theorem orderlyLayered {entries : List CatalogEntry} (orderly : Orderly entries) :
    ∃ category, Layered ⟨entries⟩ category := by
  -- From the end backwards, since an entry is judged by what stands before it.
  induction entries using List.reverseRecOn with
  | nil => exact ⟨_, .forms []⟩
  | append_singleton before entry ih =>
    obtain ⟨earlier, fits⟩ := orderlySnoc.mp orderly
    obtain ⟨category, layered⟩ := ih earlier
    cases entry with
    | boundary marker =>
      have due : Due before marker := by
        by_contra undue
        exact fits _ (.disorder undue)
      exact ⟨_, layeredBoundary layered due⟩
    | kind k =>
      obtain ⟨opened, base⟩ := layeredMarkers layered
      have here : k.category = category := by
        by_contra elsewhere
        exact fits _ (.misplaced (openedRange opened base ▸ elsewhere))
      subst here
      exact ⟨_, layeredKind layered k.name⟩

theorem orderlyKinds {c : Catalog} {category : Category} {added : List String}
    (orderly : Orderly c.entries) (current : currentRange c.entries = category)
    (fresh : (names c.entries ++ added).Nodup) : Orderly (c.kinds category added).entries := by
  induction added generalizing c with
  | nil => exact (kindsNone c category).symm ▸ orderly
  | cons name rest ih =>
    have one := kindsKind c category [] name
    rw [kindsNone, List.nil_append] at one
    rw [← kindKinds]
    refine ih (orderlySnoc.mpr ⟨orderly, ?fits⟩) ?current ?fresh
    case fits =>
      intro fault offends
      cases offends with
      | misplaced elsewhere => exact elsewhere current.symm
      | repeated here taken =>
        have member : name ∈ names c.entries := namesMem.mpr ⟨_, _, taken⟩
        exact (List.nodup_append.mp fresh).2.2 name member name List.mem_cons_self rfl
    case current => rw [one, currentRange, kindsMarkers, ← current, currentRange]
    case fresh =>
      rw [one, kindsNames, List.append_assoc]
      exact fresh

theorem orderlyBoundary {c : Catalog} {marker : Boundary} (orderly : Orderly c.entries)
    (due : Due c.entries marker) : Orderly (c.boundary marker).entries := by
  refine orderlySnoc.mpr ⟨orderly, ?_⟩
  intro fault offends
  cases offends with
  | disorder undue => exact undue due

theorem layersOrderly {forms registered runtime : List String}
    (distinct : (forms ++ registered ++ runtime).Nodup) :
    Orderly (layers forms registered runtime).entries := by
  have earlier := List.Nodup.of_append_left distinct
  have first : Orderly (empty.kinds .compiledSyntaxForm forms).entries :=
    orderlyKinds orderlyEmpty rfl (List.Nodup.of_append_left earlier)
  have second : Orderly (((empty.kinds .compiledSyntaxForm forms).boundary .values).kinds
      .registeredValueOrSlot registered).entries := by
    refine orderlyKinds (orderlyBoundary first ?due) ?range ?fresh
    case due =>
      rw [Due, kindsMarkers]
      decide
    case range =>
      rw [currentRange, boundaryMarkers, kindsMarkers]
      rfl
    case fresh =>
      rw [boundaryNames, kindsNames]
      exact earlier
  refine orderlyKinds (orderlyBoundary second ?due) ?range ?fresh
  case due =>
    rw [Due, kindsMarkers, boundaryMarkers, kindsMarkers]
    decide
  case range =>
    rw [currentRange, boundaryMarkers, kindsMarkers, boundaryMarkers, kindsMarkers]
    rfl
  case fresh =>
    rw [boundaryNames, kindsNames, boundaryNames, kindsNames]
    exact distinct

theorem wellFormedIff {c : Catalog} :
    c.WellFormed ↔ Orderly c.entries ∧ markers c.entries = [.values, .compiledValues] := by
  constructor
  · intro facts
    obtain ⟨forms, registered, runtime, rfl, distinct⟩ := facts
    exact ⟨layersOrderly distinct, (layeredMarkers (.runtime ..)).1⟩
  · intro facts
    obtain ⟨orderly, complete⟩ := facts
    obtain ⟨category, layered⟩ := orderlyLayered orderly
    have distinct := orderlyNames orderly
    change Layered c category at layered
    have opened := (layeredMarkers layered).1
    rw [complete] at opened
    cases layered with
    | forms | registered => cases opened
    | runtime forms registered runtime =>
      refine ⟨forms, registered, runtime, rfl, ?_⟩
      simp only [layers, kindsNames, boundaryNames] at distinct
      exact distinct

theorem refusedMissing {entries : List CatalogEntry} {fault : Fault} (refused : Refused entries fault) :
    fault.kind = .missingBoundary ↔ Orderly entries ∧ ∃ marker, marker ∉ markers entries := by
  cases refused with
  | @offence before entry after _ split orderly offends =>
    have disorderly : ¬ Orderly entries := fun all => all before entry after split fault offends
    have other : fault.kind ≠ .missingBoundary := by cases offends <;> simp [Fault.kind]
    simp [disorderly, other]
  | @incomplete marker orderly due =>
    exact ⟨fun _ => ⟨orderly, marker, dueAbsent due⟩, fun _ => rfl⟩

end Catalog

end TaggedHeap
