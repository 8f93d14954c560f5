import TaggedHeap.Catalog
import TaggedHeap.TagSpace.Basic

/-! Building a tag space from a catalog. A draft takes the entries one by one; each has to stand in
the range that its category allows, and both boundaries have to have come by the end. -/
namespace TaggedHeap

structure Draft where
  slots : Array Slot
  names : NameIndex
  values : Option Tag
  compiledValues : Option Tag
  current : Category

namespace Draft

def empty : Draft := ⟨#[], ∅, none, none, .compiledSyntaxForm⟩

def expects (d : Draft) : Boundary → Bool
  | .values => d.values.isNone && d.compiledValues.isNone
  | .compiledValues => d.values.isSome && d.compiledValues.isNone

def mark (d : Draft) (tag : Tag) : Boundary → Draft
  | .values => { d with values := some tag }
  | .compiledValues => { d with compiledValues := some tag }

def addBoundary (d : Draft) (tag : Tag) (marker : Boundary) : Except Fault Draft :=
  if d.expects marker then
    .ok { d.mark tag marker with
      current := marker.opens
      slots := d.slots.push (.reserved marker) }
  else .error (.boundaryOutOfOrder marker tag)

def addKind (d : Draft) (tag : Tag) (k : Declaration) : Except Fault Draft :=
  if k.category = d.current then do
    let names ← d.names.declare k.name tag
    return { d with names, slots := d.slots.push (.kind k.name k.category) }
  else .error (.kindOutOfRange k.name k.category tag d.current)

def add (d : Draft) (entry : CatalogEntry) : Except Fault Draft := do
  let tag ← tagAt d.slots.size
  match entry with
  | .boundary marker => d.addBoundary tag marker
  | .kind k => d.addKind tag k

def placed (marker : Boundary) : Option Tag → Except Fault Tag
  | some tag => .ok tag
  | none => .error (.missingBoundary marker)

def finish (d : Draft) (internalTier : Bool) : Except Fault TagSpace := do
  let values ← placed .values d.values
  let compiledValues ← placed .compiledValues d.compiledValues
  let lastNormal ← tagAt d.slots.size
  return ⟨d.slots, d.names, values, compiledValues, lastNormal, internalTier, .built⟩

end Draft

def TagSpace.build (catalog : Catalog) (internalTier : Bool) : Except Fault TagSpace := do
  let draft ← catalog.entries.foldlM Draft.add Draft.empty
  draft.finish internalTier

end TaggedHeap
