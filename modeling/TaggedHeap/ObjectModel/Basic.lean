import TaggedHeap.Classifier
import TaggedHeap.Dispatch.Call
import TaggedHeap.Dispatch.Table
import TaggedHeap.StableHash

/-! The object model: a frozen space, its classifier and its dispatch table. `describe`, `equals` and
`hash` answer for values of the language only, that is for objects whose tag is classified as a
runtime kind; layouts and finalizers serve every kind. What the three answer is the answer of a query
on record. Of two objects that are compared only the first has to be a value, and when their tags
differ they are unequal without a look at either. -/
namespace TaggedHeap

structure ObjectModel (α ω : Type) where
  space : TagSpace
  classifier : Classifier
  dispatch : DispatchTable α ω

namespace ObjectModel

variable {α ω : Type}

def ofTable (dispatch : DispatchTable α ω) : Except Fault (ObjectModel α ω) := do
  let classifier ← Classifier.ofSpace dispatch.space
  return ⟨dispatch.space, classifier, dispatch⟩

def stamp (m : ObjectModel α ω) (t : Tag) : Except Fault Header := Header.stamp m.space t

def classify (m : ObjectModel α ω) (t : Tag) : Except Fault Category := m.classifier.classify t

def isValid (m : ObjectModel α ω) (t : Tag) : Bool := m.classifier.isValid t

def lookup (m : ObjectModel α ω) (t : Tag) : Except Fault (Entry α ω) := m.dispatch.lookup t

def demand {β : Type} (t : Tag) (facility : Facility) : Option β → Except Fault β
  | some part => .ok part
  | none => .error (.missingFacility t facility)

def layoutOf (m : ObjectModel α ω) (t : Tag) : Except Fault Layout := do
  let entry ← m.lookup t
  demand t .layout entry.layout

def nameAt (m : ObjectModel α ω) (t : Tag) : String := (m.space.nameAt t).getD "reserved"

def observe (m : ObjectModel α ω) (query : Query) (o : HeapObject α) :
    Except Fault (Entry α ω) := do
  let category ← m.classify o.tag
  unless category.isObservable do
    throw (.notAValue query o.tag (m.nameAt o.tag) category)
  m.lookup o.tag

def describing (m : ObjectModel α ω) (o : HeapObject α) : Queried α String := do
  let entry ← m.observe .describe o
  let printer ← demand o.tag .printer entry.printer
  match ← Queried.print printer o (m.nameAt o.tag) with
  | some text => return text
  | none => .silent (.error (.printerFailed (m.nameAt o.tag)))

def comparing (m : ObjectModel α ω) (a b : HeapObject α) : Queried α Bool := do
  let entry ← m.observe .equals a
  if a.tag = b.tag then
    let equality ← demand a.tag .equality entry.equality
    Queried.compare equality a b
  else return false

def hashing (m : ObjectModel α ω) (o : HeapObject α) : Queried α Word := do
  let entry ← m.observe .hash o
  let equality ← demand o.tag .hash entry.equality
  let bytes ← Queried.digest equality o
  return ((StableHash.fresh.absorb o.tag.bytes).absorb bytes).finish

def describe (m : ObjectModel α ω) (o : HeapObject α) : Except Fault String :=
  (m.describing o).answer

def equals (m : ObjectModel α ω) (a b : HeapObject α) : Except Fault Bool := (m.comparing a b).answer

def hash (m : ObjectModel α ω) (o : HeapObject α) : Except Fault Word := (m.hashing o).answer

def finalize (m : ObjectModel α ω) (o : HeapObject α) (world : ω) : Except Fault (Bool × ω) := do
  let entry ← m.lookup o.tag
  match entry.finalizer with
  | some action => return (true, action o world)
  | none => return (false, world)

end ObjectModel

end TaggedHeap
