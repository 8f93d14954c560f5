import TaggedHeap.Word

/-! Layouts tell the size of an object and its pointer fields from the object's own words.
`validate` is the test that a layout passes before any collector sees it; `objectSize` and `trace`
answer for every layout and every image. An `array` has `lead` words, its header and its length among
them, and then as many elements as the length says; they hold pointers where it is `traced`. -/
namespace TaggedHeap

inductive Layout where
  | atomic (words : Word)
  | fixed (words : Word) (pointers : List Word)
  | array (lead lengthWord : Word) (traced : Bool)
  deriving DecidableEq, Repr

inductive LayoutFault where
  | atomicWithoutHeader
  | fixedWithoutHeader
  | pointerOffset (offset words : Word)
  | lengthWord (position lead : Word)
  deriving DecidableEq, Repr

def LayoutFault.message : LayoutFault → String
  | .atomicWithoutHeader => "atomic layout has no header word"
  | .fixedWithoutHeader => "fixed layout has no header word"
  | .pointerOffset offset words =>
    s!"pointer offset {offset} must be increasing and inside 1..{words}"
  | .lengthWord position lead => s!"length word {position} must be inside 1..{lead}"

structure Trace where
  size : Option Word
  visited : List Word
  deriving DecidableEq, Repr

namespace Layout

def checkPointers (words : Word) : Word → List Word → Except LayoutFault Unit
  | _, [] => .ok ()
  | last, offset :: rest =>
    if offset ≤ last || offset ≥ words then .error (.pointerOffset offset words)
    else checkPointers words offset rest

def validate : Layout → Except LayoutFault Unit
  | .atomic words => if words = 0 then .error .atomicWithoutHeader else .ok ()
  | .fixed words pointers =>
    if words = 0 then .error .fixedWithoutHeader else checkPointers words 0 pointers
  | .array lead lengthWord _ =>
    if lengthWord = 0 || lengthWord ≥ lead then .error (.lengthWord lengthWord lead) else .ok ()

def isAtomic : Layout → Bool
  | .atomic _ => true
  | .fixed _ pointers => pointers.isEmpty
  | .array _ _ traced => !traced

def claimedSize (image : List Word) : Layout → Option Word
  | .atomic words | .fixed words _ => some words
  | .array lead lengthWord _ => do checkedAdd lead (← image[lengthWord.toNat]?)

def objectSize (l : Layout) (image : List Word) : Option Word :=
  (l.claimedSize image).filter fun size => size.toNat ≤ image.length

def span (first stop : Word) : List Word :=
  (List.range' first.toNat (stop.toNat - first.toNat)).map UInt64.ofNat

def pointerFields (size : Word) : Layout → List Word
  | .atomic _ => []
  | .fixed _ pointers => pointers
  | .array lead _ traced => if traced then span lead size else []

def trace (l : Layout) (image : List Word) : Trace :=
  match l.objectSize image with
  | none => ⟨none, []⟩
  | some size => ⟨some size, l.pointerFields size⟩

theorem traceSize (l : Layout) (image : List Word) :
    (l.trace image).size = l.objectSize image := by
  unfold trace; split <;> simp_all

end Layout

end TaggedHeap
