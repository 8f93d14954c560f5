import TaggedHeap.ObjectModel.Basic

/-! A flat heap of words. An object starts with a header word, which is its tag; the image of an
object is the heap from there to its end, so it may hold later objects too. A header that is too large
for a tag is damage, and so is a pointer to where there is no word, null apart. A collector reads
strictly and stops there. A lenient reading, for those who only look, takes the low half of the header
and passes over the pointer. Each fault but the first says where the object in question starts. -/
namespace TaggedHeap

structure WordHeap where
  words : List Word
  deriving DecidableEq, Repr

inductive HeapFault where
  | faulted (fault : Fault)
  | beyond (start : Nat)
  | untagged (start : Nat)
  | truncated (start : Nat)
  | stalled (start : Nat)
  | outside (start : Nat)
  deriving DecidableEq, Repr

namespace WordHeap

variable {α ω : Type}

def empty : WordHeap := ⟨[]⟩

def size (h : WordHeap) : Nat := h.words.length

def imageAt (h : WordHeap) (start : Nat) : List Word := h.words.drop start

inductive Reading where
  | strict
  | lenient
  deriving DecidableEq, Repr

def null : Word := 0xffffffffffffffff

def nowhere (r : Reading) (h : WordHeap) (w : Word) : Bool :=
  match r with
  | .strict => w == null
  | .lenient => h.size ≤ w.toNat

def tagOfWord (r : Reading) (w : Word) : Option Tag :=
  match r with
  | .strict => if w.toNat < UInt32.size then some w.toUInt32 else none
  | .lenient => some w.toUInt32

def wordOfTag (t : Tag) : Word := t.toUInt64

theorem tagOfWordOfTag (r : Reading) (t : Tag) : tagOfWord r (wordOfTag t) = some t := by
  have small : t.toNat < UInt32.size := t.toNat_lt
  cases r <;> simp [tagOfWord, small, wordOfTag]

theorem wordOfTagInjective {t u : Tag} (same : wordOfTag t = wordOfTag u) : t = u := by
  have tags := congrArg (tagOfWord .lenient) same
  rw [tagOfWordOfTag, tagOfWordOfTag] at tags
  exact Option.some.inj tags

def layoutAt (r : Reading) (m : ObjectModel α ω) (start : Nat) (tagWord : Word) :
    Except HeapFault Layout :=
  match tagOfWord r tagWord with
  | none => .error (.untagged start)
  | some t => (m.layoutOf t).mapError .faulted

def allocate (m : ObjectModel α ω) (h : WordHeap) (kind : String) (payload : List Word) :
    Except Fault (Nat × WordHeap) := do
  let tag ← m.space.tagNamed kind
  let header ← m.stamp tag
  return (h.size, ⟨h.words ++ wordOfTag header.tag :: payload⟩)

end WordHeap

end TaggedHeap
