import TaggedHeap.HeapObject

/-! What a kind can do: print, compare and hash, be sized and traced, be finalized. The functions
belong to subsystems; objects carry a payload `α`, and finalizers act on a world `ω`. A printer is
given the name that the tag was declared with, and gives `none` when it fails. The tags of boundaries
have entries, too, though no object is stamped with them. -/
namespace TaggedHeap

abbrev Printer (α : Type) := HeapObject α → String → Option String

structure Equality (α : Type) where
  equals : HeapObject α → HeapObject α → Bool
  digest : HeapObject α → List UInt8

abbrev Finalizer (α ω : Type) := HeapObject α → ω → ω

def Equality.identity {α : Type} : Equality α where
  equals a b := a.address == b.address
  digest a := a.address.bytes

def Printer.kindName {α : Type} : Printer α := fun _ kind => some ("#<" ++ kind ++ ">")

def Printer.reserved {α : Type} : Printer α := fun _ _ => some "#<reserved>"

structure Entry (α ω : Type) where
  printer : Option (Printer α)
  equality : Option (Equality α)
  layout : Option Layout
  finalizer : Option (Finalizer α ω)

namespace Entry

variable {α ω : Type}

def empty : Entry α ω := ⟨none, none, none, none⟩

def reserved : Entry α ω := ⟨some Printer.reserved, some Equality.identity, some (.atomic 1), none⟩

def has (e : Entry α ω) : Operation → Bool
  | .describe => e.printer.isSome
  | .equality => e.equality.isSome
  | .scan => e.layout.isSome
  | .finalizer => e.finalizer.isSome

def operations (e : Entry α ω) : List Operation := Operation.all.filter e.has

end Entry

structure Owners where
  describe : Option String
  equality : Option String
  scan : Option String
  finalizer : Option String
  deriving DecidableEq, Repr

namespace Owners

def none : Owners := ⟨.none, .none, .none, .none⟩

def coreName : String := "core"

def core : Owners := ⟨some coreName, some coreName, some coreName, .none⟩

def get (o : Owners) : Operation → Option String
  | .describe => o.describe
  | .equality => o.equality
  | .scan => o.scan
  | .finalizer => o.finalizer

def set (o : Owners) (owner : String) : Operation → Owners
  | .describe => { o with describe := some owner }
  | .equality => { o with equality := some owner }
  | .scan => { o with scan := some owner }
  | .finalizer => { o with finalizer := some owner }

theorem getSet (o : Owners) (owner : String) (a b : Operation) :
    (o.set owner a).get b = if b = a then some owner else o.get b := by
  cases a <;> cases b <;> rfl

end Owners

end TaggedHeap
