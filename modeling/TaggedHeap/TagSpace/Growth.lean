import TaggedHeap.Catalog
import TaggedHeap.TagSpace.Basic

/-! How a space grows until it is frozen: runtime kinds register one at a time at the end of the
numbering; after them a tier of internal kinds is appended as a whole. The end of the runtime kinds is
numbered when a kind that registers is in its slot already, so that the kind stays where there is no
tag left for that end. -/
namespace TaggedHeap

namespace TagSpace

def accept (s : TagSpace) (k : Declaration) : Except Fault (Tag × NameIndex) := do
  s.requireGrowing
  unless k.category = .runtimeKind do throw (.notRuntimeKind k.name k.category)
  unless s.slots.size = s.lastNormal.toNat do throw (.afterInternalKinds k.name)
  let tag ← tagAt s.slots.size
  let names ← s.names.declare k.name tag
  return (tag, names)

def register (s : TagSpace) (k : Declaration) : Except Fault Tag × TagSpace :=
  match s.accept k with
  | .error fault => (.error fault, s)
  | .ok (tag, names) =>
    let grown := { s with names, slots := s.slots.push (.kind k.name .runtimeKind) }
    match tagAt grown.slots.size with
    | .error fault => (.error fault, grown)
    | .ok lastNormal => (.ok tag, { grown with lastNormal })

def addInternal (s : TagSpace) (name : String) : Except Fault TagSpace := do
  s.requireGrowing
  let tag ← tagAt s.slots.size
  let names ← s.names.declare name tag
  return { s with names, slots := s.slots.push (.kind name .internalOnly) }

def firstTaken (s : TagSpace) (seen : List String) : List String → Option String
  | [] => none
  | name :: rest =>
    if seen.contains name || s.names.contains name then some name
    else s.firstTaken (name :: seen) rest

def append (s : TagSpace) (offered : List String) : Except Fault TagSpace := do
  s.requireGrowing
  unless s.internalTier do throw (.internalTierDisabled offered.length)
  match s.firstTaken [] offered with
  | some name => throw (.duplicateInternalKind name)
  | none => offered.foldlM addInternal s

end TagSpace

structure InternalTier where
  names : List String
  deriving DecidableEq, Repr

namespace InternalTier

def empty : InternalTier := ⟨[]⟩

def push (tier : InternalTier) (name : String) : InternalTier := ⟨tier.names ++ [name]⟩

def size (tier : InternalTier) : Nat := tier.names.length

def isEmpty (tier : InternalTier) : Bool := tier.names.isEmpty

def first? (tier : InternalTier) : Option String := tier.names.head?

def appendTo (tier : InternalTier) (s : TagSpace) : Except Fault TagSpace := s.append tier.names

end InternalTier

end TaggedHeap
