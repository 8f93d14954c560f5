import Std.Data.TreeMap
import TaggedHeap.Boundaries
import TaggedHeap.Fault

/-! A tag space numbers kinds. Slot `i` belongs to tag `i`: it holds a kind with its category, or a
boundary that reserves it. The name index answers which tag a kind has. Here are the type and its
queries; building and growing a space have modules of their own. -/
namespace TaggedHeap

inductive Slot where
  | kind (name : String) (category : Category)
  | reserved (marker : Boundary)
  deriving DecidableEq, Repr

inductive Lifecycle where
  | built
  | frozen
  deriving DecidableEq, Repr

def Lifecycle.name : Lifecycle → String
  | .built => "built"
  | .frozen => "frozen"

structure KindInfo where
  tag : Tag
  name : String
  category : Category
  deriving DecidableEq, Repr

def Slot.declared (position : Nat) : Slot → Option KindInfo
  | .kind name category => some ⟨UInt32.ofNat position, name, category⟩
  | .reserved _ => none

abbrev NameIndex := Std.TreeMap String Tag

def tagAt (position : Nat) : Except Fault Tag :=
  if position < UInt32.size then .ok (UInt32.ofNat position)
  else .error (.numberingExhausted position)

theorem tagAtOk {position : Nat} {t : Tag} (h : tagAt position = .ok t) :
    position < UInt32.size ∧ t.toNat = position := by
  unfold tagAt at h
  split at h <;> try contradiction
  rename_i fits
  cases h
  exact ⟨fits, by simpa using Nat.mod_eq_of_lt fits⟩

def NameIndex.declare (names : NameIndex) (name : String) (tag : Tag) : Except Fault NameIndex :=
  match names[name]? with
  | some first => .error (.duplicateKind name first tag)
  | none => .ok (names.insert name tag)

structure TagSpace where
  slots : Array Slot
  names : NameIndex
  values : Tag
  compiledValues : Tag
  lastNormal : Tag
  internalTier : Bool
  lifecycle : Lifecycle

namespace TagSpace

def size (s : TagSpace) : Nat := s.slots.size

def isEmpty (s : TagSpace) : Bool := s.slots.isEmpty

def last (s : TagSpace) : Tag := UInt32.ofNat s.slots.size

def boundaries (s : TagSpace) : Boundaries := ⟨s.values, s.compiledValues, s.lastNormal, s.last⟩

def isFrozen (s : TagSpace) : Bool := s.lifecycle == .frozen

def freeze (s : TagSpace) : TagSpace := { s with lifecycle := .frozen }

theorem freezeFreeze (s : TagSpace) : s.freeze.freeze = s.freeze := rfl

def requireGrowing (s : TagSpace) : Except Fault Unit :=
  if s.isFrozen then .error .spaceFrozen else .ok ()

def requireFrozen (s : TagSpace) (wanted : Derived) : Except Fault Unit :=
  if s.isFrozen then .ok () else .error (.spaceNotFrozen wanted)

def slotAt (s : TagSpace) (t : Tag) : Option Slot := s.slots[t.toNat]?

def isValid (s : TagSpace) (t : Tag) : Bool := t.toNat < s.slots.size

def markerAt (s : TagSpace) (t : Tag) : Option Boundary :=
  match s.slotAt t with
  | some (.reserved marker) => some marker
  | _ => none

def isReserved (s : TagSpace) (t : Tag) : Bool := (s.markerAt t).isSome

def kindAt (s : TagSpace) (t : Tag) : Option KindInfo :=
  match s.slotAt t with
  | some (.kind name category) => some ⟨t, name, category⟩
  | _ => none

def nameAt (s : TagSpace) (t : Tag) : Option String :=
  match s.slotAt t with
  | some (.kind name _) => some name
  | _ => none

def tagNamed (s : TagSpace) (name : String) : Except Fault Tag :=
  match s.names[name]? with
  | some t => .ok t
  | none => .error (.unknownKindName name)

def kinds (s : TagSpace) : List KindInfo :=
  s.slots.toList.zipIdx.filterMap fun (slot, position) => slot.declared position

end TagSpace

end TaggedHeap
