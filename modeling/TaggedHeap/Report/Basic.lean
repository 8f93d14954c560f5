import TaggedHeap.ObjectModel.Basic
import TaggedHeap.Standard.Ranges

/-! Reports on a tag space, a tag, a dispatch entry and the completeness of a dispatch table. -/
namespace TaggedHeap

structure ReservedRow where
  tag : Tag
  marker : Boundary
  deriving DecidableEq, Repr

structure NamedRange where
  name : String
  range : KindRange
  kinds : Nat
  deriving DecidableEq, Repr

def NamedRange.of (name : String) (range : KindRange) : NamedRange := ⟨name, range, range.count⟩

def Standard.Ranges.rows (r : Standard.Ranges) : List NamedRange :=
  [.of "procedure" r.procedure, .of "procedure-or-struct" r.procedureOrStruct,
   .of "number" r.number]

def TagSpace.reservedRows (s : TagSpace) : List ReservedRow :=
  (List.range s.last.toNat).filterMap fun position =>
    let tag := UInt32.ofNat position
    (s.markerAt tag).map (⟨tag, ·⟩)

structure CatalogReport where
  internalTier : Bool
  boundaries : Boundaries
  kinds : List KindInfo
  reserved : List ReservedRow
  ranges : List NamedRange
  deriving DecidableEq, Repr

def CatalogReport.ofSpace (s : TagSpace) (ranges : Option Standard.Ranges)
    (only : Option Category) : CatalogReport where
  internalTier := s.internalTier
  boundaries := s.boundaries
  kinds := s.kinds.filter fun k => only.all (k.category == ·)
  reserved := s.reservedRows
  ranges := (ranges.map (·.rows)).getD []

structure ClassifyReport where
  ok : Bool
  tag : Tag
  name : Option String
  category : Option Category
  error : Option String
  deriving DecidableEq, Repr

def ClassifyReport.ofAnswer (s : TagSpace) (t : Tag) :
    Except String Category → ClassifyReport
  | .ok category => ⟨true, t, s.nameAt t, some category, none⟩
  | .error text => ⟨false, t, s.nameAt t, none, some text⟩

structure LookupReport where
  ok : Bool
  tag : Tag
  name : Option String
  operations : List Operation
  layout : Option Layout
  error : Option String
  deriving DecidableEq, Repr

def LookupReport.ofAnswer {α ω : Type} (s : TagSpace) (t : Tag) :
    Except String (Entry α ω) → LookupReport
  | .ok entry => ⟨true, t, s.nameAt t, entry.operations, entry.layout, none⟩
  | .error text => ⟨false, t, s.nameAt t, [], none, some text⟩

structure CheckReport where
  ok : Bool
  internalTier : Bool
  kinds : Nat
  boundaries : Boundaries
  gaps : List Gap
  deriving DecidableEq, Repr

def CheckReport.ofGaps (s : TagSpace) (gaps : List Gap) : CheckReport where
  ok := gaps.isEmpty
  internalTier := s.internalTier
  kinds := s.kinds.length
  boundaries := s.boundaries
  gaps := gaps

namespace ObjectModel

variable {α ω : Type}

def classifyReport (m : ObjectModel α ω) (t : Tag) : ClassifyReport :=
  .ofAnswer m.space t ((m.classify t).mapError Fault.text)

def lookupReport (m : ObjectModel α ω) (t : Tag) : LookupReport :=
  .ofAnswer m.space t ((m.lookup t).mapError Fault.text)

end ObjectModel

end TaggedHeap
