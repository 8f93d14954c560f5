import TaggedHeap.Layout
import TaggedHeap.Operation
import TaggedHeap.Text.Quoted

/-! Everything that can go wrong. A `Fault` names the cause with the values that matter; its kind and
its wording follow from the cause. A `Diagnostic` is a kind with a finished wording, which is all
that a subsystem's own failure has to show. Faults of the build end the start-up; those at run time
mean a damaged heap or a caller's mistake. -/
namespace TaggedHeap

open Text (quoted)

inductive FaultKind where
  | duplicateKind
  | alreadyFrozen
  | notFrozen
  | misplacedKind
  | missingBoundary
  | extensionDisabled
  | invalidDescriptor
  | duplicateRegistration
  | unknownKindName
  | incompleteDispatch
  | alreadyInstalled
  | unknownTag
  | invalidKind
  | wrongCategory
  | printerFailed
  deriving DecidableEq, Repr

inductive Phase where
  | buildTime
  | runtime
  deriving DecidableEq, Repr

namespace FaultKind

def all : List FaultKind :=
  [.duplicateKind, .alreadyFrozen, .notFrozen, .misplacedKind, .missingBoundary,
   .extensionDisabled, .invalidDescriptor, .duplicateRegistration, .unknownKindName,
   .incompleteDispatch, .alreadyInstalled, .unknownTag, .invalidKind, .wrongCategory,
   .printerFailed]

theorem memAll (k : FaultKind) : k ∈ all := by cases k <;> decide

def name : FaultKind → String
  | .duplicateKind => "duplicate-kind"
  | .alreadyFrozen => "already-frozen"
  | .notFrozen => "not-frozen"
  | .misplacedKind => "misplaced-kind"
  | .missingBoundary => "missing-boundary"
  | .extensionDisabled => "extension-disabled"
  | .invalidDescriptor => "invalid-descriptor"
  | .duplicateRegistration => "duplicate-registration"
  | .unknownKindName => "unknown-kind-name"
  | .incompleteDispatch => "incomplete-dispatch"
  | .alreadyInstalled => "already-installed"
  | .unknownTag => "unknown-tag"
  | .invalidKind => "invalid-kind"
  | .wrongCategory => "wrong-category"
  | .printerFailed => "printer-failed"

def phase : FaultKind → Phase
  | .unknownTag | .invalidKind | .wrongCategory | .printerFailed => .runtime
  | _ => .buildTime

def ofName? (s : String) : Option FaultKind := all.find? (·.name == s)

end FaultKind

def Phase.name : Phase → String
  | .buildTime => "build-time"
  | .runtime => "runtime"

structure Diagnostic where
  kind : FaultKind
  message : String
  deriving DecidableEq, Repr

def Diagnostic.text (d : Diagnostic) : String := d.kind.name ++ ": " ++ d.message

inductive Derived where
  | objectHeader
  | classifier
  | dispatchTable
  deriving DecidableEq, Repr

def Derived.name : Derived → String
  | .objectHeader => "object header"
  | .classifier => "category classifier"
  | .dispatchTable => "dispatch table"

inductive Query where
  | describe
  | equals
  | hash
  deriving DecidableEq, Repr

def Query.name : Query → String
  | .describe => "describe"
  | .equals => "equals"
  | .hash => "hash"

inductive Facility where
  | printer
  | equality
  | hash
  | layout
  deriving DecidableEq, Repr

def Facility.name : Facility → String
  | .printer => "printer"
  | .equality => "equality"
  | .hash => "hash"
  | .layout => "scan descriptor"

inductive Fault where
  | duplicateKind (name : String) (first again : Tag)
  | duplicateInternalKind (name : String)
  | spaceFrozen
  | spaceNotFrozen (wanted : Derived)
  | boundaryOutOfOrder (marker : Boundary) (position : Tag)
  | kindOutOfRange (declared : String) (category : Category) (position : Tag) (current : Category)
  | notRuntimeKind (name : String) (category : Category)
  | afterInternalKinds (name : String)
  | numberingExhausted (position : Nat)
  | missingBoundary (marker : Boundary)
  | internalTierDisabled (offered : Nat)
  | invertedRange (first last : String) (start stop : Tag)
  | mixedRange (first last : String)
  | invalidLayout (kind : Option String) (reason : LayoutFault)
  | duplicateRegistration (operation : Operation) (kind holder claimant : String)
  | unknownKindName (name : String)
  | incompleteDispatch (gaps : List Gap)
  | missingFacility (tag : Tag) (facility : Facility)
  | alreadyInstalled
  | unknownTag (tag last : Tag)
  | noEntry (tag : Tag) (entries : Nat)
  | tagOutside (tag last : Tag)
  | tagReserved (tag : Tag) (marker : Boundary)
  | notAValue (query : Query) (tag : Tag) (kind : String) (category : Category)
  | printerFailed (kind : String)
  | raised (diagnostic : Diagnostic)
  deriving DecidableEq, Repr

namespace Fault

def kind : Fault → FaultKind
  | duplicateKind .. | duplicateInternalKind .. => .duplicateKind
  | spaceFrozen => .alreadyFrozen
  | spaceNotFrozen .. => .notFrozen
  | boundaryOutOfOrder .. | kindOutOfRange .. | notRuntimeKind .. | afterInternalKinds ..
  | numberingExhausted .. | invertedRange .. | mixedRange .. => .misplacedKind
  | missingBoundary .. => .missingBoundary
  | internalTierDisabled .. => .extensionDisabled
  | invalidLayout .. => .invalidDescriptor
  | duplicateRegistration .. => .duplicateRegistration
  | unknownKindName .. => .unknownKindName
  | incompleteDispatch .. | missingFacility .. => .incompleteDispatch
  | alreadyInstalled => .alreadyInstalled
  | unknownTag .. | noEntry .. => .unknownTag
  | tagOutside .. | tagReserved .. => .invalidKind
  | notAValue .. => .wrongCategory
  | printerFailed .. => .printerFailed
  | raised diagnostic => diagnostic.kind

def message : Fault → String
  | duplicateKind name first again =>
    "kind " ++ quoted name ++ s!" declared at {first} and again at {again}"
  | duplicateInternalKind name => "internal kind " ++ quoted name ++ " is already declared"
  | spaceFrozen => "tag space is frozen"
  | spaceNotFrozen wanted => wanted.name ++ " can only be derived from a frozen tag space"
  | boundaryOutOfOrder marker position =>
    "boundary " ++ marker.name ++ s!" at position {position} is out of order"
  | kindOutOfRange declared category position current =>
    "kind " ++ quoted declared ++ " is declared " ++ category.name ++
      s!" but position {position} lies in the " ++ current.name ++ " range"
  | notRuntimeKind name category =>
    "only runtime kinds can be registered after build, got " ++ category.name ++ " for " ++
      quoted name
  | afterInternalKinds name =>
    "cannot register " ++ quoted name ++ " after internal kinds were appended"
  | numberingExhausted position => s!"catalog position {position} does not fit a tag"
  | missingBoundary marker => "catalog has no " ++ marker.name ++ " boundary"
  | internalTierDisabled offered =>
    s!"tag space was built without internal tags ({offered} internal kinds offered)"
  | invertedRange first last start stop =>
    "range " ++ quoted first ++ " ..= " ++ quoted last ++ s!" is inverted ({start} > {stop})"
  | mixedRange first last =>
    "range " ++ quoted first ++ " ..= " ++ quoted last ++ " crosses a category boundary"
  | invalidLayout none reason => reason.message
  | invalidLayout (some kind) reason => "kind " ++ quoted kind ++ ": " ++ reason.message
  | duplicateRegistration operation kind holder claimant =>
    operation.name ++ " for kind " ++ quoted kind ++ " registered by both " ++ quoted holder ++
      " and " ++ quoted claimant
  | unknownKindName name => "no kind named " ++ quoted name
  | incompleteDispatch gaps =>
    toString gaps.length ++ " kind(s) lack required operations:\n" ++
      "\n".intercalate (gaps.map fun g => "  - " ++ g.message)
  | missingFacility tag facility => s!"tag {tag} has no " ++ facility.name
  | alreadyInstalled => "a process-wide object model is already installed"
  | unknownTag tag last => s!"tag {tag} is outside [0, {last})"
  | noEntry tag entries => s!"no dispatch entry for tag {tag}: outside [0, {entries})"
  | tagOutside tag last => s!"cannot allocate tag {tag}: outside [0, {last})"
  | tagReserved tag marker =>
    s!"cannot allocate tag {tag}: reserved for the " ++ marker.name ++ " boundary"
  | notAValue query tag kind category =>
    query.name ++ s!" of tag {tag} (" ++ kind ++ "): " ++ category.name ++
      " objects are not language values"
  | printerFailed kind => "printer for " ++ kind ++ " failed"
  | raised diagnostic => diagnostic.message

def diagnostic (f : Fault) : Diagnostic := ⟨f.kind, f.message⟩

def phase (f : Fault) : Phase := f.kind.phase

def text (f : Fault) : String := f.diagnostic.text

end Fault

end TaggedHeap
