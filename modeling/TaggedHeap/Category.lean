import TaggedHeap.Text.Blank

/-! The four categories of tags, in the order of their ranges, and the two boundaries that take a
slot of their own. -/
namespace TaggedHeap

inductive Category where
  | compiledSyntaxForm
  | registeredValueOrSlot
  | runtimeKind
  | internalOnly
  deriving DecidableEq, Repr

def Category.all : List Category :=
  [.compiledSyntaxForm, .registeredValueOrSlot, .runtimeKind, .internalOnly]

theorem Category.memAll (c : Category) : c ∈ Category.all := by cases c <;> decide

def Category.name : Category → String
  | .compiledSyntaxForm => "compiled-syntax-form"
  | .registeredValueOrSlot => "registered-value-or-slot"
  | .runtimeKind => "runtime-kind"
  | .internalOnly => "internal-only"

def Category.rank : Category → Nat
  | .compiledSyntaxForm => 0
  | .registeredValueOrSlot => 1
  | .runtimeKind => 2
  | .internalOnly => 3

instance : LE Category := ⟨fun a b => a.rank ≤ b.rank⟩
instance : LT Category := ⟨fun a b => a.rank < b.rank⟩
instance (a b : Category) : Decidable (a ≤ b) := inferInstanceAs (Decidable (a.rank ≤ b.rank))
instance (a b : Category) : Decidable (a < b) := inferInstanceAs (Decidable (a.rank < b.rank))

def Category.isObservable (c : Category) : Bool := c == .runtimeKind

def Category.ofName? (s : String) : Option Category := Category.all.find? (·.name == s)

theorem Category.ofNameName (c : Category) : Category.ofName? c.name = some c := by
  cases c <;> decide

def Category.parse (s : String) : Option Category := Category.ofName? (Text.trim s)

inductive Boundary where
  | values
  | compiledValues
  deriving DecidableEq, Repr

def Boundary.name : Boundary → String
  | .values => "values"
  | .compiledValues => "compiled-values"

def Boundary.opens : Boundary → Category
  | .values => .registeredValueOrSlot
  | .compiledValues => .runtimeKind

end TaggedHeap
