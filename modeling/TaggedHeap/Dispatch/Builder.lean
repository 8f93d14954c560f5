import TaggedHeap.Dispatch.Entry

/-! The dispatch table while it is being filled. Each pair of a kind and an operation is claimed at
most once, by the subsystem whose name the owners keep; a registration that fails changes nothing. -/
namespace TaggedHeap

inductive Registration (α ω : Type) where
  | describe (kind : String) (printer : Printer α)
  | equality (kind : String) (equality : Equality α)
  | scan (kind : String) (layout : Layout)
  | finalizer (kind : String) (finalizer : Finalizer α ω)

namespace Registration

variable {α ω : Type}

def kind : Registration α ω → String
  | describe kind _ | equality kind _ | scan kind _ | finalizer kind _ => kind

def operation : Registration α ω → Operation
  | describe .. => .describe
  | equality .. => .equality
  | scan .. => .scan
  | finalizer .. => .finalizer

def check : Registration α ω → Except Fault Unit
  | scan kind layout => layout.validate.mapError (.invalidLayout (some kind))
  | _ => .ok ()

def put (e : Entry α ω) : Registration α ω → Entry α ω
  | describe _ printer => { e with printer := some printer }
  | equality _ eq => { e with equality := some eq }
  | scan _ layout => { e with layout := some layout }
  | finalizer _ action => { e with finalizer := some action }

theorem putHas (e : Entry α ω) (r : Registration α ω) (op : Operation) :
    (r.put e).has op = (decide (op = r.operation) || e.has op) := by
  cases r <;> cases op <;> simp [put, operation, Entry.has]

end Registration

structure DispatchBuilder (α ω : Type) where
  space : TagSpace
  entries : Array (Entry α ω)
  owners : Array Owners

namespace DispatchBuilder

variable {α ω : Type}

def firstEntry : Slot → Entry α ω
  | .kind .. => Entry.empty
  | .reserved _ => Entry.reserved

def firstOwners : Slot → Owners
  | .kind .. => Owners.none
  | .reserved _ => Owners.core

def ofSpace (s : TagSpace) : Except Fault (DispatchBuilder α ω) := do
  s.requireFrozen .dispatchTable
  return ⟨s, s.slots.map firstEntry, s.slots.map firstOwners⟩

def entryAt (b : DispatchBuilder α ω) (t : Tag) : Entry α ω :=
  (b.entries[t.toNat]?).getD Entry.empty

def ownersAt (b : DispatchBuilder α ω) (t : Tag) : Owners := (b.owners[t.toNat]?).getD Owners.none

def claim (b : DispatchBuilder α ω) (claimant kind : String) (op : Operation) :
    Except Fault (Tag × DispatchBuilder α ω) := do
  let tag ← b.space.tagNamed kind
  match (b.ownersAt tag).get op with
  | some holder => throw (.duplicateRegistration op kind holder claimant)
  | none => return (tag, { b with owners := b.owners.modify tag.toNat (·.set claimant op) })

def perform (b : DispatchBuilder α ω) (claimant : String) (r : Registration α ω) :
    Except Fault (DispatchBuilder α ω) := do
  r.check
  let (tag, claimed) ← b.claim claimant r.kind r.operation
  return { claimed with entries := claimed.entries.modify tag.toNat r.put }

def missing (b : DispatchBuilder α ω) (k : KindInfo) : List Operation :=
  k.category.requiredOperations.filter fun op => !(b.entryAt k.tag).has op

def gap? (b : DispatchBuilder α ω) (k : KindInfo) : Option Gap :=
  match b.missing k with
  | [] => none
  | missing => some ⟨k.tag, k.name, k.category, missing⟩

def gaps (b : DispatchBuilder α ω) : List Gap := b.space.kinds.filterMap b.gap?

end DispatchBuilder

end TaggedHeap
