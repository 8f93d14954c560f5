import TaggedHeap.Proofs.Dispatch.Ordering
import TaggedHeap.Proofs.Space.Refusal
import TaggedHeap.Proofs.Space.Ranges
import TaggedHeap.Report.Basic

/-! The operations together with the checks that they make on themselves: a position has to lie inside
its array, a sum has to fit a tag, an assertion has to hold. A check that fails is a breach, and that is
no fault which anyone could handle. Over a reachable space that is not full there is none: each guarded
operation gives what the plain one gives. -/
namespace TaggedHeap

inductive Breach where
  | disordered (bounds : Boundaries)
  | misfiled (kind : KindInfo)
  | outside (position size : Nat)
  | overflow (tag : Tag)
  | underflow (range : KindRange)
  deriving DecidableEq, Repr

abbrev Guarded : Type → Type := Except Breach

abbrev Attempt (α : Type) : Type := ExceptT Fault Guarded α

namespace Guarded

variable {α ω β γ : Type}

def ensure (holds : Bool) (breach : Breach) : Guarded Unit :=
  if holds then .ok () else .error breach

def fetch (cells : Array β) (position : Nat) : Guarded β :=
  match cells[position]? with
  | some cell => .ok cell
  | none => .error (.outside position cells.size)

def store (cells : Array β) (position : Nat) (change : β → β) : Guarded (Array β) :=
  if position < cells.size then .ok (cells.modify position change)
  else .error (.outside position cells.size)

def plain (outcome : Except Fault β) : Attempt β := ExceptT.mk (.ok outcome)

def checked (result : Guarded β) : Attempt β := ExceptT.lift result

theorem ensured {holds : Bool} {breach : Breach} (passes : holds = true) :
    ensure holds breach = .ok () := if_pos passes

theorem fetched {cells : Array β} {position : Nat} {cell : β} (found : cells[position]? = some cell) :
    fetch cells position = .ok cell := by
  rw [fetch, found]

theorem stored {cells : Array β} {position : Nat} {change : β → β}
    (inside : position < cells.size) :
    store cells position change = .ok (cells.modify position change) := if_pos inside

theorem plainThen {first : Except Fault β} {attempt : Attempt β} {next : β → Attempt γ}
    {after : β → Except Fault γ} (same : attempt = plain first)
    (each : ∀ a, first = .ok a → next a = plain (after a)) :
    (attempt >>= next) = plain (first >>= after) := by
  subst same
  cases first with
  | error fault => rfl
  | ok a => exact each a rfl

theorem checkedThen {result : Guarded β} {a : β} {next : β → Attempt γ} (holds : result = .ok a) :
    (checked result >>= next) = next a := by
  subst holds
  rfl

theorem plainChecked {outcome : Except Fault β} {check : β → Guarded Unit}
    (holds : ∀ a, outcome = .ok a → check a = .ok ()) :
    (plain outcome >>= fun a => checked (check a) >>= fun _ => pure a) = plain outcome := by
  cases outcome with
  | error fault => rfl
  | ok a => exact checkedThen (holds a rfl)

def build (catalog : Catalog) (internalTier : Bool) : Attempt TagSpace := do
  let s ← plain (TagSpace.build catalog internalTier)
  checked (ensure s.boundaries.isOrdered (.disordered s.boundaries))
  return s

def classifier (s : TagSpace) : Attempt Classifier := do
  let c ← plain (Classifier.ofSpace s)
  checked (ensure c.bounds.isOrdered (.disordered c.bounds))
  return c

def increment (t : Tag) : Guarded Tag :=
  if t.toNat + 1 < UInt32.size then .ok (t + 1) else .error (.overflow t)

def range (s : TagSpace) (first last : String) : Attempt KindRange := do
  let start ← plain (s.tagNamed first)
  let stop ← plain (s.tagNamed last)
  if start > stop then throw (.invertedRange first last start stop)
  if (s.kindAt start).map (·.category) = (s.kindAt stop).map (·.category) then
    return ⟨start, ← checked (increment stop)⟩
  throw (.mixedRange first last)

def count (r : KindRange) : Guarded Nat :=
  if r.start ≤ r.stop then .ok r.count else .error (.underflow r)

def named (name : String) (r : KindRange) : Guarded NamedRange := do
  return ⟨name, r, ← count r⟩

def rows (ranges : Standard.Ranges) : Guarded (List NamedRange) := do
  return [← named "procedure" ranges.procedure,
    ← named "procedure-or-struct" ranges.procedureOrStruct, ← named "number" ranges.number]

def catalogReport (s : TagSpace) (ranges : Option Standard.Ranges) (only : Option Category) :
    Guarded CatalogReport := do
  match ranges with
  | none => return .ofSpace s none only
  | some ranges => return { CatalogReport.ofSpace s none only with ranges := ← rows ranges }

def fill (s : TagSpace) (cells : Array (Entry α ω) × Array Owners) (position : Nat) :
    Guarded (Array (Entry α ω) × Array Owners) :=
  if s.isReserved (UInt32.ofNat position) then do
    let entries ← store cells.1 position fun _ => Entry.reserved
    let owners ← store cells.2 position fun _ => Owners.core
    return (entries, owners)
  else return cells

def builder (s : TagSpace) : Attempt (DispatchBuilder α ω) := do
  plain (s.requireFrozen .dispatchTable)
  let (entries, owners) ← checked ((List.range s.size).foldlM (fill s)
    (Array.replicate s.size Entry.empty, Array.replicate s.size Owners.none))
  return ⟨s, entries, owners⟩

def claim (b : DispatchBuilder α ω) (claimant kind : String) (op : Operation) :
    Attempt (Tag × DispatchBuilder α ω) := do
  let tag ← plain (b.space.tagNamed kind)
  let held ← checked (fetch b.owners tag.toNat)
  match held.get op with
  | some holder => throw (.duplicateRegistration op kind holder claimant)
  | none =>
    let owners ← checked (store b.owners tag.toNat (·.set claimant op))
    return (tag, { b with owners })

def perform (b : DispatchBuilder α ω) (claimant : String) (r : Registration α ω) :
    Attempt (DispatchBuilder α ω) := do
  plain r.check
  let (tag, claimed) ← claim b claimant r.kind r.operation
  let entries ← checked (store claimed.entries tag.toNat r.put)
  return { claimed with entries }

def run (claimant : String) : Program α ω → DispatchBuilder α ω →
    Guarded (Except Fault Unit × DispatchBuilder α ω)
  | .done outcome, b => .ok (outcome, b)
  | .step r next, b => do
    match ← (perform b claimant r).run with
    | .ok after => run claimant (next (.ok ())) after
    | .error fault => run claimant (next (.error fault)) b

def install (b : DispatchBuilder α ω) (x : Subsystem α ω) :
    Guarded (Except Fault Unit × DispatchBuilder α ω) := do
  match ← run x.name (x.program b.space) b with
  | (.ok (), after) => return (.ok (), after)
  | (.error fault, after) =>
    return (.error fault, { after with entries := b.entries, owners := b.owners })

def gap? (b : DispatchBuilder α ω) (k : KindInfo) : Guarded (Option Gap) := do
  let ends := b.space.boundaries.ends k.category
  ensure (ends.1 ≤ k.tag && k.tag < ends.2) (.misfiled k)
  let entry ← fetch b.entries k.tag.toNat
  match k.category.requiredOperations.filter fun op => !entry.has op with
  | [] => return none
  | missing => return some ⟨k.tag, k.name, k.category, missing⟩

def gaps (b : DispatchBuilder α ω) : Guarded (List Gap) := do
  return (← b.space.kinds.mapM (gap? b)).filterMap id

def finish (b : DispatchBuilder α ω) : Attempt (DispatchTable α ω) := do
  match ← checked (gaps b) with
  | [] => return ⟨b.space, b.entries⟩
  | gaps => throw (.incompleteDispatch gaps)

section Spaces

variable {s : TagSpace}

theorem buildPlain (catalog : Catalog) (internalTier : Bool) :
    build catalog internalTier = plain (TagSpace.build catalog internalTier) := by
  refine plainChecked fun s built => ensured ?_
  have room : s.slots.size < UInt32.size := by
    rw [TagSpace.builtAtEnd built]
    exact s.lastNormal.toNat_lt
  exact TagSpace.partitionedOrdered ((builtSound built).1.partitioned room) room

theorem classifierPlain (sound : s.Sound) (room : s.slots.size < UInt32.size) :
    classifier s = plain (Classifier.ofSpace s) := by
  refine plainChecked fun c derived => ensured ?_
  obtain ⟨_, rfl⟩ := Classifier.ofSpaceIff.mp derived
  exact TagSpace.partitionedOrdered (sound.partitioned room) room

theorem rangePlain (sound : s.Sound) (room : s.slots.size < UInt32.size) (first last : String) :
    range s first last = plain (s.range first last) := by
  refine plainThen rfl fun start _ => plainThen rfl fun stop named => ?_
  have inside : increment stop = .ok (stop + 1) := by
    obtain ⟨category, found⟩ := TagSpace.nameSlot.mp ((TagSpace.namedIff sound.indexed).mp named)
    have below := (Array.getElem?_eq_some_iff.mp found).1
    exact if_pos (Nat.lt_of_le_of_lt below room)
  dsimp only
  split
  · rfl
  · split
    · rw [checkedThen inside]
      rfl
    · rfl

theorem rangedForward (sound : s.Sound) (room : s.slots.size < UInt32.size) {first last : String}
    {r : KindRange} (ok : s.range first last = .ok r) : r.start ≤ r.stop := by
  obtain ⟨t, u, category, joins, rfl⟩ := (TagSpace.rangedIff sound.indexed).mp ok
  have unwrapped := (TagSpace.joinedHolds (sound.partitioned room) room joins).unwrapped
  have inOrder := UInt32.le_iff_toNat_le.mp joins.inOrder
  exact UInt32.le_iff_toNat_le.mpr (unwrapped ▸ Nat.le_succ_of_le inOrder)

theorem countPlain {r : KindRange} (forward : r.start ≤ r.stop) : count r = .ok r.count :=
  if_pos forward

structure Forward (ranges : Standard.Ranges) : Prop where
  procedure : ranges.procedure.start ≤ ranges.procedure.stop
  procedureOrStruct : ranges.procedureOrStruct.start ≤ ranges.procedureOrStruct.stop
  number : ranges.number.start ≤ ranges.number.stop

theorem rowsPlain {ranges : Standard.Ranges} (forward : Forward ranges) :
    rows ranges = .ok ranges.rows := by
  rw [rows, named, named, named, countPlain forward.procedure, countPlain forward.procedureOrStruct,
    countPlain forward.number]
  rfl

theorem catalogPlain {ranges : Option Standard.Ranges} (only : Option Category)
    (forward : ∀ given, ranges = some given → Forward given) :
    catalogReport s ranges only = .ok (.ofSpace s ranges only) := by
  cases ranges with
  | none => rfl
  | some given =>
    rw [catalogReport, rowsPlain (forward given rfl)]
    rfl

end Spaces

section Builders

variable {s : TagSpace} {b : DispatchBuilder α ω}

def leading (first : Slot → β) (blank : β) (slots : Array Slot) (filled : Nat) : Array β :=
  slots.mapIdx fun i slot => if i < filled then first slot else blank

section Leading

variable {first : Slot → β} {blank : β} {slots : Array Slot} {filled : Nat} {slot : Slot}

theorem leadingNone : leading first blank slots 0 = Array.replicate slots.size blank := by
  refine Array.ext_getElem? fun i => ?_
  simp only [leading, Array.getElem?_mapIdx, Array.getElem?_replicate, Nat.not_lt_zero, if_false]
  by_cases inside : i < slots.size <;> simp [inside]

theorem leadingAll : leading first blank slots slots.size = slots.map first := by
  refine Array.ext_getElem? fun i => ?_
  by_cases inside : i < slots.size <;> simp [leading, inside]

theorem leadingStored (here : slots[filled]? = some slot) :
    (leading first blank slots filled).modify filled (fun _ => first slot) =
      leading first blank slots (filled + 1) := by
  refine Array.ext_getElem? fun i => ?_
  simp only [leading, Array.getElem?_modify, Array.getElem?_mapIdx]
  by_cases same : filled = i
  · subst same
    simp [here]
  · have step : i < filled + 1 ↔ i < filled := by omega
    simp [same, step]

theorem leadingBlank (here : slots[filled]? = some slot) (same : first slot = blank) :
    leading first blank slots filled = leading first blank slots (filled + 1) := by
  refine Array.ext_getElem? fun i => ?_
  simp only [leading, Array.getElem?_mapIdx]
  by_cases last : i = filled
  · subst last
    simp [here, same]
  · have step : i < filled + 1 ↔ i < filled := by omega
    simp [step]

end Leading

def filledTo (slots : Array Slot) (filled : Nat) : Array (Entry α ω) × Array Owners :=
  (leading DispatchBuilder.firstEntry Entry.empty slots filled,
    leading DispatchBuilder.firstOwners Owners.none slots filled)

theorem fillNext {filled : Nat} (small : s.slots.size ≤ UInt32.size) (inside : filled < s.slots.size) :
    fill s (filledTo s.slots filled : Array (Entry α ω) × Array Owners) filled =
      .ok (filledTo s.slots (filled + 1)) := by
  have exact : (UInt32.ofNat filled).toNat = filled :=
    Nat.mod_eq_of_lt (Nat.lt_of_lt_of_le inside small)
  have here := Array.getElem?_eq_getElem inside
  have found : s.slotAt (UInt32.ofNat filled) = some s.slots[filled] := by
    rw [TagSpace.slotAt, exact, here]
  generalize s.slots[filled] = slot at here found
  unfold fill
  cases slot with
  | kind name category =>
    -- what a kind begins with is what the cells are blank with
    rw [if_neg (by simp [TagSpace.kindUnreserved found])]
    exact congrArg Except.ok (Prod.ext (leadingBlank here rfl) (leadingBlank here rfl))
  | reserved marker =>
    rw [if_pos (TagSpace.markerReserved found), filledTo,
      stored (by simpa [leading] using inside), stored (by simpa [leading] using inside)]
    exact congrArg Except.ok (Prod.ext (leadingStored here) (leadingStored here))

theorem fillPlain (small : s.slots.size ≤ UInt32.size) {filled : Nat} (within : filled ≤ s.slots.size) :
    (List.range filled).foldlM (fill s) (filledTo s.slots 0 : Array (Entry α ω) × Array Owners) =
      .ok (filledTo s.slots filled) := by
  induction filled with
  | zero => rfl
  | succ filled ih =>
    rw [List.range_succ, List.foldlM_append, ih (Nat.le_of_succ_le within)]
    refine (bindFirst rfl).trans ?_
    rw [List.foldlM_cons, fillNext small within]
    rfl

theorem builderPlain (small : s.slots.size ≤ UInt32.size) :
    (builder s : Attempt (DispatchBuilder α ω)) = plain (DispatchBuilder.ofSpace s) := by
  have filled : (List.range s.size).foldlM (fill s)
      (Array.replicate s.size Entry.empty, Array.replicate s.size Owners.none) =
        .ok (s.slots.map (DispatchBuilder.firstEntry (α := α) (ω := ω)),
          s.slots.map DispatchBuilder.firstOwners) := by
    have all := fillPlain (α := α) (ω := ω) small (Nat.le_refl _)
    rw [filledTo, filledTo, leadingNone, leadingNone, leadingAll, leadingAll] at all
    exact all
  refine plainThen rfl fun _ _ => ?_
  rw [checkedThen filled]
  rfl

theorem claimPlain (indexed : Indexed b.space.slots b.space.names) (consistent : b.Consistent)
    (claimant kind : String) (op : Operation) :
    claim b claimant kind op = plain (b.claim claimant kind op) := by
  refine plainThen rfl fun tag named => ?_
  obtain ⟨inside, _⟩ := DispatchBuilder.namedInside indexed named
  rw [checkedThen (fetched (DispatchBuilder.stored consistent inside).2)]
  cases (b.ownersAt tag).get op with
  | some holder => rfl
  | none => exact checkedThen (stored (consistent.ownersSize.symm ▸ inside))

theorem performPlain (indexed : Indexed b.space.slots b.space.names) (consistent : b.Consistent)
    (claimant : String) (r : Registration α ω) :
    perform b claimant r = plain (b.perform claimant r) := by
  refine plainThen rfl fun _ _ => plainThen (claimPlain indexed consistent _ _ _) ?_
  rintro ⟨tag, claimed⟩ claims
  obtain ⟨named, _, rfl⟩ := DispatchBuilder.claimedIff.mp claims
  obtain ⟨inside, _⟩ := DispatchBuilder.namedInside indexed named
  exact checkedThen (stored (consistent.entriesSize.symm ▸ inside))

theorem runPlain (indexed : Indexed b.space.slots b.space.names) (consistent : b.Consistent)
    (claimant : String) (p : Program α ω) : run claimant p b = .ok (p.run claimant b) := by
  induction p generalizing b with
  | done outcome => rfl
  | step r next ih =>
    rw [run, performPlain indexed consistent, Program.run]
    cases outcome : b.perform claimant r with
    | ok after =>
      obtain ⟨space, consistent'⟩ := DispatchBuilder.performKept indexed ⟨rfl, consistent⟩ outcome
      exact ih _ (space.symm ▸ indexed) consistent'
    | error fault => exact ih _ indexed consistent

theorem installPlain (indexed : Indexed b.space.slots b.space.names) (consistent : b.Consistent)
    (x : Subsystem α ω) : install b x = .ok (b.install x) := by
  rw [install, runPlain indexed consistent, DispatchBuilder.install]
  obtain ⟨_ | _, after⟩ := (x.program b.space).run x.name b <;> rfl

theorem gapPlain (sound : b.space.Sound) (room : b.space.slots.size < UInt32.size)
    (consistent : b.Consistent) {k : KindInfo} (listed : k ∈ b.space.kinds) :
    gap? b k = .ok (b.gap? k) := by
  have found := (TagSpace.listedSlot sound.bounded).mp listed
  obtain ⟨low, high⟩ := (TagSpace.slotCoversIff sound room found).mpr rfl
  have inside := (Array.getElem?_eq_some_iff.mp found).1
  refine (bindFirst (ensured (Bool.and_eq_true_iff.mpr ⟨decide_eq_true low,
    decide_eq_true high⟩))).trans ?_
  refine (bindFirst (fetched (DispatchBuilder.stored consistent inside).1)).trans ?_
  rw [DispatchBuilder.gap?, DispatchBuilder.missing]
  cases k.category.requiredOperations.filter fun op => !(b.entryAt k.tag).has op <;> rfl

theorem mapPlain {items : List β} {f : β → Guarded γ} {g : β → γ}
    (each : ∀ a ∈ items, f a = .ok (g a)) : items.mapM f = .ok (items.map g) := by
  induction items with
  | nil => rfl
  | cons a rest ih =>
    obtain ⟨first, later⟩ := List.forall_mem_cons.mp each
    rw [List.mapM_cons, bindFirst first, bindFirst (ih later)]
    rfl

theorem gapsPlain (sound : b.space.Sound) (room : b.space.slots.size < UInt32.size)
    (consistent : b.Consistent) : gaps b = .ok b.gaps := by
  rw [gaps, bindFirst (mapPlain fun _ => gapPlain sound room consistent), List.filterMap_map]
  rfl

theorem finishPlain (sound : b.space.Sound) (room : b.space.slots.size < UInt32.size)
    (consistent : b.Consistent) : finish b = plain b.finish := by
  rw [finish, checkedThen (gapsPlain sound room consistent), DispatchBuilder.finish]
  cases b.gaps <;> rfl

end Builders

end Guarded

end TaggedHeap
