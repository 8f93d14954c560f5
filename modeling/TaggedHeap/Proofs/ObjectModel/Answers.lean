import TaggedHeap.Proofs.Dispatch.Commitment
import TaggedHeap.Proofs.ObjectModel.Finished

/-! What a finished model answers. For a value it runs what a committed registration put at the value's
tag; for anything else the space alone decides the fault, and no function of a subsystem has a say. -/
namespace TaggedHeap

def TagSpace.refusal (s : TagSpace) (query : Query) (t : Tag) : Fault :=
  match (⟨s.boundaries⟩ : Classifier).classify t with
  | .ok category => .notAValue query t ((s.nameAt t).getD "reserved") category
  | .error fault => fault

theorem TagSpace.refusalKind {s : TagSpace} (sound : s.Sound) (room : s.slots.size < UInt32.size)
    (query : Query) (t : Tag) :
    (s.refusal query t).kind = if t < s.last then .wrongCategory else .unknownTag := by
  have agrees := Classifier.soundAgrees sound room
  unfold refusal
  by_cases below : t < s.last
  · obtain ⟨category, classified, _⟩ := agrees.unique t below
    rw [classified, if_pos below]
    rfl
  · rw [agrees.beyond t (UInt32.not_lt.mp below), if_neg below]
    rfl

namespace ObjectModel

variable {α ω : Type} {m : ObjectModel α ω} {o : HeapObject α} {query : Query} {e : Entry α ω}

def IsValue (m : ObjectModel α ω) (o : HeapObject α) : Prop := m.classify o.tag = .ok .runtimeKind

theorem observeRefused (whole : m.Whole) (other : ¬ m.IsValue o) :
    m.observe query o = .error (m.space.refusal query o.tag) := by
  have classifies : m.classify o.tag = (⟨m.space.boundaries⟩ : Classifier).classify o.tag :=
    congrArg (Classifier.classify · o.tag) whole.classifier
  unfold observe TagSpace.refusal
  rw [← classifies]
  cases classified : m.classify o.tag with
  | error fault => rfl
  | ok category =>
    have unobservable : category.isObservable = false := by
      have different : category ≠ .runtimeKind := fun same =>
        other (classified.trans (congrArg Except.ok same))
      simpa [Category.isObservable] using different
    simp [bind, Except.bind, unobservable, nameAt, throw, throwThe, MonadExceptOf.throw]

theorem recordRefused (whole : m.Whole) (other : ¬ m.IsValue o) :
    m.describing o = .silent (.error (m.space.refusal .describe o.tag)) ∧
    m.hashing o = .silent (.error (m.space.refusal .hash o.tag)) ∧
    ∀ b, m.comparing o b = .silent (.error (m.space.refusal .equals o.tag)) :=
  ⟨Queried.failedThen (observeRefused whole other), Queried.failedThen (observeRefused whole other),
    fun _ => Queried.failedThen (observeRefused whole other)⟩

theorem refused (whole : m.Whole) (other : ¬ m.IsValue o) :
    m.describe o = .error (m.space.refusal .describe o.tag) ∧
    m.hash o = .error (m.space.refusal .hash o.tag) ∧
    ∀ b, m.equals o b = .error (m.space.refusal .equals o.tag) := by
  obtain ⟨describes, hashes, compares⟩ := recordRefused whole other
  exact ⟨congrArg Queried.answer describes, congrArg Queried.answer hashes,
    fun b => congrArg Queried.answer (compares b)⟩

def printed (printer : Printer α) (o : HeapObject α) (kind : String) : Except Fault String :=
  match printer o kind with
  | some text => .ok text
  | none => .error (.printerFailed kind)

def hashed (equality : Equality α) (o : HeapObject α) : Word :=
  ((StableHash.fresh.absorb o.tag.bytes).absorb (equality.digest o)).finish

theorem demanded {β : Type} {t : Tag} {facility : Facility} {part : Option β} {value : β}
    (has : part = some value) : demand t facility part = .ok value := by
  rw [has]
  rfl

theorem recordAnswered {printer : Printer α} {equality : Equality α} (value : m.IsValue o)
    (found : m.lookup o.tag = .ok e) (prints : e.printer = some printer)
    (compares : e.equality = some equality) :
    m.describing o = ⟨[.print printer o ((m.space.nameAt o.tag).getD "reserved")],
      printed printer o ((m.space.nameAt o.tag).getD "reserved")⟩ ∧
    m.hashing o = ⟨[.digest equality o], .ok (hashed equality o)⟩ ∧
    ∀ b, m.comparing o b = ⟨if o.tag = b.tag then [.compare equality o b] else [],
      .ok (if o.tag = b.tag then equality.equals o b else false)⟩ := by
  have observed : ∀ query, m.observe query o = .ok e := fun _ => observedIff.mpr ⟨value, found⟩
  refine ⟨?_, ?_, fun b => ?_⟩
  · rw [describing, Queried.foundThen (observed _), Queried.foundThen (demanded prints), nameAt,
      Queried.printThen, printed]
    cases printer o ((m.space.nameAt o.tag).getD "reserved") <;> rfl
  · rw [hashing, Queried.foundThen (observed _), Queried.foundThen (demanded compares)]
    rfl
  · rw [comparing, Queried.foundThen (observed _)]
    split
    · rw [Queried.foundThen (demanded compares)]
      rfl
    · rfl

theorem answered {printer : Printer α} {equality : Equality α} (value : m.IsValue o)
    (found : m.lookup o.tag = .ok e) (prints : e.printer = some printer)
    (compares : e.equality = some equality) :
    m.describe o = printed printer o ((m.space.nameAt o.tag).getD "reserved") ∧
    m.hash o = .ok (hashed equality o) ∧
    ∀ b, m.equals o b = .ok (if o.tag = b.tag then equality.equals o b else false) := by
  obtain ⟨describes, hashes, compared⟩ := recordAnswered value found prints compares
  exact ⟨congrArg Queried.answer describes, congrArg Queried.answer hashes,
    fun b => congrArg Queried.answer (compared b)⟩

theorem finalized {world : ω} (found : m.lookup o.tag = .ok e) : m.finalize o world =
    .ok (e.finalizer.elim (false, world) fun action => (true, action o world)) := by
  simp only [finalize, found, bind, Except.bind]
  cases e.finalizer <;> rfl

theorem unfinalized {fault} {world : ω} (failed : m.lookup o.tag = .error fault) :
    m.finalize o world = .error fault := by
  simp only [finalize, failed, bind, Except.bind]

theorem valueBelow (whole : m.Whole) (room : m.space.slots.size < UInt32.size)
    (value : m.IsValue o) : o.tag < m.space.last := by
  refine UInt32.not_le.mp fun beyond => ?_
  have unknown := (Classifier.soundAgrees (TagSpace.reachableSound whole.reachable) room).beyond
    o.tag beyond
  rw [← whole.classifier] at unknown
  exact nomatch unknown.symm.trans value

theorem belowFound (whole : m.Whole) (below : o.tag < m.space.last) :
    ∃ e, m.lookup o.tag = .ok e :=
  (whole.complete.tags o.tag).mpr (whole.table.symm ▸ TagSpace.belowSlot below)

theorem wholeEquipped (whole : m.Whole) (room : m.space.slots.size < UInt32.size) : m.Equipped := by
  obtain ⟨space, classifier, table⟩ := m
  obtain rfl : table.space = space := whole.table
  obtain rfl : classifier = ⟨table.space.boundaries⟩ := whole.classifier
  exact completeEquipped whole.complete (TagSpace.reachableSound whole.reachable) room

theorem valueEquipped (whole : m.Whole) (room : m.space.slots.size < UInt32.size)
    (value : m.IsValue o) : ∃ e printer equality, m.lookup o.tag = .ok e ∧
      e.printer = some printer ∧ e.equality = some equality := by
  obtain ⟨e, found⟩ := belowFound whole (valueBelow whole room value)
  obtain ⟨prints, compares⟩ := (wholeEquipped whole room).value o.tag e value found
  obtain ⟨printer, hasPrinter⟩ := Option.isSome_iff_exists.mp prints
  obtain ⟨equality, hasEquality⟩ := Option.isSome_iff_exists.mp compares
  exact ⟨e, printer, equality, found, hasPrinter, hasEquality⟩

end ObjectModel

section Served

variable {α ω : Type} {s : TagSpace} {fresh : DispatchBuilder α ω}
  {subsystems : List (Subsystem α ω)} {d : DispatchTable α ω} {t : Tag} {e : Entry α ω}

theorem entryServed (reachable : s.Reachable) (made : DispatchBuilder.ofSpace s = .ok fresh)
    (finished : (fresh.installEach subsystems).finish = .ok d) (found : d.lookup t = .ok e)
    (part : Part α ω) :
    e.part part.operation = some part ↔ Serves fresh subsystems t part := by
  obtain ⟨same, _, complete⟩ := DispatchTable.finishedHistory reachable made finished
  obtain ⟨slot, here⟩ := (complete.tags t).mp ⟨e, found⟩
  obtain ⟨_, rfl⟩ := DispatchBuilder.finishedIff.mp finished
  have stored : (fresh.installEach subsystems).entryAt t = e := by
    simp [DispatchBuilder.entryAt, DispatchTable.lookupIff.mp found]
  rw [← stored]
  exact DispatchBuilder.servesIff reachable made subsystems (same ▸ here)

theorem finalizerServed {action : Finalizer α ω} : Serves fresh subsystems t (.finalizer action) ↔
    ∃ claimant kind, fresh.space.nameAt t = some kind ∧
      Committed fresh subsystems claimant (.finalizer kind action) := by
  constructor
  · intro serves
    generalize same : Part.finalizer action = part at serves
    cases serves with
    | @registered claimant r committed named =>
      cases r <;> cases same
      exact ⟨claimant, _, named, committed⟩
    | @builtIn marker op _ _ has => cases op <;> cases has <;> cases same
  · intro facts
    obtain ⟨claimant, kind, named, committed⟩ := facts
    exact .registered committed named

end Served

/-- Values are printed, compared and hashed by one call of what serves their tag, and two tags that
differ are told apart without a call; whatever is no value is refused by the space, and nothing is
called; and the finalizer of a kind runs once, on objects of any category, where one was committed. -/
theorem servedAnswers {α ω : Type} {s : TagSpace} (reachable : s.Reachable)
    (room : s.size ≤ 4294967295) {fresh : DispatchBuilder α ω}
    (made : DispatchBuilder.ofSpace s = .ok fresh) (subsystems : List (Subsystem α ω))
    {d : DispatchTable α ω} (finished : (fresh.installEach subsystems).finish = .ok d)
    {m : ObjectModel α ω} (modelled : ObjectModel.ofTable d = .ok m) :
    (∀ o, m.IsValue o → ∃ printer equality,
      (∀ other, Serves fresh subsystems o.tag (.printer other) ↔ other = printer) ∧
      (∀ other, Serves fresh subsystems o.tag (.equality other) ↔ other = equality) ∧
      m.describe o = ObjectModel.printed printer o ((s.nameAt o.tag).getD "reserved") ∧
      m.hash o = .ok (ObjectModel.hashed equality o) ∧
      (∀ b, m.equals o b = .ok (if o.tag = b.tag then equality.equals o b else false)) ∧
      (m.describing o).calls = [.print printer o ((s.nameAt o.tag).getD "reserved")] ∧
      (m.hashing o).calls = [.digest equality o] ∧
      ∀ b, (m.comparing o b).calls = if o.tag = b.tag then [.compare equality o b] else []) ∧
    (∀ o, ¬ m.IsValue o →
      (∀ query, (s.refusal query o.tag).kind =
        if o.tag < s.last then .wrongCategory else .unknownTag) ∧
      m.describe o = .error (s.refusal .describe o.tag) ∧
      m.hash o = .error (s.refusal .hash o.tag) ∧
      (∀ b, m.equals o b = .error (s.refusal .equals o.tag)) ∧
      (m.describing o).calls = [] ∧ (m.hashing o).calls = [] ∧ ∀ b, (m.comparing o b).calls = []) ∧
    (∀ o world claimant kind action, s.nameAt o.tag = some kind →
      Committed fresh subsystems claimant (.finalizer kind action) →
      m.finalize o world = .ok (true, action o world)) ∧
    ∀ o world, (∀ claimant kind action, s.nameAt o.tag = some kind →
        ¬ Committed fresh subsystems claimant (.finalizer kind action)) →
      m.finalize o world =
        if o.tag < s.last then .ok (false, world) else .error (.noEntry o.tag s.size) := by
  have whole := ObjectModel.finishedWhole (.of reachable made subsystems finished modelled)
  have served := fun {t e} => entryServed (t := t) (e := e) reachable made finished
  have sound := TagSpace.reachableSound reachable
  have small : s.slots.size < UInt32.size := Nat.lt_succ_of_le room
  have space : fresh.space = s := DispatchBuilder.workingSpace made .fresh
  obtain ⟨rfl, consistent, complete⟩ := DispatchTable.finishedHistory reachable made finished
  obtain ⟨_, rfl⟩ := ObjectModel.ofTableIff.mp modelled
  refine ⟨fun o value => ?values, fun o other => ?others, ?runs, ?idle⟩
  case values =>
    obtain ⟨e, printer, equality, found, prints, compares⟩ :=
      ObjectModel.valueEquipped whole small value
    obtain ⟨described, hashed, compared⟩ := ObjectModel.recordAnswered value found prints compares
    refine ⟨printer, equality, fun other => ?_, fun other => ?_, congrArg Queried.answer described,
      congrArg Queried.answer hashed, fun b => congrArg Queried.answer (compared b),
      congrArg Queried.calls described, congrArg Queried.calls hashed,
      fun b => congrArg Queried.calls (compared b)⟩
    · rw [← served found]
      simp [Part.operation, Entry.part, prints, eq_comm]
    · rw [← served found]
      simp [Part.operation, Entry.part, compares, eq_comm]
  case others =>
    obtain ⟨described, hashed, compared⟩ := ObjectModel.recordRefused whole other
    exact ⟨fun query => TagSpace.refusalKind sound small query o.tag, congrArg Queried.answer described,
      congrArg Queried.answer hashed, fun b => congrArg Queried.answer (compared b),
      congrArg Queried.calls described, congrArg Queried.calls hashed,
      fun b => congrArg Queried.calls (compared b)⟩
  case runs =>
    intro o world claimant kind action named committed
    obtain ⟨_, here⟩ := TagSpace.nameSlot.mp named
    obtain ⟨e, found⟩ := ObjectModel.belowFound whole ((TagSpace.slotBelow small).mpr ⟨_, here⟩)
    have has := (served found _).mpr
      (finalizerServed.mpr ⟨claimant, kind, space.symm ▸ named, committed⟩)
    have runs : e.finalizer = some action := by
      simpa [Part.operation, Entry.part] using has
    rw [ObjectModel.finalized found, runs]
    rfl
  case idle =>
    intro o world none
    split
    · rename_i below
      obtain ⟨e, found⟩ := ObjectModel.belowFound whole below
      have idle : e.finalizer = Option.none := by
        refine Option.eq_none_iff_forall_ne_some.mpr fun action has => ?_
        have serves := (served found (.finalizer action)).mp
          (by simp [Part.operation, Entry.part, has])
        obtain ⟨claimant, kind, named, committed⟩ := finalizerServed.mp serves
        exact none claimant kind action (space ▸ named) committed
      rw [ObjectModel.finalized found, idle]
      rfl
    · rename_i beyond
      have size : d.entries.size = d.space.size := by
        rw [(DispatchBuilder.finishedIff.mp finished).2]
        exact consistent.entriesSize
      have missing : ¬ ∃ e, d.lookup o.tag = .ok e := fun found =>
        beyond ((TagSpace.slotBelow small).mpr ((complete.tags o.tag).mp found))
      cases outcome : d.lookup o.tag with
      | ok e => exact absurd ⟨e, outcome⟩ missing
      | error fault =>
        rw [← size, ← DispatchTable.lookupFault outcome]
        exact ObjectModel.unfinalized outcome

def parity : Equality Nat where
  equals a b := a.payload % 2 == b.payload % 2
  digest o := [UInt8.ofNat (o.payload % 2)]

-- The first claims a printer for a form that is no value; the second is rolled back.
def countingSubsystems : List (Subsystem Nat Nat) :=
  [⟨"counting", fun _ => .lenient (.ok ())
     [.finalizer "toplevel" fun _ count => count + 1, .describe "pair" Printer.kindName,
      .equality "pair" parity, .describe "atom" Printer.kindName,
      .describe "toplevel" Printer.kindName]⟩,
   ⟨"undecided", fun _ => .lenient (.error .alreadyInstalled)
     [.scan "pair" (.atomic 2), .finalizer "pair" fun _ _ => 0]⟩,
   Standard.layouts, Standard.opaqueBehaviors ["pair"]]

theorem countingGapless : (miniatureFresh.installEach countingSubsystems).gaps = [] := by
  decide +kernel

def countingModel : ObjectModel Nat Nat := miniatureWith countingSubsystems

def countingObject (t : Tag) (payload : Nat) : HeapObject Nat :=
  ⟨UInt64.ofNat payload, ⟨t⟩, t, payload⟩

theorem countingAnswers :
    countingModel.describe (countingObject 4 7) =
      ObjectModel.printed Printer.kindName (countingObject 4 7) "pair" ∧
    (countingModel.describing (countingObject 4 7)).calls =
      [.print Printer.kindName (countingObject 4 7) "pair"] ∧
    (countingModel.describing (countingObject 0 7)).calls = [] ∧
    countingModel.describe (countingObject 0 7) = .error
      (.notAValue .describe 0 "toplevel" .compiledSyntaxForm) ∧
    countingModel.finalize (countingObject 0 7) 3 = .ok (true, 4) ∧
    countingModel.finalize (countingObject 99 7) 3 = .error (.noEntry 99 7) := by
  obtain ⟨values, others, runs, idle⟩ := servedAnswers miniatureReachable (by decide)
    miniatureFreshMade countingSubsystems (miniatureTabled countingGapless)
    (miniatureModelled countingSubsystems)
  have prints : Committed miniatureFresh countingSubsystems "counting"
      (.describe "pair" Printer.kindName) :=
    .first (by with_unfolding_all rfl) (by with_unfolding_all exact .tail _ (.head _))
  have counts : Committed miniatureFresh countingSubsystems "counting"
      (.finalizer "toplevel" fun _ count => count + 1) :=
    .first (by with_unfolding_all rfl) (by with_unfolding_all exact .head _)
  obtain ⟨printer, _, only, _, described, _, _, called, _⟩ := values (countingObject 4 7) rfl
  obtain rfl := (only Printer.kindName).mp (.registered prints rfl)
  have form : ¬ countingModel.IsValue (countingObject 0 7) := nofun
  obtain ⟨_, refused, _, _, silent, _⟩ := others (countingObject 0 7) form
  exact ⟨described, called, silent, refused,
    runs (countingObject 0 7) 3 "counting" "toplevel" _ rfl counts, idle (countingObject 99 7) 3 nofun⟩

end TaggedHeap
