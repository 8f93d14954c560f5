import TaggedHeap.Proofs.Guarded.Operations
import TaggedHeap.Proofs.Space.Persistence

/-! Sessions: spaces are built, grown and frozen, builders are made of them and filled, ranges and reports
are asked for, in any order. A session runs with plain operations or with guarded ones. What holds in
every session that has been led so far, and what therefore no check can find wrong in the next step. -/
namespace TaggedHeap

variable {α ω : Type} {m : Type → Type}

structure Operations (m : Type → Type) (α ω : Type) where
  build : Catalog → Bool → m (Except Fault TagSpace)
  classifier : TagSpace → m (Except Fault Classifier)
  range : TagSpace → String → String → m (Except Fault KindRange)
  count : KindRange → m Nat
  catalogReport : TagSpace → Option Standard.Ranges → Option Category → m CatalogReport
  builder : TagSpace → m (Except Fault (DispatchBuilder α ω))
  install : DispatchBuilder α ω → Subsystem α ω → m (Except Fault Unit × DispatchBuilder α ω)
  gaps : DispatchBuilder α ω → m (List Gap)
  finish : DispatchBuilder α ω → m (Except Fault (DispatchTable α ω))

namespace Operations

def plain : Operations Id α ω where
  build := TagSpace.build
  classifier := Classifier.ofSpace
  range := TagSpace.range
  count := KindRange.count
  catalogReport := CatalogReport.ofSpace
  builder := DispatchBuilder.ofSpace
  install := DispatchBuilder.install
  gaps := DispatchBuilder.gaps
  finish := DispatchBuilder.finish

def guarded : Operations Guarded α ω where
  build := Guarded.build
  classifier := Guarded.classifier
  range := Guarded.range
  count := Guarded.count
  catalogReport := Guarded.catalogReport
  builder := Guarded.builder
  install := Guarded.install
  gaps := Guarded.gaps
  finish := Guarded.finish

end Operations

-- Spaces, builders and ranges are called by the order in which they came about.
inductive Command (α ω : Type) where
  | build (catalog : Catalog) (internalTier : Bool)
  | change (space : Nat) (change : Change)
  | classifier (space : Nat)
  | range (space : Nat) (first last : String)
  | count (range : Nat)
  | catalogReport (space : Nat) (ranges : Option (Nat × Nat × Nat)) (only : Option Category)
  | builder (space : Nat)
  | install (builder : Nat) (subsystem : Subsystem α ω)
  | gaps (builder : Nat)
  | finish (builder : Nat)
  | checkReport (builder : Nat)

inductive Answer (α ω : Type) where
  | refused (fault : Fault)
  | classifier (classifier : Classifier)
  | count (kinds : Nat)
  | catalog (report : CatalogReport)
  | installed (outcome : Except Fault Unit)
  | gaps (gaps : List Gap)
  | table (table : DispatchTable α ω)
  | check (report : CheckReport)

structure Session (α ω : Type) where
  spaces : List TagSpace
  builders : List (DispatchBuilder α ω)
  ranges : List KindRange
  answers : List (Answer α ω)

namespace Session

def empty : Session α ω := ⟨[], [], [], []⟩

def tell (x : Session α ω) (answer : Answer α ω) : Session α ω :=
  { x with answers := x.answers ++ [answer] }

def picked (x : Session α ω) (picks : Nat × Nat × Nat) : Option Standard.Ranges := do
  return ⟨← x.ranges[picks.1]?, ← x.ranges[picks.2.1]?, ← x.ranges[picks.2.2]?⟩

def attend [Monad m] {β : Type} (x : Session α ω) (called : Option β)
    (act : β → m (Session α ω)) : m (Session α ω) :=
  match called with
  | some a => act a
  | none => return x

def settle {β : Type} (x : Session α ω) (outcome : Except Fault β) (done : β → Session α ω) :
    Session α ω :=
  match outcome with
  | .ok a => done a
  | .error fault => x.tell (.refused fault)

def step [Monad m] (ops : Operations m α ω) (x : Session α ω) : Command α ω → m (Session α ω)
  | .build catalog internalTier => do
    return x.settle (← ops.build catalog internalTier) fun s =>
      { x with spaces := x.spaces ++ [s] }
  | .change space change => return { x with spaces := x.spaces.modify space (·.after change) }
  | .classifier space => x.attend x.spaces[space]? fun s => do
    return x.settle (← ops.classifier s) fun c => x.tell (.classifier c)
  | .range space first last => x.attend x.spaces[space]? fun s => do
    return x.settle (← ops.range s first last) fun r => { x with ranges := x.ranges ++ [r] }
  | .count range => x.attend x.ranges[range]? fun r => do
    return x.tell (.count (← ops.count r))
  | .catalogReport space ranges only => x.attend x.spaces[space]? fun s => do
    return x.tell (.catalog (← ops.catalogReport s (ranges.bind x.picked) only))
  | .builder space => x.attend x.spaces[space]? fun s => do
    return x.settle (← ops.builder s) fun b => { x with builders := x.builders ++ [b] }
  | .install builder subsystem => x.attend x.builders[builder]? fun b => do
    let (outcome, after) ← ops.install b subsystem
    return { x with builders := x.builders.set builder after }.tell (.installed outcome)
  | .gaps builder => x.attend x.builders[builder]? fun b => do
    return x.tell (.gaps (← ops.gaps b))
  | .finish builder => x.attend x.builders[builder]? fun b => do
    return x.settle (← ops.finish b) fun d => x.tell (.table d)
  | .checkReport builder => x.attend x.builders[builder]? fun b => do
    return x.tell (.check (.ofGaps b.space (← ops.gaps b)))

def run [Monad m] (ops : Operations m α ω) (x : Session α ω) (commands : List (Command α ω)) :
    m (Session α ω) :=
  commands.foldlM (step ops) x

def after (x : Session α ω) (command : Command α ω) : Session α ω := Id.run (x.step .plain command)

def evolve (x : Session α ω) (commands : List (Command α ω)) : Session α ω :=
  Id.run (x.run .plain commands)

def Roomy (x : Session α ω) : Prop := ∀ s ∈ x.spaces, s.size ≤ 4294967295

structure Sound (x : Session α ω) : Prop where
  reachable : ∀ s ∈ x.spaces, s.Reachable
  working : ∀ b ∈ x.builders, b.space ∈ x.spaces ∧
    ∃ fresh, DispatchBuilder.ofSpace b.space = .ok fresh ∧ DispatchBuilder.Working fresh b
  forward : ∀ r ∈ x.ranges, r.start ≤ r.stop

section Steps

variable {x : Session α ω} {β : Type}

theorem attendGuarded {called : Option β} {act : β → Guarded (Session α ω)}
    {act' : β → Id (Session α ω)} (each : ∀ a, called = some a → act a = .ok (Id.run (act' a))) :
    x.attend called act = .ok (Id.run (x.attend called act')) := by
  cases called with
  | none => rfl
  | some a => exact each a rfl

theorem pickedForward (sound : x.Sound) {picks : Nat × Nat × Nat} {ranges : Standard.Ranges}
    (found : x.picked picks = some ranges) : Guarded.Forward ranges := by
  obtain ⟨procedure, first, found⟩ := Option.bind_eq_some_iff.mp found
  obtain ⟨procedureOrStruct, second, found⟩ := Option.bind_eq_some_iff.mp found
  obtain ⟨number, third, last⟩ := Option.bind_eq_some_iff.mp found
  cases last
  exact ⟨sound.forward _ (List.mem_of_getElem? first), sound.forward _ (List.mem_of_getElem? second),
    sound.forward _ (List.mem_of_getElem? third)⟩

theorem stepGuarded (sound : x.Sound) (roomy : x.Roomy) (command : Command α ω) :
    x.step .guarded command = .ok (x.after command) := by
  have spaceFacts {i : Nat} {s : TagSpace} (called : x.spaces[i]? = some s) :
      s.Sound ∧ s.slots.size < UInt32.size :=
    have member := List.mem_of_getElem? called
    ⟨TagSpace.reachableSound (sound.reachable s member), Nat.lt_succ_of_le (roomy s member)⟩
  have builderFacts {i : Nat} {b : DispatchBuilder α ω} (called : x.builders[i]? = some b) :
      b.space.Sound ∧ b.space.slots.size < UInt32.size ∧ b.Consistent := by
    obtain ⟨member, fresh, made, working⟩ := sound.working b (List.mem_of_getElem? called)
    have whole := TagSpace.reachableSound (sound.reachable _ member)
    exact ⟨whole, Nat.lt_succ_of_le (roomy _ member),
      DispatchBuilder.workingConsistent whole.indexed made working⟩
  cases command with
  | build catalog internalTier =>
    exact bindFirst (Guarded.buildPlain catalog internalTier)
  | change space change => rfl
  | classifier space =>
    refine attendGuarded fun s called => ?_
    obtain ⟨whole, room⟩ := spaceFacts called
    exact bindFirst (Guarded.classifierPlain whole room)
  | range space first last =>
    refine attendGuarded fun s called => ?_
    obtain ⟨whole, room⟩ := spaceFacts called
    exact bindFirst (Guarded.rangePlain whole room first last)
  | count range =>
    refine attendGuarded fun r called => ?_
    exact bindFirst (Guarded.countPlain (sound.forward r (List.mem_of_getElem? called)))
  | catalogReport space ranges only =>
    refine attendGuarded fun s _ => bindFirst (Guarded.catalogPlain only fun given chosen => ?_)
    obtain ⟨picks, _, found⟩ := Option.bind_eq_some_iff.mp chosen
    exact pickedForward sound found
  | builder space =>
    refine attendGuarded fun s called => ?_
    exact bindFirst (Guarded.builderPlain (spaceFacts called).1.bounded)
  | install builder subsystem =>
    refine attendGuarded fun b called => ?_
    obtain ⟨whole, _, consistent⟩ := builderFacts called
    exact bindFirst (Guarded.installPlain whole.indexed consistent subsystem)
  | gaps builder =>
    refine attendGuarded fun b called => ?_
    obtain ⟨whole, room, consistent⟩ := builderFacts called
    exact bindFirst (Guarded.gapsPlain whole room consistent)
  | finish builder =>
    refine attendGuarded fun b called => ?_
    obtain ⟨whole, room, consistent⟩ := builderFacts called
    exact bindFirst (Guarded.finishPlain whole room consistent)
  | checkReport builder =>
    refine attendGuarded fun b called => ?_
    obtain ⟨whole, room, consistent⟩ := builderFacts called
    exact bindFirst (Guarded.gapsPlain whole room consistent)

theorem modified {items : List β} {i : Nat} {change : β → β} {a : β}
    (member : a ∈ items.modify i change) : a ∈ items ∨ ∃ b ∈ items, a = change b := by
  obtain ⟨j, found⟩ := List.mem_iff_getElem?.mp member
  rw [List.getElem?_modify] at found
  split at found
  · obtain ⟨b, there, rfl⟩ := Option.map_eq_some_iff.mp found
    exact .inr ⟨b, List.mem_of_getElem? there, rfl⟩
  · exact .inl (List.mem_of_getElem? (by simpa using found))

theorem modifiedFrom {items : List β} {i : Nat} {change : β → β} {a : β} (member : a ∈ items) :
    a ∈ items.modify i change ∨ change a ∈ items.modify i change := by
  obtain ⟨j, found⟩ := List.mem_iff_getElem?.mp member
  by_cases here : i = j
  · exact .inr (List.mem_of_getElem? (i := j) (by simp [here, found]))
  · exact .inl (List.mem_of_getElem? (i := j) (by simp [here, found]))

theorem attendKeeps (keeps : Session α ω → Prop) {called : Option β} {act : β → Id (Session α ω)}
    (start : keeps x) (each : ∀ a, called = some a → keeps (Id.run (act a))) :
    keeps (Id.run (x.attend called act)) := by
  cases called with
  | none => exact start
  | some a => exact each a rfl

theorem settleKeeps (keeps : Session α ω → Prop) {outcome : Except Fault β}
    {done : β → Session α ω} (told : ∀ answer, keeps (x.tell answer))
    (each : ∀ a, outcome = .ok a → keeps (done a)) : keeps (x.settle outcome done) := by
  cases outcome with
  | error fault => exact told _
  | ok a => exact each a rfl

theorem tellSound (sound : x.Sound) (answer : Answer α ω) : (x.tell answer).Sound :=
  ⟨sound.reachable, sound.working, sound.forward⟩

theorem frozenAfter {s : TagSpace} (frozen : s.isFrozen = true) (change : Change) :
    s.after change = s :=
  (TagSpace.stepsExtend (TagSpace.afterSteps s change)).frozen frozen

theorem changeSound (sound : x.Sound) (space : Nat) (change : Change) :
    Sound { x with spaces := x.spaces.modify space (·.after change) } where
  reachable s member := by
    rcases modified member with before | ⟨s, before, rfl⟩
    · exact sound.reachable s before
    · exact TagSpace.reachableAfter (sound.reachable s before) change
  working b member := by
    obtain ⟨here, fresh, made, working⟩ := sound.working b member
    refine ⟨?_, fresh, made, working⟩
    rcases modifiedFrom here with stays | changed
    · exact stays
    · -- a space that has a builder is frozen, and so the change left it as it was
      exact frozenAfter (DispatchBuilder.madeIff.mp made).1 change ▸ changed
  forward := sound.forward

theorem installSound (sound : x.Sound) {i : Nat} {b : DispatchBuilder α ω}
    (called : x.builders[i]? = some b) (subsystem : Subsystem α ω) :
    Sound { x with builders := x.builders.set i (b.install subsystem).2 } where
  reachable := sound.reachable
  working c member := by
    rcases List.mem_or_eq_of_mem_set member with other | rfl
    · exact sound.working c other
    · obtain ⟨here, fresh, made, working⟩ := sound.working b (List.mem_of_getElem? called)
      have after := DispatchBuilder.installWorking working subsystem
      have same : (b.install subsystem).2.space = b.space := DispatchBuilder.workingSpace made after
      exact ⟨same.symm ▸ here, fresh, same.symm ▸ made, after⟩
  forward := sound.forward

theorem stepSound (sound : x.Sound) (roomy : x.Roomy) (command : Command α ω) :
    (x.after command).Sound := by
  have told := tellSound sound
  cases command with
  | build catalog internalTier =>
    refine settleKeeps Sound told fun s built => ⟨fun t member => ?_, fun b member => ?_,
      sound.forward⟩
    · rcases List.mem_append.mp member with before | new
      · exact sound.reachable t before
      · obtain rfl := List.mem_singleton.mp new
        exact ⟨catalog, internalTier, t, [], built, rfl⟩
    · obtain ⟨here, working⟩ := sound.working b member
      exact ⟨List.mem_append_left _ here, working⟩
  | change space change => exact changeSound sound space change
  | classifier space =>
    exact attendKeeps Sound sound fun s _ => settleKeeps Sound told fun c _ => told _
  | range space first last =>
    refine attendKeeps Sound sound fun s called => settleKeeps Sound told fun r ranged =>
      ⟨sound.reachable, sound.working, fun q member => ?_⟩
    have here := List.mem_of_getElem? called
    rcases List.mem_append.mp member with before | new
    · exact sound.forward q before
    · obtain rfl := List.mem_singleton.mp new
      exact Guarded.rangedForward (TagSpace.reachableSound (sound.reachable s here))
        (Nat.lt_succ_of_le (roomy s here)) ranged
  | count range | catalogReport space ranges only | gaps builder | checkReport builder =>
    exact attendKeeps Sound sound fun _ _ => told _
  | builder space =>
    refine attendKeeps Sound sound fun s called => settleKeeps Sound told fun b made =>
      ⟨sound.reachable, fun c member => ?_, sound.forward⟩
    rcases List.mem_append.mp member with before | new
    · exact sound.working c before
    · obtain rfl := List.mem_singleton.mp new
      have same : c.space = s := DispatchBuilder.workingSpace made .fresh
      exact ⟨same.symm ▸ List.mem_of_getElem? called, c, same.symm ▸ made, .fresh⟩
  | install builder subsystem =>
    exact attendKeeps Sound sound fun b called =>
      tellSound (installSound sound called subsystem) _
  | finish builder =>
    exact attendKeeps Sound sound fun b _ => settleKeeps Sound told fun d _ => told _

def Within (x y : Session α ω) : Prop := ∀ s ∈ x.spaces, ∃ later ∈ y.spaces, s.size ≤ later.size

theorem stepWithin (command : Command α ω) : x.Within (x.after command) := by
  have same (y : Session α ω) (spaces : y.spaces = x.spaces) : x.Within y :=
    fun s member => ⟨s, spaces ▸ member, Nat.le_refl _⟩
  have told (answer : Answer α ω) : x.Within (x.tell answer) := same _ rfl
  cases command with
  | build catalog internalTier =>
    exact settleKeeps x.Within told fun s _ t member =>
      ⟨t, List.mem_append_left _ member, Nat.le_refl _⟩
  | change space change =>
    intro s member
    rcases modifiedFrom member with stays | changed
    · exact ⟨s, stays, Nat.le_refl _⟩
    · exact ⟨_, changed, (TagSpace.stepsExtend (TagSpace.afterSteps s change)).size⟩
  | classifier space | finish builder =>
    exact attendKeeps x.Within (same x rfl) fun _ _ => settleKeeps x.Within told fun _ _ => told _
  | range space first last | builder space =>
    exact attendKeeps x.Within (same x rfl) fun _ _ => settleKeeps x.Within told fun _ _ => same _ rfl
  | count range | catalogReport space ranges only | gaps builder | checkReport builder
  | install builder subsystem =>
    exact attendKeeps x.Within (same x rfl) fun _ _ => same _ rfl

theorem roomyBefore {commands : List (Command α ω)} (roomy : (x.evolve commands).Roomy) :
    x.Roomy := by
  induction commands generalizing x with
  | nil => exact roomy
  | cons command rest ih =>
    intro s member
    obtain ⟨later, there, grown⟩ := stepWithin command s member
    exact Nat.le_trans grown (ih roomy later there)

theorem runGuarded (sound : x.Sound) {commands : List (Command α ω)}
    (roomy : (x.evolve commands).Roomy) :
    x.run .guarded commands = .ok (x.evolve commands) ∧ (x.evolve commands).Sound := by
  induction commands generalizing x with
  | nil => exact ⟨rfl, sound⟩
  | cons command rest ih =>
    -- roomy at the end means roomy all along, since spaces never shrink
    have before := roomyBefore roomy
    obtain ⟨ran, sound'⟩ := ih (stepSound sound before command) roomy
    rw [run, List.foldlM_cons, bindFirst (stepGuarded sound before command)]
    exact ⟨ran, sound'⟩

end Steps

end Session

/-- In a session over spaces that are not full no check ever fails, and to check changes nothing. Its
builders have an entry and owners for each slot of their space, in the midst of whatever program runs
on them as well as after it. -/
theorem checksHold (commands : List (Command α ω)) (room : (Session.empty.evolve commands).Roomy) :
    Session.empty.run .guarded commands = .ok (Session.empty.evolve commands) ∧
    ∀ b ∈ (Session.empty.evolve commands).builders, ∀ claimant (p : Program α ω),
      (p.run claimant b).2.space = b.space ∧
      (p.run claimant b).2.entries.size = b.space.size ∧
      (p.run claimant b).2.owners.size = b.space.size := by
  have start : (Session.empty : Session α ω).Sound := ⟨nofun, nofun, nofun⟩
  obtain ⟨ran, sound⟩ := Session.runGuarded start room
  refine ⟨ran, fun b member claimant p => ?_⟩
  obtain ⟨here, fresh, made, working⟩ := sound.working b member
  have indexed := (TagSpace.reachableSound (sound.reachable _ here)).indexed
  have after : DispatchBuilder.Working fresh (p.run claimant b).2 :=
    DispatchBuilder.runKeeps _ (fun before ok => .perform before ok) p working
  have space : (p.run claimant b).2.space = b.space := DispatchBuilder.workingSpace made after
  have consistent := DispatchBuilder.workingConsistent indexed made after
  exact ⟨space, space ▸ consistent.entriesSize, space ▸ consistent.ownersSize⟩

-- A builder is asked for too early and then again, and the second subsystem is rolled back.
def miniatureCommands : List (Command Unit Unit) :=
  [.build miniature true, .change 0 (.register ⟨"box", .runtimeKind⟩), .range 0 "pair" "box",
    .builder 0, .change 0 .freeze, .classifier 0, .builder 0] ++
  miniatureSubsystems.map (.install 0) ++
  [.gaps 0, .finish 0, .checkReport 0, .count 0, .catalogReport 0 (some (0, 0, 0)) none]

theorem miniatureUnbreached : ∃ x, Session.empty.run .guarded miniatureCommands = .ok x ∧
    x.ranges = [⟨4, 6⟩] ∧ x.builders.map (·.entries.size) = [6] ∧ x.answers.length = 10 := by
  have room : (Session.empty.evolve miniatureCommands).Roomy := by
    unfold Session.Roomy
    decide +kernel
  obtain ⟨ran, _⟩ := checksHold miniatureCommands room
  exact ⟨_, ran, by decide +kernel, by decide +kernel, by decide +kernel⟩

end TaggedHeap
