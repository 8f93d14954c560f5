import TaggedHeap.CommandLine.Arguments
import TaggedHeap.Proofs.Outcome

/-! How a line is read word by word. As long as options are read a word means one of six things,
whatever was read before; `take` acts on that meaning. Two readings that settle alike are told apart
by no later word. -/
namespace TaggedHeap.CommandLine

inductive Meaning where
  | ending
  | help
  | flag
  | category (attached : Option String)
  | unknown
  | plain
  deriving DecidableEq, Repr

def Meaning.ofOption (c : Subcommand) (name : List Char) (attached : Option (List Char)) : Meaning :=
  if name = "help".toList then if attached.isSome then .unknown else .help
  else if name = "internal-tags".toList then if attached.isSome then .unknown else .flag
  else if c.takesCategory && name == "category".toList then
    .category (attached.map String.ofList)
  else .unknown

def Meaning.ofChars (c : Subcommand) : List Char → Meaning
  | ['-', '-'] => .ending
  | '-' :: '-' :: option => .ofOption c (Reading.splitAtEquals option).1 (Reading.splitAtEquals option).2
  | '-' :: 'h' :: _ => .help
  | '-' :: _ :: _ => .unknown
  | _ => .plain

namespace Reading

variable {c : Subcommand} {r s next : Reading} {word : String} {words before after : List String}
  {called : Invocation}

def awaitCategory (r : Reading) : Option String → Except Halt Reading
  | some text => r.giveCategory text
  | none => .ok { r with pending := .awaited }

def obey (c : Subcommand) (r : Reading) (word : String) : Meaning → Except Halt Reading
  | .ending => .ok { r with trailing := true }
  | .help => r.askHelp
  | .flag => r.raiseFlag
  | .category attached => do (← r.settle).awaitCategory attached
  | .unknown => misuse
  | .plain => r.takeWord c word

def heard (c : Subcommand) (r : Reading) (word : String) : Meaning :=
  if r.trailing then .plain else .ofChars c word.toList

theorem takeOptionMeaning (name : List Char) (attached : Option (List Char)) :
    r.takeOption c name attached = r.obey c word (.ofOption c name attached) := by
  unfold takeOption Meaning.ofOption
  split
  · split <;> rfl
  split
  · split <;> rfl
  split
  · cases attached <;> rfl
  · rfl

theorem takeMeaning : r.take c word = r.obey c word (r.heard c word) := by
  unfold take heard
  split
  · rfl
  generalize word.toList = cs
  unfold Meaning.ofChars
  split
  · rfl
  · simpa using takeOptionMeaning _ _
  · rfl
  all_goals simp_all [obey]

theorem giveOk {text : String} (given : r.giveCategory text = .ok next) :
    r.category = none ∧ ∃ category, Category.parse text = some category ∧
      next = { r with category := some category } := by
  unfold giveCategory at given
  split at given
  · cases given
  rename_i free
  split at given <;> cases given
  exact ⟨by simpa using free, _, ‹_›, rfl⟩

structure Same (r s : Reading) : Prop where
  internalTags : r.internalTags = s.internalTags
  tag : r.tag = s.tag
  trailing : r.trailing = s.trailing

theorem settleOk (settled : r.settle = .ok s) : s.pending = .nothing ∧ Same r s := by
  unfold settle at settled
  split at settled
  · cases settled
    exact ⟨‹_›, rfl, rfl, rfl⟩
  · cases settled
  · obtain ⟨_, _, _, rfl⟩ := giveOk settled
    exact ⟨rfl, rfl, rfl, rfl⟩

theorem settleCalm (calm : r.pending = .nothing) : r.settle = .ok r := by
  rw [settle, calm]

inductive Obeys (c : Subcommand) (r : Reading) (word : String) : Meaning → Reading → Prop where
  | ending : Obeys c r word .ending { r with trailing := true }
  | flag {s : Reading} (settled : r.settle = .ok s) (lowered : s.internalTags = false) :
      Obeys c r word .flag { s with internalTags := true }
  | awaiting {s : Reading} (settled : r.settle = .ok s) :
      Obeys c r word (.category none) { s with pending := .awaited }
  | attached {s : Reading} {text : String} {category : Category} (settled : r.settle = .ok s)
      (free : s.category = none) (parsed : Category.parse text = some category) :
      Obeys c r word (.category (some text)) { s with category := some category }
  | given (awaits : r.pending = .awaited) (opened : r.trailing = false) :
      Obeys c r word .plain { r with pending := .given word }
  | tag {t : Tag} (served : r.pending = .awaited → r.trailing = true) (takes : c.takesTag = true)
      (free : r.tag = none) (read : readTag word = some t) :
      Obeys c r word .plain { r with tag := some t }

theorem takeObeys (took : r.take c word = .ok next) : Obeys c r word (r.heard c word) next := by
  rw [takeMeaning] at took
  cases meant : r.heard c word with
  | ending =>
    rw [meant] at took
    cases took
    exact .ending
  | help =>
    rw [meant] at took
    obtain ⟨_, _, thrown⟩ := bindOk.mp took
    cases thrown
  | unknown =>
    rw [meant] at took
    cases took
  | flag =>
    rw [meant] at took
    obtain ⟨s, settled, raised⟩ := bindOk.mp took
    split at raised <;> cases raised
    rename_i lowered
    exact .flag settled (Bool.eq_false_iff.mpr lowered)
  | category attached =>
    rw [meant] at took
    obtain ⟨s, settled, later⟩ := bindOk.mp took
    cases attached with
    | none =>
      cases later
      exact .awaiting settled
    | some text =>
      obtain ⟨free, category, parsed, rfl⟩ := giveOk later
      exact .attached settled free parsed
  | plain =>
    simp only [meant, obey, takeWord, Bool.and_eq_true, decide_eq_true_eq, Bool.not_eq_true'] at took
    split at took
    · rename_i awaits
      cases took
      exact .given awaits.1 awaits.2
    rename_i served
    split at took
    · rename_i free
      split at took <;> cases took
      refine .tag (fun awaits => ?_) free.1 (Option.isNone_iff_eq_none.mp free.2) ‹_›
      exact Bool.not_eq_false _ |>.mp fun opened => served ⟨awaits, opened⟩
    · cases took

def beside (internalTags : Bool) (tag : Option Tag) (trailing : Bool) (r : Reading) : Reading :=
  { r with internalTags, tag, trailing }

theorem settleBeside {internalTags : Bool} {tag : Option Tag} {trailing : Bool} :
    (r.beside internalTags tag trailing).settle =
      r.settle.map (·.beside internalTags tag trailing) := by
  obtain ⟨_, category, pending, _, _⟩ := r
  cases pending with
  | nothing | awaited => rfl
  | given text =>
    cases category with
    | some => rfl
    | none => cases parsed : Category.parse text <;>
        simp [beside, settle, giveCategory, parsed, Except.map]

structure Alike (r s : Reading) : Prop extends Same r s where
  settled : r.settle = s.settle
  calm : r.pending ≠ .awaited
  calmToo : s.pending ≠ .awaited

theorem alikeSettled (calm : r.pending ≠ .awaited) (settled : r.settle = .ok s) : Alike r s := by
  obtain ⟨pending, same⟩ := settleOk settled
  have steady : s.settle = .ok s := settleCalm pending
  exact ⟨same, settled.trans steady.symm, calm, by simp [pending]⟩

theorem Alike.beside {tag other : Option Tag} {trailing ended : Bool} (alike : Alike r s)
    (tags : tag = other) (ends : trailing = ended) :
    Alike { r with tag, trailing } { s with tag := other, trailing := ended } where
  internalTags := alike.internalTags
  tag := tags
  trailing := ends
  settled := by
    change (r.beside r.internalTags tag trailing).settle =
      (s.beside s.internalTags other ended).settle
    rw [settleBeside, settleBeside, alike.settled, alike.internalTags, tags, ends]
  calm := alike.calm
  calmToo := alike.calmToo

theorem takeAlike (alike : Alike r s) (c : Subcommand) (word : String) :
    r.take c word = s.take c word ∨
      ∃ next other, r.take c word = .ok next ∧ s.take c word = .ok other ∧ Alike next other := by
  have same : r.heard c word = s.heard c word := by rw [heard, heard, alike.trailing]
  rw [takeMeaning, takeMeaning, same]
  cases s.heard c word with
  | ending => exact .inr ⟨_, _, rfl, rfl, alike.beside alike.tag rfl⟩
  | help => exact .inl (by rw [obey, askHelp, alike.settled]; rfl)
  | flag => exact .inl (by rw [obey, raiseFlag, alike.settled]; rfl)
  | category attached => exact .inl (by rw [obey, alike.settled]; rfl)
  | unknown => exact .inl rfl
  | plain =>
    simp only [obey, takeWord, alike.calm, alike.calmToo, alike.tag, decide_false, Bool.false_and,
      Bool.false_eq_true, if_false]
    split
    · cases readTag word with
      | none => exact .inl rfl
      | some t => exact .inr ⟨_, _, rfl, rfl, alike.beside rfl alike.trailing⟩
    · exact .inl rfl

def takeAll (c : Subcommand) (r : Reading) (words : List String) : Except Halt Reading :=
  words.foldlM (fun r word => r.take c word) r

def finish (c : Subcommand) (r : Reading) (words : List String) : Except Halt Invocation := do
  let read ← r.takeAll c words
  let read ← read.settle
  let command ← read.command c
  return ⟨command, read.internalTags⟩

theorem finishStart : Invocation.ofWords c words = start.finish c words := rfl

theorem finishCons : r.finish c (word :: words) = r.take c word >>= (·.finish c words) := by
  simp only [finish, takeAll, List.foldlM_cons, bind_assoc]

theorem finishAppend :
    r.finish c (before ++ after) = r.takeAll c before >>= (·.finish c after) := by
  simp only [finish, takeAll, List.foldlM_append, bind_assoc]

theorem finishNil : r.finish c [] = .ok called ↔ ∃ s, r.settle = .ok s ∧
    s.command c = .ok called.command ∧ called.internalTags = s.internalTags := by
  change (r.settle >>= _) = _ ↔ _
  constructor
  · intro ok
    obtain ⟨s, settled, rest⟩ := bindOk.mp ok
    obtain ⟨command, commanded, made⟩ := bindOk.mp rest
    cases made
    exact ⟨s, settled, commanded, rfl⟩
  · intro facts
    obtain ⟨s, settled, commanded, same⟩ := facts
    obtain ⟨command, internalTags⟩ := called
    cases same
    exact bindOk.mpr ⟨s, settled, bindOk.mpr ⟨command, commanded, rfl⟩⟩

theorem finishAlike (alike : Alike r s) : r.finish c words = s.finish c words := by
  induction words generalizing r s with
  | nil =>
    change (r.settle >>= _) = (s.settle >>= _)
    rw [alike.settled]
  | cons word words ih =>
    rw [finishCons, finishCons]
    rcases takeAlike alike c word with same | ⟨next, other, first, second, later⟩
    · rw [same]
    · rw [first, second]
      exact ih later

theorem finishSettles (calm : r.pending ≠ .awaited) (ok : r.finish c words = .ok called) :
    ∃ s, r.settle = .ok s := by
  induction words generalizing r with
  | nil =>
    obtain ⟨s, settled, _⟩ := finishNil.mp ok
    exact ⟨s, settled⟩
  | cons word words ih =>
    rw [finishCons] at ok
    obtain ⟨next, took, later⟩ := bindOk.mp ok
    -- A word that leaves the waiting value alone changes nothing that settling looks at.
    have unsettled {tag : Option Tag} {trailing : Bool} (same : next = { r with tag, trailing }) :
        ∃ s, r.settle = .ok s := by
      obtain ⟨s, settled⟩ := ih (by rw [same]; exact calm) later
      change _ = r.beside r.internalTags tag trailing at same
      rw [same, settleBeside] at settled
      cases first : r.settle with
      | ok s => exact ⟨s, rfl⟩
      | error halt =>
        rw [first] at settled
        cases settled
    have step := takeObeys took
    generalize r.heard c word = meaning at step
    cases step with
    | ending => exact unsettled rfl
    | flag settled | awaiting settled | attached settled => exact ⟨_, settled⟩
    | given awaits => exact absurd awaits calm
    | tag => exact unsettled rfl

end Reading

end TaggedHeap.CommandLine
