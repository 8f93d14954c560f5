import TaggedHeap.Proofs.CommandLine.Reading
import TaggedHeap.Proofs.CommandLine.Spelling
import TaggedHeap.Proofs.Text.Padding

/-! Lines that come to the same: with the flag put in anywhere before the end of the options, with a
tag or a category spelled another way, and the two commands that take a tag. -/
namespace TaggedHeap.CommandLine

namespace Meaning

variable {c : Subcommand} {cs name : List Char} {attached : Option (List Char)}

inductive Means (c : Subcommand) : List Char → Meaning → Prop where
  | ending : Means c ['-', '-'] .ending
  | flag : Means c "--internal-tags".toList .flag
  | awaiting (takes : c.takesCategory = true) : Means c "--category".toList (.category none)
  | attached (takes : c.takesCategory = true) (text : List Char) :
      Means c ("--category=".toList ++ text) (.category (some (.ofList text)))
  | help (cs : List Char) : Means c cs .help
  | unknown (cs : List Char) : Means c cs .unknown
  | plain (cs : List Char) : Means c cs .plain

theorem splitBack (cut : Reading.splitAtEquals cs = (name, attached)) :
    cs = name ++ attached.elim [] ('=' :: ·) := by
  unfold Reading.splitAtEquals at cut
  split at cut <;> cases cut
  · exact (List.append_nil _).symm
  · rename_i sign rest found
    have some : cs.dropWhile (fun c => decide (c ≠ '=')) ≠ [] := found ▸ List.cons_ne_nil sign rest
    have stopped := List.head_dropWhile_not _ some
    simp only [found, List.head_cons, decide_eq_false_iff_not, not_not] at stopped
    have whole := List.takeWhile_append_dropWhile (p := fun c => decide (c ≠ '=')) (l := cs)
    rw [found, stopped] at whole
    exact whole.symm

theorem optionMeans {rest : List Char} (whole : rest = name ++ attached.elim [] ('=' :: ·)) :
    Means c ('-' :: '-' :: rest) (ofOption c name attached) := by
  unfold ofOption
  split
  · split
    · exact .unknown _
    · exact .help _
  split
  · rename_i named
    cases attached with
    | some => exact .unknown _
    | none =>
      rw [whole, named]
      exact .flag
  split
  · rename_i named
    simp only [Bool.and_eq_true, beq_iff_eq] at named
    rw [whole, named.2]
    cases attached with
    | none => exact .awaiting named.1
    | some text => exact .attached named.1 text
  · exact .unknown _

theorem charsMean : Means c cs (ofChars c cs) := by
  unfold ofChars
  split
  · exact .ending
  · exact optionMeans (splitBack rfl)
  · exact .help _
  · exact .unknown _
  · exact .plain _

end Meaning

namespace Reading

variable {c : Subcommand} {r s next : Reading} {word : String} {words before after : List String}
  {called : Invocation} {command : Command}

theorem heardOpen (opened : r.trailing = false) : Meaning.Means c word.toList (r.heard c word) := by
  rw [heard, opened]
  exact Meaning.charsMean

theorem takeOpen (took : r.take c word = .ok next) (opened : r.trailing = false)
    (goesOn : word ≠ "--") :
    next.trailing = false ∧ (next.pending = .awaited → word = "--category") := by
  have step := takeObeys took
  have means : Meaning.Means c word.toList (r.heard c word) := heardOpen opened
  generalize spelled : word.toList = cs at means
  generalize r.heard c word = meaning at step means
  cases step with
  | ending =>
    cases means
    exact absurd (String.toList_inj.mp spelled) goesOn
  | flag settled | attached settled =>
    obtain ⟨calm, same⟩ := settleOk settled
    exact ⟨same.trailing.symm.trans opened, by simp [calm]⟩
  | awaiting settled =>
    cases means
    exact ⟨(settleOk settled).2.trailing.symm.trans opened, fun _ => String.toList_inj.mp spelled⟩
  | given => exact ⟨opened, nofun⟩
  | tag served =>
    exact ⟨opened, fun awaits => absurd (served awaits) (by simp [opened])⟩

theorem takeEnded (took : r.take c word = .ok next) (ended : r.trailing = true) :
    next.trailing = true := by
  have step := takeObeys took
  rw [heard, if_pos ended] at step
  cases step <;> exact ended

theorem takeEnding (took : r.take c "--" = .ok next) : next.trailing = true := by
  by_cases ended : r.trailing = true
  · exact takeEnded took ended
  have step := takeObeys took
  rw [heard, if_neg ended] at step
  cases step
  rfl

theorem takeAllAppend : r.takeAll c (before ++ after) = .ok next ↔
    ∃ middle, r.takeAll c before = .ok middle ∧ middle.takeAll c after = .ok next := by
  rw [takeAll, List.foldlM_append, bindOk]
  rfl

theorem takeAllCons : r.takeAll c (word :: words) = .ok next ↔
    ∃ middle, r.take c word = .ok middle ∧ middle.takeAll c words = .ok next := by
  rw [takeAll, List.foldlM_cons, bindOk]
  rfl

theorem takeAllOpen (read : r.takeAll c words = .ok next) (opened : r.trailing = false)
    (goesOn : "--" ∉ words) : next.trailing = false := by
  induction words generalizing r with
  | nil => cases read; exact opened
  | cons word words ih =>
    obtain ⟨middle, took, later⟩ := takeAllCons.mp read
    rw [List.mem_cons, not_or] at goesOn
    exact ih later (takeOpen took opened (Ne.symm goesOn.1)).1 goesOn.2

theorem takeAllEnded (read : r.takeAll c words = .ok next) (ends : "--" ∈ words) :
    next.trailing = true := by
  obtain ⟨before, after, rfl⟩ := List.append_of_mem ends
  obtain ⟨middle, _, later⟩ := takeAllAppend.mp read
  obtain ⟨ended, took, rest⟩ := takeAllCons.mp later
  exact foldKeeps (·.trailing = true) (fun kept took => takeEnded took kept) (takeEnding took) rest

theorem takeAllCalm (read : start.takeAll c words = .ok next) (goesOn : "--" ∉ words)
    (last : words.getLast? ≠ some "--category") : next.pending ≠ .awaited := by
  rcases words.eq_nil_or_concat with rfl | ⟨front, word, rfl⟩
  · cases read
    exact nofun
  · rw [List.concat_eq_append] at *
    obtain ⟨middle, earlier, later⟩ := takeAllAppend.mp read
    obtain ⟨_, took, same⟩ := takeAllCons.mp later
    cases same
    rw [List.mem_append, not_or, List.mem_singleton] at goesOn
    have opened : middle.trailing = false := takeAllOpen earlier rfl goesOn.1
    intro awaits
    have spelled := (takeOpen took opened (Ne.symm goesOn.2)).2 awaits
    exact last (by rw [List.getLast?_concat, spelled])

def flagged (r : Reading) : Reading := { r with internalTags := true }

theorem takeFlag (took : r.take c word = .ok next) :
    next.internalTags = r.internalTags ∨
      r.internalTags = false ∧ next.internalTags = true ∧ r.heard c word = .flag := by
  have step := takeObeys took
  generalize r.heard c word = meaning at step
  cases step with
  | ending | given | tag => exact .inl rfl
  | flag settled lowered =>
    exact .inr ⟨(settleOk settled).2.internalTags.trans lowered, rfl, rfl⟩
  | awaiting settled | attached settled => exact .inl (settleOk settled).2.internalTags.symm

theorem finishFlag (raised : r.internalTags = true) (ok : r.finish c words = .ok called) :
    called.internalTags = true := by
  induction words generalizing r with
  | nil =>
    obtain ⟨s, settled, _, same⟩ := finishNil.mp ok
    exact same.trans ((settleOk settled).2.internalTags.symm.trans raised)
  | cons word words ih =>
    rw [finishCons] at ok
    obtain ⟨next, took, later⟩ := bindOk.mp ok
    rcases takeFlag took with same | ⟨lowered, _⟩
    · exact ih (same.trans raised) later
    · rw [raised] at lowered
      cases lowered

theorem settleFlagged (settled : r.settle = .ok s) : r.flagged.settle = .ok s.flagged := by
  have same : r.flagged.settle = r.settle.map (·.beside true r.tag r.trailing) := settleBeside
  obtain ⟨_, kept⟩ := settleOk settled
  rw [same, settled, kept.tag, kept.trailing]
  rfl

theorem takeFlagged (took : r.take c word = .ok next) (lowered : next.internalTags = false) :
    r.flagged.take c word = .ok next.flagged := by
  have step := takeObeys took
  rw [takeMeaning]
  change obey c r.flagged word (r.heard c word) = _
  generalize r.heard c word = meaning at step
  cases step with
  | ending => rfl
  | flag => cases lowered
  | awaiting settled =>
    rw [obey, settleFlagged settled]
    rfl
  | attached settled free parsed =>
    rw [obey, settleFlagged settled]
    simp [bind, Except.bind, awaitCategory, giveCategory, flagged, free, parsed]
  | given awaits opened => simp [obey, takeWord, flagged, awaits, opened]
  | tag served takes free read =>
    have busy : ¬ (r.pending = .awaited ∧ r.trailing = false) := by
      rintro ⟨awaits, opened⟩
      rw [served awaits] at opened
      cases opened
    simp [obey, takeWord, flagged, busy, takes, free, read]

theorem finishFlagged (ok : r.finish c words = .ok ⟨command, false⟩) :
    r.flagged.finish c words = .ok ⟨command, true⟩ := by
  induction words generalizing r with
  | nil =>
    obtain ⟨s, settled, commanded, _⟩ := finishNil.mp ok
    exact finishNil.mpr ⟨s.flagged, settleFlagged settled, by cases c <;> exact commanded, rfl⟩
  | cons word words ih =>
    rw [finishCons] at ok ⊢
    obtain ⟨next, took, later⟩ := bindOk.mp ok
    have lowered : next.internalTags = false := Bool.eq_false_iff.mpr fun raised => by
      cases finishFlag raised later
    rw [takeFlagged took lowered]
    exact ih later

theorem takeTheFlag (opened : r.trailing = false) : r.take c "--internal-tags" = r.raiseFlag := by
  rw [takeMeaning, heard, opened]
  rfl

end Reading

open Reading

theorem flagInserted {c : Subcommand} {before after : List String} {command : Command}
    (valid : Invocation.ofWords c (before ++ after) = .ok ⟨command, false⟩)
    (goesOn : "--" ∉ before) (last : before.getLast? ≠ some "--category") :
    Invocation.ofWords c (before ++ "--internal-tags" :: after) = .ok ⟨command, true⟩ := by
  rw [finishStart, finishAppend] at *
  obtain ⟨r, read, rest⟩ := bindOk.mp valid
  have calm := takeAllCalm read goesOn last
  obtain ⟨s, settled⟩ := finishSettles calm rest
  rw [finishAlike (alikeSettled calm settled)] at rest
  have lowered : s.internalTags = false := Bool.eq_false_iff.mpr fun raised => by
    cases finishFlag raised rest
  refine bindOk.mpr ⟨r, read, ?_⟩
  rw [finishCons, takeTheFlag (takeAllOpen read rfl goesOn), raiseFlag, settled]
  simp only [bind, Except.bind, lowered]
  exact finishFlagged rest

theorem Reading.finishRaised {c : Subcommand} {r : Reading} {words : List String} {called : Invocation}
    (ok : r.finish c words = .ok called) (lowered : r.internalTags = false)
    (raised : called.internalTags = true) : r.trailing = false ∧
      ∃ before after, words = before ++ "--internal-tags" :: after ∧ "--" ∉ before := by
  induction words generalizing r with
  | nil =>
    obtain ⟨s, settled, _, same⟩ := finishNil.mp ok
    rw [same, ← (settleOk settled).2.internalTags, lowered] at raised
    cases raised
  | cons word words ih =>
    rw [finishCons] at ok
    obtain ⟨next, took, later⟩ := bindOk.mp ok
    have opened : next.trailing = false → r.trailing = false := fun opened =>
      Bool.eq_false_iff.mpr fun ended => by simp [takeEnded took ended] at opened
    rcases takeFlag took with same | ⟨_, _, flags⟩
    · obtain ⟨goesOn, before, after, rfl, without⟩ := ih later (same.trans lowered)
      refine ⟨opened goesOn, word :: before, after, rfl, ?_⟩
      rw [List.mem_cons, not_or]
      refine ⟨?_, without⟩
      rintro rfl
      rw [takeEnding took] at goesOn
      cases goesOn
    · have goesOn : r.trailing = false := Bool.eq_false_iff.mpr fun ended => by
        rw [heard, if_pos ended] at flags
        cases flags
      have means : Meaning.Means c word.toList (r.heard c word) := heardOpen goesOn
      rw [flags] at means
      generalize spelled : word.toList = cs at means
      cases means
      exact ⟨goesOn, [], words, by rw [String.toList_inj.mp spelled]; rfl, List.not_mem_nil⟩

theorem flagIff {c : Subcommand} {words : List String} {called : Invocation}
    (valid : Invocation.ofWords c words = .ok called) : called.internalTags = true ↔
      ∃ before after, words = before ++ "--internal-tags" :: after ∧ "--" ∉ before := by
  constructor
  · exact fun raised => (finishRaised valid rfl raised).2
  · rintro ⟨before, after, rfl, goesOn⟩
    rw [finishStart, finishAppend] at valid
    obtain ⟨r, read, rest⟩ := bindOk.mp valid
    rw [finishCons, takeTheFlag (takeAllOpen read rfl goesOn)] at rest
    obtain ⟨next, raises, later⟩ := bindOk.mp rest
    obtain ⟨s, _, raised⟩ := bindOk.mp raises
    split at raised <;> cases raised
    exact finishFlag rfl later

namespace Reading

variable {c : Subcommand} {r next : Reading} {word other : String} {words before after : List String}

theorem takePlain (stands : r.trailing = true ∨ word.toList.head? ≠ some '-') :
    r.take c word = r.takeWord c word := by
  rw [takeMeaning, heard]
  split
  · rfl
  · rename_i opened
    have lead := stands.resolve_left opened
    unfold Meaning.ofChars
    split <;> simp_all [obey]

theorem takeCalm (without : c.takesCategory = false) (calm : r.pending = .nothing)
    (took : r.take c word = .ok next) : next.pending = .nothing := by
  have step := takeObeys took
  by_cases opened : r.trailing = false
  · have means : Meaning.Means c word.toList (r.heard c word) := heardOpen opened
    generalize r.heard c word = meaning at step means
    generalize word.toList = cs at means
    cases step with
    | ending | tag => exact calm
    | flag settled => exact (settleOk settled).1
    | awaiting | attached =>
      cases means
      simp_all
    | given awaits => simp [calm] at awaits
  · rw [heard, if_pos (Bool.not_eq_false _ |>.mp opened)] at step
    cases step with
    | given awaits => simp [calm] at awaits
    | tag => exact calm

theorem takeCategory (opened : r.trailing = false) : r.take .catalog "--category" =
    (do (← r.settle).awaitCategory none) := by
  rw [takeMeaning, heard, opened]
  rfl

theorem takeAttached (text : String) (opened : r.trailing = false) :
    r.take .catalog ("--category=" ++ text) = (do (← r.settle).giveCategory text) := by
  have meant : Meaning.ofChars .catalog ("--category=" ++ text).toList = .category (some text) := by
    rw [String.toList_append]
    change Meaning.category (some (String.ofList text.toList)) = _
    rw [String.ofList_toList]
  rw [takeMeaning, heard, opened]
  change obey _ _ _ (Meaning.ofChars _ _) = _
  rw [meant]
  rfl

theorem takeNothing (ended : r.trailing = true) : r.take .catalog word = misuse := by
  rw [takePlain (.inl ended), takeWord, ended]
  simp [Subcommand.takesTag]

end Reading

section Spelling

variable {c : Subcommand} {word other : String} {before after : List String} {category : Category}

theorem finishAfter {words others : List String} (same : ∀ r, start.takeAll c before = .ok r →
    r.finish c words = r.finish c others) :
    Invocation.ofWords c (before ++ words) = Invocation.ofWords c (before ++ others) := by
  rw [finishStart, finishStart, finishAppend, finishAppend]
  cases read : start.takeAll c before with
  | error => rfl
  | ok r => exact same r read

theorem tagRespelled (without : c.takesCategory = false) (same : readTag word = readTag other)
    (stands : "--" ∈ before ∨ word.toList.head? ≠ some '-' ∧ other.toList.head? ≠ some '-') :
    Invocation.ofWords c (before ++ word :: after) = Invocation.ofWords c (before ++ other :: after) := by
  refine finishAfter fun r read => ?_
  have calm : r.pending = .nothing := foldKeeps (·.pending = .nothing) (takeCalm without) rfl read
  have ended := takeAllEnded read
  rw [finishCons, finishCons, takePlain (stands.imp ended (·.1)), takePlain (stands.imp ended (·.2))]
  simp [takeWord, calm, same]

theorem categoryRespelled (parsed : Category.parse word = some category)
    (parsedToo : Category.parse other = some category)
    (stands : word.toList.head? ≠ some '-') (standsToo : other.toList.head? ≠ some '-') :
    Invocation.ofWords .catalog (before ++ "--category" :: word :: after) =
      Invocation.ofWords .catalog (before ++ "--category" :: other :: after) := by
  refine finishAfter fun r _ => ?_
  rw [finishCons, finishCons]
  by_cases opened : r.trailing = false
  · rw [takeCategory opened]
    cases settled : r.settle with
    | error => rfl
    | ok s =>
      have goesOn : s.trailing = false := (settleOk settled).2.trailing.symm.trans opened
      have given (text : String) (lead : text.toList.head? ≠ some '-') :
          ({ s with pending := .awaited } : Reading).take .catalog text =
            .ok { s with pending := .given text } := by
        rw [takePlain (.inr lead), takeWord]
        simp [goesOn]
      change finish _ _ _ = finish _ _ _
      rw [finishCons, finishCons, given word stands, given other standsToo]
      have calm {text : String} : Pending.given text ≠ .awaited := Pending.noConfusion
      refine finishAlike ⟨⟨rfl, rfl, rfl⟩, ?_, calm, calm⟩
      simp [settle, giveCategory, parsed, parsedToo]
  · rw [takeNothing (Bool.not_eq_false _ |>.mp opened)]
    rfl

theorem attachedRespelled (parsed : Category.parse word = some category)
    (parsedToo : Category.parse other = some category) :
    Invocation.ofWords .catalog (before ++ ("--category=" ++ word) :: after) =
      Invocation.ofWords .catalog (before ++ ("--category=" ++ other) :: after) := by
  refine finishAfter fun r _ => ?_
  rw [finishCons, finishCons]
  by_cases opened : r.trailing = false
  · rw [takeAttached word opened, takeAttached other opened]
    simp [giveCategory, parsed, parsedToo]
  · rw [takeNothing (Bool.not_eq_false _ |>.mp opened), takeNothing (Bool.not_eq_false _ |>.mp opened)]

end Spelling

section Sisters

def Command.subcommand : Command → Subcommand
  | .catalog _ => .catalog
  | .classify _ => .classify
  | .lookup _ => .lookup
  | .check => .check

variable {c : Subcommand} {words : List String} {called : Invocation}

theorem ofWordsSubcommand (valid : Invocation.ofWords c words = .ok called) :
    called.command.subcommand = c := by
  obtain ⟨read, _, rest⟩ := bindOk.mp valid
  obtain ⟨s, _, rest⟩ := bindOk.mp rest
  obtain ⟨command, commanded, made⟩ := bindOk.mp rest
  cases made
  cases c with
  | catalog | check => cases commanded; rfl
  | classify | lookup =>
    change (Reading.command.tag s).map _ = _ at commanded
    cases tagged : Reading.command.tag s <;> rw [tagged] at commanded <;> cases commanded
    rfl

theorem takeSister : Reading.take .lookup = Reading.take .classify := by
  funext r word
  rfl

theorem sisterLines (words : List String) :
    (∃ halt, Invocation.ofWords .classify words = .error halt ∧
      Invocation.ofWords .lookup words = .error halt) ∨
    ∃ t internalTags, Invocation.ofWords .classify words = .ok ⟨.classify t, internalTags⟩ ∧
      Invocation.ofWords .lookup words = .ok ⟨.lookup t, internalTags⟩ := by
  unfold Invocation.ofWords
  rw [takeSister]
  cases words.foldlM (fun r word => r.take .classify word) Reading.start with
  | error halt => exact .inl ⟨halt, rfl, rfl⟩
  | ok r =>
    cases settled : r.settle with
    | error halt => exact .inl (by simp [bind, Except.bind, settled])
    | ok s =>
      cases tagged : Reading.command.tag s with
      | error halt =>
        exact .inl (by simp [bind, Except.bind, settled, Reading.command, tagged, Except.map])
      | ok t =>
        exact .inr (by simp [bind, Except.bind, pure, Except.pure, settled, Reading.command, tagged,
          Except.map])

end Sisters

end TaggedHeap.CommandLine
