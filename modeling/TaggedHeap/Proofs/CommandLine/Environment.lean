import TaggedHeap.Proofs.CommandLine.Exits

/-! What the environment decides, and what it does not. A run sees of its line no more than the fault
or the command, and of the environment no more than the tier; how they were spelled is lost. -/
namespace TaggedHeap.CommandLine

inductive Reduced where
  | misread (fault : ArgumentFault)
  | help
  | calls (command : Command) (settings : Except SettingsFault Settings)

def reduce (arguments : List String) (environment : Option ByteArray) : Reduced :=
  match Request.ofArguments arguments with
  | .error fault => .misread fault
  | .ok .help => .help
  | .ok (.invocation called) => .calls called.command (called.settings environment)

def Reduced.outcome : Reduced → Outcome
  | .misread fault => ⟨2, "", fault.message⟩
  | .help => ⟨0, helpText, ""⟩
  | .calls _ (.error fault) => ⟨2, "", fault.message ++ "\n"⟩
  | .calls command (.ok settings) => .ofAnswer (answer settings command)

section Lines

variable {arguments others words before after : List String} {environment other : Option ByteArray}
  {c : Subcommand} {command : Command} {called : Invocation} {text word : String} {t : Tag}
  {category : Category}

theorem runReduced (arguments : List String) (environment : Option ByteArray) :
    run arguments environment = (reduce arguments environment).outcome := by
  have outcome := runRuns arguments environment
  generalize run arguments environment = o at outcome
  cases outcome with
  | misread read | help read =>
    rw [reduce, read]
    rfl
  | unsettled read settled | answered read settled =>
    simp only [reduce, read, settled]
    rfl

theorem runSettings (same : ∀ called, Request.ofArguments arguments = .ok (.invocation called) →
    called.settings environment = called.settings other) :
    run arguments environment = run arguments other := by
  rw [runReduced, runReduced, reduce, reduce]
  cases read : Request.ofArguments arguments with
  | error fault => rfl
  | ok request =>
    cases request with
    | help => rfl
    | invocation called => simp only [same called read]

theorem settingsOn (on : Text.trim text ∈ Settings.onSpellings) :
    called.settings (some text.toUTF8) = .ok ⟨true⟩ := by
  cases flag : called.internalTags with
  | true => exact settingsFlagged flag
  | false => rw [settingsUnflagged flag, Settings.ofBytes, Settings.ofTextOn on]

theorem settingsOff (off : Text.trim text ∈ Settings.offSpellings) :
    called.settings (some text.toUTF8) = called.settings none := by
  cases flag : called.internalTags with
  | true => rw [settingsFlagged flag, settingsFlagged flag]
  | false =>
    rw [settingsUnflagged flag, settingsUnflagged flag, Settings.ofBytes, Settings.ofTextOff off]
    rfl

theorem flagHeard (goesOn : "--" ∉ before)
    (read : Request.ofArguments (before ++ "--internal-tags" :: after) = .ok (.invocation called)) :
    called.internalTags = true := by
  cases before with
  | nil =>
    obtain ⟨c, named, _⟩ := invokedNamed read
    cases c <;> exact absurd named (by decide)
  | cons first before =>
    obtain ⟨c, _, valid⟩ := invokedNamed read
    exact (flagIff valid).mpr ⟨before, after, rfl, fun ends => goesOn (List.mem_cons_of_mem _ ends)⟩

theorem runFlagged (goesOn : "--" ∉ before) :
    run (before ++ "--internal-tags" :: after) environment =
      run (before ++ "--internal-tags" :: after) other :=
  runSettings fun called read => by
    have flagged := flagHeard goesOn read
    rw [settingsFlagged flagged, settingsFlagged flagged]

theorem runOn (valid : Invocation.ofWords c (before ++ after) = .ok ⟨command, false⟩)
    (goesOn : "--" ∉ before) (last : before.getLast? ≠ some "--category")
    (on : Text.trim text ∈ Settings.onSpellings) :
    run (c.name :: (before ++ after)) (some text.toUTF8) =
      run (c.name :: (before ++ "--internal-tags" :: after)) environment := by
  have flagged := invokedIff.mpr (flagInserted valid goesOn last)
  rw [runSettled (invokedIff.mpr valid) (settingsOn on), runSettled flagged (settingsFlagged rfl)]

theorem runWords (same : Invocation.ofWords c words = Invocation.ofWords c others) :
    run (c.name :: words) environment = run (c.name :: others) environment :=
  runReads (by rw [ofArgumentsNamed, ofArgumentsNamed, same])

theorem decimalStands (t : Tag) : (toString t.toNat).toList.head? ≠ some '-' := by
  rw [plainDecimal]
  intro dash
  obtain ⟨rest, spelled⟩ := List.head?_eq_some_iff.mp dash
  exact absurd (decimalDigit spelled) (by decide)

theorem runRespelled (takes : c.takesTag = true) (spells : Spells t word.toList)
    (stands : "--" ∈ before ∨ word.toList.head? ≠ some '-') :
    run (c.name :: (before ++ word :: after)) environment =
      run (c.name :: (before ++ toString t.toNat :: after)) environment := by
  have without : c.takesCategory = false := by cases c <;> first | rfl | cases takes
  have plain : readTag (toString t.toNat) = some t := readTagIff.mpr (plainDecimal t ▸ .plain 0)
  exact runWords (tagRespelled without ((readTagIff.mpr spells).trans plain.symm)
    (stands.imp_right fun lead => ⟨lead, decimalStands t⟩))

theorem paddedStands (pads : Text.Padded category.name word) : word.toList.head? ≠ some '-' := by
  obtain ⟨lead, trail, blank, _, spelled⟩ := pads
  rw [spelled]
  cases lead with
  | nil => cases category <;> simp [Category.name]
  | cons first lead =>
    rintro ⟨⟩
    exact absurd (List.all_eq_true.mp blank '-' List.mem_cons_self) (by decide)

theorem runPadded (pads : Text.Padded category.name word) :
    run ("catalog" :: (before ++ "--category" :: word :: after)) environment =
      run ("catalog" :: (before ++ "--category" :: category.name :: after)) environment ∧
    run ("catalog" :: (before ++ ("--category=" ++ word) :: after)) environment =
      run ("catalog" :: (before ++ ("--category=" ++ category.name) :: after)) environment := by
  have bare : Text.Padded category.name category.name := ⟨[], [], rfl, rfl, by simp⟩
  have parsed := Category.parseIff.mpr pads
  have parsedToo := Category.parseIff.mpr bare
  exact ⟨runWords (c := .catalog)
      (categoryRespelled parsed parsedToo (paddedStands pads) (paddedStands bare)),
    runWords (c := .catalog) (attachedRespelled parsed parsedToo)⟩

end Lines

/-- A run goes by the fault of its line, or by the command and the tier. So a line with a fault, or
with the flag before the end of its options, runs the same under all environments; without the flag a
value that spells true stands for it and one that spells false for no value. How a tag is spelled and
how the name of a category is padded tells a run nothing. -/
theorem commandAndTierDecide :
    (∀ arguments others environment other, reduce arguments environment = reduce others other →
      run arguments environment = run others other) ∧
    (∀ arguments fault, Request.ofArguments arguments = .error fault → ∀ environment other,
      run arguments environment = run arguments other) ∧
    (∀ before after, "--" ∉ before → ∀ environment other,
      run (before ++ "--internal-tags" :: after) environment =
        run (before ++ "--internal-tags" :: after) other) ∧
    (∀ arguments flagged command text environment,
      Request.ofArguments arguments = .ok (.invocation ⟨command, false⟩) →
      Request.ofArguments flagged = .ok (.invocation ⟨command, true⟩) →
      Text.trim text ∈ Settings.onSpellings →
        run arguments (some text.toUTF8) = run flagged environment) ∧
    (∀ (c : Subcommand) before after command text environment,
      Invocation.ofWords c (before ++ after) = .ok ⟨command, false⟩ → "--" ∉ before →
      before.getLast? ≠ some "--category" → Text.trim text ∈ Settings.onSpellings →
        run (c.name :: (before ++ after)) (some text.toUTF8) =
          run (c.name :: (before ++ "--internal-tags" :: after)) environment) ∧
    (∀ arguments text, Text.trim text ∈ Settings.offSpellings →
      run arguments (some text.toUTF8) = run arguments none) ∧
    (∀ word t, readTag word = some t ↔ Spells t word.toList) ∧
    (∀ (c : Subcommand) word t before after environment, c.takesTag = true →
      Spells t word.toList → ("--" ∈ before ∨ word.toList.head? ≠ some '-') →
        run (c.name :: (before ++ word :: after)) environment =
          run (c.name :: (before ++ toString t.toNat :: after)) environment) ∧
    (∀ word category, Category.parse word = some category ↔ Text.Padded category.name word) ∧
    ∀ (category : Category) word before after environment, Text.Padded category.name word →
      run ("catalog" :: (before ++ "--category" :: word :: after)) environment =
        run ("catalog" :: (before ++ "--category" :: category.name :: after)) environment ∧
      run ("catalog" :: (before ++ ("--category=" ++ word) :: after)) environment =
        run ("catalog" :: (before ++ ("--category=" ++ category.name) :: after)) environment := by
  refine ⟨?reduced, ?misread, fun _ _ goesOn _ _ => runFlagged goesOn, ?spelledOn,
    fun _ _ _ _ _ _ => runOn, ?spelledOff, fun _ _ => readTagIff, fun _ _ _ _ _ _ => runRespelled,
    fun _ _ => Category.parseIff, fun _ _ _ _ _ => runPadded⟩
  case reduced =>
    intro arguments others environment other same
    rw [runReduced, runReduced, same]
  case misread =>
    intro arguments fault read environment other
    rw [runMisread read, runMisread read]
  case spelledOn =>
    intro arguments flagged command text environment plain flag on
    rw [runSettled plain (settingsOn on), runSettled flag (settingsFlagged rfl)]
  case spelledOff =>
    intro arguments text off
    exact runSettings fun _ _ => settingsOff off

theorem spelledOtherwise :
    run ["classify", "+007"] (some " yes\n".toUTF8) =
      run ["classify", "7", "--internal-tags"] (some "maybe".toUTF8) ∧
    run ["catalog", "--category", " runtime-kind\t"] (some "NO".toUTF8) =
      run ["catalog", "--category", "runtime-kind"] none := by
  obtain ⟨_, _, _, _, on, off, spelled, respelled, padded, repadded⟩ := commandAndTierDecide
  have seven : Spells 7 "+007".toList := (spelled "+007" 7).mp (by decide +kernel)
  have blanks : Text.Padded Category.runtimeKind.name " runtime-kind\t" :=
    (padded _ .runtimeKind).mp (by decide +kernel)
  exact ⟨(respelled .classify _ 7 [] [] _ rfl seven (by decide)).trans
      (on .classify ["7"] [] (.classify 7) " yes\n" _ (by decide +kernel) (by decide) (by decide)
        (by decide +kernel)),
    (repadded .runtimeKind _ [] [] _ blanks).1.trans (off _ "NO" (by decide +kernel))⟩

/-- A line that leaves the tier to the environment: a spelling of true or false is heeded and any
other text refused. Bytes that are no text are passed over, as if there were no value. -/
theorem unflaggedHeeds {arguments : List String} {called : Invocation}
    (read : Request.ofArguments arguments = .ok (.invocation called))
    (unflagged : called.internalTags = false) (bytes : ByteArray) :
    (∀ text : String, bytes = text.toUTF8 →
      (Text.trim text ∈ Settings.onSpellings →
        run arguments (some bytes) = .ofAnswer (answer ⟨true⟩ called.command)) ∧
      (Text.trim text ∈ Settings.offSpellings →
        run arguments (some bytes) = .ofAnswer (answer ⟨false⟩ called.command)) ∧
      (¬ Settings.Recognised text →
        run arguments (some bytes) = ⟨2, "", "invalid HEAPTAG_INTERNAL_TAGS=" ++
          Text.quoted (Text.trim text) ++ " (expected 0/1/true/false/yes/no)" ++ "\n"⟩)) ∧
    ((¬ ∃ text : String, bytes = text.toUTF8) →
      run arguments (some bytes) = .ofAnswer (answer ⟨false⟩ called.command)) := by
  have heeds {settings : Settings} (given : Settings.ofEnvironment (some bytes) = .ok settings) :
      run arguments (some bytes) = .ofAnswer (answer settings called.command) :=
    runSettled read ((settingsUnflagged unflagged).trans given)
  refine ⟨?text, fun foreign => heeds (Settings.ofForeign foreign)⟩
  rintro text rfl
  refine ⟨fun on => heeds ?_, fun off => heeds ?_, fun unknown => ?_⟩
  · rw [Settings.ofBytes, Settings.ofTextOn on]
  · rw [Settings.ofBytes, Settings.ofTextOff off]
  · have given : Settings.ofEnvironment (some text.toUTF8) = .error ⟨Text.trim text⟩ := by
      rw [Settings.ofBytes, Settings.ofTextUnknown unknown]
    exact runUnsettled read ((settingsUnflagged unflagged).trans given)

theorem checkHeeds :
    run ["check"] (some " yes\n".toUTF8) = .ofAnswer (answer ⟨true⟩ .check) ∧
    (run ["check"] (some "maybe".toUTF8)).stderr =
      "invalid HEAPTAG_INTERNAL_TAGS=\"maybe\" (expected 0/1/true/false/yes/no)\n" := by
  have read : Request.ofArguments ["check"] = .ok (.invocation ⟨.check, false⟩) := rfl
  obtain ⟨heeded, _⟩ := unflaggedHeeds read rfl " yes\n".toUTF8
  obtain ⟨refused, _⟩ := unflaggedHeeds read rfl "maybe".toUTF8
  refine ⟨(heeded _ rfl).1 (by decide +kernel), ?_⟩
  rw [(refused _ rfl).2.2 (by decide +kernel)]
  decide +kernel

theorem foreignBytesPass : (¬ ∃ text : String, (⟨#[0xff]⟩ : ByteArray) = text.toUTF8) ∧
    (run ["check"] (some ⟨#[0xff]⟩)).code = 0 ∧
    run ["check"] (some ⟨#[0xff]⟩) = run ["check"] none := by
  have unread : String.fromUTF8? ⟨#[0xff]⟩ = none := by decide +kernel
  have foreign : ¬ ∃ text : String, (⟨#[0xff]⟩ : ByteArray) = text.toUTF8 := by
    rintro ⟨text, same⟩
    cases unread.symm.trans (Settings.textOfBytes.mpr same)
  have read : Request.ofArguments ["check"] = .ok (.invocation ⟨.check, false⟩) := rfl
  have unset : Invocation.settings ⟨.check, false⟩ none = .ok ⟨false⟩ := rfl
  have same : run ["check"] (some ⟨#[0xff]⟩) = run ["check"] none :=
    runSettings fun called again => by
      cases read.symm.trans again
      exact Settings.ofForeign foreign
  obtain ⟨s, m, serves⟩ := served ⟨false⟩
  obtain ⟨document, answers⟩ := answerCheck serves
  refine ⟨foreign, ?_, same⟩
  rw [same, runSettled read unset, answers]
  rfl

end TaggedHeap.CommandLine
