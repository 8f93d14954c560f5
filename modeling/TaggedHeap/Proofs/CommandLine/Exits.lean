import TaggedHeap.Proofs.CommandLine.Rewording
import TaggedHeap.Proofs.CommandLine.Running
import TaggedHeap.Proofs.ObjectModel.Validity
import TaggedHeap.Proofs.Standard.Equipment

/-! What the exit code tells. Nothing goes wrong once the settings are known: the standard space, the
ranges and the dispatch table come about with the internal tier and without it, so 2 is left to lines
that cannot be read and values that are not recognised, and 1 to tags beyond the space. -/
namespace TaggedHeap.CommandLine

section Answers

variable {settings : Settings} {s : TagSpace} {m : ObjectModel Unit Unit} {t : Tag}

structure Serves (settings : Settings) (s : TagSpace) (m : ObjectModel Unit Unit) : Prop where
  made : Standard.space settings.internalTier = .ok s
  formed : Standard.Formed settings.internalTier s
  modelled : ObjectModel.standard settings = .ok m
  finished : m.Finished
  space : m.space = s

theorem served (settings : Settings) : ∃ s m, Serves settings s m := by
  obtain ⟨s, made, formed⟩ := Standard.spaceFormed settings.internalTier
  obtain ⟨m, modelled, finished, space⟩ := Standard.standardModelled made formed
  exact ⟨s, m, made, formed, modelled, finished, space⟩

theorem servedSpace (serves : Serves settings s m) : standardSpace settings = .ok s := by
  rw [standardSpace, serves.made]
  rfl

theorem servedModel (serves : Serves settings s m) : standardModel settings = .ok m := by
  rw [standardModel, serves.modelled]
  rfl

theorem answerCatalog (serves : Serves settings s m) (only : Option Category) :
    ∃ document, answer settings (.catalog only) = .ok (.report document true) := by
  obtain ⟨ranges, resolved⟩ := Standard.rangesResolve serves.formed
  exact ⟨_, bindOk.mpr ⟨s, servedSpace serves,
    bindOk.mpr ⟨ranges, mapErrorOk.mpr resolved, rfl⟩⟩⟩

theorem answerCheck (serves : Serves settings s m) :
    ∃ document, answer settings .check = .ok (.report document true) := by
  obtain ⟨fresh, made⟩ : ∃ fresh : DispatchBuilder Unit Unit, DispatchBuilder.ofSpace s = .ok fresh :=
    Standard.freshMade serves.formed.frozen
  obtain ⟨b, installed, equips⟩ :=
    Standard.equipped (TagSpace.reachableSound serves.formed.reachable) made []
  have built : standardBuilder s = .ok b := bindOk.mpr ⟨fresh, made, installed⟩
  have good : (CheckReport.ofGaps s b.gaps).ok = true := by rw [equips.gapless]; rfl
  refine ⟨(CheckReport.ofGaps s b.gaps).toJson,
    bindOk.mpr ⟨s, servedSpace serves, bindOk.mpr ⟨b, mapErrorOk.mpr built, ?_⟩⟩⟩
  change Except.ok (Answer.report _ (CheckReport.ofGaps s b.gaps).ok) = _
  rw [good]

theorem answerClassify (serves : Serves settings s m) (t : Tag) : answer settings (.classify t) =
    .ok (.report (m.classifyReport t).toJson (m.classifyReport t).ok) :=
  bindOk.mpr ⟨m, servedModel serves, rfl⟩

theorem answerLookup (serves : Serves settings s m) (t : Tag) : answer settings (.lookup t) =
    .ok (.report (m.lookupReport t).toJson (m.lookupReport t).ok) :=
  bindOk.mpr ⟨m, servedModel serves, rfl⟩

def refusal (report : String) (t : Tag) (fault : Fault) : Json :=
  .object [schemaField report, ("ok", .flag false), ("tag", .tag t), ("error", .text fault.text)]

def refusalText (report : String) (t : Tag) (fault : Fault) : String :=
  "\n".intercalate
    ["\x7b",
      "  \"schema_version\": " ++ Json.quote ("heaptag." ++ report ++ ".report@0.1.0") ++ ",",
      "  \"ok\": false,",
      "  \"tag\": " ++ toString t.toNat ++ ",",
      "  \"error\": " ++ Json.quote fault.text,
      "\x7d"]

theorem refusalPrinted (report : String) (t : Tag) (fault : Fault) :
    (refusal report t fault).pretty = refusalText report t fault := by
  have inner : Json.newLine 1 = "\n  " := by decide
  have outer : Json.newLine 0 = "\n" := by decide
  have version : Json.quote "schema_version" = "\"schema_version\"" := by decide +kernel
  have ok : Json.quote "ok" = "\"ok\"" := by decide
  have tag : Json.quote "tag" = "\"tag\"" := by decide
  have error : Json.quote "error" = "\"error\"" := by decide +kernel
  simp only [refusal, refusalText, Json.pretty, Json.render, Json.renderFields, Json.tag, schemaField,
    Nat.zero_add, inner, outer, version, ok, tag, error, Bool.false_eq_true, if_false]
  -- Both sides have the same characters, cut into texts at other places.
  apply String.toList_inj.mp
  simp

theorem reportsBelow (serves : Serves settings s m) (below : t < s.last) :
    (m.classifyReport t).ok = true ∧ (m.lookupReport t).ok = true ∧
      (m.classifyReport t).name = (m.lookupReport t).name := by
  obtain ⟨made, formed, modelled, finished, rfl⟩ := serves
  obtain ⟨category, e, layout, known⟩ :=
    ObjectModel.belowKnown (ObjectModel.finishedWhole finished) formed.room below
  obtain ⟨classified, looked⟩ := ObjectModel.belowReports known
  rw [classified, looked]
  exact ⟨rfl, rfl, rfl⟩

theorem reportsBeyond (serves : Serves settings s m) (beyond : ¬ t < s.last) :
    m.classifyReport t = ⟨false, t, none, none, some (Fault.unknownTag t s.last).text⟩ ∧
    m.lookupReport t = ⟨false, t, none, [], none, some (Fault.noEntry t s.size).text⟩ := by
  obtain ⟨made, formed, modelled, finished, rfl⟩ := serves
  have nameless : m.space.nameAt t = none := by
    refine Option.eq_none_iff_forall_ne_some.mpr fun name named => beyond ?_
    obtain ⟨category, found⟩ := TagSpace.nameSlot.mp named
    exact (TagSpace.slotBelow formed.room).mpr ⟨_, found⟩
  obtain ⟨classified, looked⟩ := ObjectModel.beyondReports finished formed.room beyond
  rw [classified, looked, nameless]
  exact ⟨rfl, rfl⟩

inductive Missed (settings : Settings) : Command → Json → Prop where
  | classify {s : TagSpace} {t : Tag} (made : Standard.space settings.internalTier = .ok s)
      (beyond : s.last ≤ t) :
      Missed settings (.classify t) (refusal "classify" t (.unknownTag t s.last))
  | lookup {s : TagSpace} {t : Tag} (made : Standard.space settings.internalTier = .ok s)
      (beyond : s.last ≤ t) : Missed settings (.lookup t) (refusal "lookup" t (.noEntry t s.size))

theorem missedRefusal {command : Command} {document : Json}
    (missed : Missed settings command document) :
    ∃ report t fault, document = refusal report t fault := by
  cases missed <;> exact ⟨_, _, _, rfl⟩

theorem classifyMissed (serves : Serves settings s m) {document : Json} :
    Missed settings (.classify t) document ↔
      s.last ≤ t ∧ document = refusal "classify" t (.unknownTag t s.last) := by
  constructor
  · intro missed
    cases missed with
    | classify made beyond =>
      cases serves.made.symm.trans made
      exact ⟨beyond, rfl⟩
  · rintro ⟨beyond, rfl⟩
    exact .classify serves.made beyond

theorem lookupMissed (serves : Serves settings s m) {document : Json} :
    Missed settings (.lookup t) document ↔
      s.last ≤ t ∧ document = refusal "lookup" t (.noEntry t s.size) := by
  constructor
  · intro missed
    cases missed with
    | lookup made beyond =>
      cases serves.made.symm.trans made
      exact ⟨beyond, rfl⟩
  · rintro ⟨beyond, rfl⟩
    exact .lookup serves.made beyond

structure Answered (settings : Settings) (command : Command) (document : Json) (ok : Bool) : Prop where
  answers : answer settings command = .ok (.report document ok)
  bad : ok = false → Missed settings command document
  missed : ∀ refused, Missed settings command refused → ok = false ∧ document = refused

theorem answeredTag {command : Command} {document refused : Json} {ok : Bool}
    (answers : answer settings command = .ok (.report document ok))
    (missed : ∀ {other}, Missed settings command other ↔ s.last ≤ t ∧ other = refused)
    (below : t < s.last → ok = true) (beyond : ¬ t < s.last → ok = false ∧ document = refused) :
    Answered settings command document ok where
  answers := answers
  bad refuses := by
    have far : ¬ t < s.last := fun near => by
      rw [below near] at refuses
      cases refuses
    exact missed.mpr ⟨UInt32.not_lt.mp far, (beyond far).2⟩
  missed other misses := by
    obtain ⟨far, rfl⟩ := missed.mp misses
    exact beyond (UInt32.not_lt.mpr far)

theorem answered (settings : Settings) (command : Command) :
    ∃ document ok, Answered settings command document ok := by
  obtain ⟨s, m, serves⟩ := served settings
  cases command with
  | catalog only =>
    obtain ⟨document, answers⟩ := answerCatalog serves only
    exact ⟨document, true, answers, nofun, nofun⟩
  | check =>
    obtain ⟨document, answers⟩ := answerCheck serves
    exact ⟨document, true, answers, nofun, nofun⟩
  | classify t =>
    refine ⟨_, _, answeredTag (answerClassify serves t) (classifyMissed serves)
      (fun below => (reportsBelow serves below).1) fun beyond => ?_⟩
    rw [(reportsBeyond serves beyond).1]
    exact ⟨rfl, rfl⟩
  | lookup t =>
    refine ⟨_, _, answeredTag (answerLookup serves t) (lookupMissed serves)
      (fun below => (reportsBelow serves below).2.1) fun beyond => ?_⟩
    rw [(reportsBeyond serves beyond).2]
    exact ⟨rfl, rfl⟩

end Answers

section Outcomes

variable {arguments words : List String} {environment : Option ByteArray}

theorem appendPrinted (front : String) {back : String} (printed : back ≠ "") : front ++ back ≠ "" := by
  intro none
  have nothing := congrArg String.toList none
  rw [String.toList_append] at nothing
  exact printed (String.toList_inj.mp (List.append_eq_nil_iff.mp nothing).2)

theorem textPrinted (a : Answer) : a.text ≠ "" := by
  cases a with
  | help =>
    unfold Answer.text helpText
    exact appendPrinted _ (by decide)
  | report document ok => exact appendPrinted _ (by decide)

inductive Stopped (arguments : List String) (environment : Option ByteArray) : Prop where
  | misread {fault : ArgumentFault} (read : Request.ofArguments arguments = .error fault)
  | unrecognised {called : Invocation} {text : String}
      (read : Request.ofArguments arguments = .ok (.invocation called))
      (unflagged : called.internalTags = false) (set : environment = some text.toUTF8)
      (unknown : ¬ Settings.Recognised text)

theorem stoppedIff : Stopped arguments environment ↔
    (∃ fault, Request.ofArguments arguments = .error fault) ∨
      ∃ called fault, Request.ofArguments arguments = .ok (.invocation called) ∧
        called.settings environment = .error fault := by
  simp only [settingsFault, Settings.ofEnvironmentFault]
  constructor
  · rintro (⟨read⟩ | ⟨read, unflagged, set, unknown⟩)
    · exact .inl ⟨_, read⟩
    · exact .inr ⟨_, _, read, unflagged, _, set, unknown, rfl⟩
  · rintro (⟨_, read⟩ | ⟨_, _, read, unflagged, _, set, unknown, _⟩)
    · exact .misread read
    · exact .unrecognised read unflagged set unknown

def Misses (arguments : List String) (environment : Option ByteArray) (document : Json) : Prop :=
  ∃ called settings, Request.ofArguments arguments = .ok (.invocation called) ∧
    called.settings environment = .ok settings ∧ Missed settings called.command document

structure CodeTells (arguments : List String) (environment : Option ByteArray) (o : Outcome) : Prop where
  silent : o.code = 2 ↔ o.stdout = ""
  stopped : o.code = 2 ↔ Stopped arguments environment
  missed : o.code = 1 ↔ ∃ document, Misses arguments environment document
  printed : ∀ document, Misses arguments environment document → o.stdout = document.pretty ++ "\n"
  spelled : ∀ document, Misses arguments environment document → ∃ report t fault,
    document = refusal report t fault ∧ o.stdout = refusalText report t fault ++ "\n"

theorem hitTells {o : Outcome} (hits : ∀ document, ¬ Misses arguments environment document)
    (one : o.code ≠ 1) (silent : o.code = 2 ↔ o.stdout = "")
    (stopped : o.code = 2 ↔ Stopped arguments environment) : CodeTells arguments environment o where
  silent := silent
  stopped := stopped
  missed := ⟨fun bad => absurd bad one, fun ⟨document, misses⟩ => absurd misses (hits document)⟩
  printed document misses := absurd misses (hits document)
  spelled document misses := absurd misses (hits document)

theorem misreadTells {fault : ArgumentFault} (read : Request.ofArguments arguments = .error fault) :
    CodeTells arguments environment ⟨2, "", fault.message⟩ := by
  refine hitTells ?_ nofun ⟨fun _ => rfl, fun _ => rfl⟩ ⟨fun _ => .misread read, fun _ => rfl⟩
  rintro document ⟨_, _, again, _⟩
  cases read.symm.trans again

theorem helpTells (read : Request.ofArguments arguments = .ok .help) :
    CodeTells arguments environment ⟨0, helpText, ""⟩ := by
  refine hitTells ?_ nofun ⟨nofun, fun none => absurd none (textPrinted .help)⟩
    ⟨nofun, fun stopped => ?_⟩
  · rintro document ⟨_, _, again, _⟩
    cases read.symm.trans again
  · rcases stoppedIff.mp stopped with ⟨_, again⟩ | ⟨_, _, again, _⟩ <;> cases read.symm.trans again

theorem unsettledTells {called : Invocation} {fault : SettingsFault}
    (read : Request.ofArguments arguments = .ok (.invocation called))
    (settled : called.settings environment = .error fault) :
    CodeTells arguments environment ⟨2, "", fault.message ++ "\n"⟩ := by
  refine hitTells ?_ nofun ⟨fun _ => rfl, fun _ => rfl⟩
    ⟨fun _ => stoppedIff.mpr (.inr ⟨_, _, read, settled⟩), fun _ => rfl⟩
  rintro document ⟨_, _, again, other, _⟩
  cases read.symm.trans again
  cases settled.symm.trans other

theorem answerTells {called : Invocation} {settings : Settings}
    (read : Request.ofArguments arguments = .ok (.invocation called))
    (settled : called.settings environment = .ok settings) :
    CodeTells arguments environment (.ofAnswer (answer settings called.command)) := by
  obtain ⟨document, ok, answers, bad, missed⟩ := answered settings called.command
  rw [answers]
  have two : (Outcome.ofAnswer (.ok (.report document ok))).code ≠ 2 := by
    cases ok <;> simp [Outcome.ofAnswer, Answer.code]
  have one : (Outcome.ofAnswer (.ok (.report document ok))).code = 1 ↔ ok = false := by
    cases ok <;> simp [Outcome.ofAnswer, Answer.code]
  have known {refused : Json} (misses : Misses arguments environment refused) :
      ok = false ∧ document = refused := by
    obtain ⟨_, _, again, other, misses⟩ := misses
    cases read.symm.trans again
    cases settled.symm.trans other
    exact missed refused misses
  have prints {refused : Json} (misses : Misses arguments environment refused) :
      (Outcome.ofAnswer (.ok (.report document ok))).stdout = refused.pretty ++ "\n" := by
    rw [← (known misses).2]
    rfl
  refine ⟨⟨fun stops => absurd stops two, fun none => absurd none (textPrinted (.report document ok))⟩,
    ⟨fun stops => absurd stops two, fun stopped => ?_⟩, one.trans ⟨fun refuses => ?_, ?_⟩,
    fun refused => prints, fun refused misses => ?_⟩
  · rcases stoppedIff.mp stopped with ⟨_, again⟩ | ⟨_, _, again, other⟩
    · cases read.symm.trans again
    · cases read.symm.trans again
      cases settled.symm.trans other
  · exact ⟨document, called, settings, read, settled, bad refuses⟩
  · rintro ⟨refused, misses⟩
    exact (known misses).1
  · obtain ⟨_, _, _, _, refuses⟩ := id misses
    obtain ⟨report, t, fault, rfl⟩ := missedRefusal refuses
    exact ⟨report, t, fault, rfl, (prints misses).trans (congrArg (· ++ "\n") (refusalPrinted ..))⟩

theorem codeTells (arguments : List String) (environment : Option ByteArray) :
    CodeTells arguments environment (run arguments environment) := by
  have outcome := runRuns arguments environment
  generalize run arguments environment = o at outcome
  cases outcome with
  | misread read => exact misreadTells read
  | help read => exact helpTells read
  | unsettled read settled => exact unsettledTells read settled
  | answered read settled => exact answerTells read settled

theorem missesAsk {c : Subcommand} {document : Json}
    (misses : Misses (c.name :: words) environment document) : c.takesTag = true := by
  obtain ⟨called, settings, read, _, missed⟩ := misses
  have asked := ofWordsSubcommand (invokedIff.mp read)
  generalize called.command = command at asked missed
  cases missed <;> exact asked ▸ rfl

def SameNews (first second : Outcome) : Prop :=
  first = second ∨ ∃ (classified : ClassifyReport) (looked : LookupReport),
    classified.name = looked.name ∧ classified.ok = looked.ok ∧
    first = .ofAnswer (.ok (.report classified.toJson classified.ok)) ∧
    second = .ofAnswer (.ok (.report looked.toJson looked.ok))

theorem sameNewsCode {first second : Outcome} (news : SameNews first second) :
    first.code = second.code := by
  rcases news with rfl | ⟨classified, looked, _, ok, rfl, rfl⟩
  · rfl
  · rw [ok]
    rfl

theorem sisterRuns (words : List String) (environment : Option ByteArray) :
    SameNews (run ("classify" :: words) environment) (run ("lookup" :: words) environment) := by
  rcases sisterLines words with ⟨halt, first, second⟩ | ⟨t, internalTags, first, second⟩
  · refine .inl (runReads ?_)
    change Request.ofArguments (Subcommand.classify.name :: words) =
      Request.ofArguments (Subcommand.lookup.name :: words)
    rw [ofArgumentsNamed, ofArgumentsNamed, first, second]
  · have classifies := invokedIff.mpr first
    have looks := invokedIff.mpr second
    cases settled : Invocation.settings ⟨.classify t, internalTags⟩ environment with
    | error fault =>
      exact .inl ((runUnsettled classifies settled).trans (runUnsettled looks settled).symm)
    | ok settings =>
      obtain ⟨s, m, serves⟩ := served settings
      have agree : (m.classifyReport t).name = (m.lookupReport t).name ∧
          (m.classifyReport t).ok = (m.lookupReport t).ok := by
        by_cases below : t < s.last
        · obtain ⟨classified, looked, same⟩ := reportsBelow serves below
          exact ⟨same, classified.trans looked.symm⟩
        · rw [(reportsBeyond serves below).1, (reportsBeyond serves below).2]
          exact ⟨rfl, rfl⟩
      exact .inr ⟨_, _, agree.1, agree.2,
        (runSettled classifies settled).trans (congrArg _ (answerClassify serves t)),
        (runSettled looks settled).trans (congrArg _ (answerLookup serves t))⟩

end Outcomes

/-- For any arguments and any environment the exit code tells what happened; no catalog and no check
ends with bad news, and the two commands that take a tag agree on what they find. -/
theorem exitCodesTell (arguments : List String) (environment : Option ByteArray) :
    CodeTells arguments environment (run arguments environment) ∧
    (∀ words, (run ("catalog" :: words) environment).code ≠ 1 ∧
      (run ("check" :: words) environment).code ≠ 1) ∧
    ∀ words, (run ("classify" :: words) environment).code = (run ("lookup" :: words) environment).code ∧
      SameNews (run ("classify" :: words) environment) (run ("lookup" :: words) environment) := by
  have never {c : Subcommand} (silent : c.takesTag = false) (words : List String) :
      (run (c.name :: words) environment).code ≠ 1 := by
    intro one
    obtain ⟨document, misses⟩ := (codeTells _ _).missed.mp one
    rw [missesAsk misses] at silent
    cases silent
  refine ⟨codeTells arguments environment, fun words => ⟨?catalog, ?check⟩, fun words => ?_⟩
  case catalog => exact never (c := .catalog) rfl words
  case check => exact never (c := .check) rfl words
  have news := sisterRuns words environment
  exact ⟨sameNewsCode news, news⟩

theorem lastTagMissed : ∃ s, Standard.space false = .ok s ∧
    (run ["lookup", "4294967295"] none).code = 1 ∧ (run ["lookup", "4294967295"] none).stdout =
      refusalText "lookup" 4294967295 (.noEntry 4294967295 s.size) ++ "\n" := by
  obtain ⟨s, m, serves⟩ := served ⟨false⟩
  have misses : Misses ["lookup", "4294967295"] none _ := ⟨⟨.lookup 4294967295, false⟩, ⟨false⟩,
    by decide +kernel, rfl, .lookup serves.made
      (UInt32.le_iff_toNat_le.mpr (Nat.le_of_lt_succ s.last.toNat_lt))⟩
  obtain ⟨tells, _⟩ := exitCodesTell ["lookup", "4294967295"] none
  refine ⟨s, serves.made, tells.missed.mpr ⟨_, misses⟩, ?_⟩
  rw [← refusalPrinted]
  exact tells.printed _ misses

end TaggedHeap.CommandLine
