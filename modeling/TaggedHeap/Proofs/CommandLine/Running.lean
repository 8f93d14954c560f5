import TaggedHeap.CommandLine.Run
import TaggedHeap.Proofs.Outcome

/-! What a run comes to. Its arguments are read first, and the environment's value only for a command
that does not ask for the internal tier itself. -/
namespace TaggedHeap

namespace Settings

variable {bytes : ByteArray} {text : String}

theorem textOfBytes : String.fromUTF8? bytes = some text ↔ bytes = text.toUTF8 := by
  unfold String.fromUTF8?
  constructor
  · intro read
    split at read <;> cases read
    rfl
  · rintro rfl
    exact dif_pos text.isValidUTF8

def Recognised (text : String) : Prop :=
  Text.trim text ∈ offSpellings ∨ Text.trim text ∈ onSpellings

instance (text : String) : Decidable (Recognised text) :=
  inferInstanceAs (Decidable (_ ∨ _))

theorem ofTextOff (off : Text.trim text ∈ offSpellings) : ofText text = .ok ⟨false⟩ :=
  if_pos (List.contains_iff_mem.mpr off)

theorem spellingsApart : ∀ text ∈ onSpellings, text ∉ offSpellings := by decide

theorem ofTextOn (on : Text.trim text ∈ onSpellings) : ofText text = .ok ⟨true⟩ := by
  have notOff : ¬ offSpellings.contains (Text.trim text) = true :=
    fun off => spellingsApart _ on (List.contains_iff_mem.mp off)
  rw [ofText, if_neg notOff, if_pos (List.contains_iff_mem.mpr on)]

theorem ofTextUnknown (unknown : ¬ Recognised text) : ofText text = .error ⟨Text.trim text⟩ := by
  obtain ⟨notOff, notOn⟩ := not_or.mp unknown
  rw [ofText, if_neg (mt List.contains_iff_mem.mp notOff),
    if_neg (mt List.contains_iff_mem.mp notOn)]

theorem ofBytes (text : String) : ofEnvironment (some text.toUTF8) = ofText text := by
  rw [ofEnvironment, Option.bind_some, textOfBytes.mpr rfl]
  rfl

theorem ofForeign (foreign : ¬ ∃ text : String, bytes = text.toUTF8) :
    ofEnvironment (some bytes) = ofEnvironment none := by
  have none : String.fromUTF8? bytes = Option.none :=
    Option.eq_none_iff_forall_ne_some.mpr fun text read => foreign ⟨text, textOfBytes.mp read⟩
  rw [ofEnvironment, Option.bind_some, none]
  rfl

theorem ofEnvironmentFault {environment : Option ByteArray} {fault : SettingsFault} :
    ofEnvironment environment = .error fault ↔ ∃ text : String,
      environment = some text.toUTF8 ∧ ¬ Recognised text ∧ fault = ⟨Text.trim text⟩ := by
  constructor
  · intro failed
    cases environment with
    | none => cases failed
    | some bytes =>
      by_cases known : ∃ text : String, bytes = text.toUTF8
      · obtain ⟨text, rfl⟩ := known
        rw [ofBytes] at failed
        have unknown : ¬ Recognised text := by
          rintro (off | on)
          · rw [ofTextOff off] at failed
            cases failed
          · rw [ofTextOn on] at failed
            cases failed
        rw [ofTextUnknown unknown] at failed
        cases failed
        exact ⟨text, rfl, unknown, rfl⟩
      · rw [ofForeign known] at failed
        cases failed
  · rintro ⟨text, rfl, unknown, rfl⟩
    rw [ofBytes, ofTextUnknown unknown]

end Settings

namespace CommandLine

variable {arguments words : List String} {environment other : Option ByteArray}
  {called : Invocation} {settings : Settings}

theorem runReads {others : List String}
    (same : Request.ofArguments arguments = Request.ofArguments others) :
    run arguments environment = run others environment := by
  rw [run, respond, same]
  rfl

theorem runMisread {fault : ArgumentFault} (read : Request.ofArguments arguments = .error fault) :
    run arguments environment = ⟨2, "", fault.message⟩ := by
  rw [run, respond, read]
  rfl

theorem runHelp (read : Request.ofArguments arguments = .ok .help) :
    run arguments environment = ⟨0, helpText, ""⟩ := by
  rw [run, respond, read]
  rfl

theorem runUnsettled {fault : SettingsFault}
    (read : Request.ofArguments arguments = .ok (.invocation called))
    (settled : called.settings environment = .error fault) :
    run arguments environment = ⟨2, "", fault.message ++ "\n"⟩ := by
  rw [run, respond, read]
  change Outcome.ofAnswer ((called.settings environment).mapError .settings >>= _) = _
  rw [settled]
  rfl

theorem runSettled (read : Request.ofArguments arguments = .ok (.invocation called))
    (settled : called.settings environment = .ok settings) :
    run arguments environment = .ofAnswer (answer settings called.command) := by
  rw [run, respond, read]
  change Outcome.ofAnswer ((called.settings environment).mapError .settings >>= _) = _
  rw [settled]
  rfl

inductive Runs (arguments : List String) (environment : Option ByteArray) : Outcome → Prop where
  | misread {fault : ArgumentFault} (read : Request.ofArguments arguments = .error fault) :
      Runs arguments environment ⟨2, "", fault.message⟩
  | help (read : Request.ofArguments arguments = .ok .help) :
      Runs arguments environment ⟨0, helpText, ""⟩
  | unsettled {called : Invocation} {fault : SettingsFault}
      (read : Request.ofArguments arguments = .ok (.invocation called))
      (settled : called.settings environment = .error fault) :
      Runs arguments environment ⟨2, "", fault.message ++ "\n"⟩
  | answered {called : Invocation} {settings : Settings}
      (read : Request.ofArguments arguments = .ok (.invocation called))
      (settled : called.settings environment = .ok settings) :
      Runs arguments environment (.ofAnswer (answer settings called.command))

theorem runRuns (arguments : List String) (environment : Option ByteArray) :
    Runs arguments environment (run arguments environment) := by
  cases read : Request.ofArguments arguments with
  | error fault => exact runMisread read ▸ .misread read
  | ok request =>
    cases request with
    | help => exact runHelp read ▸ .help read
    | invocation called =>
      cases settled : called.settings environment with
      | error fault => exact runUnsettled read settled ▸ .unsettled read settled
      | ok settings => exact runSettled read settled ▸ .answered read settled

theorem settingsFlagged (flagged : called.internalTags = true) :
    called.settings environment = .ok ⟨true⟩ := if_pos flagged

theorem settingsUnflagged (unflagged : called.internalTags = false) :
    called.settings environment = Settings.ofEnvironment environment := by
  rw [Invocation.settings, unflagged]
  rfl

theorem settingsFault {fault : SettingsFault} : called.settings environment = .error fault ↔
    called.internalTags = false ∧ Settings.ofEnvironment environment = .error fault := by
  cases flag : called.internalTags with
  | true => simp [settingsFlagged flag]
  | false => simp [settingsUnflagged flag]

theorem ofArgumentsNamed (c : Subcommand) (words : List String) :
    Request.ofArguments (c.name :: words) =
      match Invocation.ofWords c words with
      | .ok called => .ok (.invocation called)
      | .error .help => .ok .help
      | .error (.fault reason) => .error reason := by
  cases c <;> rfl

theorem invokedIff {c : Subcommand} : Request.ofArguments (c.name :: words) = .ok (.invocation called) ↔
    Invocation.ofWords c words = .ok called := by
  rw [ofArgumentsNamed]
  split <;> simp_all

theorem invokedNamed {first : String}
    (read : Request.ofArguments (first :: words) = .ok (.invocation called)) :
    ∃ c : Subcommand, first = c.name ∧ Invocation.ofWords c words = .ok called := by
  cases named : Subcommand.ofName? first with
  | none =>
    simp only [Request.ofArguments, Request.ofWords, named] at read
    split at read
    · unfold Request.helpOn at read
      repeat' split at read
      all_goals cases read
    · split at read <;> cases read
  | some c =>
    have same : c.name = first := by simpa using List.find?_some named
    subst same
    exact ⟨c, rfl, invokedIff.mp read⟩

end CommandLine

end TaggedHeap
