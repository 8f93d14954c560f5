import TaggedHeap.CommandLine.Arguments
import TaggedHeap.ObjectModel.Standard
import TaggedHeap.Report.Document

/-! A run of the command line: arguments and the environment's setting in, exit code and the texts of
both outputs out. The environment counts only where the arguments are in order and do not ask for
the internal tier themselves. Argument faults are told without a line break. -/
namespace TaggedHeap.CommandLine

structure Outcome where
  code : UInt32
  stdout : String
  stderr : String
  deriving DecidableEq, Repr

structure StageFault where
  stage : String
  fault : Fault
  deriving DecidableEq, Repr

def StageFault.message (f : StageFault) : String := f.stage ++ ": " ++ f.fault.text

inductive RunFault where
  | arguments (fault : ArgumentFault)
  | settings (fault : SettingsFault)
  | stage (fault : StageFault)
  | dispatch (fault : Fault)
  deriving DecidableEq, Repr

def RunFault.message : RunFault → String
  | .arguments fault => fault.message
  | .settings fault => fault.message ++ "\n"
  | .stage fault => fault.message ++ "\n"
  | .dispatch fault => fault.text ++ "\n"

def during {β : Type} (stage : String) (action : Except Fault β) : Except RunFault β :=
  action.mapError fun fault => .stage ⟨stage, fault⟩

inductive Answer where
  | help
  | report (document : Json) (ok : Bool)

def helpText : String :=
  "Inspect the tagged heap-object model.\n\n" ++
  "catalog [--category NAME]  every tag of the standard catalog with its category\n" ++
  "classify TAG               the category of a tag\n" ++
  "lookup TAG                 the operations that the dispatch table holds for a tag\n" ++
  "check                      the completeness of the dispatch table\n\n" ++
  "--internal-tags appends the internal tier, as " ++ Settings.variableName ++ "=1 does.\n"

namespace Answer

def text : Answer → String
  | .help => helpText
  | .report document _ => document.pretty ++ "\n"

def code : Answer → UInt32
  | .help => 0
  | .report _ ok => if ok then 0 else 1

end Answer

def standardSpace (settings : Settings) : Except RunFault TagSpace :=
  during "build standard tag space" (Standard.space settings.internalTier)

def standardModel (settings : Settings) : Except RunFault (ObjectModel Unit Unit) :=
  during "build object model" (ObjectModel.standard settings)

def standardBuilder (s : TagSpace) : Except Fault (DispatchBuilder Unit Unit) := do
  let empty ← DispatchBuilder.ofSpace s
  empty.installAll [Standard.layouts, Standard.opaqueBehaviors []]

def answer (settings : Settings) : Command → Except RunFault Answer
  | .catalog only => do
    let space ← standardSpace settings
    let ranges ← during "resolve standard ranges" (Standard.Ranges.resolve space)
    return .report (CatalogReport.ofSpace space (some ranges) only).toJson true
  | .classify tag => do
    let model ← standardModel settings
    let report := model.classifyReport tag
    return .report report.toJson report.ok
  | .lookup tag => do
    let model ← standardModel settings
    let report := model.lookupReport tag
    return .report report.toJson report.ok
  | .check => do
    let space ← standardSpace settings
    let builder ← (standardBuilder space).mapError .dispatch
    let report := CheckReport.ofGaps space builder.gaps
    return .report report.toJson report.ok

def Invocation.settings (i : Invocation) (environment : Option ByteArray) :
    Except SettingsFault Settings :=
  if i.internalTags then .ok ⟨true⟩ else Settings.ofEnvironment environment

def respond (arguments : List String) (environment : Option ByteArray) :
    Except RunFault Answer := do
  match ← (Request.ofArguments arguments).mapError .arguments with
  | .help => return .help
  | .invocation called =>
    let settings ← (called.settings environment).mapError .settings
    answer settings called.command

def Outcome.ofAnswer : Except RunFault Answer → Outcome
  | .ok answer => ⟨answer.code, answer.text, ""⟩
  | .error fault => ⟨2, "", fault.message⟩

def run (arguments : List String) (environment : Option ByteArray) : Outcome :=
  .ofAnswer (respond arguments environment)

end TaggedHeap.CommandLine
