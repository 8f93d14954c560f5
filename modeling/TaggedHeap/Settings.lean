import TaggedHeap.Text.Blank
import TaggedHeap.Text.Quoted

/-! The one setting of an object model, and how the environment gives it. A variable that is unset,
or whose bytes are no UTF-8 text, leaves the internal tier out. -/
namespace TaggedHeap

structure Settings where
  internalTier : Bool
  deriving DecidableEq, Repr

structure SettingsFault where
  text : String
  deriving DecidableEq, Repr

namespace Settings

def variableName : String := "HEAPTAG_INTERNAL_TAGS"

def offSpellings : List String := ["", "0", "false", "FALSE", "no", "NO"]

def onSpellings : List String := ["1", "true", "TRUE", "yes", "YES"]

def default : Settings := ⟨false⟩

def ofText (raw : String) : Except SettingsFault Settings :=
  let text := Text.trim raw
  if offSpellings.contains text then .ok ⟨false⟩
  else if onSpellings.contains text then .ok ⟨true⟩
  else .error ⟨text⟩

def ofText? : Option String → Except SettingsFault Settings
  | none => .ok default
  | some raw => ofText raw

def ofEnvironment (value : Option ByteArray) : Except SettingsFault Settings :=
  ofText? (value.bind String.fromUTF8?)

end Settings

def SettingsFault.message (f : SettingsFault) : String :=
  "invalid " ++ Settings.variableName ++ "=" ++ Text.quoted f.text ++
    " (expected 0/1/true/false/yes/no)"

end TaggedHeap
