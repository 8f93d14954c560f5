import TaggedHeap.Category
import TaggedHeap.Text.Quoted
import TaggedHeap.Word

/-! Command lines: a subcommand, its options in any order, and a tag for those subcommands that take
one. The value of an option is read only when the next option or the end of the line asks for it,
which decides between two faults on one line. A request for help ends the reading where it stands,
once the value before it has been read. -/
namespace TaggedHeap.CommandLine

inductive Command where
  | catalog (only : Option Category)
  | classify (tag : Tag)
  | lookup (tag : Tag)
  | check
  deriving DecidableEq, Repr

structure Invocation where
  command : Command
  internalTags : Bool
  deriving DecidableEq, Repr

inductive Request where
  | help
  | invocation (called : Invocation)
  deriving DecidableEq, Repr

inductive ArgumentFault where
  | usage
  | unknownCategory (text : String)
  deriving DecidableEq, Repr

def ArgumentFault.message : ArgumentFault → String
  | .usage => "usage"
  | .unknownCategory text =>
    "unknown category " ++ Text.quoted text ++ " (expected one of " ++
      ", ".intercalate (Category.all.map Category.name) ++ ")"

inductive Subcommand where
  | catalog
  | classify
  | lookup
  | check
  deriving DecidableEq, Repr

namespace Subcommand

def all : List Subcommand := [.catalog, .classify, .lookup, .check]

def name : Subcommand → String
  | .catalog => "catalog"
  | .classify => "classify"
  | .lookup => "lookup"
  | .check => "check"

def ofName? (s : String) : Option Subcommand := all.find? (·.name == s)

def takesTag : Subcommand → Bool
  | .classify | .lookup => true
  | .catalog | .check => false

def takesCategory : Subcommand → Bool
  | .catalog => true
  | .classify | .lookup | .check => false

end Subcommand

inductive Halt where
  | help
  | fault (reason : ArgumentFault)
  deriving DecidableEq, Repr

inductive Pending where
  | nothing
  | awaited
  | given (text : String)
  deriving DecidableEq, Repr

structure Reading where
  internalTags : Bool
  category : Option Category
  pending : Pending
  tag : Option Tag
  trailing : Bool
  deriving DecidableEq, Repr

def digitsValue (cs : List Char) : Option Nat :=
  if cs.isEmpty || !cs.all Char.isDigit then none
  else some (cs.foldl (fun n c => 10 * n + (c.toNat - '0'.toNat)) 0)

-- The only negative spelling that fits a tag is that of zero.
def readTag (s : String) : Option Tag := do
  let n ← match s.toList with
    | '+' :: digits => digitsValue digits
    | '-' :: digits => (digitsValue digits).filter (· = 0)
    | digits => digitsValue digits
  if n < UInt32.size then some (UInt32.ofNat n) else none

namespace Reading

def start : Reading := ⟨false, none, .nothing, none, false⟩

def misuse : Except Halt Reading := .error (.fault .usage)

def giveCategory (r : Reading) (text : String) : Except Halt Reading :=
  if r.category.isSome then misuse
  else match Category.parse text with
    | some category => .ok { r with category := some category }
    | none => .error (.fault (.unknownCategory text))

def settle (r : Reading) : Except Halt Reading :=
  match r.pending with
  | .nothing => .ok r
  | .awaited => misuse
  | .given text => { r with pending := .nothing }.giveCategory text

def askHelp (r : Reading) : Except Halt Reading := do
  let _ ← r.settle
  throw .help

def raiseFlag (r : Reading) : Except Halt Reading := do
  let r ← r.settle
  if r.internalTags then misuse
  else return { r with internalTags := true }

def takeOption (c : Subcommand) (r : Reading) (name : List Char) (attached : Option (List Char)) :
    Except Halt Reading :=
  if name = "help".toList then
    if attached.isSome then misuse else r.askHelp
  else if name = "internal-tags".toList then
    if attached.isSome then misuse else r.raiseFlag
  else if c.takesCategory && name == "category".toList then do
    let r ← r.settle
    match attached with
    | some text => r.giveCategory (String.ofList text)
    | none => return { r with pending := .awaited }
  else misuse

def takeWord (c : Subcommand) (r : Reading) (word : String) : Except Halt Reading :=
  if r.pending = .awaited && !r.trailing then .ok { r with pending := .given word }
  else if c.takesTag && r.tag.isNone then
    match readTag word with
    | some tag => .ok { r with tag := some tag }
    | none => misuse
  else misuse

def splitAtEquals (cs : List Char) : List Char × Option (List Char) :=
  match cs.dropWhile (· ≠ '=') with
  | [] => (cs, none)
  | _ :: value => (cs.takeWhile (· ≠ '='), some value)

def take (c : Subcommand) (r : Reading) (word : String) : Except Halt Reading :=
  if r.trailing then r.takeWord c word
  else match word.toList with
    | ['-', '-'] => .ok { r with trailing := true }
    | '-' :: '-' :: option =>
      let (name, attached) := splitAtEquals option
      r.takeOption c name attached
    | '-' :: 'h' :: _ => r.askHelp
    | '-' :: _ :: _ => misuse
    | _ => r.takeWord c word

def command (r : Reading) : Subcommand → Except Halt Command
  | .catalog => .ok (.catalog r.category)
  | .check => .ok .check
  | .classify => tag.map .classify
  | .lookup => tag.map .lookup
where
  tag : Except Halt Tag :=
    match r.tag with
    | some t => .ok t
    | none => .error (.fault .usage)

end Reading

def Invocation.ofWords (c : Subcommand) (words : List String) : Except Halt Invocation := do
  let read ← words.foldlM (fun r word => r.take c word) Reading.start
  let read ← read.settle
  let command ← read.command c
  return ⟨command, read.internalTags⟩

namespace Request

def helpOn : List String → Except ArgumentFault Request
  | [] | ["help"] => .ok .help
  | [name] => if (Subcommand.ofName? name).isSome then .ok .help else .error .usage
  | _ => .error .usage

def ofWords (first : String) (rest : List String) : Except ArgumentFault Request :=
  match Subcommand.ofName? first with
  | none =>
    if first = "help" then helpOn rest
    else if first = "--help" || "-h".toList.isPrefixOf first.toList then .ok .help
    else .error .usage
  | some c =>
    match Invocation.ofWords c rest with
    | .ok called => .ok (.invocation called)
    | .error .help => .ok .help
    | .error (.fault reason) => .error reason

def ofArguments : List String → Except ArgumentFault Request
  | [] => .error .usage
  | first :: rest => ofWords first rest

end Request

end TaggedHeap.CommandLine
