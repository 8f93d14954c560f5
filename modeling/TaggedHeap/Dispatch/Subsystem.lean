import TaggedHeap.Dispatch.Builder

/-! Subsystems and their installation. A subsystem runs a program of registrations: it sees the
outcome of each before it goes on, so it may stop at an error or go on past it, and it ends with an
outcome of its own. Where that is an error, nothing of the program stays. -/
namespace TaggedHeap

inductive Program (α ω : Type) where
  | done (outcome : Except Fault Unit)
  | step (registration : Registration α ω) (next : Except Fault Unit → Program α ω)

namespace Program

variable {α ω : Type}

def strict (final : Except Fault Unit) : List (Registration α ω) → Program α ω
  | [] => .done final
  | r :: rest => .step r fun
    | .ok () => strict final rest
    | .error fault => .done (.error fault)

def lenient (final : Except Fault Unit) : List (Registration α ω) → Program α ω
  | [] => .done final
  | r :: rest => .step r fun _ => lenient final rest

def run (claimant : String) :
    Program α ω → DispatchBuilder α ω → Except Fault Unit × DispatchBuilder α ω
  | .done outcome, b => (outcome, b)
  | .step r next, b =>
    match b.perform claimant r with
    | .ok after => (next (.ok ())).run claimant after
    | .error fault => (next (.error fault)).run claimant b

end Program

structure Subsystem (α ω : Type) where
  name : String
  program : TagSpace → Program α ω

namespace Subsystem

variable {α ω : Type}

def strict (name : String) (registrations : TagSpace → List (Registration α ω)) : Subsystem α ω :=
  ⟨name, fun s => Program.strict (.ok ()) (registrations s)⟩

end Subsystem

def DispatchBuilder.install {α ω : Type} (b : DispatchBuilder α ω) (s : Subsystem α ω) :
    Except Fault Unit × DispatchBuilder α ω :=
  match (s.program b.space).run s.name b with
  | (.ok (), after) => (.ok (), after)
  | (.error fault, after) =>
    (.error fault, { after with entries := b.entries, owners := b.owners })

def DispatchBuilder.installAll {α ω : Type} (b : DispatchBuilder α ω) :
    List (Subsystem α ω) → Except Fault (DispatchBuilder α ω)
  | [] => .ok b
  | s :: rest =>
    match b.install s with
    | (.ok (), after) => after.installAll rest
    | (.error fault, _) => .error fault

end TaggedHeap
