import TaggedHeap.Dispatch.Entry
import TaggedHeap.Fault

/-! Queries on record. A query runs a function of a subsystem by `print`, `compare` or `digest`, and by
nothing else, and each of these puts down what is run and on what. So a query has run what its calls
list, and where it fails it has run what was put down before. -/
namespace TaggedHeap

inductive Call (α : Type) where
  | print (printer : Printer α) (o : HeapObject α) (kind : String)
  | compare (equality : Equality α) (a b : HeapObject α)
  | digest (equality : Equality α) (o : HeapObject α)

structure Queried (α β : Type) where
  calls : List (Call α)
  answer : Except Fault β

namespace Queried

variable {α β γ : Type}

def silent (answer : Except Fault β) : Queried α β := ⟨[], answer⟩

instance : Monad (Queried α) where
  pure value := silent (.ok value)
  bind first next :=
    match first.answer with
    | .error fault => ⟨first.calls, .error fault⟩
    | .ok value => ⟨first.calls ++ (next value).calls, (next value).answer⟩

instance : MonadLift (Except Fault) (Queried α) := ⟨silent⟩

def print (printer : Printer α) (o : HeapObject α) (kind : String) : Queried α (Option String) :=
  ⟨[.print printer o kind], .ok (printer o kind)⟩

def compare (equality : Equality α) (a b : HeapObject α) : Queried α Bool :=
  ⟨[.compare equality a b], .ok (equality.equals a b)⟩

def digest (equality : Equality α) (o : HeapObject α) : Queried α (List UInt8) :=
  ⟨[.digest equality o], .ok (equality.digest o)⟩

theorem printThen (printer : Printer α) (o : HeapObject α) (kind : String)
    (next : Option String → Queried α β) : (print printer o kind >>= next) =
      ⟨.print printer o kind :: (next (printer o kind)).calls, (next (printer o kind)).answer⟩ := rfl

theorem answerThen (first : Queried α β) (next : β → Queried α γ) :
    (first >>= next).answer = first.answer >>= fun value => (next value).answer := by
  obtain ⟨calls, answer⟩ := first
  cases answer <;> rfl

theorem foundThen {first : Except Fault β} {value : β} {next : β → Queried α γ}
    (found : first = .ok value) : ((liftM first : Queried α β) >>= next) = next value := by
  rw [found]
  rfl

theorem failedThen {first : Except Fault β} {fault : Fault} {next : β → Queried α γ}
    (failed : first = .error fault) :
    ((liftM first : Queried α β) >>= next) = silent (.error fault) := by
  rw [failed]
  rfl

end Queried

end TaggedHeap
