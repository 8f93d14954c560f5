import TaggedHeap.Operation

/-! Texts on a single line. The names that the program itself gives, and numbers, have no line
break, so a message that is put together line by line can be read line by line. -/
namespace TaggedHeap.Text

def Unbroken (text : String) : Prop := '\n' ∉ text.toList

instance (text : String) : Decidable (Unbroken text) := inferInstanceAs (Decidable (_ ∉ _))

theorem unbrokenAppend {a b : String} (first : Unbroken a) (second : Unbroken b) :
    Unbroken (a ++ b) := by
  rw [Unbroken, String.toList_append, List.mem_append, not_or]
  exact ⟨first, second⟩

theorem unbrokenJoined {separator : String} (plain : Unbroken separator) {texts : List String}
    (each : ∀ text ∈ texts, Unbroken text) : Unbroken (separator.intercalate texts) := by
  induction texts with
  | nil => simp [Unbroken]
  | cons text rest ih =>
    have later := ih fun other member => each other (List.mem_cons_of_mem _ member)
    have here := each text List.mem_cons_self
    cases rest with
    | nil => simpa using here
    | cons other rest =>
      rw [String.intercalate_cons_cons]
      exact unbrokenAppend (unbrokenAppend here plain) later

theorem unbrokenNumber (n : Nat) : Unbroken (toString n) := by
  rw [Unbroken, Nat.toString_eq_ofList_toDigits, String.toList_ofList]
  intro member
  have digit := Nat.isDigit_of_mem_toDigits (by decide) (by decide) member
  exact absurd digit (by decide)

end TaggedHeap.Text

namespace TaggedHeap

theorem Operation.nameUnbroken (op : Operation) : Text.Unbroken op.name := by
  cases op <;> decide

theorem Category.nameUnbroken (c : Category) : Text.Unbroken c.name := by
  cases c <;> decide

end TaggedHeap
