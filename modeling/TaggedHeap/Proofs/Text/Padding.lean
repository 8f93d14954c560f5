import TaggedHeap.Category

/-! Padding: blanks before and behind a text. Trimming a text gives what it pads, and a text without
blanks at its ends comes back from under any padding. -/
namespace TaggedHeap.Text

def Padded (bare padded : String) : Prop :=
  ∃ lead trail : List Char, lead.all isBlank = true ∧ trail.all isBlank = true ∧
    padded.toList = lead ++ bare.toList ++ trail

def isSolid (cs : List Char) : Bool := !cs.head?.any isBlank && !cs.getLast?.any isBlank

theorem dropBlank {lead : List Char} (blank : lead.all isBlank = true) (cs : List Char) :
    (lead ++ cs).dropWhile isBlank = cs.dropWhile isBlank :=
  List.dropWhile_append_of_pos (List.all_eq_true.mp blank)

theorem dropNothing {cs : List Char} (solid : cs.head?.any isBlank = false) :
    cs.dropWhile isBlank = cs := by
  cases cs with
  | nil => rfl
  | cons c rest => exact List.dropWhile_cons_of_neg (Bool.eq_false_iff.mp solid)

theorem trimCharsPadded {bare lead trail : List Char} (solid : isSolid bare = true)
    (before : lead.all isBlank = true) (behind : trail.all isBlank = true) :
    trimChars (lead ++ bare ++ trail) = bare := by
  simp only [isSolid, Bool.and_eq_true, Bool.not_eq_true'] at solid
  obtain ⟨first, last⟩ := solid
  have back : trail.reverse.all isBlank = true := List.all_reverse.trans behind
  rw [trimChars, List.append_assoc, dropBlank before]
  cases bare with
  | nil =>
    rw [List.nil_append, ← List.append_nil trail, dropBlank behind]
    rfl
  | cons c rest =>
    have kept : (c :: (rest ++ trail)).dropWhile isBlank = c :: (rest ++ trail) := dropNothing first
    rw [List.cons_append, kept, ← List.cons_append, List.reverse_append, dropBlank back,
      dropNothing (by rwa [List.head?_reverse]), List.reverse_reverse]

theorem trimPadded {bare padded : String} (solid : isSolid bare.toList = true)
    (pads : Padded bare padded) : trim padded = bare := by
  obtain ⟨lead, trail, before, behind, same⟩ := pads
  rw [trim, same, trimCharsPadded solid before behind, String.ofList_toList]

theorem paddedTrim (s : String) : Padded (trim s) s := by
  have blank (cs : List Char) : (cs.takeWhile isBlank).all isBlank = true := List.all_takeWhile
  refine ⟨s.toList.takeWhile isBlank,
    ((s.toList.dropWhile isBlank).reverse.takeWhile isBlank).reverse, blank _, ?_, ?_⟩
  · rw [List.all_reverse]
    exact blank _
  · rw [trim, String.toList_ofList, trimChars, List.append_assoc, ← List.reverse_append,
      List.takeWhile_append_dropWhile, List.reverse_reverse, List.takeWhile_append_dropWhile]

end TaggedHeap.Text

namespace TaggedHeap

theorem Category.nameSolid (c : Category) : Text.isSolid c.name.toList = true := by
  cases c <;> decide

theorem Category.parseIff {s : String} {c : Category} :
    Category.parse s = some c ↔ Text.Padded c.name s := by
  constructor
  · intro parsed
    have named : c.name = Text.trim s := by simpa using List.find?_some parsed
    exact named ▸ Text.paddedTrim s
  · intro pads
    rw [Category.parse, Text.trimPadded c.nameSolid pads, Category.ofNameName]

end TaggedHeap
