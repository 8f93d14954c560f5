import TaggedHeap.ObjectModel.Basic

/-! One-line summaries of layouts, entries, tables and models: the name of a thing and its fields
between braces. -/
namespace TaggedHeap

namespace Summary

def record (name : String) (fields : List (String × String)) : String :=
  name ++ " \x7b " ++ ", ".intercalate (fields.map fun f => f.1 ++ ": " ++ f.2) ++ " \x7d"

def ofBool (b : Bool) : String := if b then "true" else "false"

def ofWord (w : Word) : String := toString w.toNat

def ofTag (t : Tag) : String := "TagId(" ++ toString t.toNat ++ ")"

end Summary

open Summary

def Layout.summary : Layout → String
  | .atomic words => record "Atomic" [("words", ofWord words)]
  | .fixed words pointers =>
    record "Fixed" [("words", ofWord words),
      ("pointers", "[" ++ ", ".intercalate (pointers.map ofWord) ++ "]")]
  | .array lead lengthWord traced =>
    record "Array" [("prefix", ofWord lead), ("len_word", ofWord lengthWord),
      ("traced", ofBool traced)]

def Boundaries.summary (b : Boundaries) : String :=
  record "Boundaries" [("values", ofTag b.values), ("compiled_values", ofTag b.compiledValues),
    ("last_normal", ofTag b.lastNormal), ("last", ofTag b.last)]

variable {α ω : Type}

def Entry.summary (e : Entry α ω) : String :=
  let scan := match e.layout with
    | none => "None"
    | some layout => "Some(" ++ layout.summary ++ ")"
  record "DispatchEntry" [("describe", ofBool e.printer.isSome),
    ("equals_and_hash", ofBool e.equality.isSome), ("scan", scan),
    ("finalizer", ofBool e.finalizer.isSome)]

def DispatchTable.summary (d : DispatchTable α ω) : String :=
  record "DispatchTable" [("entries", toString d.size)]

def ObjectModel.summary (m : ObjectModel α ω) : String :=
  record "ObjectModel" [("boundaries", m.space.boundaries.summary),
    ("dispatch", m.dispatch.summary)]

end TaggedHeap
