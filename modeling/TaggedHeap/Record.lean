import TaggedHeap.Dispatch.Entry

/-! A plain payload, integer fields and a text, with printers, equalities and finalizers for it. -/
namespace TaggedHeap

structure Record where
  fields : List Int64
  text : String
  deriving DecidableEq, Repr

namespace Record

def printFields : Printer Record := fun o kind =>
  some (kind ++ "(" ++ " ".intercalate (o.payload.fields.map fun f => toString f.toInt) ++ ")")

def printText : Printer Record := fun o _ => some o.payload.text

def printNothing : Printer Record := fun _ _ => some ""

def printFailing : Printer Record := fun _ _ => none

def printFirst : Printer Record := fun o _ => o.payload.fields.head?.map fun f => toString f.toInt

def fieldBytes (o : HeapObject Record) : List UInt8 :=
  o.payload.fields.flatMap fun f => Word.bytes f.toUInt64

def equalFields : Equality Record where
  equals a b := a.payload.fields == b.payload.fields
  digest := fieldBytes

def equalText : Equality Record where
  equals a b := a.payload.text == b.payload.text
  digest o := o.payload.text.toUTF8.toList

def alwaysEqual : Equality Record where
  equals _ _ := true
  digest _ := []

-- No equivalence.
def lessFields : Equality Record where
  equals a b := List.lex a.payload.fields b.payload.fields fun x y => x.toInt < y.toInt
  digest := fieldBytes

def logFinalizer : Finalizer Record (List String) := fun o log =>
  log ++ [toString o.tag ++ " " ++ o.payload.text]

def idleFinalizer : Finalizer Record (List String) := fun _ log => log

end Record

end TaggedHeap
