import TaggedHeap.Layout

/-! The layouts of the standard kinds. A kind without a layout of its own is a record: a length word,
then as many words, all of them pointers. -/
namespace TaggedHeap.Standard

def unitLayout : Layout := .atomic 1

def wordLayout : Layout := .atomic 2

def cellLayout : Layout := .fixed 3 [1, 2]

def boxLayout : Layout := .fixed 2 [1]

-- What a weak box refers to is cleared by the collector and never traced.
def weakBoxLayout : Layout := .fixed 2 []

def ephemeronLayout : Layout := .fixed 3 []

def bytesLayout : Layout := .array 2 1 false

def recordLayout : Layout := .array 2 1 true

def unitKinds : List String :=
  ["null", "eof", "true", "false", "void", "undefined", "always-evt", "never-evt"]

def wordKinds : List String := ["char", "integer", "float", "double", "cpointer"]

def cellKinds : List String := ["pair", "raw-pair", "rational", "complex", "complex-izi"]

def bytesKinds : List String :=
  ["bignum", "char-string", "byte-string", "unix-path", "windows-path", "symbol", "keyword",
   "random-state", "weak-array", "indexed-string"]

def layoutOf (kind : String) : Layout :=
  if unitKinds.contains kind then unitLayout
  else if wordKinds.contains kind then wordLayout
  else if cellKinds.contains kind then cellLayout
  else if kind = "box" then boxLayout
  else if kind = "weak-box" then weakBoxLayout
  else if kind = "ephemeron" then ephemeronLayout
  else if bytesKinds.contains kind then bytesLayout
  else recordLayout

end TaggedHeap.Standard
