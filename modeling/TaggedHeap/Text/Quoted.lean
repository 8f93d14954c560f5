import TaggedHeap.Text.Extending
import TaggedHeap.Text.Ignorable
import TaggedHeap.Text.Unprintable

/-! Names as messages show them: between double quotes, with everything that has no visible form of
its own escaped. An apostrophe stays as it is. -/
namespace TaggedHeap.Text

def codeEscape (c : Char) : List Char :=
  ['\\', 'u', '\x7b'] ++ Nat.toDigits 16 c.toNat ++ ['\x7d']

def escapeChar (c : Char) : List Char :=
  if c = '\x00' then ['\\', '0']
  else if c = '\t' then ['\\', 't']
  else if c = '\r' then ['\\', 'r']
  else if c = '\n' then ['\\', 'n']
  else if c = '"' || c = '\\' then ['\\', c]
  else if isExtending c || isIgnorable c || isUnprintable c then codeEscape c
  else [c]

def quoted (s : String) : String :=
  String.ofList ('"' :: s.toList.flatMap escapeChar ++ ['"'])

end TaggedHeap.Text
