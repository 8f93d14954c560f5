import TaggedHeap.Text.CodeRanges

/-! Blank characters are those with the Unicode property White_Space; `trim` takes them off both
ends of a text. The separators U+001C to U+001F and zero-width characters are not blank. -/
namespace TaggedHeap.Text

def blankRanges : CodeRanges :=
  [(0x0009, 0x000D), (0x0020, 0x0020), (0x0085, 0x0085), (0x00A0, 0x00A0), (0x1680, 0x1680),
   (0x2000, 0x200A), (0x2028, 0x2029), (0x202F, 0x202F), (0x205F, 0x205F), (0x3000, 0x3000)]

def isBlank (c : Char) : Bool := blankRanges.covers c

def trimChars (cs : List Char) : List Char :=
  ((cs.dropWhile isBlank).reverse.dropWhile isBlank).reverse

def trim (s : String) : String := String.ofList (trimChars s.toList)

end TaggedHeap.Text
