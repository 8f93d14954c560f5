/-! Fixed-width hexadecimal. -/
namespace TaggedHeap.Text

def hex64 (w : UInt64) : String :=
  String.ofList ((Nat.toDigits 16 w.toNat).leftpad 16 '0')

end TaggedHeap.Text
