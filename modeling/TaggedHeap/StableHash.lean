import TaggedHeap.Word

/-! FNV-1a over 64 bits with its fixed basis: the same bytes give the same hash in every run. -/
namespace TaggedHeap

structure StableHash where
  state : Word
  deriving DecidableEq, Repr

namespace StableHash

def basis : Word := 0xcbf29ce484222325

def prime : Word := 0x00000100000001b3

def fresh : StableHash := ⟨basis⟩

def step (h : Word) (byte : UInt8) : Word := (h ^^^ byte.toUInt64) * prime

def absorb (h : StableHash) (bytes : List UInt8) : StableHash := ⟨bytes.foldl step h.state⟩

def finish (h : StableHash) : Word := h.state

theorem absorbAppend (h : StableHash) (a b : List UInt8) :
    h.absorb (a ++ b) = (h.absorb a).absorb b := by
  simp [absorb]

end StableHash

end TaggedHeap
