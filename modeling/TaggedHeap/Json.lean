import TaggedHeap.Text.Hex

/-! Report documents: a JSON value whose objects keep the order of their fields, and its text with
one item per line and two spaces for each level. Numbers are naturals. -/
namespace TaggedHeap

inductive Json where
  | flag (value : Bool)
  | number (value : Nat)
  | text (value : String)
  | list (items : List Json)
  | object (fields : List (String × Json))

namespace Json

def escapeChar (c : Char) : List Char :=
  if c = '"' || c = '\\' then ['\\', c]
  else if c = '\x08' then ['\\', 'b']
  else if c = '\x0c' then ['\\', 'f']
  else if c = '\n' then ['\\', 'n']
  else if c = '\r' then ['\\', 'r']
  else if c = '\t' then ['\\', 't']
  else if c.toNat < 0x20 then ['\\', 'u'] ++ (Nat.toDigits 16 c.toNat).leftpad 4 '0'
  else [c]

def quote (s : String) : String := String.ofList ('"' :: s.toList.flatMap escapeChar ++ ['"'])

def newLine (depth : Nat) : String := "\n".pushn ' ' (2 * depth)

mutual

def render (depth : Nat) : Json → String
  | .flag value => if value then "true" else "false"
  | .number value => toString value
  | .text value => quote value
  | .list [] => "[]"
  | .list (item :: rest) =>
    "[" ++ newLine (depth + 1) ++ render (depth + 1) item ++ renderItems (depth + 1) rest ++
      newLine depth ++ "]"
  | .object [] => "\x7b\x7d"
  | .object ((key, value) :: rest) =>
    "\x7b" ++ newLine (depth + 1) ++ quote key ++ ": " ++ render (depth + 1) value ++
      renderFields (depth + 1) rest ++ newLine depth ++ "\x7d"

def renderItems (depth : Nat) : List Json → String
  | [] => ""
  | item :: rest => "," ++ newLine depth ++ render depth item ++ renderItems depth rest

def renderFields (depth : Nat) : List (String × Json) → String
  | [] => ""
  | (key, value) :: rest =>
    "," ++ newLine depth ++ quote key ++ ": " ++ render depth value ++ renderFields depth rest

end

def pretty (j : Json) : String := j.render 0

end Json

end TaggedHeap
