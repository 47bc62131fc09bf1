import Footage.Binary64.Shortest
import Footage.Json.Value

/-!
Writing JSON texts: without blanks, and over several lines with two more blanks at each level.
-/

namespace Footage.Json

/-- Doubles have a point or an exponent. The point stands in its place when the leading digit has an
exponent from −5 to 15. -/
def realText (x : Binary64) : List Char :=
  match x with
  | .nan => "null".toList
  | .number negative rank =>
    if rank.val = Binary64.infinityRank then "null".toList
    else
      let d := Binary64.shortest .toEven rank
      let unsigned :=
        if -5 ≤ d.leadingExponent ∧ d.leadingExponent ≤ 15 then
          if 0 ≤ d.exponent then d.positional ++ ['.', '0'] else d.positional
        else d.scientific
      if negative then '-' :: unsigned else unsigned

def Number.text : Number → List Char
  | .integer n => (Numeral.integer n).toList
  | .real x => realText x

/-- A control character without a short escape is written with two hexadecimal digits after `00`. -/
def escaped (c : Char) : List Char :=
  if c = '"' then ['\\', '"']
  else if c = '\\' then ['\\', '\\']
  else if c = '\x08' then ['\\', 'b']
  else if c = '\x0c' then ['\\', 'f']
  else if c = '\n' then ['\\', 'n']
  else if c = '\r' then ['\\', 'r']
  else if c = '\t' then ['\\', 't']
  else if c.toNat < 0x20 then
    ['\\', 'u', '0', '0', (c.toNat / 16).digitChar, (c.toNat % 16).digitChar]
  else [c]

def quoted (s : String) : List Char := '"' :: s.toList.flatMap escaped ++ ['"']

mutual

def Value.characters : Value → List Char
  | .null => "null".toList
  | .bool b => if b then "true".toList else "false".toList
  | .number n => n.text
  | .string s => quoted s
  | .array items => '[' :: items.characters ++ [']']
  | .object fields => '{' :: fields.characters ++ ['}']

/-- The values of an array with commas between. -/
def Items.characters : Items → List Char
  | .nil => []
  | .cons v .nil => v.characters
  | .cons v (.cons v' rest) => v.characters ++ ',' :: (Items.cons v' rest).characters

def Fields.characters : Fields → List Char
  | .nil => []
  | .cons name v .nil => quoted name ++ ':' :: v.characters
  | .cons name v (.cons name' v' rest) =>
    quoted name ++ ':' :: v.characters ++ ',' :: (Fields.cons name' v' rest).characters

end

def Value.text (v : Value) : String := String.ofList v.characters

def lineStart (level : Nat) : List Char := '\n' :: List.replicate (2 * level) ' '

mutual

def Value.linesAt (level : Nat) : Value → List Char
  | .array .nil => ['[', ']']
  | .object .nil => ['{', '}']
  | .array items => '[' :: items.linesAt (level + 1) ++ lineStart level ++ [']']
  | .object fields => '{' :: fields.linesAt (level + 1) ++ lineStart level ++ ['}']
  | .null => "null".toList
  | .bool b => if b then "true".toList else "false".toList
  | .number n => n.text
  | .string s => quoted s

def Items.linesAt (level : Nat) : Items → List Char
  | .nil => []
  | .cons v .nil => lineStart level ++ v.linesAt level
  | .cons v (.cons v' rest) =>
    lineStart level ++ v.linesAt level ++ ',' :: (Items.cons v' rest).linesAt level

def Fields.linesAt (level : Nat) : Fields → List Char
  | .nil => []
  | .cons name v .nil => lineStart level ++ quoted name ++ ':' :: ' ' :: v.linesAt level
  | .cons name v (.cons name' v' rest) =>
    lineStart level ++ quoted name ++ ':' :: ' ' :: v.linesAt level ++
      ',' :: (Fields.cons name' v' rest).linesAt level

end

/-- A value over several lines. -/
def Value.lines (v : Value) : String := String.ofList (v.linesAt 0)

end Footage.Json
