import Footage.Toml.Scalar
import Footage.Toml.Text

/-!
Reading a TOML text line by line: values under keys, and headers that open the table for the
lines after them.
-/

namespace Footage.Toml

namespace Reader

mutual

/-- Reads one value; `depth` counts the arrays and tables that may still be opened, `fuel` the steps
left, which the length of the text bounds. -/
def readValue? : (fuel depth : Nat) → List Char → Option (Value × List Char)
  | 0, _, _ => none
  | fuel + 1, depth, cs =>
    match cs with
    | [] => none
    | c :: rest =>
      if c = '"' ∨ c = '\'' then (readString? cs).map fun (s, rest) => (.string s, rest)
      else if c = '[' then
        match depth with
        | 0 => none
        | depth + 1 => do
          let rest ← skipLines? false rest
          match rest with
          | ']' :: rest => return (.array .nil, rest)
          | _ =>
            let (items, rest) ← readItems? fuel depth rest
            return (.array items, rest)
      else if c = '\x7b' then
        match depth with
        | 0 => none
        | depth + 1 =>
          match skipBlank rest with
          | '\x7d' :: rest => some (.table .braced .nil, rest)
          | rest => (readPairs? fuel depth .nil rest).map fun (fields, rest) =>
              (.table .braced fields, rest)
      else readScalar? cs

/-- Reads the items of an array and its closing bracket, before which a comma may stand. -/
def readItems? : (fuel depth : Nat) → List Char → Option (Items × List Char)
  | 0, _, _ => none
  | fuel + 1, depth, cs => do
    let (v, rest) ← readValue? fuel depth cs
    match ← skipLines? false rest with
    | ']' :: rest => return (.cons v .nil, rest)
    | ',' :: rest =>
      match ← skipLines? false rest with
      | ']' :: rest => return (.cons v .nil, rest)
      | rest =>
        let (items, rest) ← readItems? fuel depth rest
        return (.cons v items, rest)
    | _ => none

/-- Reads the pairs of a table in braces and its closing brace, and adds them to those before. -/
def readPairs? : (fuel depth : Nat) → Fields → List Char → Option (Fields × List Char)
  | 0, _, _, _ => none
  | fuel + 1, depth, before, cs => do
    let (key, rest) ← readKey? cs
    match rest with
    | '=' :: rest =>
      let (v, rest) ← readValue? fuel depth (skipBlank rest)
      let fields ← before.put v key
      match skipBlank rest with
      | ',' :: rest => readPairs? fuel depth fields rest
      | '\x7d' :: rest => return (fields, rest)
      | _ => none
    | _ => none

end

/-- Reads what follows the name of a header. -/
def headerEnd? (brackets : Nat) (cs : List Char) : Option (List Char) :=
  if cs.take brackets = List.replicate brackets ']' then lineEnd? (cs.drop brackets) else none

/-- Reads the lines of a text; `header` leads to the table that the next pairs belong to, and `fuel`
bounds the number of lines. -/
def readDocument? : (fuel : Nat) → (header : List String) → Fields → List Char → Option Fields
  | 0, _, _, _ => none
  | fuel + 1, header, root, cs => do
    match skipBlank cs with
    | [] => return root
    | '[' :: '[' :: rest =>
      let (key, rest) ← readKey? rest
      let root ← root.openHeader Fields.openElement key
      readDocument? fuel key root (← headerEnd? 2 rest)
    | '[' :: rest =>
      let (key, rest) ← readKey? rest
      let root ← root.openHeader Fields.openTable key
      readDocument? fuel key root (← headerEnd? 1 rest)
    | c :: rest =>
      if c = '#' ∨ c = '\n' ∨ c = '\r' then
        readDocument? fuel header root (← lineEnd? (c :: rest))
      else
        let (key, rest) ← readKey? (c :: rest)
        let rest ← expect? '=' rest
        let (v, rest) ← readValue? (2 * rest.length + 2) greatestDepth (skipBlank rest)
        let root ← root.within (Fields.put v key) header
        readDocument? fuel header root (← lineEnd? rest)

end Reader

/-- Reads a text, which may begin with a byte order mark. -/
def read? (text : String) : Option Fields :=
  let cs := text.toList
  let body :=
    match cs with
    | '\ufeff' :: rest => rest
    | _ => cs
  Reader.readDocument? (body.length + 1) [] .nil body

end Footage.Toml
