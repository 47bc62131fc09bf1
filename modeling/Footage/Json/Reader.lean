import Footage.Json.Number

/-!
Reading a JSON text. Arrays and objects nest at most as deep as the reader is told; of two fields
with one name the later counts. An object whose first field has the embedding name stands for the
value whose text this field holds.
-/

namespace Footage.Json

/-- How deep the metadata of a file may nest. -/
def metadataDepth : Nat := 127

/-- The name of a field that holds the text of the value that its object stands for. -/
def embeddingName : String := "$serde_json::private::RawValue"

namespace Reader

def isBlank (c : Char) : Bool := c = ' ' || c = '\n' || c = '\t' || c = '\r'

def skipBlank (cs : List Char) : List Char := cs.dropWhile isBlank

/-- Reads four hexadecimal digits. -/
def readUnit? : List Char → Option (Nat × List Char)
  | a :: b :: c :: d :: rest => do
    let a ← Numeral.digitValue? 16 a
    let b ← Numeral.digitValue? 16 b
    let c ← Numeral.digitValue? 16 c
    let d ← Numeral.digitValue? 16 d
    return (a * 4096 + b * 256 + c * 16 + d, rest)
  | _ => none

/-- Reads the character of an escape with `u`. Half of a surrogate pair stands for none. -/
def readUnicode? (cs : List Char) : Option (Char × List Char) := do
  let (high, rest) ← readUnit? cs
  if high < 0xD800 ∨ 0xDFFF < high then return (Char.ofNat high, rest)
  if 0xDC00 ≤ high then none
  match rest with
  | '\\' :: 'u' :: more =>
    let (low, rest) ← readUnit? more
    if low < 0xDC00 ∨ 0xDFFF < low then none
    return (Char.ofNat (0x10000 + (high - 0xD800) * 0x400 + (low - 0xDC00)), rest)
  | _ => none

/-- Reads what follows a backslash. -/
def readEscape? : List Char → Option (Char × List Char)
  | '"' :: rest => some ('"', rest)
  | '\\' :: rest => some ('\\', rest)
  | '/' :: rest => some ('/', rest)
  | 'b' :: rest => some ('\x08', rest)
  | 'f' :: rest => some ('\x0c', rest)
  | 'n' :: rest => some ('\n', rest)
  | 'r' :: rest => some ('\r', rest)
  | 't' :: rest => some ('\t', rest)
  | 'u' :: rest => readUnicode? rest
  | _ => none

/-- Reads the characters of a string up to its closing quote; `fuel` bounds their number. -/
def readCharacters? : (fuel : Nat) → List Char → Option (List Char × List Char)
  | 0, _ => none
  | fuel + 1, cs =>
    match cs with
    | [] => none
    | '"' :: rest => some ([], rest)
    | '\\' :: rest => do
      let (c, rest) ← readEscape? rest
      let (text, rest) ← readCharacters? fuel rest
      return (c :: text, rest)
    | c :: rest =>
      if c.toNat < 0x20 then none
      else do
        let (text, rest) ← readCharacters? fuel rest
        return (c :: text, rest)

/-- Reads a string after its opening quote. -/
def readString? (cs : List Char) : Option (String × List Char) :=
  (readCharacters? (cs.length + 1) cs).map fun (text, rest) => (String.ofList text, rest)

/-- Reads the name of a field and the colon after it. -/
def readName? (cs : List Char) : Option (String × List Char) :=
  match skipBlank cs with
  | '"' :: rest => do
    let (name, rest) ← readString? rest
    match skipBlank rest with
    | ':' :: rest => return (name, rest)
    | _ => none
  | _ => none

/-- Reads the text that an object's only field holds, and the closing brace. -/
def readEmbedded? (cs : List Char) : Option (String × List Char) := do
  let (_, rest) ← readName? cs
  match skipBlank rest with
  | '"' :: rest =>
    let (text, rest) ← readString? rest
    match skipBlank rest with
    | '}' :: rest => return (text, rest)
    | _ => none
  | _ => none

mutual

/-- Reads one value; `depth` counts the arrays and objects that may still be opened, `fuel` the steps
left, which the length of the text bounds. -/
def readValue? : (fuel depth : Nat) → List Char → Option (Value × List Char)
  | 0, _, _ => none
  | fuel + 1, depth, cs =>
    match skipBlank cs with
    | 'n' :: 'u' :: 'l' :: 'l' :: rest => some (.null, rest)
    | 't' :: 'r' :: 'u' :: 'e' :: rest => some (.bool true, rest)
    | 'f' :: 'a' :: 'l' :: 's' :: 'e' :: rest => some (.bool false, rest)
    | '"' :: rest => (readString? rest).map fun (s, rest) => (.string s, rest)
    | '[' :: rest =>
      match depth with
      | 0 => none
      | depth + 1 =>
        match skipBlank rest with
        | ']' :: rest => some (.array .nil, rest)
        | rest => (readItems? fuel depth rest).map fun (items, rest) => (.array items, rest)
    | '{' :: rest =>
      match depth with
      | 0 => none
      | depth + 1 =>
        match skipBlank rest with
        | '}' :: rest => some (.object .nil, rest)
        | rest =>
          if (readName? rest).map (·.1) = some embeddingName then do
            let (text, rest) ← readEmbedded? rest
            let (v, after) ← readValue? fuel metadataDepth text.toList
            if (skipBlank after).isEmpty then return (v, rest) else none
          else
            (readFields? fuel depth .nil rest).map fun (fields, rest) => (.object fields, rest)
    | cs => (Number.read? cs).map fun (n, rest) => (.number n, rest)

/-- Reads the values of an array and its closing bracket. -/
def readItems? : (fuel depth : Nat) → List Char → Option (Items × List Char)
  | 0, _, _ => none
  | fuel + 1, depth, cs => do
    let (v, rest) ← readValue? fuel depth cs
    match skipBlank rest with
    | ',' :: rest =>
      let (items, rest) ← readItems? fuel depth rest
      return (.cons v items, rest)
    | ']' :: rest => return (.cons v .nil, rest)
    | _ => none

/-- Reads the fields of an object and its closing brace, and adds them to those before. -/
def readFields? : (fuel depth : Nat) → Fields → List Char → Option (Fields × List Char)
  | 0, _, _, _ => none
  | fuel + 1, depth, before, cs => do
    let (name, rest) ← readName? cs
    let (v, rest) ← readValue? fuel depth rest
    let fields := before.insert name v
    match skipBlank rest with
    | ',' :: rest => readFields? fuel depth fields rest
    | '}' :: rest => return (fields, rest)
    | _ => none

end

end Reader

/-- Reads a text that is one value, blanks around it apart. -/
def read? (depth : Nat) (text : String) : Option Value :=
  let cs := text.toList
  match Reader.readValue? (2 * cs.length + 2) depth cs with
  | some (v, rest) => if (Reader.skipBlank rest).isEmpty then some v else none
  | none => none

end Footage.Json
