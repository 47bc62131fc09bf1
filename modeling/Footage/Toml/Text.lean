import Footage.Text.Numeral

/-!
The parts of a TOML text that are read by characters: blanks, ends of lines, strings and keys.
-/

namespace Footage.Toml.Reader

/-- What strings and comments may hold as it is: any character that is no control character, and
tabs. -/
def isPlain (c : Char) : Bool := c = '\t' || (0x20 ≤ c.toNat && c.toNat ≠ 0x7F)

def isBlank (c : Char) : Bool := c = ' ' || c = '\t'

def skipBlank (cs : List Char) : List Char := cs.dropWhile isBlank

/-! ### Lines -/

def newline? : List Char → Option (List Char)
  | '\n' :: rest => some rest
  | '\r' :: '\n' :: rest => some rest
  | _ => none

def skipComment : List Char → List Char
  | '#' :: rest => rest.dropWhile isPlain
  | cs => cs

/-- Reads the end of a line: blanks, a comment, and a newline unless the text ends. -/
def lineEnd? (cs : List Char) : Option (List Char) :=
  match skipComment (skipBlank cs) with
  | [] => some []
  | cs => newline? cs

/-- Skips blanks, newlines and comments. -/
def skipLines? : (inComment : Bool) → List Char → Option (List Char)
  | inComment, [] => if inComment then none else some []
  | inComment, c :: rest =>
    if c = '\n' then skipLines? false rest
    else if c = '\r' then (if rest.head? = some '\n' then skipLines? inComment rest else none)
    else if inComment then (if isPlain c then skipLines? true rest else none)
    else if isBlank c then skipLines? false rest
    else if c = '#' then skipLines? true rest
    else some (c :: rest)

/-- Skips blanks and newlines. -/
def skipEmptyLines : List Char → List Char
  | [] => []
  | c :: rest =>
    if isBlank c ∨ c = '\n' ∨ (c = '\r' ∧ rest.head? = some '\n') then skipEmptyLines rest
    else c :: rest

/-! ### Strings -/

/-- Reads the character that has a number of hexadecimal digits. -/
def readCodePoint? (width : Nat) (cs : List Char) : Option (Char × List Char) := do
  let digits := cs.take width
  let n ← Numeral.valueIn? 16 digits
  if digits.length = width ∧ n.isValidChar then some (Char.ofNat n, cs.drop width) else none

/-- Reads what follows a backslash. -/
def readEscape? : List Char → Option (Char × List Char)
  | 'b' :: rest => some ('\x08', rest)
  | 't' :: rest => some ('\t', rest)
  | 'n' :: rest => some ('\n', rest)
  | 'f' :: rest => some ('\x0c', rest)
  | 'r' :: rest => some ('\r', rest)
  | '"' :: rest => some ('"', rest)
  | '\\' :: rest => some ('\\', rest)
  | 'u' :: rest => readCodePoint? 4 rest
  | 'U' :: rest => readCodePoint? 8 rest
  | _ => none

/-- Reads the characters of a string up to its closing quote; `fuel` bounds their number. -/
def readQuoted? : (fuel : Nat) → List Char → Option (List Char × List Char)
  | 0, _ => none
  | fuel + 1, cs =>
    match cs with
    | [] => none
    | '"' :: rest => some ([], rest)
    | '\\' :: rest => do
      let (c, rest) ← readEscape? rest
      let (text, rest) ← readQuoted? fuel rest
      return (c :: text, rest)
    | c :: rest =>
      if isPlain c then (readQuoted? fuel rest).map fun (text, rest) => (c :: text, rest) else none

/-- Reads a string without escapes up to its closing quote. -/
def readLiteral? (cs : List Char) : Option (List Char × List Char) :=
  let text := cs.takeWhile fun c => isPlain c && c ≠ '\''
  match cs.drop text.length with
  | '\'' :: rest => some (text, rest)
  | _ => none

/-- Reads the characters of a string over several lines up to its three closing quotes, before which
up to two more quotes belong to it. With escapes, a backslash at the end of a line joins it to the
next text. -/
def readLines? (quote : Char) (escapes : Bool) : (fuel : Nat) → List Char →
    Option (List Char × List Char)
  | 0, _ => none
  | fuel + 1, cs =>
    match cs with
    | [] => none
    | c :: rest =>
      if c = quote then
        let quotes := (cs.takeWhile fun c => c = quote).length
        if quotes < 3 then
          (readLines? quote escapes fuel rest).map fun (text, rest) => (c :: text, rest)
        else
          let more := min quotes 5 - 3
          some (List.replicate more quote, cs.drop (more + 3))
      else if escapes ∧ c = '\\' then
        match newline? (skipBlank rest) with
        | some rest => readLines? quote escapes fuel (skipEmptyLines rest)
        | none => do
          let (c, rest) ← readEscape? rest
          let (text, rest) ← readLines? quote escapes fuel rest
          return (c :: text, rest)
      else if isPlain c then
        (readLines? quote escapes fuel rest).map fun (text, rest) => (c :: text, rest)
      else
        match newline? cs with
        | some rest =>
          (readLines? quote escapes fuel rest).map fun (text, rest) => ('\n' :: text, rest)
        | none => none

/-- Reads a string of any of the four kinds. A newline right after three opening quotes is dropped. -/
def readString? (cs : List Char) : Option (String × List Char) :=
  let found :=
    match cs with
    | '"' :: '"' :: '"' :: rest => readLines? '"' true cs.length ((newline? rest).getD rest)
    | '"' :: rest => readQuoted? cs.length rest
    | '\'' :: '\'' :: '\'' :: rest => readLines? '\'' false cs.length ((newline? rest).getD rest)
    | '\'' :: rest => readLiteral? rest
    | _ => none
  found.map fun (text, rest) => (String.ofList text, rest)

/-! ### Keys -/

def isKeyCharacter (c : Char) : Bool := c.isAlphanum || c = '-' || c = '_'

/-- Reads a name, bare or in quotes. -/
def readName? (cs : List Char) : Option (String × List Char) :=
  let found :=
    match cs with
    | '"' :: rest => readQuoted? cs.length rest
    | '\'' :: rest => readLiteral? rest
    | _ =>
      let name := cs.takeWhile isKeyCharacter
      if name.isEmpty then none else some (name, cs.drop name.length)
  found.map fun (name, rest) => (String.ofList name, rest)

/-- Reads names with dots between, and blanks around them; `fuel` bounds their number. -/
def readNames? : (fuel : Nat) → List Char → Option (List String × List Char)
  | 0, _ => none
  | fuel + 1, cs => do
    let (name, rest) ← readName? (skipBlank cs)
    match skipBlank rest with
    | '.' :: rest =>
      let (names, rest) ← readNames? fuel rest
      return (name :: names, rest)
    | rest => return ([name], rest)

/-- How many names a key may have, and how deep values may nest. -/
def greatestDepth : Nat := 79

/-- Reads a dotted key. -/
def readKey? (cs : List Char) : Option (List String × List Char) := readNames? greatestDepth cs

end Footage.Toml.Reader
