/-!
Values of a TOML text, and the tables that its lines build up. Headers open tables and dotted
keys lead into them; how a table came to be decides what may still be added to it.
-/

namespace Footage.Toml

/-- How a table came to be. -/
inductive Form where
  /-- It is written in braces, and nothing is added to it. -/
  | braced
  /-- It has a header of its own. -/
  | headed
  /-- It lies on the way to the table of another header. -/
  | implied
  /-- A dotted key leads into it. -/
  | dotted
  deriving DecidableEq, Repr

mutual
inductive Value where
  | string (s : String)
  | integer (n : Int)
  /-- A value of another type: a number with a fraction, a truth value or a time. -/
  | other
  /-- The array is written in brackets. -/
  | array (items : Items)
  /-- The array is made by headers, each of which opens the last of its tables. -/
  | tables (earlier : Items) (last : Fields)
  | table (form : Form) (fields : Fields)
  deriving DecidableEq, Repr
inductive Items where
  | nil
  | cons (head : Value) (tail : Items)
  deriving DecidableEq, Repr
inductive Fields where
  | nil
  | cons (name : String) (value : Value) (rest : Fields)
  deriving DecidableEq, Repr
end

instance : Inhabited Value := ⟨.other⟩

namespace Items

def toList : Items → List Value
  | .nil => []
  | .cons v rest => v :: rest.toList

def push (v : Value) : Items → Items
  | .nil => .cons v .nil
  | .cons head tail => .cons head (tail.push v)

end Items

namespace Fields

def find? (name : String) : Fields → Option Value
  | .nil => none
  | .cons name' v rest => if name = name' then some v else rest.find? name

/-- Gives a name a value, in its place or at the end. -/
def set (name : String) (v : Value) : Fields → Fields
  | .nil => .cons name v .nil
  | .cons name' v' rest =>
    if name = name' then .cons name v rest else .cons name' v' (rest.set name v)

/-! ### Adding -/

/-- Adds a value under a dotted key. The tables on the way are made by such keys; one that a header
implies or opens may only be passed through. -/
def put (v : Value) : List String → Fields → Option Fields
  | [], _ => none
  | [name], fs =>
    match fs.find? name with
    | none => some (fs.set name v)
    | some _ => none
  | name :: next :: more, fs =>
    match fs.find? name with
    | none => (put v (next :: more) .nil).map fun inner => fs.set name (.table .dotted inner)
    | some (.table .dotted inner) =>
      (put v (next :: more) inner).map fun inner => fs.set name (.table .dotted inner)
    | some (.table .implied inner) =>
      if more.isEmpty then none
      else (put v (next :: more) inner).map fun inner => fs.set name (.table .implied inner)
    | some (.tables earlier last) =>
      if more.isEmpty then none
      else (put v (next :: more) last).map fun last => fs.set name (.tables earlier last)
    | some _ => none

/-- Changes the table that the names of a header lead to. Tables that are not there yet are implied. -/
def within (change : Fields → Option Fields) : List String → Fields → Option Fields
  | [], fs => change fs
  | name :: names, fs =>
    match fs.find? name with
    | none => (within change names .nil).map fun inner => fs.set name (.table .implied inner)
    | some (.table .braced _) => none
    | some (.table form inner) =>
      (within change names inner).map fun inner => fs.set name (.table form inner)
    | some (.tables earlier last) =>
      (within change names last).map fun last => fs.set name (.tables earlier last)
    | some _ => none

/-- Opens the table of a header, which another header may have implied. -/
def openTable (name : String) (fs : Fields) : Option Fields :=
  match fs.find? name with
  | none => some (fs.set name (.table .headed .nil))
  | some (.table .implied inner) => some (fs.set name (.table .headed inner))
  | some _ => none

/-- Opens a new last table of an array. -/
def openElement (name : String) (fs : Fields) : Option Fields :=
  match fs.find? name with
  | none => some (fs.set name (.tables .nil .nil))
  | some (.tables earlier last) =>
    some (fs.set name (.tables (earlier.push (.table .headed last)) .nil))
  | some _ => none

/-- Opens what a header names at the end of its dotted key. -/
def openHeader (opening : String → Fields → Option Fields) (key : List String) (fs : Fields) :
    Option Fields :=
  key.getLast?.bind fun name => fs.within (opening name) key.dropLast

end Fields

namespace Value

def string? : Value → Option String
  | .string s => some s
  | _ => none

def integer? : Value → Option Int
  | .integer n => some n
  | _ => none

/-- The items of either kind of array. -/
def items? : Value → Option (List Value)
  | .array items => some items.toList
  | .tables earlier last => some (earlier.toList ++ [.table .headed last])
  | _ => none

/-- What a table has under some names; an array gives its first items in their place. -/
def group? (names : List String) : Value → Option (List (Option Value))
  | .table _ fields => some (names.map fields.find?)
  | v => do
    let items ← v.items?
    if names.length ≤ items.length then some ((items.take names.length).map some) else none

end Value

end Footage.Toml
