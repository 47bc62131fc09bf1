import Footage.Binary64

/-!
Values of metadata texts. The fields of an object are kept in the order of their names, one field
to a name, which is how `Fields.insert` builds them.
-/

namespace Footage.Json

/-- A number is an integer of at most 64 bits or a double. -/
inductive Number where
  | integer (n : Int)
  | real (x : Binary64)
  deriving DecidableEq, Repr

mutual
inductive Value where
  | null
  | bool (b : Bool)
  | number (n : Number)
  | string (s : String)
  | array (items : Items)
  | object (fields : Fields)
  deriving DecidableEq, Repr
inductive Items where
  | nil
  | cons (head : Value) (tail : Items)
  deriving DecidableEq, Repr
inductive Fields where
  | nil
  | cons (name : String) (value : Value) (rest : Fields)
  deriving DecidableEq, Repr
end

instance : Inhabited Value := ⟨.null⟩

/-- The double nearest to a number. -/
def Number.toReal : Number → Binary64
  | .integer n => .ofInt n
  | .real x => x

namespace Items

def toList : Items → List Value
  | .nil => []
  | .cons v rest => v :: rest.toList

def ofList : List Value → Items
  | [] => .nil
  | v :: rest => .cons v (ofList rest)

end Items

namespace Fields

def toList : Fields → List (String × Value)
  | .nil => []
  | .cons name v rest => (name, v) :: rest.toList

/-- The fields in the order given. -/
def ofList : List (String × Value) → Fields
  | [] => .nil
  | (name, v) :: rest => .cons name v (ofList rest)

/-- Puts a field in the place of its name; a field of that name is replaced. -/
def insert (name : String) (v : Value) : Fields → Fields
  | .nil => .cons name v .nil
  | .cons name' v' rest =>
    if name = name' then .cons name v rest
    else if name < name' then .cons name v (.cons name' v' rest)
    else .cons name' v' (rest.insert name v)

def find? (name : String) : Fields → Option Value
  | .nil => none
  | .cons name' v rest => if name = name' then some v else rest.find? name

end Fields

namespace Value

def list (vs : List Value) : Value := .array (.ofList vs)

def record (fields : List (String × Value)) : Value := .object (.ofList fields)

def int (n : Int) : Value := .number (.integer n)

def ofOption (f : α → Value) : Option α → Value
  | none => .null
  | some a => f a

/-- The field of an object; nothing when there is none or the value is no object. -/
def field? (name : String) : Value → Option Value
  | .object fields => fields.find? name
  | _ => none

end Value

end Footage.Json
