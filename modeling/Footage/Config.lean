import Footage.Error
import Footage.Tier
import Footage.Toml.Reader

/-!
Settings: the database, the cameras that are served, the lookback that deletions and resolutions
have by default, and the storage tiers.
-/

namespace Footage

structure Camera where
  identifier : String
  name : Option String
  deriving DecidableEq, Repr

structure Config where
  database : String
  cameras : List Camera
  lookback : Nat
  tiers : List Tier
  deriving DecidableEq, Repr

namespace Config

def camera? (config : Config) (identifier : String) : Option Camera :=
  config.cameras.find? fun camera => camera.identifier = identifier

def identifiers (config : Config) : List String := config.cameras.map (·.identifier)

/-! ### Validity -/

def isIdentifierCharacter (c : Char) : Bool := c.isAlphanum || c = '_'

def isIdentifier (identifier : String) : Bool :=
  let cs := identifier.toList
  !cs.isEmpty && cs.all isIdentifierCharacter

/-- The first fault of cameras, where those in `seen` came before. -/
def cameraFault? : (seen : List String) → List String → Option ConfigFault
  | _, [] => none
  | seen, identifier :: rest =>
    if !isIdentifier identifier then some (.badCamera identifier)
    else if identifier ∈ seen then some (.cameraTwice identifier)
    else cameraFault? (identifier :: seen) rest

def tierFault? : (seen : List Int) → List Int → Option ConfigFault
  | _, [] => none
  | seen, id :: rest => if id ∈ seen then some (.tierTwice id) else tierFault? (id :: seen) rest

/-- The first thing that is wrong with settings. -/
def fault? (config : Config) : Option ConfigFault :=
  (cameraFault? [] config.identifiers).or (tierFault? [] (config.tiers.map (·.id)))

/-! ### Reading -/

open Toml (Value Fields)

/-- A setting that may be absent. -/
def optional? (read : Value → Option α) : Option Value → Option (Option α)
  | none => some none
  | some v => (read v).map some

def readCamera? (v : Value) : Option Camera := do
  match ← v.group? ["identifier", "name"] with
  | [some identifier, name] =>
    return { identifier := ← identifier.string?, name := ← optional? Value.string? name }
  | _ => none

def readTier? (v : Value) : Option Tier := do
  match ← v.group? ["id", "name", "path"] with
  | [some id, some name, some path] =>
    return { id := ← id.integer?, name := ← name.string?, path := ← path.string? }
  | _ => none

def readNatural? (v : Value) : Option Nat := v.integer?.bind Int.toNat?

/-- A setting that is an array. -/
def list? (read : Value → Option α) (v : Value) : Option (List α) := do (← v.items?).mapM read

/-- The settings in a table; those it does not know are passed over. -/
def ofFields? (fields : Fields) : Option Config := do
  let cameras ← optional? (list? readCamera?) (fields.find? "cameras")
  let lookback ← optional? readNatural? (fields.find? "default_lookback")
  let tiers ← optional? (list? readTier?) (fields.find? "tiers")
  return {
    database := ← (← fields.find? "database").string?
    cameras := cameras.getD []
    lookback := lookback.getD 0
    tiers := tiers.getD [] }

/-- Reads settings and checks them. -/
def read (text : String) : Except ConfigFault Config :=
  match (Toml.read? text).bind ofFields? with
  | none => .error .malformed
  | some config =>
    match config.fault? with
    | none => .ok config
    | some fault => .error fault

end Config

end Footage
