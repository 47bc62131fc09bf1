import Footage.Command
import Footage.Text.Numeral

/-!
Reading the arguments of a command line: first the path of the settings, then the name of a command,
then its options. An option is given once, and its value follows it or an equals sign. Reading stops
at the first argument that is wrong or that asks for something else than a command.
-/

namespace Footage.Command

/-- What arguments ask for. -/
inductive Request where
  | run (invocation : Invocation)
  | help
  | version
  /-- They make no sense. -/
  | misuse
  deriving DecidableEq, Repr

/-- Why no command can be read. -/
inductive Stop where
  | help
  | version
  | misuse
  deriving DecidableEq, Repr

def Stop.request : Stop → Request
  | .help => .help
  | .version => .version
  | .misuse => .misuse

/-! ### Shapes of arguments -/

/-- An argument by its shape. -/
inductive Argument where
  /-- Two dashes alone: only plain words follow. -/
  | separator
  /-- A long option, with the value that is attached to it. -/
  | long (name : String) (value : Option String)
  /-- A dash and the letters of short options. -/
  | short (letters : List Char)
  | word (text : String)
  deriving DecidableEq, Repr

/-- The shape of an argument. A dash alone is a word. -/
def Argument.of (text : String) : Argument :=
  match text.toList with
  | ['-', '-'] => .separator
  | '-' :: '-' :: body =>
    let name := body.takeWhile fun c => c ≠ '='
    let value :=
      match body.drop name.length with
      | [] => none
      | _ :: value => some (String.ofList value)
    .long (String.ofList name) value
  | ['-'] => .word text
  | '-' :: letters => .short letters
  | _ => .word text

/-- An argument that can be the value of the option before it. -/
def isValue (text : String) : Bool :=
  match Argument.of text with
  | .word _ => true
  | _ => false

/-- The value of an option, attached or taken from the arguments after it, and what is left. -/
def takeValue (attached : Option String) (rest : List String) : Except Stop (String × List String) :=
  match attached, rest with
  | some value, _ => .ok (value, rest)
  | none, value :: rest => if isValue value then .ok (value, rest) else .error .misuse
  | none, [] => .error .misuse

/-! ### Options of commands -/

inductive OptionName where
  | camera
  | date
  | daily
  | filename
  | lookback
  | recording
  deriving DecidableEq, Repr

def OptionName.text : OptionName → String
  | .camera => "camera"
  | .date => "date"
  | .daily => "daily"
  | .filename => "filename"
  | .lookback => "lookback"
  | .recording => "recording"

/-- The options that are given. -/
structure Options where
  camera : Option String := none
  date : Option Date := none
  daily : Bool := false
  filename : Option String := none
  lookback : Option Nat := none
  recording : Option Int := none
  deriving DecidableEq, Repr

def greatestLookback : Nat := 0xFFFFFFFFFFFFFFFF

def readLookback? (text : String) : Option Nat :=
  if text.toList.head? = some '-' then none
  else do
    let n ← Numeral.readInteger? text.toList
    if n ≤ greatestLookback then some n.toNat else none

def readId? (text : String) : Option Int :=
  (Numeral.readInteger? text.toList).filter Numeral.fitsWord

/-- Sets an option that has no value yet. -/
def once (old : Option α) (new : Option α) (put : α → Options) : Except Stop Options :=
  match old, new with
  | none, some a => .ok (put a)
  | _, _ => .error .misuse

/-- Reads the value of an option and adds it to those before; the flag takes none. -/
def Options.add (o : Options) (name : OptionName) (attached : Option String) (rest : List String) :
    Except Stop (Options × List String) := do
  if name = .daily then
    if attached.isSome ∨ o.daily then .error .misuse else return ({ o with daily := true }, rest)
  else
    let (value, rest) ← takeValue attached rest
    let o ←
      match name with
      | .camera => once o.camera (some value) fun v => { o with camera := some v }
      | .date => once o.date (Date.read? value) fun v => { o with date := some v }
      | .filename => once o.filename (some value) fun v => { o with filename := some v }
      | .lookback => once o.lookback (readLookback? value) fun v => { o with lookback := some v }
      | .recording => once o.recording (readId? value) fun v => { o with recording := some v }
      | .daily => .error .misuse
    return (o, rest)

/-- Reads the arguments after the name of a command that takes some options. Each step uses up an
argument, so their number bounds the steps. -/
def readOptions (allowed : List OptionName) : (steps : Nat) → Options → List String →
    Except Stop Options
  | _, o, [] => .ok o
  | 0, _, _ => .error .misuse
  | steps + 1, o, arg :: rest =>
    match Argument.of arg with
    | .separator => if rest.isEmpty then .ok o else .error .misuse
    | .long name attached =>
      if name = "help" ∧ attached.isNone then .error .help
      else
        match allowed.find? fun n => n.text = name with
        | none => .error .misuse
        | some n => do
          let (o, rest) ← o.add n attached rest
          readOptions allowed steps o rest
    | .short letters => if letters.head? = some 'h' then .error .help else .error .misuse
    | .word _ => .error .misuse

/-! ### Commands -/

inductive CommandName where
  | init
  | list
  | latest
  | delete
  | fragments
  deriving DecidableEq, Repr

def CommandName.of? : String → Option CommandName
  | "init" => some .init
  | "list" => some .list
  | "latest" => some .latest
  | "delete" => some .delete
  | "fragments" => some .fragments
  | _ => none

def CommandName.options : CommandName → List OptionName
  | .init => []
  | .list => [.camera, .date]
  | .latest => [.camera, .date, .daily]
  | .delete => [.camera, .date, .filename, .lookback]
  | .fragments => [.recording, .lookback]

/-- The command that options make. A filename needs a date, and a date excludes all dates. -/
def ofOptions : CommandName → Options → Except Stop Command
  | .init, _ => .ok .init
  | .list, o => .ok (.list o.camera o.date)
  | .latest, o =>
    if !o.daily then .ok (.latest o.camera o.date)
    else if o.date.isSome then .error .misuse
    else .ok (.daily o.camera)
  | .delete, o =>
    match o.camera, Scope.ofParts o.date o.filename with
    | some camera, .ok scope => .ok (.delete camera scope o.lookback)
    | _, _ => .error .misuse
  | .fragments, o =>
    match o.recording with
    | some recording => .ok (.fragments recording o.lookback)
    | none => .error .misuse

/-- Reads a command after its name. -/
def read (name : CommandName) (args : List String) : Except Stop Command := do
  ofOptions name (← readOptions name.options args.length {} args)

/-- What the word `help` asks for: help on the program or on one command. -/
def helpOn : List String → Stop
  | [] => .help
  | [topic] => if topic = "help" ∨ (CommandName.of? topic).isSome then .help else .misuse
  | _ => .misuse

/-- Sets the path of the settings, which is given once and not empty. -/
def putSettings (settings : Option String) (path : String) : Except Stop String :=
  if settings.isSome ∨ path = "" then .error .misuse else .ok path

/-- Reads all arguments. Each step uses up an argument, so their number bounds the steps. -/
def readAll : (steps : Nat) → (settings : Option String) → List String → Except Stop Invocation
  | _, _, [] => .error .misuse
  | 0, _, _ => .error .misuse
  | steps + 1, settings, arg :: rest => do
    match Argument.of arg with
    | .separator => .error .misuse
    | .long "config" attached =>
      let (path, rest) ← takeValue attached rest
      readAll steps (← putSettings settings path) rest
    | .long "help" none => .error .help
    | .long "version" none => .error .version
    | .long _ _ => .error .misuse
    | .short ('c' :: letters) =>
      let attached :=
        match letters with
        | [] => none
        | '=' :: path => some (String.ofList path)
        | path => some (String.ofList path)
      let (path, rest) ← takeValue attached rest
      readAll steps (← putSettings settings path) rest
    | .short ('h' :: _) => .error .help
    | .short ('V' :: _) => .error .version
    | .short _ => .error .misuse
    | .word text =>
      match CommandName.of? text with
      | none => .error (if text = "help" then helpOn rest else .misuse)
      | some name =>
        let command ← read name rest
        match settings with
        | some settings => return { settings, command }
        | none => .error .misuse

/-- What the arguments of a command line ask for. -/
def Request.of (args : List String) : Request :=
  match readAll args.length none args with
  | .ok invocation => .run invocation
  | .error stop => stop.request

end Footage.Command
