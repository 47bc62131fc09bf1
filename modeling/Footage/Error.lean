import Footage.Calendar.Time
import Footage.Json.Printer
import Footage.Timestamp

/-!
What can go wrong, by cause, and the wording of each cause.
-/

namespace Footage

inductive Missing where
  | recording (id : Int)
  | namedRecording (camera : String) (date : Date) (filename : String)
  | file (path : String)
  deriving DecidableEq, Repr

/-- How stored data can break the contract on names, times and metadata. -/
inductive IntegrityFault where
  | timeOutOfRange (seconds : Int)
  | metadataNotObject (path : String) (value : Json.Value)
  | undecodableName (path : String) (cause : Timestamp.NameError)
  | metadataAbsent (path : String)
  | metadataUnreadable (path : String)
  deriving DecidableEq, Repr

/-- How a write can break a relation between records. -/
inductive Violation where
  | pathsDiffer (file metadata : String)
  | fileAbsent (path : String)
  deriving DecidableEq, Repr

inductive BadArgument where
  | noFilename (path : String)
  | endPrecedesStart (stop start : Time) (recording : Int)
  | filenameWithoutDate (filename : String)
  | recordingSuffix (filename : String)
  | recordingWidth (filename : String)
  deriving DecidableEq, Repr

/-- Why there is no text to read at a path. -/
inductive ReadFault where
  | absent
  | notDirectory
  | isDirectory
  | nameTooLong
  | notText
  deriving DecidableEq, Repr

inductive ConfigFault where
  | unreadable (path : String) (fault : ReadFault)
  | malformed
  | badCamera (identifier : String)
  | cameraTwice (identifier : String)
  | tierTwice (id : Int)
  deriving DecidableEq, Repr

/-- What the store itself refuses. -/
inductive StoreFault where
  | notUnique (column : String)
  | isNull (column : String)
  | foreignKey
  | unknownTable (name : String)
  /-- The table holds definitions of tables. -/
  | definition (table : String)
  | unknownColumn (name : String)
  /-- The text of a statement ends inside a literal. -/
  | openLiteral (token : String)
  /-- A token stands where the text of a statement may not have it. -/
  | unexpected (token : String)
  | typeMismatch
  | noFreeId
  /-- A trigger refuses the statement. -/
  | raised (message : String)
  /-- A trigger refuses the statement and ends the transaction. -/
  | rolledBack (message : String)
  /-- Triggers set each other off too deeply. -/
  | triggerDepth
  | triggerExists (name : String)
  | unavailable
  deriving DecidableEq, Repr

inductive Error where
  | notFound (what : Missing)
  | deleteFailure (recording : Int) (cause : Error)
  | dataIntegrity (fault : IntegrityFault)
  | integrityViolation (violation : Violation)
  | invalidArgument (argument : BadArgument)
  | schemaVersion (found : String)
  | fragmentName (cause : Timestamp.NameError)
  | config (fault : ConfigFault)
  | store (fault : StoreFault)
  | json
  deriving DecidableEq, Repr

def Error.isNotFound : Error → Bool
  | .notFound _ => true
  | _ => false

/-- Whether the store ends the transaction in which it fails. -/
def Error.endsTransaction : Error → Bool
  | .store .noFreeId => true
  | .store (.rolledBack _) => true
  | _ => false

/-! ### Wording -/

private def quote (s : String) : String := "'" ++ s ++ "'"

def Missing.text : Missing → String
  | .recording id => "recording " ++ Numeral.integer id
  | .namedRecording camera date filename =>
    "recording " ++ camera ++ "/" ++ date.text ++ "/" ++ filename
  | .file path => "file " ++ quote path

/-- The path a fault is reported for; a time is read without knowing whose it is. -/
def IntegrityFault.path : IntegrityFault → String
  | .timeOutOfRange _ => ""
  | .metadataNotObject path _ => path
  | .undecodableName path _ => path
  | .metadataAbsent path => path
  | .metadataUnreadable path => path

def IntegrityFault.reason : IntegrityFault → String
  | .timeOutOfRange n => "timestamp " ++ Numeral.integer n ++ " out of range"
  | .metadataNotObject _ v => "metadata is not an object: " ++ v.text
  | .undecodableName _ cause => cause.message
  | .metadataAbsent _ => "no metadata row"
  | .metadataUnreadable _ => "unreadable metadata"

def Violation.text : Violation → String
  | .pathsDiffer file metadata =>
    "file path " ++ quote file ++ " does not match metadata path " ++ quote metadata
  | .fileAbsent path => "metadata for " ++ quote path ++ " has no matching file"

def BadArgument.text : BadArgument → String
  | .noFilename path => quote path ++ " has no filename"
  | .endPrecedesStart stop start recording =>
    "end time " ++ stop.text ++ " precedes start time " ++ start.text ++ " of recording " ++
      Numeral.integer recording
  | .filenameWithoutDate filename => "filename " ++ quote filename ++ " given without a date"
  | .recordingSuffix filename => "recording filename " ++ quote filename ++ " must end in .mp4"
  | .recordingWidth filename =>
    "recording filename " ++ quote filename ++ " must be a 10-digit timestamp"

def ReadFault.text : ReadFault → String
  | .absent => "No such file or directory (os error 2)"
  | .notDirectory => "Not a directory (os error 20)"
  | .isDirectory => "Is a directory (os error 21)"
  | .nameTooLong => "File name too long (os error 36)"
  | .notText => "stream did not contain valid UTF-8"

/-- Nothing is said about a text that cannot be read at all. -/
def ConfigFault.text? : ConfigFault → Option String
  | .unreadable path fault => some ("failed to read " ++ path ++ ": " ++ fault.text)
  | .malformed => none
  | .badCamera identifier =>
    some ("camera identifier " ++ quote identifier ++ " must match [A-Za-z0-9_]+")
  | .cameraTwice identifier => some ("camera " ++ quote identifier ++ " is listed twice")
  | .tierTwice id => some ("tier id " ++ Numeral.integer id ++ " is listed twice")

def StoreFault.text? : StoreFault → Option String
  | .notUnique column => some ("UNIQUE constraint failed: " ++ column)
  | .isNull column => some ("NOT NULL constraint failed: " ++ column)
  | .foreignKey => some "FOREIGN KEY constraint failed"
  | .unknownTable name => some ("no such table: " ++ name)
  | .definition table => some ("table " ++ table ++ " may not be modified")
  | .unknownColumn name => some ("no such column: " ++ name)
  | .openLiteral token => some ("unrecognized token: \"" ++ token ++ "\"")
  | .unexpected token => some ("near \"" ++ token ++ "\": syntax error")
  | .typeMismatch => some "datatype mismatch"
  | .noFreeId => some "database or disk is full"
  | .raised message => some message
  | .rolledBack message => some message
  | .triggerDepth => some "too many levels of trigger recursion"
  | .triggerExists name => some ("trigger " ++ name ++ " already exists")
  | .unavailable => none

/-- The schema version that every database has to have. -/
def schemaVersion : String := "1"

def Error.kind : Error → String
  | .notFound _ => "NotFound"
  | .deleteFailure _ _ => "DeleteFailure"
  | .dataIntegrity _ => "DataIntegrity"
  | .integrityViolation _ => "IntegrityViolation"
  | .invalidArgument _ => "InvalidArgument"
  | .schemaVersion _ => "SchemaVersion"
  | .fragmentName _ => "FragmentName"
  | .config _ => "Config"
  | .store _ => "Store"
  | .json => "Json"

/-- The message of an error, where it has one. -/
def Error.message? : Error → Option String
  | .notFound what => some (what.text ++ " not found")
  | .deleteFailure recording cause =>
    some ("failed to delete recording " ++ Numeral.integer recording ++ ": " ++
      cause.message?.getD cause.kind)
  | .dataIntegrity fault =>
    some ("data integrity fault for " ++ quote fault.path ++ ": " ++ fault.reason)
  | .integrityViolation violation => some ("integrity violation: " ++ violation.text)
  | .invalidArgument argument => some ("invalid argument: " ++ argument.text)
  | .schemaVersion found =>
    some ("database schema version mismatch: expected " ++ Footage.schemaVersion ++ ", found " ++ found)
  | .fragmentName cause => some ("invalid fragment name: " ++ cause.message)
  | .config fault => fault.text?.map ("invalid configuration: " ++ ·)
  | .store fault => fault.text?
  | .json => none

/-- A time as the store keeps it. -/
def Time.ofStored (seconds : Int) : Except Error Time :=
  match ofSeconds? seconds with
  | some t => .ok t
  | none => .error (.dataIntegrity (.timeOutOfRange seconds))

end Footage
