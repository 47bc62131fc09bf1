import Footage.Binary64.Reader
import Footage.Placement

/-!
The records of the store: files and their metadata, recordings, detected objects and motion events.
-/

namespace Footage

structure NewFile where
  placement : Placement
  camera : String
  category : String
  size : Int
  deriving DecidableEq, Repr

structure File extends NewFile where
  id : Int
  createdAt : Time
  updatedAt : Option Time
  deriving DecidableEq, Repr

/-- What metadata have in columns of their own. -/
structure MetaEntry where
  path : String
  duration : Option Binary64
  deriving DecidableEq, Repr

/-- The length of play of a file is lifted out of the other metadata. -/
structure NewMeta where
  path : String
  duration : Option Binary64
  content : Json.Fields
  deriving DecidableEq, Repr

def NewMeta.entry (m : NewMeta) : MetaEntry := ⟨m.path, m.duration⟩

@[simp] theorem NewMeta.entry_duration (m : NewMeta) : m.entry.duration = m.duration := rfl

instance : Coe NewMeta MetaEntry := ⟨NewMeta.entry⟩

structure FileMeta extends NewMeta where
  id : Int
  createdAt : Time
  updatedAt : Option Time
  deriving DecidableEq, Repr

structure NewRecording where
  camera : String
  start : Time
  triggerType : Option String
  triggerId : Option Int
  thumbnail : String
  deriving DecidableEq, Repr

/-- A recording without an end still goes on. -/
structure Recording extends NewRecording where
  id : Int
  stop : Option Time
  createdAt : Time
  updatedAt : Option Time
  deriving DecidableEq, Repr

structure Detection where
  camera : String
  label : String
  confidence : Binary64
  width : Binary64
  height : Binary64
  x1 : Binary64
  y1 : Binary64
  x2 : Binary64
  y2 : Binary64
  zone : Option String
  deriving DecidableEq, Repr

structure DetectedObject extends Detection where
  id : Int
  createdAt : Time
  updatedAt : Option Time
  deriving DecidableEq, Repr

structure MotionEvent where
  id : Int
  camera : String
  start : Time
  createdAt : Time
  updatedAt : Option Time
  deriving DecidableEq, Repr

/-- The category of files that a recorder writes. -/
def recorderCategory : String := "recorder"

/-- How the paths of a recorder's fragments end. -/
def fragmentExtension : String := ".m4s"

/-! ### Length of play -/

/-- The length of play in metadata: a number or its text, finite and not negative. -/
def durationOf? (content : Json.Fields) : Option Binary64 :=
  let found :=
    match (content.find? "m3u8").bind (Json.Value.field? "EXTINF") with
    | some (.number n) => some n.toReal
    | some (.string s) => Binary64.read? (Text.trim s.toList)
    | _ => none
  found.filter fun d => d.isFinite && Binary64.zero.le d

def NewMeta.ofContent (path : String) (content : Json.Fields) : NewMeta where
  path
  duration := durationOf? content
  content

/-! ### Names of recordings -/

def Recording.isOpen (r : Recording) : Bool := r.stop.isNone

/-- The date on which a recording starts. -/
def Recording.date (r : Recording) : Date := r.start.date

/-- The name that a recording goes by: its start, clamped to ten digits. -/
def Recording.filename (r : Recording) : String := (Timestamp.saturating r.start.seconds).filename ".mp4"

/-- Reads the start out of the name of a recording. -/
def startOfFilename (filename : String) : Except Error Timestamp :=
  let cs := filename.toList
  let suffix := ".mp4".toList
  if !suffix.isSuffixOf cs then .error (.invalidArgument (.recordingSuffix filename))
  else
    let stem := String.ofList (cs.take (cs.length - suffix.length))
    if stem.utf8ByteSize ≠ Timestamp.width then
      .error (.invalidArgument (.recordingWidth filename))
    else (Timestamp.decode stem).mapError .fragmentName

end Footage
