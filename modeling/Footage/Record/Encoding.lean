import Footage.Fragment
import Footage.Json.Value
import Footage.Store.Deletion
import Footage.Tier

/-!
Records and reports as JSON values.
-/

namespace Footage

open Json (Value)

def Time.encode (t : Time) : Value := .string t.recordText

private def optionalTime (t : Option Time) : Value := .ofOption Time.encode t

private def optionalText (s : Option String) : Value := .ofOption .string s

private def real (x : Binary64) : Value := .number (.real x)

def File.encode (f : File) : Value := .record [
  ("id", .int f.id),
  ("tier_id", .int f.placement.tier),
  ("camera_identifier", .string f.camera),
  ("category", .string f.category),
  ("path", .string f.placement.path),
  ("directory", .string f.placement.directory),
  ("filename", .string f.placement.filename),
  ("size", .int f.size),
  ("created_at", f.createdAt.encode),
  ("updated_at", optionalTime f.updatedAt)]

def FileMeta.encode (m : FileMeta) : Value := .record [
  ("id", .int m.id),
  ("path", .string m.path),
  ("duration", .ofOption real m.duration),
  ("meta", .object m.content),
  ("created_at", m.createdAt.encode),
  ("updated_at", optionalTime m.updatedAt)]

def Recording.encode (r : Recording) : Value := .record [
  ("id", .int r.id),
  ("camera_identifier", .string r.camera),
  ("start_time", r.start.encode),
  ("end_time", optionalTime r.stop),
  ("trigger_type", optionalText r.triggerType),
  ("trigger_id", .ofOption .int r.triggerId),
  ("thumbnail_path", .string r.thumbnail),
  ("created_at", r.createdAt.encode),
  ("updated_at", optionalTime r.updatedAt)]

def DetectedObject.encode (o : DetectedObject) : Value := .record [
  ("id", .int o.id),
  ("camera_identifier", .string o.camera),
  ("label", .string o.label),
  ("confidence", real o.confidence),
  ("width", real o.width),
  ("height", real o.height),
  ("x1", real o.x1),
  ("y1", real o.y1),
  ("x2", real o.x2),
  ("y2", real o.y2),
  ("zone", optionalText o.zone),
  ("created_at", o.createdAt.encode),
  ("updated_at", optionalTime o.updatedAt)]

def MotionEvent.encode (m : MotionEvent) : Value := .record [
  ("id", .int m.id),
  ("camera_identifier", .string m.camera),
  ("start_time", m.start.encode),
  ("created_at", m.createdAt.encode),
  ("updated_at", optionalTime m.updatedAt)]

def Deletion.encode (d : Deletion) : Value := .record [
  ("recording_id", .int d.recording),
  ("files_removed", .int d.filesRemoved),
  ("fragments_shared", .int d.fragmentsShared)]

def DeletionReport.encode (report : DeletionReport) : Value :=
  .record [("deleted", .list (report.deleted.map Deletion.encode))]

/-- What is told of a fragment: where its file lies, when it starts and how long it plays. -/
def Fragment.summary (tiers : List Tier) (f : Fragment) : Value := .record [
  ("path", .string f.path),
  ("tier_id", .int f.file.placement.tier),
  ("tier", .ofOption (.string ·.name) (Tier.of? tiers f.file.placement)),
  ("on_tier", .bool (Tier.contains tiers f.file.placement)),
  ("start", .int f.start.seconds),
  ("duration", .ofOption real f.metadata.duration),
  ("size", .int f.file.size)]

/-! ### Answers by name -/

/-- An object with a field to each name, in the order of the names. -/
def encodeByName (encode : α → Value) (answers : List (String × α)) : Value :=
  .object (answers.foldl (fun fields (name, a) => fields.insert name (encode a)) .nil)

def encodeByDate (daily : List (Date × Recording)) : Value :=
  .record (daily.map fun (date, r) => (date.text, r.encode))

end Footage
