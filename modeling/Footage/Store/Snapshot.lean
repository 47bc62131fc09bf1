import Footage.Json.Printer
import Footage.Store.Amend

/-!
A store as a JSON value, for keeping it between runs. A row is the array of its columns. Triggers are
left out, as no command makes one.
-/

namespace Footage

open Sql (Value)

/-! ### Rows -/

/-- A double is the array of its sign and its rank. -/
def Sql.Value.encode : Value → Json.Value
  | .null => .null
  | .integer n => .int n
  | .real .nan => .null
  | .real (.number negative rank) => .list [.bool negative, .int rank.val]
  | .text s => .string s

def Sql.Value.ofJson : Json.Value → Value
  | .number (.integer n) => .integer n
  | .string s => .text s
  | .array (.cons (.bool negative) (.cons (.number (.integer rank)) .nil)) =>
    .real (.number negative ⟨min rank.toNat Binary64.infinityRank,
      Nat.lt_succ_of_le (Nat.min_le_right _ _)⟩)
  | _ => .null

/-- Puts the items of an array into the columns of a row. -/
def ofCells? [Row ρ κ] (blank : ρ) : Json.Value → Option ρ
  | .array items =>
    let cells := items.toList.map Sql.Value.ofJson
    let columns := Row.columns ρ
    if columns.length = cells.length then
      some ((columns.zip cells).foldl (fun r (c, v) => Row.put r c v) blank)
    else none
  | _ => none

def FileRow.blank : FileRow := ⟨0, .null, "", "", "", "", "", .null, .null, .null⟩

def MetaRow.blank : MetaRow := ⟨0, "", .null, "", .null, .null⟩

def RecordingRow.blank : RecordingRow := ⟨0, "", .null, .null, none, .null, "", .null, .null⟩

def ObjectRow.blank : ObjectRow :=
  ⟨0, "", "", .null, .null, .null, .null, .null, .null, .null, none, .null, .null⟩

def MotionRow.blank : MotionRow := ⟨0, "", .null, .null, .null⟩

/-! ### Tables -/

def Table.encode [Row ρ κ] (t : Table ρ) : Json.Value := .record [
  ("last_id", .int t.lastId),
  ("rows", .list (t.rows.map fun r =>
    .list ((Row.columns ρ).map fun c => (Row.value r c).encode)))]

def Table.ofJson? [Row ρ κ] (blank : ρ) (v : Json.Value) : Option (Table ρ) := do
  match ← v.field? "last_id", ← v.field? "rows" with
  | .number (.integer lastId), .array items => return ⟨← items.toList.mapM (ofCells? blank), lastId⟩
  | _, _ => none

namespace Store

def encode (s : Store) : Json.Value := .record [
  (Schema.files, s.files.encode),
  (Schema.filesMeta, s.filesMeta.encode),
  (Schema.recordings, s.recordings.encode),
  (Schema.objects, s.objects.encode),
  (Schema.motion, s.motion.encode),
  (Query.Settings.versionKey, .ofOption .string s.version)]

def ofJson? (v : Json.Value) : Option Store := do
  let files ← (← v.field? Schema.files) |> Table.ofJson? FileRow.blank
  let filesMeta ← (← v.field? Schema.filesMeta) |> Table.ofJson? MetaRow.blank
  let recordings ← (← v.field? Schema.recordings) |> Table.ofJson? RecordingRow.blank
  let objects ← (← v.field? Schema.objects) |> Table.ofJson? ObjectRow.blank
  let motion ← (← v.field? Schema.motion) |> Table.ofJson? MotionRow.blank
  let version :=
    match v.field? Query.Settings.versionKey with
    | some (.string version) => some version
    | _ => none
  return { files, filesMeta, recordings, objects, motion, version, triggers := [] }

/-- The text that a store is kept as. -/
def snapshot (s : Store) : String := s.encode.text

/-- Reads a kept store back. -/
def ofSnapshot? (text : String) : Option Store :=
  (Json.read? text.length text).bind ofJson?

end Store

end Footage
