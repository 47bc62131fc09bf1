import Footage.Record
import Footage.Window

/-!
A fragment: a recorder's file, its metadata, and why it belongs to the window it was looked up for.
-/

namespace Footage

structure Fragment where
  file : File
  metadata : FileMeta
  start : Timestamp
  inclusion : Inclusion
  deriving DecidableEq, Repr

namespace Fragment

def path (f : Fragment) : String := f.file.placement.path

/-- The second at which the fragment stops playing, when its length is known. -/
def stop? (f : Fragment) : Option Binary64 := f.metadata.duration.map (Window.playsUntil f.start)

/-- Fragments go by their start, and then by their filename. -/
def le (f g : Fragment) : Bool :=
  f.start.seconds < g.start.seconds ||
    (f.start.seconds = g.start.seconds && f.file.placement.filename ≤ g.file.placement.filename)

end Fragment

end Footage
