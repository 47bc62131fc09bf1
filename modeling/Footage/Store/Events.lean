import Footage.Store.Basic

/-!
Detected objects and motion events, by camera and time.
-/

namespace Footage.Store

/-- Adds an object that was detected at a time. -/
def insertObject (s : Store) (d : Detection) (detected : Time) : Except Error (Int × Store) := do
  (Query.Objects.insert d detected.seconds).check
  let (id, objects) ← s.objects.add (ObjectRow.ofNew d detected.seconds)
  return (id, { s with objects })

/-- The objects that a camera detected between two times, both included. -/
def objectsBetween (s : Store) (camera : String) (first last : Time) :
    Except Error (List DetectedObject) := do
  (← s.objects.select (Query.Objects.between camera first.seconds last.seconds)).mapM ObjectRow.read

def insertMotion (s : Store) (camera : String) (start now : Time) : Except Error (Int × Store) := do
  (Query.Motion.insert camera start.seconds now.seconds).check
  let (id, motion) ← s.motion.add (MotionRow.ofNew camera start now.seconds)
  return (id, { s with motion })

/-- The motion events of a camera that start between two times, both included. -/
def motionBetween (s : Store) (camera : String) (first last : Time) :
    Except Error (List MotionEvent) := do
  (← s.motion.select (Query.Motion.between camera first.seconds last.seconds)).mapM MotionRow.read

end Footage.Store
