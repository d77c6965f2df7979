import ClauseRouter.Application.Basic

/-!
# Directories of applications

Applications can delegate to each other by name, in circles if they like: an application of a directory
is made **for** a directory, in which its handler finds the others.  `Directory.tied` ties that knot, for
calls that are nested up to a given depth.
-/

namespace ClauseRouter

/-- The endpoint that stands under a name. -/
abbrev Directory := Bytes → Endpoint

namespace Directory

/-- What stands under a name that is not taken: an application without a handler. -/
def vacant : Endpoint := Application.call {}

/-- The directory of a list of applications that call each other at most a number of levels deep. -/
def tied (members : List (Bytes × (Directory → Application))) : Nat → Directory
  | 0 => fun _ _ => pure (.error .tooDeep)
  | depth + 1 => fun name =>
    match members.lookup name with
    | some member => (member (tied members depth)).call
    | none => vacant

end Directory

end ClauseRouter
