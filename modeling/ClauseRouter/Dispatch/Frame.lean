import ClauseRouter.Host

/-!
# The frame of a dispatch

A dispatch works on a frame of its own: a private copy of the request, the response it is building,
the live captures, and the outcome once one has been **committed**.

* `Frame` — the state of a dispatch.
* `Frame.commit` — the only way to an outcome.  The first commit fixes it; every later one only repeats
  it.
* `Ending` — how a piece of handler code ends: it returns, it halts the dispatch with a response, or it
  leaves by a fault.

A frame also keeps the **history** of its dispatch: every change of the frame goes through
`Frame.become`, which notes what happened and what the frame holds from then on.  So the history
tells every stage that the dispatch went through, in order, and what happened before and after the
commit can be told apart.
-/

namespace ClauseRouter

/-- Something that happened in a dispatch. -/
inductive Event where
  /-- Code looked at the frame. -/
  | observed
  /-- Code or a matcher changed the response. -/
  | responded
  /-- Code changed the request. -/
  | amended
  /-- A matcher moved the cursor. -/
  | moved
  /-- A matcher appended to the live captures. -/
  | captured
  /-- A clause was begun, and the live captures cleared. -/
  | opened
  /-- A matcher of a clause is tried. -/
  | tried
  /-- The matcher of a clause that was tried last has passed. -/
  | passed
  /-- The body of a clause is entered with these captures. -/
  | entered (captures : Captures)
  /-- A clause put the cursor back. -/
  | restored
  /-- Another application is called. -/
  | delegated
  /-- The outcome was fixed. -/
  | committed
  deriving DecidableEq, Repr

/-- What a frame holds at one moment. -/
structure Stage where
  request : Request
  response : Response := {}
  /-- The captures of the clause that is being tried. -/
  captures : Captures := []
  /-- The outcome, once there is one. -/
  commitment : Option Response := none

/-- A moment of a dispatch. -/
structure Moment where
  /-- What happened. -/
  event : Event
  /-- What the frame holds from then on. -/
  stage : Stage

/-- The state of a dispatch. -/
structure Frame extends Stage where
  /-- What happened so far, in order. -/
  history : List Moment := []

/-- How a piece of handler code ends. -/
inductive Ending where
  /-- It comes to its end; as a predicate it says yes or no. -/
  | returned (verdict : Bool)
  /-- It halts the dispatch with a response. -/
  | halted (response : Response)
  /-- It leaves by a fault. -/
  | faulted (fault : Fault)

namespace Frame

/-- The frame of a fresh dispatch. -/
def initial (request : Request) : Frame := { request }

/-- The frame after something happened that leaves it at a given stage. -/
def become (frame : Frame) (event : Event) (stage : Stage) : Frame :=
  ⟨stage, frame.history ++ [⟨event, stage⟩]⟩

/-- Notes that something happened which changes nothing. -/
def note (frame : Frame) (event : Event) : Frame := frame.become event frame.toStage

/-- Changes the response. -/
def respond (frame : Frame) (change : Response → Response) : Frame :=
  frame.become .responded { frame.toStage with response := change frame.response }

/-- Changes the request. -/
def amend (frame : Frame) (change : Request → Request) : Frame :=
  frame.become .amended { frame.toStage with request := change frame.request }

/-- Appends to the live captures. -/
def capture (frame : Frame) (found : Captures) : Frame :=
  frame.become .captured { frame.toStage with captures := frame.captures ++ found }

/-- Moves the cursor of the request. -/
def moveTo (frame : Frame) (cursor : Cursor) : Frame :=
  frame.become .moved { frame.toStage with request := { frame.request with cursor } }

/-- Begins a clause: the live captures of the clauses before it are cleared. -/
def openClause (frame : Frame) : Frame := frame.become .opened { frame.toStage with captures := [] }

/-- Puts the cursor of the request back. -/
def restore (frame : Frame) (cursor : Cursor) : Frame :=
  frame.become .restored { frame.toStage with request := { frame.request with cursor } }

/-- Fixes the outcome, unless it is fixed already, and halts with it. -/
def commit (frame : Frame) (response : Response) : Ending × Frame :=
  match frame.commitment with
  | some outcome => (.halted outcome, frame)
  | none =>
    (.halted response,
      frame.become .committed { frame.toStage with commitment := some response })

/-- The outcome as it can be asked for: a fresh response as long as there is none. -/
def outcome (frame : Frame) : Response := frame.commitment.getD {}

end Frame

end ClauseRouter
