import ClauseRouter.Demo

/-!
# The command line

Reads the settings file, if one is named, and lends the command a clock and random words; all else is
`Demo.run`.
-/

namespace ClauseRouter.Main

/-- The number of random words that one run may use. -/
def wordCount : Nat := 16

/-- A word of eight bytes from a place in a string of bytes. -/
def wordAt (bytes : ByteArray) (place : Nat) : UInt64 :=
  (bytes.extract place (place + 8)).data.foldl (fun word b => word * 256 + b.toUInt64) 0

/-- The content of a file, if it can be read. -/
def contentOf (file : String) : IO (Option Bytes) := do
  try
    let content ← IO.FS.readBinFile file
    return some content.data.toList
  catch _ => return none

/-- Writes bytes to a stream. -/
def put (stream : IO.FS.Stream) (text : Bytes) : IO Unit := do
  stream.write ⟨text.toArray⟩
  stream.flush

end ClauseRouter.Main

open ClauseRouter in
/-- Sends one request to the site and prints the response. -/
def main (arguments : List String) : IO UInt32 := do
  let milliseconds ← IO.monoMsNow
  let random ← IO.getRandomBytes (USize.ofNat (8 * Main.wordCount))
  let words := (List.range Main.wordCount).map fun i => Main.wordAt random (8 * i)
  let content ← (arguments[2]?).elim (pure none) Main.contentOf
  let outcome :=
    Demo.run (arguments.map fun text => text.toUTF8.data.toList) (fun _ => content)
      { now := UInt64.ofNat (milliseconds / 1000), words }
  Main.put (← IO.getStdout) outcome.output
  Main.put (← IO.getStderr) outcome.errors
  return UInt32.ofNat outcome.exitCode
