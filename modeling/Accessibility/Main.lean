import Accessibility.CommandLine.Program
import Std.Time.DateTime.Timestamp

/-!
# The executable

The outer layer of the program: it reads the environment, the files that the command line names,
the clock and the source of random bits, and prints what the program answers.
-/

namespace Accessibility.CommandLine

/-- How the program is used. -/
def usageText : String :=
  "Usage: axpath [--config <file>] <command> [args...]\n" ++
    "  resolve <snapshot> <path> [-d | --diagnose] [--token]\n" ++
    "  paths <snapshot> [-d | --depth <n>] [--tokens]\n" ++
    "  menu <menus> <path> [-l | --limit <n>]\n" ++
    "  diff <before> <after> [--json]\n"

/-- The text that is printed. -/
def Printed.content : Printed → String
  | text content => content
  | usage => usageText

/-- The number of an error of the system, which may be reported with a minus sign. -/
def errorNumber (code : UInt32) : UInt32 :=
  if code < 0x80000000 then code else 0 - code

/-- The fault behind an error of the system. -/
def faultOf (error : IO.Error) : FileFault :=
  match error with
  | .noFileOrDirectory .. => .missing
  | .permissionDenied .. => .denied
  | .inappropriateType _ code _ => if errorNumber code = 20 then .notDirectory else .directory
  | .invalidArgument _ code _ =>
      if errorNumber code = 36 then .longName else .other (toString error)
  | _ => .other (toString error)

/-- Reads the text of a file. -/
def readText (file : String) : IO (Except FileFault String) := do
  if file.contains '\x00' then
    return .error .cutName
  try
    let bytes ← IO.FS.readBinFile file
    match String.fromUTF8? bytes with
    | some text => return .ok text
    | none => return .error .notText
  catch error =>
    return .error (faultOf error)

/-- Draws a random identifier. -/
def drawId : IO OpaqueId := do
  let bytes ← IO.getRandomBytes 16
  return OpaqueId.ofRandom (bytes.toList.foldl (fun number byte => 256 * number + byte.toNat) 0)

/-- The instant that the clock of the system shows, counted from the epoch. -/
def readClock : IO Instant := do
  let shown ← Std.Time.Timestamp.now
  return shown.toNanosecondsSinceUnixEpoch.val

/-- The number of characters of a text that was read. -/
def textSize : Except FileFault String → Nat
  | .ok text => text.length
  | .error _ => 0

/-- Runs the program in the surroundings of the system.  All of a run belongs to the instant after
the files were read, so a walk counts as taking no time. -/
def runInSystem (words : List String) : IO Finish := do
  let environment : Environment :=
    { settingsFile := ← IO.getEnv "AXPATH_CONFIG"
      configHome := ← IO.getEnv "XDG_CONFIG_HOME"
      home := (← IO.getEnv "HOME").getD "/" }
  let texts ← (filesRead environment words).mapM fun file => do pure (file, ← readText file)
  let size := texts.foldl (fun size entry => size + textSize entry.2) 0
  let draws ← (List.range (drawsNeeded size)).mapM fun _ => drawId
  let files : Files := fun file => (texts.lookup file).getD (.error .missing)
  let now ← readClock
  return run environment { files, now, draws } words

end Accessibility.CommandLine

/-- Runs the program and ends with its code. -/
def main (words : List String) : IO UInt32 := do
  let finish ← Accessibility.CommandLine.runInSystem words
  IO.print finish.output.content
  IO.eprint finish.errors.content
  return UInt32.ofNat finish.code
