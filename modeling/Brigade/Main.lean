/-
The command line.

Reads the variables of the process and the files of the directory `config`, draws identities, reads the clock, runs the
program and prints its log.
-/
import Brigade.Program
import Std.Time.DateTime.Timestamp

namespace Brigade.CommandLine

/-- the text of a file, none if there is no such file -/
def readText (path : String) : IO (Option String) := do
  try
    return String.fromUTF8? (← IO.FS.readBinFile path)
  catch _ =>
    return none

/-- the directory of the settings files -/
def directory : String := "config"

/-- the sources under these variables, with the files that may be read -/
def readSources (vars : List (String × String)) : IO ConfigSources := do
  let sources : ConfigSources := ⟨directory, [], vars⟩
  let names := (sources.namesFor "default" ++ sources.namesFor sources.profile).eraseDups
  let texts ← names.mapM fun n => return (n, ← readText (directory ++ "/" ++ n))
  return { sources with files := texts.filterMap fun p => p.2.map fun t => (p.1, t) }

def randomId : IO Id := do
  let bytes ← IO.getRandomBytes 16
  return Id.ofRandom (bytes.toList.foldl (fun n b => n * 256 + b.toNat) 0)

def now : IO Timestamp := do
  let t := (← Std.Time.Timestamp.now).toNanosecondsSinceUnixEpoch.toInt
  let nanos := (t % billion).toNat
  if h : nanos < 2 * billion then return ⟨t / billion, nanos, h⟩ else return .epoch

end Brigade.CommandLine

open Brigade CommandLine in
def main : IO UInt32 := do
  let vars := Program.variablesOf ((← readText "/proc/self/environ").getD "")
  let sources ← readSources vars
  let ids ← (List.range 16).mapM fun _ => randomId
  let time ← now
  match Program.run ⟨fun n => ids.getD n .nil, fun _ => time⟩ sources with
  | .refused e =>
    IO.eprintln ("Error: " ++ e.text)
    return 1
  | .fault f =>
    IO.eprintln f.message
    return 101
  | .ok r =>
    for l in r.lines do
      IO.println (Program.printed r.json time l)
    return r.exitCode.toUInt32
