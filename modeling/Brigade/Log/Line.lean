/-
Lines of the log.

A line has a level, a target that says which part of the program speaks, a message, and fields. It is shown as text, the
message followed by the fields (`LogLine.text`), or as JSON (`LogLine.fieldsJson`). A count is a number in JSON; an
event is shown as its JSON text. Text is shown as it is, so a line break in a field ends what a reader of lines sees
beside the level and the target (`LogLine.firstLine`).
-/
import Brigade.Event
import Brigade.Json.Print

namespace Brigade

/-- levels, the most urgent first -/
inductive LogLevel where
  | error
  | warn
  | info
  | debug
  | trace
deriving DecidableEq, Repr, Inhabited

namespace LogLevel

def name : LogLevel → String
  | error => "ERROR"
  | warn => "WARN"
  | info => "INFO"
  | debug => "DEBUG"
  | trace => "TRACE"

/-- how many levels are at least as urgent -/
def rank : LogLevel → Nat
  | error => 1
  | warn => 2
  | info => 3
  | debug => 4
  | trace => 5

end LogLevel

/-- the value of a field -/
inductive LogValue where
  | text (s : String)
  | count (n : Nat)
  | event (e : Event)
deriving DecidableEq, Repr

namespace LogValue

def shown : LogValue → String
  | text s => s
  | count n => toString n
  | event e => e.toJson.render

def toJson : LogValue → Json
  | count n => .nat n
  | v => .text v.shown

end LogValue

structure LogLine where
  level : LogLevel
  target : String
  message : String
  fields : List (String × LogValue)
deriving DecidableEq, Repr

namespace LogLine

/-- message, then fields -/
def text (l : LogLine) : String :=
  l.message ++ String.join (l.fields.map fun f => " " ++ f.1 ++ "=" ++ f.2.shown)

/-- the text up to its first line break, `\n` or `\r\n` -/
def firstLine (l : LogLine) : String :=
  let line := l.text.toList.takeWhile (· != '\n')
  let broken := line.length < l.text.length
  String.ofList (if broken && line.getLast? == some '\r' then line.dropLast else line)

/-- message and fields as one object -/
def fieldsJson (l : LogLine) : Json :=
  .record (("message", .text l.message) :: l.fields.map fun f => (f.1, f.2.toJson))

end LogLine

end Brigade
