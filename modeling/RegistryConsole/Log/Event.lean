/-! # Log events

What the console tells its operator: a level, where it comes from, a message, and named values. -/

namespace RegistryConsole

/-- How much an event matters. -/
inductive LogLevel where
  | error
  | warn
  | info
  | debug
  | trace
  deriving DecidableEq

namespace LogLevel

/-- How much is logged before events of this level are. -/
def rank : LogLevel → Nat
  | .error => 1
  | .warn => 2
  | .info => 3
  | .debug => 4
  | .trace => 5

/-- The name of a level in a log line. -/
def name : LogLevel → String
  | .error => "ERROR"
  | .warn => "WARN"
  | .info => "INFO"
  | .debug => "DEBUG"
  | .trace => "TRACE"

end LogLevel

/-- Something that happened. -/
structure LogEvent where
  level : LogLevel
  /-- The part of the program that it comes from. -/
  target : String
  message : String
  /-- Named values, in order. -/
  fields : List (String × String) := []
  deriving DecidableEq

namespace LogEvent

/-- The level and the message. -/
def summary (e : LogEvent) : String :=
  e.level.name ++ " " ++ e.message

/-- The line of an event: its level, its message and its named values. -/
def line (e : LogEvent) : String :=
  e.fields.foldl (fun text f => text ++ " " ++ f.1 ++ "=" ++ f.2) e.summary

end LogEvent

end RegistryConsole
