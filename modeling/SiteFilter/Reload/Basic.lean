import SiteFilter.Programs

/-!
# Asking the engine to reload

The blocking engine reads its filter list when it is told to. Nobody waits for it: that the engine
is not there or does not listen is an outcome to report and never a fault of the edit before it.
-/

namespace SiteFilter

structure ReloadResult where
  ok : Bool
  message : Text
deriving DecidableEq

inductive Reloader
  /-- Nobody is asked. -/
  | none
  /-- One of the programs is run, which may take `timeout` seconds. -/
  | command (programs : Programs) (words : List Json) (timeout : Float)
  /-- Somebody answers for the engine. -/
  | custom (answer : (engine : Json) → Except Fault ReloadResult)

/-- A request that has still to be made. -/
structure ReloadTask where
  reloader : Reloader
  engine : Json

namespace Reloader

/-- How long a program may take by default, in seconds. -/
def defaultTimeout : Float := 10.0

/-- The reloader that runs a program; its words may not be missing. -/
def ofWords (programs : Programs) (command : Json) (timeout : Float) : Except Fault Reloader :=
  if command.truthy then
    match command.elements with
    | .ok words => .ok (.command programs words timeout)
    | .error e => .error (.mismatch e)
  else .error .emptyCommand

/-- The reloader for a command in the settings, where no command means that nobody is asked. -/
def ofCommand (programs : Programs) (command : Json) : Except Fault Reloader :=
  if command.truthy then ofWords programs command defaultTimeout else .ok .none

end Reloader

end SiteFilter
