/-
# BorderSync.Log -- what the library reports while it works

A report has a level and a text. Reports are values: functions return them in the order in which
they arise, and the outermost layer decides where they go.
-/

namespace BorderSync

/-- How serious a report is. -/
inductive Level where
  | info
  | warn
  | error
  deriving DecidableEq, Repr

/-- The name of a level. -/
def Level.text : Level → String
  | .info => "INFO"
  | .warn => "WARN"
  | .error => "ERROR"

/-- **Report**: a level and a text. -/
structure Report where
  level : Level
  text : String
  deriving DecidableEq, Repr

namespace Report

/-- An ordinary report. -/
def info (text : String) : Report := ⟨.info, text⟩

/-- A warning. -/
def warn (text : String) : Report := ⟨.warn, text⟩

/-- A failure. -/
def error (text : String) : Report := ⟨.error, text⟩

/-- Level and text in one line. -/
def line (r : Report) : String :=
  r.level.text ++ " " ++ r.text

end Report

end BorderSync
