/-!
# Log records

A log record has a level and a text. The levels are ordered by how urgent they are.
-/

namespace FlatCrate

/-- How urgent a record is. -/
inductive LogLevel
  | debug
  | info
  | warning
  deriving DecidableEq, Repr

/-- The place of a level in the order of urgency. -/
def LogLevel.rank : LogLevel → Nat
  | .debug => 0
  | .info => 1
  | .warning => 2

/-- The name of a level. -/
def LogLevel.name : LogLevel → String
  | .debug => "DEBUG"
  | .info => "INFO"
  | .warning => "WARNING"

/-- A message of a run. -/
structure LogRecord where
  level : LogLevel
  text : String
  deriving DecidableEq, Repr

/-- A record as it is shown. -/
def LogRecord.render (record : LogRecord) : String := record.level.name ++ ": " ++ record.text

/-- The records that are at least as urgent as a level. -/
def LogRecord.atLeast (level : LogLevel) (records : List LogRecord) : List LogRecord :=
  records.filter fun record => level.rank ≤ record.level.rank

end FlatCrate
