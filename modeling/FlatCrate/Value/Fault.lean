/-!
# Faults of documents

A text may fail to be a document of its format. It may also be one and hold a value that cannot be
made, such as a day that no calendar has: reading it then breaks off. And it may name a character that
no text here has.
-/

namespace FlatCrate

/-- Why a value or a program is broken off without a report. -/
inductive Breakdown
  /-- A value of the wrong kind. -/
  | wrongKind
  /-- A value that cannot be. -/
  | impossibleValue
  /-- A word that has no meaning. -/
  | unknownWord
  /-- A place beyond the end of a text. -/
  | outOfRange
  /-- A property that a value does not have. -/
  | missingProperty
  /-- A number that is too large to be held. -/
  | tooLarge
  deriving DecidableEq, Repr

/-- Why a text gives no value. -/
inductive DocumentFault
  /-- The text is not in the format. -/
  | malformed
  /-- The text holds a value that cannot be made. -/
  | broken (breakdown : Breakdown)
  /-- The text names one half of a surrogate pair, which is not modelled. -/
  | unpaired
  deriving DecidableEq, Repr

end FlatCrate
