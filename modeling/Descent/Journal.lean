import Descent.Journal.Template

/-!
# Log messages

A message has a level and is written if the verbosity of the parse going on reaches it; without a parse nothing
is written. A message that comes with fields is a template into which they are filled. One without fields is
written as it is.
-/

namespace Descent.Journal

/-- Whether a message of some level is written under a verbosity. -/
def admits (verbosity : Option Int) (level : Int) : Bool :=
  match verbosity with
  | none => false
  | some verbosity => level ≤ verbosity

/-- How deep fields may stand in the layouts of fields, counting the message itself. -/
def templateDepth : Nat := 2

/-- What is written of a message with fields. -/
def written (message : String) (fields : List (String × Field)) : Except TemplateFlaw String :=
  if fields.isEmpty then .ok message
  else
    let fields := fields.map fun (name, field) => (name.toList, field)
    (Template.filled fields templateDepth (message.toList.length + 1) message.toList).map String.ofList

/-- A message that is to be logged. -/
structure Entry where
  message : String
  level : Int
  fields : List (String × Field)

/-- What is logged of an entry under a verbosity. Its fields may not have the names of its other parts. -/
def logged? (verbosity : Option Int) (e : Entry) : Except TemplateFlaw (Option String) :=
  if e.fields.any fun (name, _) => name == "message" || name == "level" then .error .takenName
  else if admits verbosity e.level then (written e.message e.fields).map some
  else .ok none

end Descent.Journal
