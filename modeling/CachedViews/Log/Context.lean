import CachedViews.Fault

/-
# Loggers with a context

A logger may carry fields that are added to everything that is logged through
it. A logger without such fields is a plain one.

Key definitions: `Logger`, `Logger.process`.
-/

namespace CachedViews.Log

/-- A logger, with the fields that it adds. -/
structure Logger where
  name : String
  context : List (String × Value)

/-- The name of the kind of a logger. -/
def Logger.kind (l : Logger) : String :=
  if l.context.isEmpty then "Logger" else "ViewLoggerAdapter"

/-- The keywords of a message with the context among their extra fields. Fields of
the context win. -/
def Logger.process (l : Logger) (keywords : List (String × Value)) :
    Except Fault (List (String × Value)) :=
  match (keywords.lookup "extra").getD (.dict []) with
  | .dict es =>
    let extra := l.context.foldl (fun es (k, v) => Value.insertEntry (.str k) v es) es
    .ok (Value.insertField "extra" (.dict extra) keywords)
  | v => .error (.attribute v.kind "update")

end CachedViews.Log
