import CachedViews.Task.Board

/-
# Log lines of the journal

Every event of the journal that someone may want to read about is a log line.
The lines of caches are about the keys that are found, missed and removed.

Key definitions: `LogLine`, `Event.logLine?`.
-/

namespace CachedViews

/-- How important a log line is. -/
inductive Level where
  | debug | info | warning | error
  deriving Repr, BEq, DecidableEq

/-- The name of a level. -/
def Level.name : Level → String
  | .debug => "DEBUG"
  | .info => "INFO"
  | .warning => "WARNING"
  | .error => "ERROR"

/-- A line of the log, with the view it is about if it is about one. -/
structure LogLine where
  level : Level
  logger : String
  message : String
  view : Option Value := none

/-- The name of the log of a part of the library. -/
def loggerOf (part : String) : String := "template_views." ++ part

/-- The line about an event. `cacheName` names the caches and `lineOf` words the
notes of programs. -/
def Event.logLine? {σ : Signature} (cacheName : σ.Cache → String)
    (lineOf : σ.Note → Option LogLine) : Event σ → Option LogLine
  | .noted _ n => lineOf n
  | .hit c k _ => some ⟨.debug, loggerOf "cache", s!"{cacheName c} cache hit: {k}", none⟩
  | .missed c k _ => some ⟨.debug, loggerOf "cache", s!"{cacheName c} cache miss: {k}", none⟩
  | .evicted c k _ f =>
    some ⟨.debug, loggerOf "cache", s!"{cacheName c} cache evicted {k} after {f.kind}", none⟩
  | .cleared c => some ⟨.debug, loggerOf "cache", s!"{cacheName c} cache cleared", none⟩
  | .asked _ _ | .began _ _ => none

end CachedViews
