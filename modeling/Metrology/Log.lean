/-!
# Log records

An operation that has something to report returns its records, in order, beside its result.
-/

namespace Metrology

inductive LogLevel where
  | trace
  | debug
  deriving DecidableEq, Repr

structure LogRecord where
  level : LogLevel
  message : String
  deriving DecidableEq, Repr

structure Logged (β : Type) where
  result : β
  records : List LogRecord

def Logged.map {β γ : Type} (f : β → γ) (l : Logged β) : Logged γ := ⟨f l.result, l.records⟩

namespace LogRecord

def text (r : LogRecord) : String :=
  match r.level with
  | .trace => "TRACE " ++ r.message
  | .debug => "DEBUG " ++ r.message

end LogRecord

end Metrology
