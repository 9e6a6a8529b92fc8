/-!
# Events

What a resolution reports while it runs, in the order in which it happens.  A warning marks a
place where the schema says less than the type does.
-/

namespace GraphSchema

/-- How much an event matters. -/
inductive Level where
  | warn
  | debug
  | trace
  deriving DecidableEq

/-- The spelling of a level. -/
def Level.name : Level → String
  | warn => "WARN"
  | debug => "DEBUG"
  | trace => "TRACE"

/-- Something that happened during a resolution; types are given by their handles. -/
inductive Event (τ : Type) where
  /-- The resolution of a site begins. -/
  | started (ty : τ) (name : Option String)
  /-- The nesting limit is reached. -/
  | depthLimit (ty : τ) (depth : Nat)
  /-- A recognizer has claimed the type. -/
  | recognized (recognizer : String) (ty : τ)
  /-- No recognizer claims the type. -/
  | unrecognized (ty : τ) (title : Option String)
  /-- The type is met again while it is being resolved. -/
  | recursion (ty : τ) (name : Option String)
  /-- A property symbol names no declared property. -/
  | unknownProperty (name : String) (owner : τ)
  deriving DecidableEq

namespace Event

variable {τ : Type}

/-- The level of an event. -/
def level : Event τ → Level
  | started .. => .debug
  | recognized .. => .trace
  | depthLimit .. | unrecognized .. | recursion .. | unknownProperty .. => .warn

/-- The wording of an event. -/
def message : Event τ → String
  | started .. => "resolving type schema"
  | depthLimit .. => "type resolution depth limit, falling back to any"
  | recognized .. => "recognized"
  | unrecognized .. => "no recognizer matched type, falling back to any"
  | recursion .. => "recursive type, emitting back-reference"
  | unknownProperty .. => "unknown property symbol, treating as opaque"

end Event

end GraphSchema
