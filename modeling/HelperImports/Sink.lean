import HelperImports.Text.Bytes

/-! Where output goes. A sink may stop taking output after a number of writes; a write that is not
taken leaves no trace. -/

namespace HelperImports

/-- A destination for output. -/
inductive Sink where
  /-- Takes everything and keeps nothing. -/
  | discard
  /-- Keeps what it takes, and takes `room` more writes, or any number if that is not given. -/
  | keep (room : Option Nat) (taken : Bytes)
  deriving DecidableEq, Repr

/-- One write. If an optional write is not taken, nobody is told. -/
structure Write where
  text : Bytes
  optional : Bool := false
  deriving DecidableEq, Repr

namespace Sink

/-- What the sink has kept. -/
def taken : Sink → Bytes
  | discard => []
  | keep _ taken => taken

/-- The sink with what it kept forgotten. -/
def forget : Sink → Sink
  | discard => discard
  | keep room _ => keep room []

/-- The sink after one write, and whether it was taken. -/
def write (text : Bytes) : Sink → Sink × Bool
  | discard => (discard, true)
  | keep none taken => (keep none (taken ++ text), true)
  | keep (some 0) taken => (keep (some 0) taken, false)
  | keep (some (room + 1)) taken => (keep (some room) (taken ++ text), true)

/-- Makes the writes in order, up to the first one that is refused and not optional. Says whether
all went well. -/
def writeAll : List Write → Sink → Sink × Bool
  | [], s => (s, true)
  | w :: ws, s =>
    let (s, ok) := s.write w.text
    if ok || w.optional then writeAll ws s else (s, false)

end Sink

end HelperImports
