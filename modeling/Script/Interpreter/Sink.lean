/-!
# Output

What programs print goes to a sink. A sink may be limited: it then takes bytes up to its capacity,
part of a longer text included, and refuses everything after.
-/

namespace Script

/-- How many bytes a sink takes in total, and the reason that it gives for refusing more. -/
structure SinkLimit where
  capacity : Nat
  refusal : String
deriving DecidableEq, Repr

/-- The bytes printed so far, and the limit if there is one. -/
structure Sink where
  accepted : ByteArray
  limit : Option SinkLimit

namespace Sink

/-- A sink that takes everything, with nothing printed so far. -/
def unlimited : Sink := ⟨.empty, none⟩

/-- A sink that takes `capacity` bytes in total and then refuses with `refusal`. -/
def limited (capacity : Nat) (refusal : String) : Sink := ⟨.empty, some ⟨capacity, refusal⟩⟩

/-- Writes a text, or as much of it as the limit allows; yields the refusal if that is not all. -/
def write (sink : Sink) (text : String) : Sink × Option String :=
  let bytes := text.toUTF8
  match sink.limit with
  | none => ({ sink with accepted := sink.accepted ++ bytes }, none)
  | some limit =>
    let room := limit.capacity - sink.accepted.size
    if bytes.size ≤ room then ({ sink with accepted := sink.accepted ++ bytes }, none)
    else ({ sink with accepted := sink.accepted ++ bytes.extract 0 room }, some limit.refusal)

end Sink

end Script
