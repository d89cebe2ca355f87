import EvmTrace.Sink

/-!
# Diagnostic streams

A stream for people to read. It may break after some bytes; what was written until then stays. A
flush may fail as well.
-/
namespace EvmTrace

structure Stream where
  content : Bytes
  /-- How many more bytes it takes, and how it fails after that; unlimited when absent. -/
  limit : Option (Nat × SinkError)
  /-- The outcomes of the next flushes; every later one succeeds. -/
  flushes : List (Option SinkError)
  deriving DecidableEq, Repr

namespace Stream

/-- A stream with nothing in it yet, whose flushes succeed. -/
def empty (limit : Option (Nat × SinkError)) : Stream := ⟨[], limit, []⟩

/-- Writes all of some bytes, or as many as still go in. -/
def write (s : Stream) (b : Bytes) : Option SinkError × Stream :=
  match s.limit with
  | none => (none, { s with content := s.content ++ b })
  | some (room, e) =>
    if b.length ≤ room then
      (none, { s with content := s.content ++ b, limit := some (room - b.length, e) })
    else (some e, { s with content := s.content ++ b.take room, limit := some (0, e) })

def flush (s : Stream) : Option SinkError × Stream :=
  (s.flushes.head?.join, { s with flushes := s.flushes.tail })

theorem write_unlimited (content b : Bytes) (flushes : List (Option SinkError)) :
    write ⟨content, none, flushes⟩ b = (none, ⟨content ++ b, none, flushes⟩) := rfl

theorem write_limited (content b : Bytes) (room : Nat) (e : SinkError)
    (flushes : List (Option SinkError)) :
    write ⟨content, some (room, e), flushes⟩ b =
      (if room < b.length then some e else none,
        ⟨content ++ b.take room, some (room - b.length, e), flushes⟩) := by
  by_cases h : b.length ≤ room
  · simp [write, h, Nat.not_lt.mpr h, List.take_of_length_le h]
  · have hlt : room < b.length := Nat.lt_of_not_le h
    have hroom : room - b.length = 0 := by omega
    simp [write, h, hlt, hroom]

theorem write_nil (s : Stream) : s.write [] = (none, s) := by
  obtain ⟨content, limit, flushes⟩ := s
  cases limit with
  | none => simp [write_unlimited]
  | some limit =>
    obtain ⟨room, e⟩ := limit
    simp [write_limited]

theorem write_append (s : Stream) (a b : Bytes) :
    s.write (a ++ b) =
      match s.write a with
      | (none, t) => t.write b
      | (some e, t) => (some e, t) := by
  obtain ⟨content, limit, flushes⟩ := s
  cases limit with
  | none => simp [write_unlimited]
  | some limit =>
    obtain ⟨room, e⟩ := limit
    by_cases h : room < a.length
    · have hall : room < a.length + b.length := by omega
      have hleft : room - (a.length + b.length) = room - a.length := by omega
      have htake : (a ++ b).take room = a.take room :=
        List.take_append_of_le_length (Nat.le_of_lt h)
      simp [write_limited, h, hall, hleft, htake]
    · have hall : room < a.length + b.length ↔ room - a.length < b.length := by omega
      have htake : (a ++ b).take room = a ++ b.take (room - a.length) := by
        rw [List.take_append, List.take_of_length_le (Nat.le_of_not_lt h)]
      have ha : a.take room = a := List.take_of_length_le (Nat.le_of_not_lt h)
      simp [write_limited, h, hall, htake, ha, Nat.sub_sub]

/-- Writes piece by piece up to the first failure. -/
def writeAll (s : Stream) : List Bytes → Option SinkError × Stream
  | [] => (none, s)
  | b :: rest =>
    match s.write b with
    | (none, s) => s.writeAll rest
    | (some e, s) => (some e, s)

/-- A stream sees no pieces. -/
theorem writeAll_eq_write (s : Stream) (pieces : List Bytes) :
    s.writeAll pieces = s.write pieces.flatten := by
  induction pieces generalizing s with
  | nil => exact (write_nil s).symm
  | cons piece pieces ih =>
    rw [List.flatten_cons, write_append, writeAll]
    rcases s.write piece with ⟨failure, t⟩
    cases failure with
    | none => exact ih t
    | some e => rfl

/-- Writes all pieces and flushes behind the last one, up to the first failure. -/
def send (s : Stream) (pieces : List Bytes) : Option SinkError × Stream :=
  match s.writeAll pieces with
  | (none, s) => s.flush
  | (some e, s) => (some e, s)

theorem send_cons (s : Stream) (b : Bytes) (rest : List Bytes) :
    s.send (b :: rest) =
      match s.write b with
      | (none, t) => t.send rest
      | (some e, t) => (some e, t) := by
  rw [send, writeAll]
  rcases s.write b with ⟨failure, t⟩
  cases failure with
  | none => rfl
  | some e => rfl

/-- What comes of pieces does not depend on where they were cut. -/
theorem send_congr (s : Stream) {pieces pieces' : List Bytes}
    (h : pieces.flatten = pieces'.flatten) : s.send pieces = s.send pieces' := by
  rw [send, send, writeAll_eq_write, writeAll_eq_write, h]

theorem send_unlimited (content : Bytes) (flushes : List (Option SinkError))
    (pieces : List Bytes) :
    send ⟨content, none, flushes⟩ pieces =
      (flushes.head?.join, ⟨content ++ pieces.flatten, none, flushes.tail⟩) := by
  rw [send, writeAll_eq_write, write_unlimited]
  rfl

/-- A stream that breaks while it is written to is not flushed. -/
theorem send_limited (content : Bytes) (room : Nat) (e : SinkError)
    (flushes : List (Option SinkError)) (pieces : List Bytes) :
    send ⟨content, some (room, e), flushes⟩ pieces =
      (if room < pieces.flatten.length then some e else flushes.head?.join,
        ⟨content ++ pieces.flatten.take room, some (room - pieces.flatten.length, e),
          if room < pieces.flatten.length then flushes else flushes.tail⟩) := by
  rw [send, writeAll_eq_write, write_limited]
  by_cases hlt : room < pieces.flatten.length
  · simp only [hlt, if_true]
  · simp only [hlt, if_false]
    rfl

end Stream
end EvmTrace
