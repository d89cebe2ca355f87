import EvmTrace.Bytes

/-!
# Reusable buffers

A buffer holds back bytes that are not yet to be seen. It is made once with enough capacity for a
unit of work, and emptied between units. What it grew to it keeps.
-/
namespace EvmTrace

structure Buffer where
  content : Bytes
  /-- How many bytes there is room for. -/
  capacity : Nat
  deriving DecidableEq, Repr

namespace Buffer

def withCapacity (capacity : Nat) : Buffer := ⟨[], capacity⟩

/-- The least capacity that a buffer grows to. -/
def leastGrowth : Nat := 8

/-- The capacity once there is room for some bytes: where it falls short, it is at least doubled. -/
def grow (capacity needed : Nat) : Nat :=
  if needed ≤ capacity then capacity else max (max (2 * capacity) needed) leastGrowth

def length (b : Buffer) : Nat := b.content.length

def append (b : Buffer) (bytes : Bytes) : Buffer :=
  ⟨b.content ++ bytes, grow b.capacity (b.length + bytes.length)⟩

/-- Appends piece by piece; how far the buffer grows depends on the pieces. -/
def appendAll (b : Buffer) (pieces : List Bytes) : Buffer := pieces.foldl append b

def reset (b : Buffer) : Buffer := { b with content := [] }

def isEmpty (b : Buffer) : Bool := b.content.isEmpty

/-- How a buffer is shown in messages. -/
def describe (b : Buffer) : String :=
  "ReusableBuffer \x7b len: " ++ toString b.length ++ ", capacity: " ++ toString b.capacity ++
    " \x7d"

/-- Bytes set aside for a block. -/
def blockCapacity : Nat := 50 * 1024 * 1024

/-- Bytes set aside for a transaction. -/
def transactionCapacity : Nat := 5 * 1024 * 1024

theorem le_grow (capacity needed : Nat) : needed ≤ grow capacity needed := by
  unfold grow
  split <;> omega

theorem capacity_le_grow (capacity needed : Nat) : capacity ≤ grow capacity needed := by
  unfold grow
  split <;> omega

theorem length_append (b : Buffer) (bytes : Bytes) :
    (b.append bytes).length = b.length + bytes.length := by
  simp [append, length]

/-- Whatever is appended, there is room for it. -/
theorem length_append_le_capacity (b : Buffer) (bytes : Bytes) :
    (b.append bytes).length ≤ (b.append bytes).capacity := by
  rw [length_append]
  exact le_grow ..

theorem content_appendAll (b : Buffer) (pieces : List Bytes) :
    (b.appendAll pieces).content = b.content ++ pieces.flatten := by
  induction pieces generalizing b with
  | nil => simp [appendAll]
  | cons p rest ih =>
    calc (b.appendAll (p :: rest)).content
      _ = ((b.append p).appendAll rest).content := rfl
      _ = (b.append p).content ++ rest.flatten := ih _
      _ = b.content ++ (p :: rest).flatten := by simp [append]

theorem isEmpty_reset (b : Buffer) : b.reset.isEmpty = true := rfl

end Buffer
end EvmTrace
