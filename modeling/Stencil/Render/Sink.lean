import Stencil.Text.Size

/-!
# `Stencil.Render.Sink`: where streamed output goes

A sink takes bytes until it has no room left. Of a text that does not fit it takes the part that
does, and then fails. It may also fail when it is flushed.

`write_bytes` says what a sink holds after a write.
-/

set_option autoImplicit false

namespace Stencil

/-- A reason why output is not taken. -/
inductive SinkError where
  /-- There is no room for more. -/
  | full
  /-- What was taken could not be passed on. -/
  | flushFailed
deriving DecidableEq, Repr, Inhabited

/-- The wording of a sink error. -/
def SinkError.message : SinkError → String
  | full => "sink full"
  | flushFailed => "flush failed"

/-- A place for bytes. -/
structure Sink where
  /-- The bytes taken, the last one first. -/
  reversed : List UInt8
  /-- The number of bytes that still fit; any number if there is none. -/
  room : Option Nat
  /-- Whether a flush fails. -/
  flushFails : Bool
deriving Inhabited

namespace Sink

/-- An empty sink. -/
def new (room : Option Nat) (flushFails : Bool) : Sink :=
  ⟨[], room, flushFails⟩

/-- The bytes taken, in order. -/
def bytes (s : Sink) : List UInt8 :=
  s.reversed.reverse

/-- Hands over bytes. -/
def write (s : Sink) (bs : List UInt8) : Except SinkError Unit × Sink :=
  match s.room with
  | none => (.ok (), { s with reversed := bs.reverse ++ s.reversed })
  | some room =>
    if bs.length ≤ room then
      (.ok (), { s with reversed := bs.reverse ++ s.reversed, room := some (room - bs.length) })
    else
      (.error .full, { s with reversed := (bs.take room).reverse ++ s.reversed, room := some 0 })

/-- Passes on what was taken. -/
def flush (s : Sink) : Except SinkError Unit :=
  if s.flushFails then .error .flushFailed else .ok ()

/-- The bytes taken as text. If they end inside a character, a replacement character stands for
its part. -/
def text (s : Sink) : String :=
  let bs := s.bytes
  -- A character has four bytes at most, so that three may be left of one that was cut.
  let decoded := (List.range 4).findSome? fun cut =>
    (String.fromUTF8? ⟨(bs.take (bs.length - cut)).toArray⟩).map fun whole =>
      if cut = 0 then whole else whole ++ "\ufffd"
  decoded.getD ""

/-- A write adds its bytes to those already taken, or as many of them as there is room for. -/
theorem write_bytes (s : Sink) (bs : List UInt8) :
    (s.write bs).2.bytes = s.bytes ++ match s.room with
      | none => bs
      | some room => bs.take room := by
  unfold write bytes
  split
  · simp
  · split
    · rename_i hle
      simp [List.take_of_length_le hle]
    · simp

end Sink

end Stencil
