import Stencil.Value.Basic
import Stencil.Text.Blank
import Stencil.Decimal.Numeral

/-!
# `Stencil.Scope`: where names are looked up

A scope is a stack of values. The view is its outermost frame, and a block pushes the value that
it shows its children for. A path starts with a name, which is sought from the innermost frame
outwards in the frames that are maps, and goes on with keys and list indices inside the value
found. The path `.` is the innermost frame itself. A path that leads nowhere gives null.

`Scope.lookupTrimmed_eq_foldl` says how the segments of a path are followed.
-/

set_option autoImplicit false

namespace Stencil

open Text

/-- A stack of values. -/
structure Scope where
  /-- The innermost value. -/
  frame : Value
  /-- The values around it, from the inside to the outside. -/
  outer : List Value
deriving Inhabited

/-- The parts of a text between its dots. There is always at least one. -/
def segments : List Char → List (List Char)
  | [] => [[]]
  | '.' :: cs => [] :: segments cs
  | c :: cs =>
    match segments cs with
    | [] => [[c]]
    | s :: rest => (c :: s) :: rest

/-- The index that a segment denotes: a whole number of at most 64 bits, perhaps with a plus. -/
def readIndex? (segment : List Char) : Option Nat := do
  let n ← Decimal.readNatural? segment
  if n < 2 ^ 64 then some n else none

/-- The value one step further: the one under a key of a map, or at an index of a list. -/
def Value.child (v : Value) (segment : List Char) : Value :=
  match v with
  | .map entries => (valueAt? (String.ofList segment) entries).getD .null
  | .list items =>
    match readIndex? segment with
    | some i => items[i]?.getD .null
    | none => .null
  | _ => .null

namespace Scope

/-- The scope of a view. -/
def root (view : Value) : Scope := ⟨view, []⟩

/-- The scope inside a block that shows its children for a value. -/
def push (s : Scope) (v : Value) : Scope := ⟨v, s.frame :: s.outer⟩

/-- The values of the scope from the inside to the outside. -/
def frames (s : Scope) : List Value := s.frame :: s.outer

/-- The scope of the given values, innermost first; without any it holds null. -/
def ofFrames : List Value → Scope
  | [] => ⟨.null, []⟩
  | v :: vs => ⟨v, vs⟩

/-- The value under a name in the innermost frame that has it. -/
def find? (s : Scope) (name : List Char) : Option Value :=
  s.frames.findSome? fun v => v.get? (String.ofList name)

/-- The value at a path that has no blanks around it. -/
def lookupTrimmed (s : Scope) (path : List Char) : Value :=
  if path = ['.'] then s.frame
  else
    match segments path with
    | [] => .null
    | first :: rest =>
      if first = [] then .null
      else
        match s.find? first with
        | none => .null
        | some v => rest.foldl Value.child v

/-- The value at a path. -/
def lookup (s : Scope) (path : String) : Value :=
  s.lookupTrimmed (trim path.toList)

/-- A path that is not `.` and starts with a name is followed segment by segment. -/
theorem lookupTrimmed_eq_foldl (s : Scope) {path first : List Char} {rest : List (List Char)}
    {v : Value} (hpath : path ≠ ['.']) (hsegments : segments path = first :: rest)
    (hfirst : first ≠ []) (hfind : s.find? first = some v) :
    s.lookupTrimmed path = rest.foldl Value.child v := by
  simp [lookupTrimmed, hpath, hsegments, hfirst, hfind]

end Scope

end Stencil
