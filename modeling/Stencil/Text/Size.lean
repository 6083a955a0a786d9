/-!
# `Stencil.Text.Size`: texts measured in bytes

Positions in a template are byte offsets into its UTF-8 form, while the library works on lists
of characters. `byteSize` measures a text, and `takeBytes` cuts one at the last character boundary
that a byte budget reaches.

`length_encode` says that `byteSize` counts the bytes of `encode`, `byteSize_takeBytes_le` that what
is taken keeps within its budget, and `takeBytes_byteSize_append` that a budget of exactly the size
of a beginning takes that.
-/

set_option autoImplicit false

namespace Stencil.Text

/-- The number of bytes of a text in UTF-8. -/
def byteSize : List Char → Nat
  | [] => 0
  | c :: cs => c.utf8Size + byteSize cs

/-- The longest beginning made of whole characters that fits into `n` bytes. -/
def takeBytes : Nat → List Char → List Char
  | _, [] => []
  | n, c :: cs => if c.utf8Size ≤ n then c :: takeBytes (n - c.utf8Size) cs else []

/-- The longest ending made of whole characters that fits into `n` bytes. -/
def takeLastBytes (n : Nat) (cs : List Char) : List Char :=
  (takeBytes n cs.reverse).reverse

/-- The bytes of a text in UTF-8. -/
def encode (cs : List Char) : List UInt8 :=
  cs.flatMap String.utf8EncodeChar

/-- The empty text has no bytes. -/
@[simp] theorem byteSize_nil : byteSize [] = 0 := rfl

/-- The first character adds its own size. -/
@[simp] theorem byteSize_cons (c : Char) (cs : List Char) :
    byteSize (c :: cs) = c.utf8Size + byteSize cs := rfl

/-- Sizes add up. -/
@[simp] theorem byteSize_append (xs ys : List Char) :
    byteSize (xs ++ ys) = byteSize xs + byteSize ys := by
  induction xs with
  | nil => simp
  | cons c cs ih => simp [ih, Nat.add_assoc]

/-- A text is encoded character by character. -/
theorem encode_append (xs ys : List Char) : encode (xs ++ ys) = encode xs ++ encode ys :=
  List.flatMap_append

/-- The size of a text is the number of bytes of its encoding. -/
theorem length_encode (cs : List Char) : (encode cs).length = byteSize cs := by
  induction cs with
  | nil => rfl
  | cons c cs ih =>
    rw [encode, List.flatMap_cons, List.length_append, String.length_utf8EncodeChar, byteSize_cons]
    exact congrArg _ ih

/-- No character fits into no bytes. -/
theorem takeBytes_zero (cs : List Char) : takeBytes 0 cs = [] := by
  cases cs with
  | nil => rfl
  | cons c cs => simp [takeBytes, Nat.ne_of_gt c.utf8Size_pos]

/-- A beginning fits exactly into its own size. -/
theorem takeBytes_byteSize_append (taken rest : List Char) :
    takeBytes (byteSize taken) (taken ++ rest) = taken := by
  induction taken with
  | nil => exact takeBytes_zero rest
  | cons c cs ih => simp [takeBytes, ih]

/-- What is taken does not exceed the bytes asked for. -/
theorem byteSize_takeBytes_le (n : Nat) (cs : List Char) : byteSize (takeBytes n cs) ≤ n := by
  induction cs generalizing n with
  | nil => simp [takeBytes]
  | cons c cs ih =>
    by_cases h : c.utf8Size ≤ n
    · simp only [takeBytes, h, if_true, byteSize_cons]
      have := ih (n - c.utf8Size)
      omega
    · simp [takeBytes, h]

end Stencil.Text
