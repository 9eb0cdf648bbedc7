import Mathlib.Data.List.Basic

/-!
# The stack buffer a trace line is built in

`formatInto` and `formatEventInto` write a line piece by piece into a caller's buffer of `cap`
bytes with `snprintf` and `memcpy`, threading the position and the space that remains. A
`LineBuffer` holds what has been committed so far; its length is `pos` of the source, and
`remaining` is `cap - pos`. Bytes an `snprintf` wrote past the position without the position
being advanced are overwritten by the next piece and never reach the file.
-/

namespace CallStackLogger

/-- A C string or a run of file bytes, one `Char` for each byte. -/
abbrev Text := List Char

/-- A pointer: a code address or the address of a stack slot. -/
abbrev Addr := Nat

/-- What `%s` prints of a `std::string`'s `c_str()`: the bytes up to the first NUL. -/
def cStr (s : Text) : Text := s.takeWhile (· ≠ '\x00')

/-- The largest `int`: `snprintf` reports an error for a longer result. -/
def intMax : Nat := 2147483647

/-- The value `snprintf` returns for the text it was asked to print. -/
def snprintfResult (w : Text) : Int := if w.length ≤ intMax then w.length else -1

/-- Width of one segment of the tree prefix. -/
def treeSegmentWidth : Nat := 3

/-- `touched` and `glyph` are ghost: one past the highest index of the buffer written so far,
and where the last `"|_ "` was put. No formatter reads them. -/
structure LineBuffer where
  cap : Nat
  bytes : Text := []
  touched : Nat := 0
  glyph : Option Nat := none
deriving DecidableEq, Repr

namespace LineBuffer

variable (B : LineBuffer)

def pos : Nat := B.bytes.length

def remaining : Nat := B.cap - B.pos

/-- The bytes `snprintf(buf + pos, remaining, ...)` writes, its NUL included. -/
def printed (w : Text) : Nat := B.pos + min w.length (B.remaining - 1) + 1

/-- `n = snprintf(buf + pos, remaining, ...); if (n > 0 && n < remaining)` the piece is kept. -/
def piece (w : Text) : LineBuffer :=
  if 0 < snprintfResult w ∧ snprintfResult w < B.remaining then
    { B with bytes := B.bytes ++ w, touched := max B.touched (B.printed w) }
  else
    { B with touched := max B.touched (B.printed w) }

/-- The last piece of a line is clamped: `pos += (n < remaining) ? n : remaining - 1`. -/
def clampedPiece (w : Text) : LineBuffer :=
  if 0 < snprintfResult w then
    { B with
      bytes := B.bytes ++ w.take (B.remaining - 1)
      touched := max B.touched (B.printed w) }
  else
    { B with touched := max B.touched (B.printed w) }

/-- `memcpy` of one tree segment behind the committed bytes. -/
def segment (w : Text) : LineBuffer :=
  { B with bytes := B.bytes ++ w, touched := max B.touched (B.pos + w.length) }

/-- `for (int i = 1; i < depth && remaining > TREE_SEGMENT_WIDTH; ++i)`, with `n` rounds left. -/
def indent (w : Text) : Nat → LineBuffer → LineBuffer
  | 0, B     => B
  | n + 1, B => if treeSegmentWidth < B.remaining then indent w n (B.segment w) else B

/-- The glyph that ends the tree prefix, remembered where it went. -/
def treeGlyph (w : Text) : LineBuffer :=
  if treeSegmentWidth < B.remaining then { B.segment w with glyph := some B.pos } else B

/-- `buf[pos++] = '\n'`. -/
def newline : LineBuffer :=
  { B with bytes := B.bytes ++ ['\n'], touched := max B.touched (B.pos + 1) }

end LineBuffer

end CallStackLogger
