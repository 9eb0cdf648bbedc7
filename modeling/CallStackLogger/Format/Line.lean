import CallStackLogger.Format.Buffer
import Mathlib.Algebra.Group.Nat.Defs

/-!
# Call lines

`formatInto` of `include/format.h`: the timestamp, the text spliced in after it, the optional
address column, the tree prefix, and the function with its call site. The offset at which a
line is patched later is `treeGlyphOffset`, computed from the line's depth alone.
-/

namespace CallStackLogger

/-- Capacity of the stack buffer a formatted trace line is built in. -/
def formatBufSize : Nat := 2048

/-- Length of a rendered timestamp, `"DD-MM-YYYY HH:MM:SS.mmm"`. -/
def prettyTimeLength : Nat := 23

/-- A rendered timestamp. `trace_begin` aborts when the rendering has another length. -/
structure Timestamp where
  text : Text
  length_text : text.length = prettyTimeLength

def timestampPrefixWidth : Nat := prettyTimeLength + 3

/-- `"addr: [0x"`, sixteen hex digits, `"] "`. -/
def addrColumnWidth : Nat := 9 + 16 + 2

def frameEndException : Char := '!'

def frameEndJump : Char := '~'

/-- Byte offset, within a line written at `depth ≥ 1`, of the `'|'` of its `"|_ "` glyph. -/
def treeGlyphOffset (depth : Int) (extraPrefix : Nat) : Nat :=
  timestampPrefixWidth + extraPrefix + treeSegmentWidth * (depth - 1).toNat

/-- What the resolver hands to the enter hook. -/
structure ResolvedFrameView where
  calleeAddress : Option Addr
  calleeFunctionName : Text
  calleeBaseName : Text
  callerFilename : Text
  callerLineNumber : Option Nat
  callerFunctionBase : Option Text

/-- `"%0*" PRIxPTR` with the width of a 64-bit pointer. -/
def hexDigits (a : Addr) : Text := (List.range 16).reverse.map fun i => Nat.digitChar (a / 16 ^ i % 16)

/-- `"%u"`. -/
def decimal (n : Nat) : Text := Nat.toDigits 10 n

lemma isDigit_of_mem_decimal {c : Char} {n : Nat} (h : c ∈ decimal n) : c.isDigit = true :=
  Nat.isDigit_of_mem_toDigits (by decide) (by decide) h

def columnEnd : Text := "] ".toList

/-- `"[%s] "`. -/
def timestampPiece (timestamp : Text) : Text := '[' :: timestamp ++ columnEnd

def addrLabel : Text := "addr: [0x".toList

/-- `"addr: [0x%0*" PRIxPTR "] "`. -/
def addrPiece (a : Addr) : Text := addrLabel ++ hexDigits a ++ columnEnd

/-- `"%s  (called from: %s:%u)"`, or `???` for an unknown line. -/
def calleePiece (frame : ResolvedFrameView) : Text :=
  cStr frame.calleeFunctionName ++ "  (called from: ".toList ++ cStr frame.callerFilename ++ ":".toList
    ++ (match frame.callerLineNumber with
        | some n => decimal n
        | none   => "???".toList)
    ++ ")".toList

def treeBar : Text := "|  ".toList

def callGlyph : Text := "|_ ".toList

/-- The prefix shared by call and event lines: timestamp, splice and address column. -/
def formatPrefix (B : LineBuffer) (timestamp afterTimestamp : Text)
    (address : Option Addr) : LineBuffer :=
  let B := B.piece (timestampPiece timestamp)
  let B := if afterTimestamp ≠ [] ∧ 0 < B.remaining then B.piece afterTimestamp else B
  match address with
  | some a => if 0 < B.remaining then B.piece (addrPiece a) else B
  | none   => B

/-- Formats a resolved frame into a trace line of at most `cap` bytes. -/
def formatInto (cap : Nat) (timestamp : Text) (frame : ResolvedFrameView) (depth : Int)
    (afterTimestamp : Text) (appendNewline : Bool) : LineBuffer :=
  if cap = 0 then { cap := cap } else
  let B := formatPrefix { cap := cap } timestamp afterTimestamp frame.calleeAddress
  let B := B.indent treeBar (depth - 1).toNat
  let B := if 0 < depth then B.treeGlyph callGlyph else B
  let B := if 0 < B.remaining then B.clampedPiece (calleePiece frame) else B
  if appendNewline then B.newline else B

end CallStackLogger
