import CallStackLogger.Format.Line

/-!
# Exception event lines

`formatEventInto` of `include/eventFormat.h`. An event line has the layout of a call line with
the glyph `"!! "` in place of `"|_ "`, also at depth 0, and names an event instead of a
function.
-/

namespace CallStackLogger

def eventGlyph : Text := "!! ".toList

/-- One exception event to render. -/
structure EventLine where
  siteAddress : Option Addr
  depth : Int
  verb : Text
  typeName : Text
  what : Option Text
  siteLabel : Text
  siteFile : Option Text
  siteLine : Option Nat
  suffix : Text

/-- The event's site: `"(label: file:line suffix)"`, or the label alone without a file. -/
def EventLine.sitePiece (event : EventLine) : Text :=
  match event.siteFile with
  | none      => event.siteLabel ++ event.suffix
  | some file => event.siteLabel ++ ": ".toList ++ cStr file ++ ":".toList
      ++ (match event.siteLine with
          | some n => decimal n
          | none   => "???".toList)
      ++ event.suffix

/-- The text of the event: verb, exception type, its `what()` when known, and the site. -/
def EventLine.piece (event : EventLine) : Text :=
  event.verb ++ " ".toList ++ event.typeName
    ++ (match event.what with
        | some w => " \"".toList ++ w ++ "\"".toList
        | none   => [])
    ++ "  (".toList ++ event.sitePiece ++ ")".toList

/-- Renders an event into a line of at most `cap` bytes. -/
def formatEventInto (cap : Nat) (timestamp : Text) (event : EventLine)
    (afterTimestamp : Text) (appendNewline : Bool) : LineBuffer :=
  if cap = 0 then { cap := cap } else
  let B := formatPrefix { cap := cap } timestamp afterTimestamp event.siteAddress
  let B := B.indent treeBar (event.depth - 1).toNat
  let B := B.treeGlyph eventGlyph
  let B := if 0 < B.remaining then B.clampedPiece event.piece else B
  if appendNewline then B.newline else B

end CallStackLogger
