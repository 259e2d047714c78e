import Stencil.Diagnostic
import Stencil.Report.Line

/-!
# Reports for a terminal

A report shows a failure in the text of its template: the message, the place, and the lines
with what the failure is about marked in red and labelled with its kind. The offsets of the
span are read as characters here. A span that does not lie in the source leaves only the
message, and one that ends before it starts cannot be drawn at all.
-/

namespace Stencil

namespace Report

/-! ### Ink -/

/-- What something is drawn in. -/
inductive Ink where
  /-- What the failure is about. -/
  | label
  /-- The frame and the numbers of lines. -/
  | margin
  /-- The frame beside rows with no number. -/
  | faintMargin
  /-- The rest of the source. -/
  | plain
  /-- No colour. -/
  | none
  deriving DecidableEq, Repr

/-- The characters that end an escape sequence of a terminal begin it. -/
def escapeStart : String := "\x1b["

/-- The code of an ink. -/
def Ink.code : Ink → String
  | label => "31"
  | margin => "38;5;246"
  | faintMargin => "38;5;240"
  | plain => "38;5;249"
  | none => ""

/-- A text in an ink. -/
def paint (ink : Ink) (text : String) : String :=
  match ink with
  | .none => text
  | ink => escapeStart ++ ink.code ++ "m" ++ text ++ escapeStart ++ "0m"

/-- `n` times a text. -/
def times (n : Nat) (text : String) : String := String.join (List.replicate n text)

/-! ### Rows -/

/-- The label of a report. -/
structure Label where
  /-- The character offset where it starts. -/
  start : Nat
  /-- The character offset where it ends. -/
  stop : Nat
  /-- What it says. -/
  text : String

/-- Whether a character offset belongs to the label. -/
def Label.covers (l : Label) (offset : Nat) : Bool := l.start ≤ offset && offset < l.stop

/-- The last character offset of the label. -/
def Label.last (l : Label) : Nat := max l.start (l.stop - 1)

/-- The margin of a row with a line number, which is `width` digits wide. -/
def numberMargin (width : Nat) (line : SourceLine) : String :=
  let number := toString (line.index + 1)
  " " ++ paint .margin (times (width - number.length) " " ++ number ++ " │") ++ " "

/-- The margin of a row with no number; `bar` is the bar or the gap in it. -/
def blankMargin (width : Nat) (bar : String) : String :=
  " " ++ paint .faintMargin (times (width + 1) " " ++ bar) ++ " "

/-- The characters of a line, those of the label in its ink. -/
def lineText (label : Label) (line : SourceLine) : String :=
  String.join <| line.drawn.mapIdx fun i c =>
    let ink := if label.covers (line.start + i) then Ink.label else .plain
    if Unicode.isWhiteSpace c then times (SourceLine.widthAt i c) (paint ink " ")
    else paint ink (String.ofList [c])

/-- A row below a line: for each index of it, `cell` says what its first column shows and what
its other columns do. -/
def rowBelow (line : SourceLine) (n : Nat) (cell : Nat → String × String) : String :=
  String.join <| (line.widths n).mapIdx fun i width =>
    let (first, other) := cell i
    match width with
    | 0 => ""
    | w + 1 => first ++ times w other

/-- How far the rows below a line go beyond the label. -/
def overhang : Nat := 2

/-- The rows of a line that holds the whole label: its text, the mark below the label, and what
the label says. -/
def inlineRows (width : Nat) (label : Label) (line : SourceLine) : String :=
  let red := paint .label
  let n := label.stop - line.start + overhang
  let middle := (label.start + label.stop) / 2 - line.start
  let mark (i : Nat) : String × String :=
    let marked := label.covers (line.start + i)
    if i = middle then if marked then (red "┬", red "─") else (red "│", red " ")
    else if marked then (red "─", red "─")
    else (" ", " ")
  let arrow (i : Nat) : String × String :=
    if i = middle then (red "╰", red "─")
    else if middle < i then (red "─", red "─")
    else (" ", " ")
  numberMargin width line ++ lineText label line ++ "\n"
    ++ blankMargin width "│" ++ rowBelow line n mark ++ "\n"
    ++ blankMargin width "│" ++ rowBelow line n arrow ++ " " ++ label.text ++ "\n"

/-- The row of the line where a label of several lines starts. -/
def firstRow (width : Nat) (label : Label) (line : SourceLine) : String :=
  let red := paint .label
  numberMargin width line ++ red "╭" ++ red "─" ++ red "▶" ++ red " "
    ++ lineText label line ++ "\n"

/-- The row that stands for all lines that are not shown. -/
def gapRow (width : Nat) : String :=
  blankMargin width "┆" ++ paint .label "┆" ++ " " ++ "  " ++ "\n"

/-- The rows of the line where a label of several lines ends: its text, and what the label
says. -/
def lastRows (width : Nat) (label : Label) (line : SourceLine) : String :=
  let red := paint .label
  let n := line.chars.length + overhang
  numberMargin width line ++ red "├" ++ red "─" ++ red "▶" ++ red " "
    ++ lineText label line ++ "\n"
    ++ blankMargin width "│" ++ red "│" ++ " " ++ "  "
    ++ rowBelow line n (fun _ => (" ", " ")) ++ "\n"
    ++ blankMargin width "│" ++ red "╰" ++ red "─" ++ red "─" ++ red "─"
    ++ rowBelow line n (fun _ => (red "─", red "─")) ++ " " ++ label.text ++ "\n"

/-- The rows for a label from one line to another. A label that goes on after the end of its
last line is not drawn where it ends. -/
def rows (width : Nat) (label : Label) (first last : SourceLine) : String :=
  if first.index = last.index then
    if label.stop ≤ first.stop then inlineRows width label first
    else blankMargin width "│" ++ "\n"
  else
    let ends := label.last < last.stop
    firstRow width label first
      ++ (if first.index + 1 < last.index ∨ ¬ends then gapRow width else "")
      ++ (if ends then lastRows width label last else "")

/-! ### The whole -/

/-- The message of a report. -/
def header (message : String) : String := paint .label "Error:" ++ " " ++ message ++ "\n"

/-- The line and the column where a label starts that starts in the line `first`, both counted
from one. -/
def Label.place (l : Label) (first : SourceLine) : Nat × Nat :=
  (first.index + 1, l.start - first.start + 1)

/-- The top of the frame, with the place of the label in the source that goes by `name`. -/
def frameTop (width : Nat) (name : String) (place : Nat × Nat) : String :=
  times (width + 2) " " ++ paint .margin "╭" ++ paint .margin "─" ++ paint .margin "["
    ++ name ++ ":" ++ toString place.1 ++ ":" ++ toString place.2 ++ paint .margin "]" ++ "\n"
    ++ times (width + 2) " " ++ paint .margin "│" ++ "\n"

/-- The bottom of the frame. -/
def frameBottom (width : Nat) : String := paint .margin (times (width + 2) "─" ++ "╯") ++ "\n"

/-- The lines where a label starts and ends; nothing if it does not lie in the source. -/
def labelled? (label : Label) (source : List Char) : Option (SourceLine × SourceLine) :=
  if source.isEmpty || source.length < label.start || source.length < label.last then none
  else do
    let lines := SourceLine.ofSource source
    let first ← SourceLine.containing? label.start lines
    let last ← SourceLine.containing? label.last lines
    return (first, last)

/-- The source with the label in it; nothing if the label does not lie in the source. -/
def excerpt (name : String) (label : Label) (source : List Char) : String :=
  match labelled? label source with
  | none => ""
  | some (first, last) =>
    let width := (toString (last.index + 1)).length
    frameTop width name (label.place first) ++ rows width label first last ++ frameBottom width

end Report

/-- The report of a failure in the template `source`, which goes by `name`; nothing if its span
ends before it starts. -/
def Diagnostic.report? (d : Diagnostic) (source name : String) : Option String :=
  match d.span with
  | none => some (Report.header d.message)
  | some span =>
    if span.stop < span.start then none
    else
      some (Report.header d.message
        ++ Report.excerpt name ⟨span.start, span.stop, d.kind.name⟩ source.toList)

end Stencil
