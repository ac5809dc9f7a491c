import GeoLint.Text.Blank

/-!
# Commands in chat text

An assistant writes commands into its messages in two ways: inline, between backticks and after
`ggb:`, and in blocks that a fence of three backticks and the word `geogebra` opens.  The inline
commands come first, then the lines of the blocks.
-/

namespace GeoLint

namespace Transcript

/-- The mark that delimits commands. -/
def backtick : Char := Char.ofNat 0x60

/-- What opens an inline command. -/
def inlineOpening : List Char := "`ggb:".toList

/-- What opens a block. -/
def fenceOpening : List Char := "```geogebra\n".toList

/-- What closes a block. -/
def fence : List Char := "```".toList

/-- The text before the first occurrence of `mark`, and the text behind it. -/
def splitAt? (mark : List Char) : List Char → Option (List Char × List Char)
  | [] => if mark.isEmpty then some ([], []) else none
  | c :: cs =>
    if mark.isPrefixOf (c :: cs) then some ([], (c :: cs).drop mark.length)
    else (splitAt? mark cs).map fun (before, after) => (c :: before, after)

/-- The inline command that starts here, and the text behind its closing backtick. -/
def inlineHere? (cs : List Char) : Option (List Char × List Char) :=
  if inlineOpening.isPrefixOf cs then
    let after := cs.drop inlineOpening.length
    let body := after.takeWhile (· ≠ backtick)
    match body, after.drop body.length with
    | _ :: _, _ :: rest => some (body, rest)
    | _, _ => none
  else none

/-- The block that starts here, and the text behind its closing fence. -/
def blockHere? (cs : List Char) : Option (List Char × List Char) :=
  if fenceOpening.isPrefixOf cs then splitAt? fence (cs.drop fenceOpening.length) else none

/-- All pieces that `piece?` finds, from left to right and without overlap. -/
def scan (piece? : List Char → Option (List Char × List Char)) :
    Nat → List Char → List (List Char)
  | 0, _ => []
  | _ + 1, [] => []
  | fuel + 1, c :: cs =>
    match piece? (c :: cs) with
    | some (body, rest) => body :: scan piece? fuel rest
    | none => scan piece? fuel cs

/-- The contents of all inline commands. -/
def inlines (cs : List Char) : List (List Char) :=
  scan inlineHere? cs.length cs

/-- The contents of all blocks. -/
def blocks (cs : List Char) : List (List Char) :=
  scan blockHere? cs.length cs

/-- The commands of a block: its lines without the blank ones. -/
def blockCommands (block : List Char) : List (List Char) :=
  ((Text.lines block).map Text.trim).filter fun l => !l.isEmpty

/-- The commands in a text. -/
def commands (text : String) : List String :=
  let cs := text.toList
  ((inlines cs).map Text.trim ++ (blocks cs).flatMap blockCommands).map String.ofList

end Transcript

end GeoLint
