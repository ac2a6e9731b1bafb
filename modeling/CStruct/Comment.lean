import CStruct.Text.Blank
import CStruct.Text.Lines

/-!
# The text of a comment

A comment documents what it stands by. Its description is what is left once the marks that make it
a comment are gone: the comment markers, blanks at either end and, in a block comment, the spaces
and stars that lead each of its lines.
-/

namespace CStruct.Comment

open Text

/-- The text without comment markers, which are taken out as they are met from left to right: the
characters of one marker never belong to another. -/
def stripMarkers : List Char → List Char
  | '/' :: '*' :: cs => stripMarkers cs
  | '*' :: '/' :: cs => stripMarkers cs
  | '/' :: '/' :: cs => stripMarkers cs
  | c :: cs => c :: stripMarkers cs
  | [] => []

/-- The characters that lead the lines of a block comment as decoration. -/
def isDecoration (c : Char) : Bool := c == ' ' || c == '*'

/-- A line of a block comment without the decoration that leads it. -/
def stripDecoration (line : List Char) : List Char := line.dropWhile isDecoration

/-- Whether the comment is a block comment, by how it starts. -/
def isBlock (text : List Char) : Bool := ['/', '*'].isPrefixOf text

/-- What a comment says, as characters. -/
def descriptionChars (text : List Char) : List Char :=
  if isBlock text then
    trim (['\n'].intercalate ((lines (stripMarkers text)).map stripDecoration))
  else
    trim (stripMarkers text)

/-- What a comment says. -/
def description (text : String) : String :=
  String.ofList (descriptionChars text.toList)

theorem toList_description (text : String) :
    (description text).toList = descriptionChars text.toList :=
  String.toList_ofList

/-- The markers taken out, nothing is added: the characters left stood in the text in this order. -/
theorem stripMarkers_sublist (cs : List Char) : (stripMarkers cs).Sublist cs := by
  fun_induction stripMarkers cs with
  | case1 cs ih | case2 cs ih | case3 cs ih => exact .cons _ (.cons _ ih)
  | case4 c cs _ _ _ ih => exact ih.cons_cons c
  | case5 => exact .slnil

end CStruct.Comment
