import IpDocket.Lib.LazyReplace
import IpDocket.Lib.Text

/-!
# Notes on an invoice

The notes are escaped, `**…**` and `*…*` become tags, and each line becomes an item of a list or a line of
text. The result is put into the page as it is.
-/

namespace IpDocket.Billing.Notes
open IpDocket.Lib

/-- The tags that are written. -/
inductive Tag
  | strong
  | em
  | ul
  | ol
  | li
  deriving DecidableEq

def Tag.opening : Tag → Text
  | .strong => "<strong>".toList
  | .em => "<em>".toList
  | .ul => "<ul style=\"margin:4px 0; padding-left:20px;\">".toList
  | .ol => "<ol style=\"margin:4px 0; padding-left:20px;\">".toList
  | .li => "<li>".toList

def Tag.closing : Tag → Text
  | .strong => "</strong>".toList
  | .em => "</em>".toList
  | .ul => "</ul>".toList
  | .ol => "</ol>".toList
  | .li => "</li>".toList

def Tag.wrap (t : Tag) (content : Text) : Text := t.opening ++ content ++ t.closing

/-- `html.escape`. -/
def htmlEscape (t : Text) : Text :=
  t.flatMap (fun c =>
    if c = '&' then "&amp;".toList
    else if c = '<' then "&lt;".toList
    else if c = '>' then "&gt;".toList
    else if c = '"' then "&quot;".toList
    else if c = '\'' then "&#x27;".toList
    else [c])

/-- `re.sub(r"\*\*(.+?)\*\*", …)`. -/
def strongMarks (t : Text) : Text := lazyReplace '\n' ['*', '*'] Tag.strong.wrap t

/-- `re.sub(r"\*(.+?)\*", …)`. -/
def emMarks (t : Text) : Text := lazyReplace '\n' ['*'] Tag.em.wrap t

/-- `s.replace(" ", "&nbsp;&nbsp;")`. -/
def nbspSpaces (t : Text) : Text := t.flatMap (fun c => if c = ' ' then "&nbsp;&nbsp;".toList else [c])

section Lines

-- `str.isdigit` of a character
variable (isDigit : Char → Bool)

/-- The list that the line is an item of, and the text of the item. -/
def listItem : Text → Option (Tag × Text)
  | '-' :: ' ' :: rest => some (.ul, rest)
  | c :: mark :: ' ' :: rest => if isDigit c ∧ mark ∈ [')', '.'] then some (.ol, rest) else none
  | _ => none

/-- `close_list`: what closes the list that is open. -/
def closeList : Option Tag → List Text
  | none => []
  | some t => [t.closing]

/-- The loop over the lines; the stack never has more than one list. -/
def noteLines : Option Tag → List Text → List Text
  | stack, [] => closeList stack
  | stack, line :: rest =>
    match listItem isDigit (pyStrip line) with
    | some (list, item) =>
      (if stack = some list then [] else closeList stack ++ [list.opening]) ++
        Tag.li.wrap item :: noteLines (some list) rest
    | none => closeList stack ++ nbspSpaces (pyStrip line) :: noteLines none rest

def formatNotes (text : Text) : Text :=
  if text = [] then []
  else "<br>".toList.intercalate (noteLines isDigit none ((emMarks (strongMarks (htmlEscape text))).splitOn '\n'))

end Lines
end IpDocket.Billing.Notes
