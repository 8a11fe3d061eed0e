import ApiShell.Http.MediaType
import ApiShell.Request.Descriptor
import ApiShell.Text.Blank
import ApiShell.Text.Utf8

/-!
# Forms in several parts

A form is sent field by field, with a boundary between the parts that occurs in none of them.  Each part
says the name of its field, and for a file the name and the media type.
-/

namespace ApiShell.Http

open Request (FormFile)

/-- A character of a name within quotes. -/
def nameChar (c : Char) : List Char :=
  if c == '"' then "%22".toList
  else if c == '\\' then ['\\', '\\']
  else if c.toNat < 0x20 && c != '\x1b' then
    '%' :: (Text.hexPadded 2 c.toNat).map Char.toUpper
  else [c]

/-- A name in the head of a part. -/
def nameText (key name : String) : String :=
  key ++ "=\"" ++ String.ofList (name.toList.flatMap nameChar) ++ "\""

/-- The head of the part of a field, without the line break behind it. -/
def fieldHead (name : String) : String := "Content-Disposition: form-data; " ++ nameText "name" name

/-- The head of the part of a file. -/
def fileHead (file : FormFile) : String :=
  let named := if file.filename = "" then "" else
    "; " ++ nameText "filename" file.filename ++ "\r\nContent-Type: " ++ mediaTypeOf file.filename
  fieldHead file.field ++ named

/-- A line of text. -/
def textLine (s : String) : List UInt8 := Text.utf8 (s ++ "\r\n").toList

/-- A part of a form. -/
def part (boundary head : String) (content : List UInt8) : List UInt8 :=
  textLine ("--" ++ boundary) ++ textLine (head ++ "\r\n") ++ content ++ textLine ""

/-- The body of a form. -/
def multipart (boundary : String) (fields : List (String × String)) (files : List FormFile) :
    List UInt8 :=
  fields.flatMap (fun f => part boundary (fieldHead f.1) (Text.utf8 f.2.toList)) ++
    files.flatMap (fun f => part boundary (fileHead f) f.content) ++
    textLine ("--" ++ boundary ++ "--")

/-- The boundary that a content type names. -/
def boundaryOf? (contentType : String) : Option String := do
  if !Text.startsWith contentType "multipart/form-data" then none
  let sections := (Text.splitAt ';' contentType.toList).map (Text.trimOf Text.isBlank)
  let mark := "boundary=".toList
  let found ← sections.find? fun s => (Text.lowerChars s).take mark.length == mark
  return String.ofList (Text.trimOf (· == '"') (found.drop mark.length))

end ApiShell.Http
