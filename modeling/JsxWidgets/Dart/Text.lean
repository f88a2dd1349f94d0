/-!
# Texts in Dart

A text is written in single quotes. A backslash stands in front of a backslash, a quote, and the
sign that would start an interpolation; line breaks and tabs have escapes of their own.
-/

namespace JsxWidgets.Dart

/-- A character inside a text. -/
def escape (c : Char) : List Char :=
  if c = '\\' then ['\\', '\\']
  else if c = '\x27' then ['\\', '\x27']
  else if c = '$' then ['\\', '$']
  else if c = '\n' then ['\\', 'n']
  else if c = '\r' then ['\\', 'r']
  else if c = '\t' then ['\\', 't']
  else [c]

/-- The characters of a text without the quotes around it. -/
def escaped (s : String) : String := String.ofList (s.toList.flatMap escape)

/-- A text in quotes. -/
def quoted (s : String) : String := "'" ++ escaped s ++ "'"

end JsxWidgets.Dart
