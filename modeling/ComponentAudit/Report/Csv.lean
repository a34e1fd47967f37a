import ComponentAudit.Text.Basic

/-!
Comma-separated values. A field is quoted only if it holds a comma, a quote or a line feed, and a
quote inside is doubled. A record that is one empty field is written as two quotes.
-/

namespace ComponentAudit.Csv

/-- Whether a field needs quotes. -/
def needsQuotes (field : Text) : Bool := field.any fun c => c == ',' || c == '"' || c == '\n'

def quoteField (field : Text) : Text :=
  '"' :: field.flatMap (fun c => if c == '"' then ['"', '"'] else [c]) ++ ['"']

def writeField (field : Text) : Text := if needsQuotes field then quoteField field else field

def writeRecord (fields : List Text) : Text :=
  (if fields == [[]] then ['"', '"'] else Text.join "," (fields.map writeField)) ++ ['\n']

def write (header : List Text) (records : List (List Text)) : Text :=
  (header :: records).flatMap writeRecord

end ComponentAudit.Csv
