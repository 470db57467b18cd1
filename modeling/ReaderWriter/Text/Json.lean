import ReaderWriter.Text.Quoted

/-!
# JSON text

Strings, numbers and objects as JSON text on one line.  Quotation marks, backslashes and controls are
escaped, and everything else stands for itself.
-/

namespace ReaderWriter.Text.Json

def escape (c : Char) : String :=
  match c with
  | '"' => "\\\""
  | '\\' => "\\\\"
  | '\n' => "\\n"
  | '\r' => "\\r"
  | '\t' => "\\t"
  | '\x08' => "\\b"
  | '\x0c' => "\\f"
  | c =>
    if c.toNat < 0x20 then
      let digits := hex c.toNat
      "\\u" ++ "".pushn '0' (4 - digits.length) ++ digits
    else c.toString

def string (s : String) : String :=
  "\"" ++ String.join (s.toList.map escape) ++ "\""

/-- An object; the texts of the values are given. -/
def object (fields : List (String × String)) : String :=
  "\x7b" ++ ",".intercalate (fields.map fun (name, text) => string name ++ ":" ++ text) ++ "\x7d"

end ReaderWriter.Text.Json
