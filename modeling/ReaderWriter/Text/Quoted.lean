import ReaderWriter.Text.Printable

/-!
# Quoted text

Text between quotation marks, in the form in which structured values show it: quotation marks,
backslashes and the usual controls have short escapes, other characters that do not show by
themselves are given by their number, and everything else stands for itself.
-/

namespace ReaderWriter.Text

def hex (n : Nat) : String := String.ofList (Nat.toDigits 16 n)

/-- How a character stands between quotation marks. -/
def quotedChar (c : Char) : String :=
  match c with
  | '"' => "\\\""
  | '\\' => "\\\\"
  | '\n' => "\\n"
  | '\r' => "\\r"
  | '\t' => "\\t"
  | '\x00' => "\\0"
  | c => if isPrintable c then c.toString else "\\u\x7b" ++ hex c.toNat ++ "\x7d"

def quoted (s : String) : String :=
  "\"" ++ String.join (s.toList.map quotedChar) ++ "\""

end ReaderWriter.Text
