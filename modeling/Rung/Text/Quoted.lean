import Rung.Text.Unprintable

/-!
# Quoted text

A quotation stands between double quotes. Inside, quotes and backslashes are escaped, the common
controls have short escapes, and other unprintable characters are shown by their code.

* `escape`, `quoted`.
-/

namespace Rung.Text

/-- A character as it stands in a quotation. -/
def escape (c : Char) : String :=
  match c with
  | '"' => "\\\""
  | '\\' => "\\\\"
  | '\n' => "\\n"
  | '\r' => "\\r"
  | '\t' => "\\t"
  | '\x00' => "\\0"
  | _ =>
    if isUnprintable c then "\\u\x7b" ++ String.ofList (Nat.toDigits 16 c.toNat) ++ "\x7d"
    else c.toString

def quoted (s : String) : String := "\"" ++ String.join (s.toList.map escape) ++ "\""

end Rung.Text
