import FlashLink.Text.Numeral

/-!
Quoted text: double quotes around it, a backslash before a quote or a backslash, short escapes for
zero, tab, line feed and carriage return, and the code point in braces for any other control
character. Every other character stands for itself.
-/

namespace FlashLink.Text

def isControl (c : Char) : Bool := c.toNat < 0x20 || (0x7f ≤ c.toNat && c.toNat < 0xa0)

def quotedChar (c : Char) : String :=
  match c with
  | '"' => "\\\""
  | '\\' => "\\\\"
  | '\x00' => "\\0"
  | '\t' => "\\t"
  | '\n' => "\\n"
  | '\r' => "\\r"
  | _ => if isControl c then "\\u\x7b" ++ padded 0 c.toNat ++ "\x7d" else c.toString

def quoted (s : String) : String :=
  "\"" ++ String.join (s.toList.map quotedChar) ++ "\""

end FlashLink.Text
