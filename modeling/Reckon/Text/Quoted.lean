import Reckon.Text.Hidden

/-!
# Reckon — quoted text

Text between double quotes, in a form that shows every character: a quote, a backslash and the
common controls are written with a backslash, all other characters without a picture of their own
by their number in hexadecimal digits between braces. Everything else stands for itself.
-/

namespace Reckon.Text

/-- The written form of one character inside quotes. -/
def escape (c : Char) : List Char :=
  match c with
  | '"' => ['\\', '"']
  | '\\' => ['\\', '\\']
  | '\n' => ['\\', 'n']
  | '\r' => ['\\', 'r']
  | '\t' => ['\\', 't']
  | '\x00' => ['\\', '0']
  | c =>
    if isHidden c then '\\' :: 'u' :: '\x7b' :: Nat.toDigits 16 c.toNat ++ ['\x7d'] else [c]

/-- The text in double quotes. -/
def quoted (text : String) : String :=
  String.ofList ('"' :: text.toList.flatMap escape ++ ['"'])

end Reckon.Text
