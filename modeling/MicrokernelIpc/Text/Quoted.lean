import MicrokernelIpc.Text.Visible

/-!
# Quoted text

A name inside a record is written between double quotes. A double quote and a backslash
get a backslash before them, the four common controls have a letter of their own, and any
other character that is not visible on its own is written by its code point.
-/

namespace MicrokernelIpc.Text

/-- A code point in lower-case hexadecimal, without filling. -/
def codePoint (c : Char) : List Char := Nat.toDigits 16 c.toNat

/-- How one character stands inside quoted text. -/
def quotedChar (c : Char) : List Char :=
  match c with
  | '\x00' => ['\\', '0']
  | '\t' => ['\\', 't']
  | '\r' => ['\\', 'r']
  | '\n' => ['\\', 'n']
  | '\\' => ['\\', '\\']
  | '"' => ['\\', '"']
  | _ => if isVisible c then [c] else ['\\', 'u', '\x7b'] ++ codePoint c ++ ['\x7d']

/-- The text between double quotes. -/
def quoted (text : String) : String :=
  String.ofList (['"'] ++ text.toList.flatMap quotedChar ++ ['"'])

end MicrokernelIpc.Text
