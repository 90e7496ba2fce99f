import Scoring.Text.Hidden

/-!
# Quoted texts

Messages show a text between double quotes, so that its ends and its blanks can
be seen. Within the quotes `\` and `"` are marked by a `\`, the commonest
controls have a letter (`\t`, `\r`, `\n`, `\0`), and any other character that
cannot be shown on its own (`isHidden`) is written by its hexadecimal value in
braces. Everything else stands for itself.
-/

namespace Scoring.Text

/-- A character as it stands between quotes. -/
def quotedChar (c : Char) : List Char :=
  match c with
  | '\x00' => ['\\', '0']
  | '\t' => ['\\', 't']
  | '\r' => ['\\', 'r']
  | '\n' => ['\\', 'n']
  | '\\' => ['\\', '\\']
  | '"' => ['\\', '"']
  | c =>
    if isHidden c then ['\\', 'u', '\x7b'] ++ Nat.toDigits 16 c.toNat ++ ['\x7d'] else [c]

/-- A text between quotes. -/
def quoted (s : String) : String :=
  String.ofList ('"' :: s.toList.flatMap quotedChar ++ ['"'])

example : quoted "a\"b\\" = "\"a\\\"b\\\\\"" := by decide +kernel
example : quoted "\u200bx" = "\"\\u\x7b200b\x7dx\"" := by decide +kernel

end Scoring.Text
