import AgentSession.Text.Hidden
/-!
# Quoted text

A text in double quotes, as a message shows it to a reader: quotes and backslashes are escaped,
the common controls have a letter, and every other character that a page would hide is shown by
its number in lower case hexadecimal digits without padding.
-/

namespace AgentSession.Text

/-- How a character stands between the quotes. -/
def quotedChar (c : Char) : List Char :=
  match c with
  | '"' => ['\\', '"']
  | '\\' => ['\\', '\\']
  | '\n' => ['\\', 'n']
  | '\r' => ['\\', 'r']
  | '\t' => ['\\', 't']
  | '\x00' => ['\\', '0']
  | _ =>
    if isHidden c then
      ['\\', 'u', '\x7b'] ++ Nat.toDigits 16 c.toNat ++ ['\x7d']
    else [c]

def quoted (s : String) : String :=
  String.ofList ('"' :: s.toList.flatMap quotedChar ++ ['"'])

example : quotedChar 'é' = ['é'] := by decide +kernel
example : quotedChar '\n' = ['\\', 'n'] := by decide

end AgentSession.Text
