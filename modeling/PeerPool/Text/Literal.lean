import PeerPool.Text.Unprintable

/-! Texts between quotes, with every character that would not show escaped. -/

namespace PeerPool.Text

/-- A character inside a literal. -/
def literalChar (c : Char) : List Char :=
  if c = '"' || c = '\\' then ['\\', c]
  else if c = '\t' then ['\\', 't']
  else if c = '\n' then ['\\', 'n']
  else if c = '\r' then ['\\', 'r']
  else if c = '\x00' then ['\\', '0']
  else if c.toNat < 0x20 || c.toNat = 0x7F || isUnprintable c then
    ['\\', 'u', '\x7b'] ++ Nat.toDigits 16 c.toNat ++ ['\x7d']
  else [c]

def literal (text : String) : String := String.ofList ('"' :: text.toList.flatMap literalChar ++ ['"'])

/-- A list of literals between brackets. -/
def literals (texts : List String) : String := "[" ++ ", ".intercalate (texts.map literal) ++ "]"

end PeerPool.Text
