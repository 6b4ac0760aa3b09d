import HeaderMeta.Text.Extending
import HeaderMeta.Text.Hex
import HeaderMeta.Text.Unprintable

/-!
# Quoted text for messages

A message shows a path or another text in quotes. Quotes, backslashes and the common controls are
escaped by a letter; whatever else has no shape of its own, or would join the character before it,
is written as `\u` with its code point in braces.
-/

namespace HeaderMeta.Text

/-- Whether a character has no shape of its own, or joins the character before it. -/
def isHidden (c : Char) : Bool :=
  [extending, unprintable, fillers].any fun table => table.contains c.toNat

/-- A character as it stands in quotes. -/
def escape (c : Char) : List Char :=
  if c = '"' then ['\\', '"']
  else if c = '\\' then ['\\', '\\']
  else if c = '\n' then ['\\', 'n']
  else if c = '\r' then ['\\', 'r']
  else if c = '\t' then ['\\', 't']
  else if c = '\x00' then ['\\', '0']
  else if isHidden c then
    ['\\', 'u', '\x7b'] ++ Hex.ofNat c.toNat ++ ['\x7d']
  else [c]

/-- A text in quotes. -/
def quoted (s : String) : String :=
  String.ofList ('"' :: s.toList.flatMap escape ++ ['"'])

end HeaderMeta.Text
