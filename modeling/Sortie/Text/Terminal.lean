import Sortie.Text.Quoted

/-!
# Texts for a terminal

A logged text must not steer the terminal that shows it. The controls that begin
an escape sequence, ring, erase or move back are written by their codes, and so
are the controls from U+0080 to U+009F, each of which is a sequence in itself.
-/

namespace Sortie.Text

/-- Bell, backspace, form feed, escape and delete. -/
def terminalControls : List Char := ['\x07', '\x08', '\x0c', '\x1b', '\x7f']

def terminalChar (c : Char) : List Char :=
  if c ∈ terminalControls then
    ['\\', 'x', Nat.digitChar (c.toNat / 16), Nat.digitChar (c.toNat % 16)]
  else if 0x80 ≤ c.toNat ∧ c.toNat ≤ 0x9F then codePoint c
  else [c]

def forTerminal (s : String) : String :=
  String.ofList (s.toList.flatMap terminalChar)

end Sortie.Text
