import LiveSeries.Text.Invisible

/-!
# Quoted texts

A text between double quotes. The quote and the backslash are escaped, tab, line feed, carriage
return and zero have short escapes, and every other character that does not show by itself is
written as its code point in base sixteen.
-/

namespace LiveSeries

namespace Quoted

/-- The code point of a character, in base sixteen between braces. -/
def codePoint (c : Char) : List Char :=
  ['\\', 'u', '\x7b'] ++ Nat.toDigits 16 c.toNat ++ ['\x7d']

/-- A character inside quotes. -/
def escape (c : Char) : List Char :=
  match c with
  | '"' => ['\\', '"']
  | '\\' => ['\\', '\\']
  | '\t' => ['\\', 't']
  | '\n' => ['\\', 'n']
  | '\r' => ['\\', 'r']
  | '\x00' => ['\\', '0']
  | c => if Invisible.holds c then codePoint c else [c]

/-- A text between quotes. -/
def quote (s : String) : String :=
  String.ofList ('"' :: s.toList.flatMap escape ++ ['"'])

end Quoted

end LiveSeries
