import GrammarText.Text.Escape
import GrammarText.Text.Printable
import GrammarText.Text.Combining

/-!
A text shown to a reader, between double quotes.

Backslash, double quote, NUL, tab, carriage return and line feed have two-character forms. Every
other character is written as it is, unless it cannot be seen alone (it is not printable, or it
combines with the one before): then its code point stands in braces, in lowercase hexadecimal
digits without leading zeros.
-/

namespace GrammarText.Text

/-- The hexadecimal digits of `n`, at least one, without leading zeros. -/
def hexNumber (n : Nat) : List Char :=
  if n < 16 then [hexChar n] else hexNumber (n / 16) ++ [hexChar (n % 16)]
termination_by n

def shownChar (c : Char) : List Char :=
  if c = '\x00' then ['\\', '0']
  else if c = '\t' then ['\\', 't']
  else if c = '\r' then ['\\', 'r']
  else if c = '\n' then ['\\', 'n']
  else if c = '"' then ['\\', '"']
  else if c = '\\' then ['\\', '\\']
  else if isCombining c || !isPrintable c then
    ['\\', 'u', '\x7b'] ++ hexNumber c.toNat ++ ['\x7d']
  else [c]

def shown (s : String) : String := "\"" ++ String.ofList (s.toList.flatMap shownChar) ++ "\""

end GrammarText.Text
