import EntityStore.Text.Printable

/-! # Quoted text

A text inside a message stands between quotation marks, with everything escaped that would
make the message hard to read. -/

namespace EntityStore

namespace Text

/-- The digits of a code point, in lower case. -/
def hexDigits (n : Nat) : String := String.ofList (Nat.toDigits 16 n)

/-- A character inside quotation marks.  What cannot be shown is written as its code
    point. -/
def quoteChar (c : Char) : String :=
  if c = '\x00' then "\\0"
  else if c = '\t' then "\\t"
  else if c = '\n' then "\\n"
  else if c = '\r' then "\\r"
  else if c = '\\' then "\\\\"
  else if c = '\x22' then "\\\x22"
  else if isPrintable c then String.singleton c
  else "\\u\x7b" ++ hexDigits c.toNat ++ "\x7d"

/-- A text between quotation marks. -/
def quote (s : String) : String :=
  "\x22" ++ String.join (s.toList.map quoteChar) ++ "\x22"

end Text

end EntityStore
