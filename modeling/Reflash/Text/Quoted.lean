import Reflash.Bytes
import Reflash.Text.Printable

/-! Quoted forms of text and of byte strings. The quote is an apostrophe, or a
double quote around text with apostrophes and no double quotes. The quote, the
backslash and whatever does not print are escaped. -/

namespace Reflash.Text

def quoteFor (s : List Char) : Char :=
  if s.contains '\'' && !s.contains '"' then '"' else '\''

def escapeCode (n : Nat) : List Char :=
  if n < 0x100 then '\\' :: 'x' :: Hex.padded 2 n
  else if n < 0x10000 then '\\' :: 'u' :: Hex.padded 4 n
  else '\\' :: 'U' :: Hex.padded 8 n

def escapeCommon? (quote c : Char) : Option (List Char) :=
  if c = quote || c = '\\' then some ['\\', c]
  else if c = '\t' then some ['\\', 't']
  else if c = '\n' then some ['\\', 'n']
  else if c = '\r' then some ['\\', 'r']
  else none

def escapeChar (quote c : Char) : List Char :=
  (escapeCommon? quote c).getD (if isPrintable c then [c] else escapeCode c.toNat)

def quoted (s : String) : String :=
  let cs := s.toList
  let q := quoteFor cs
  String.ofList (q :: cs.flatMap (escapeChar q) ++ [q])

def escapeOctet (quote : Char) (x : UInt8) : List Char :=
  let c := Char.ofNat x.toNat
  (escapeCommon? quote c).getD (if 32 ≤ x.toNat && x.toNat < 127 then [c] else escapeCode x.toNat)

def quotedBytes (b : Bytes) : String :=
  let q := quoteFor (b.map fun x => Char.ofNat x.toNat)
  String.ofList ('b' :: q :: b.flatMap (escapeOctet q) ++ [q])

end Reflash.Text
