import WeekGrid.Text.Printable
import WeekGrid.Text.Utf8

/-!
Quoted text as messages show it: single quotes, or double ones round a text with an apostrophe and no
double quote; what is not printable is escaped by its number.
-/
namespace WeekGrid.Text

/-- The quote for a text: the single one unless only that one occurs in it. -/
def quoteFor (hasSingle hasDouble : Bool) : Char := if hasSingle && !hasDouble then '"' else '\''

def hexDigits (width n : Nat) : List Char :=
  let digits := Nat.toDigits 16 n
  List.replicate (width - digits.length) '0' ++ digits

def escapeNumber (n : Nat) : List Char :=
  if n < 0x100 then '\\' :: 'x' :: hexDigits 2 n
  else if n < 0x10000 then '\\' :: 'u' :: hexDigits 4 n
  else '\\' :: 'U' :: hexDigits 8 n

/-- A character inside quotes; `isPlain` tells which characters stand for themselves. -/
def escapeChar (quote : Char) (isPlain : Char → Bool) (c : Char) : List Char :=
  if c = quote ∨ c = '\\' then ['\\', c]
  else if c = '\n' then ['\\', 'n']
  else if c = '\r' then ['\\', 'r']
  else if c = '\t' then ['\\', 't']
  else if isPlain c then [c]
  else escapeNumber c.toNat

def quoteChars (isPlain : Char → Bool) (cs : List Char) : List Char :=
  let quote := quoteFor (cs.contains '\'') (cs.contains '"')
  quote :: cs.flatMap (escapeChar quote isPlain) ++ [quote]

def quoted (s : String) : String := String.ofList (quoteChars isPrintable s.toList)

def quotedBytes (bytes : Bytes) : String :=
  String.ofList ('b' :: quoteChars (fun c => 32 ≤ c.toNat && c.toNat < 127) (bytes.map latinChar))

end WeekGrid.Text
