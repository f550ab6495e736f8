import SchemaTables.Text.PrintableTable
import SchemaTables.Text.Ranges
import SchemaTables.Text.Surrogate

/-! Quoted literals of texts and byte strings. The apostrophe is the quote unless the text holds an
apostrophe and no double quote; the quote itself, backslashes, characters without a printed form and
surrogates are escaped. -/
namespace SchemaTables.Quoted

def hexDigit (n : Nat) : Char := if n < 10 then Char.ofNat (48 + n) else Char.ofNat (87 + n)

/-- The lowest `width` hexadecimal digits of `n`. -/
def hexDigits : (width n : Nat) → List Char
  | 0, _ => []
  | width + 1, n => hexDigits width (n / 16) ++ [hexDigit (n % 16)]

def isPrintable (c : Char) : Bool :=
  if c.toNat < 128 then 32 ≤ c.toNat && c.toNat < 127
  else !Ranges.covers PrintableTable.unprintable c

def quoteFor (cs : List Char) : Char :=
  if cs.contains '\x27' && !cs.contains '"' then '"' else '\x27'

def escapeCommon (quote c : Char) : Option (List Char) :=
  if c = quote || c = '\\' then some ['\\', c]
  else if c = '\t' then some ['\\', 't']
  else if c = '\n' then some ['\\', 'n']
  else if c = '\r' then some ['\\', 'r']
  else none

def escapeChar (quote c : Char) : List Char :=
  match escapeCommon quote c with
  | some cs => cs
  | none =>
    if isPrintable c then [c]
    else if c.toNat < 0x100 then '\\' :: 'x' :: hexDigits 2 c.toNat
    else if c.toNat < 0x10000 then '\\' :: 'u' :: hexDigits 4 c.toNat
    else '\\' :: 'U' :: hexDigits 8 c.toNat

def escapeSurrogate (code : Nat) : List Char := '\\' :: 'u' :: hexDigits 4 code

def escapeCode (quote : Char) (code : Nat) : List Char :=
  if Surrogate.isSurrogate code then escapeSurrogate code else escapeChar quote (Char.ofNat code)

def escapeByte (quote c : Char) : List Char :=
  match escapeCommon quote c with
  | some cs => cs
  | none => if 32 ≤ c.toNat && c.toNat < 127 then [c] else '\\' :: 'x' :: hexDigits 2 c.toNat

def quoteChars (cs : List Char) : List Char :=
  quoteFor cs :: (Surrogate.codes cs).flatMap (escapeCode (quoteFor cs)) ++ [quoteFor cs]

def quote (text : String) : String := String.ofList (quoteChars text.toList)

/-- A text for a terminal, with its surrogates escaped. -/
def shown (text : String) : String :=
  String.ofList ((Surrogate.codes text.toList).flatMap fun code =>
    if Surrogate.isSurrogate code then escapeSurrogate code else [Char.ofNat code])

/-- Bytes are quoted as characters of the same number, after the mark `b`. -/
def quoteBytes (bytes : List UInt8) : String :=
  let cs := bytes.map fun b => Char.ofNat b.toNat
  String.ofList ('b' :: quoteFor cs :: cs.flatMap (escapeByte (quoteFor cs)) ++ [quoteFor cs])

end SchemaTables.Quoted
