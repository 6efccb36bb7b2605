import NodeShader.Text.Basic
import NodeShader.Text.Printable

/-!
# Quoted text

A text between double quotes, as messages show names: quotes and backslashes are escaped, the
usual controls have their letter, printable characters stand as they are and all else is written
by its code: `\x7f` for a control or a byte that is no UTF-8, `\u00ad` or `\U000e0001` for others.
-/

namespace NodeShader.Text

/-- The letter of a control that has one. -/
def controlLetter? : Nat → Option Char
  | 7 => some 'a'
  | 8 => some 'b'
  | 9 => some 't'
  | 10 => some 'n'
  | 11 => some 'v'
  | 12 => some 'f'
  | 13 => some 'r'
  | _ => none

/-- One character inside quotes delimited by `delimiter`. -/
def quoteChar (delimiter c : Char) : List Char :=
  if c = delimiter ∨ c = '\\' then ['\\', c]
  else if isPrintable c then [c]
  else
    match controlLetter? c.toNat with
    | some letter => ['\\', letter]
    | none =>
      if c.toNat < 0x80 then '\\' :: 'x' :: hexDigits 2 c.toNat
      else if c.toNat < 0x10000 then '\\' :: 'u' :: hexDigits 4 c.toNat
      else '\\' :: 'U' :: hexDigits 8 c.toNat

/-- One unit of a byte list inside double quotes. -/
def quotePiece : Piece → List Char
  | .scalar c => quoteChar '"' c
  | .stray b => '\\' :: 'x' :: hexDigits 2 b.toNat

/-- A text in double quotes. -/
def quote (s : String) : String :=
  String.ofList ('"' :: s.toList.flatMap (quoteChar '"') ++ ['"'])

/-- A byte list in double quotes, read as UTF-8. -/
def quoteBytes (bs : List UInt8) : String :=
  String.ofList ('"' :: (pieces bs).flatMap quotePiece ++ ['"'])

/-- A single character in single quotes. -/
def quoteSingle (c : Char) : String :=
  String.ofList ('\'' :: quoteChar '\'' c ++ ['\''])

end NodeShader.Text
