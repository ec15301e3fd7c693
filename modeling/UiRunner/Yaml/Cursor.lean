import UiRunner.Decimal.Numeral
import UiRunner.Text.Utf8

/-!
# A place in a YAML text

The characters that are left, and the line and the column of the next one. Line breaks are read as
one character each.
-/
namespace UiRunner.Yaml

structure Cursor where
  rest : List Char
  line : Nat := 0
  column : Nat := 0
  index : Nat := 0
deriving Repr

def isBreak (c : Char) : Bool := c ∈ ['\n', '\r', '\x85', '\u2028', '\u2029']

def isBlank (c : Char) : Bool := c == ' ' || c == '\t'

/-- Letters, digits, dashes and underscores. -/
def isWord (c : Char) : Bool := c.isAlphanum || c == '-' || c == '_'

/-- Whether a text may hold the character at all. -/
def isPrintable (c : Char) : Bool :=
  let n := c.toNat
  n == 0x9 || n == 0xA || n == 0xD || (0x20 ≤ n && n ≤ 0x7E) || n == 0x85 ||
    (0xA0 ≤ n && n ≤ 0xFFFD && n != 0xFEFF) || 0x10000 ≤ n

namespace Cursor

def peek? (c : Cursor) : Option Char := c.rest.head?

def peekAt? (c : Cursor) (n : Nat) : Option Char := c.rest[n]?

def is (c : Cursor) (x : Char) : Bool := c.peek? == some x

def atEnd (c : Cursor) : Bool := c.rest.isEmpty

/-- Whether the next character is of a class. -/
def sees (c : Cursor) (p : Char → Bool) : Bool := c.peek?.any p

/-- Whether a blank, a line break or the end stands so many characters ahead. -/
def isGap (c : Cursor) (n : Nat) : Bool :=
  match c.peekAt? n with
  | some x => isBlank x || isBreak x
  | none => true

/-- Goes over characters that are no line breaks. -/
def skip (c : Cursor) (n : Nat) : Cursor :=
  { c with rest := c.rest.drop n, column := c.column + n, index := c.index + n }

/-- Goes over one character. -/
def next (c : Cursor) : Cursor := c.skip 1

/-- Reads a line break. The breaks of most systems are the same character. -/
def takeBreak (c : Cursor) : List Char × Cursor :=
  let after (cs : List Char) (n : Nat) : Cursor := ⟨cs, c.line + 1, 0, c.index + n⟩
  match c.rest with
  | '\r' :: '\n' :: cs => (['\n'], after cs 2)
  | x :: cs => ([if x == '\u2028' || x == '\u2029' then x else '\n'], after cs 1)
  | [] => ([], c)

def skipWhile (c : Cursor) (p : Char → Bool) : Cursor := c.skip (c.rest.takeWhile p).length

/-- Goes to the end of the line. -/
def skipLineRest (c : Cursor) : Cursor := c.skipWhile fun x => !isBreak x

/-- Whether a mark between documents stands here. -/
def isDocumentMark (c : Cursor) : Bool :=
  c.column == 0 && c.isGap 3 &&
    (c.rest.take 3 == ['-', '-', '-'] || c.rest.take 3 == ['.', '.', '.'])

end Cursor

end UiRunner.Yaml
