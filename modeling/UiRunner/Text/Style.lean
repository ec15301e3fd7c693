import UiRunner.Text.Blank

/-!
# Styled text

Text for terminals: a styled piece stands between the codes of its styles and a reset. A reset
inside the piece is followed by the codes again, so the piece stays styled to its end.
-/
namespace UiRunner.Text

inductive Style where
  | bold
  | dimmed
  | red
  | green
  | yellow
  | blue
  | cyan
  | white
deriving DecidableEq, Repr

def Style.code : Style → String
  | .bold => "1"
  | .dimmed => "2"
  | .red => "31"
  | .green => "32"
  | .yellow => "33"
  | .blue => "34"
  | .cyan => "36"
  | .white => "37"

/-- Whether styles are shown. -/
structure Paint where
  colored : Bool := false
deriving DecidableEq, Repr

def resetCode : String := "\x1b[0m"

def styleCodes (styles : List Style) : String :=
  "\x1b[" ++ ";".intercalate (styles.map Style.code) ++ "m"

def Paint.style (p : Paint) (styles : List Style) (s : String) : String :=
  if p.colored then
    styleCodes styles ++ replaceAll resetCode (resetCode ++ styleCodes styles) s ++ resetCode
  else s

end UiRunner.Text
