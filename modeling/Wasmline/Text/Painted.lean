/-!
# Painted text

A style is painted on a text by a pair of control sequences, `ESC [ codes m` in front and `ESC [ 0 m`
behind. A text that already holds the closing sequence would end the style early, so the opening one
is repeated after each of those. The empty text is painted too.
-/

namespace Wasmline.Text

/-- How a text is to stand out. -/
inductive Style where
  | bold
  | boldBlue
  | boldYellow
  | boldRed
  | boldCyan
  deriving DecidableEq, Repr

/-- The parameters of the control sequence that switches a style on. -/
def Style.codes : Style → String
  | bold => "1"
  | boldBlue => "1;34"
  | boldYellow => "1;33"
  | boldRed => "1;31"
  | boldCyan => "1;36"

/-- The control sequence that switches a style on. -/
def Style.opening (style : Style) : List Char :=
  '\x1b' :: '[' :: style.codes.toList ++ ['m']

/-- The control sequence that switches every style off. -/
def closing : List Char :=
  ['\x1b', '[', '0', 'm']

/-- The text with `mark` put after every closing sequence in it. -/
def reopen (mark : List Char) : List Char → List Char
  | '\x1b' :: '[' :: '0' :: 'm' :: s => closing ++ mark ++ reopen mark s
  | c :: s => c :: reopen mark s
  | [] => []

/-- The text in the given style. -/
def Style.paint (style : Style) (text : String) : String :=
  String.ofList (style.opening ++ reopen style.opening text.toList ++ closing)

/-- Paints only where colour is wanted. -/
def Style.paintIf (style : Style) (colorize : Bool) (text : String) : String :=
  if colorize then style.paint text else text

end Wasmline.Text
