import TexMath.Piece
import TexMath.Token.Basic

/-!
# Delimiters

The delimiters of a fenced group.  A delimiter is known by its glyph; the empty glyph is the
invisible delimiter, which is written as a full stop.
-/

namespace TexMath.Delimiter

def commands : List (String × String) :=
  [("\x7b", "\x7b"), ("\x7d", "\x7d"), ("lbrace", "\x7b"), ("rbrace", "\x7d"), ("lbrack", "["),
    ("rbrack", "]"), ("langle", "⟨"), ("rangle", "⟩"), ("lfloor", "⌊"), ("rfloor", "⌋"),
    ("lceil", "⌈"), ("rceil", "⌉"), ("|", "‖"), ("Vert", "‖"), ("vert", "|"), ("uparrow", "↑"),
    ("downarrow", "↓"), ("backslash", "\\")]

def characters : List (Char × String) :=
  [('(', "("), (')', ")"), ('|', "|"), ('/', "/"), ('.', "")]

def glyph? : Token → Option String
  | .character c => characters.lookup c
  | .bracketOpen => some "["
  | .bracketClose => some "]"
  | .command name => commands.lookup name
  | _ => none

def spellings : List (String × Piece) :=
  [("", .text "."), ("(", .text "("), (")", .text ")"), ("[", .text "["), ("]", .text "]"),
    ("|", .text "|"), ("/", .text "/"), ("\x7b", .command "\x7b"), ("\x7d", .command "\x7d"),
    ("⟨", .command "langle"), ("⟩", .command "rangle"), ("⌊", .command "lfloor"),
    ("⌋", .command "rfloor"), ("⌈", .command "lceil"), ("⌉", .command "rceil"),
    ("‖", .command "|"), ("↑", .command "uparrow"), ("↓", .command "downarrow"),
    ("\\", .command "backslash")]

def piece (glyph : String) : Piece := (spellings.lookup glyph).getD (.text ".")

end TexMath.Delimiter
