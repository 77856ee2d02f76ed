import TexMath.Atom.Kind

/-!
# Commands

The command table.  A command name stands for an atom, possibly one that takes arguments, or
directs how neighbouring text is read.  `Command.find?` also knows the alternative names, and
`Command.name?` gives the one name that stands for a kind and a nucleus.
-/

namespace TexMath

/-- What a command produces: an atom with this kind and nucleus, and as many arguments as stated.
An optional argument in square brackets comes before the others. -/
structure Template where
  kind : AtomKind
  nucleus : String
  arguments : Nat := 0
  optionalArgument : Bool := false
deriving DecidableEq, Repr

inductive Command where
  | atom (template : Template)
  /-- Whether the large operator before it sets its scripts above and below. -/
  | limits (value : Bool)
  | left
  | right
  | newRow
deriving DecidableEq, Repr

namespace Command

/-! ## The table -/

def lowerGreek : List (String × String) :=
  [("alpha", "α"), ("beta", "β"), ("gamma", "γ"), ("delta", "δ"), ("epsilon", "ϵ"),
    ("varepsilon", "ε"), ("zeta", "ζ"), ("eta", "η"), ("theta", "θ"), ("vartheta", "ϑ"),
    ("iota", "ι"), ("kappa", "κ"), ("lambda", "λ"), ("mu", "μ"), ("nu", "ν"), ("xi", "ξ"),
    ("omicron", "ο"), ("pi", "π"), ("varpi", "ϖ"), ("rho", "ρ"), ("varrho", "ϱ"), ("sigma", "σ"),
    ("varsigma", "ς"), ("tau", "τ"), ("upsilon", "υ"), ("phi", "ϕ"), ("varphi", "φ"),
    ("chi", "χ"), ("psi", "ψ"), ("omega", "ω")]

def upperGreek : List (String × String) :=
  [("Gamma", "Γ"), ("Delta", "Δ"), ("Theta", "Θ"), ("Lambda", "Λ"), ("Xi", "Ξ"), ("Pi", "Π"),
    ("Sigma", "Σ"), ("Upsilon", "Υ"), ("Phi", "Φ"), ("Psi", "Ψ"), ("Omega", "Ω")]

def signs : List (String × String) :=
  [("infty", "∞"), ("partial", "∂"), ("nabla", "∇"), ("forall", "∀"), ("exists", "∃"),
    ("nexists", "∄"), ("emptyset", "∅"), ("hbar", "ℏ"), ("ell", "ℓ"), ("Re", "ℜ"), ("Im", "ℑ"),
    ("wp", "℘"), ("aleph", "ℵ"), ("angle", "∠"), ("prime", "′"), ("degree", "°"), ("ldots", "…"),
    ("cdots", "⋯"), ("vdots", "⋮"), ("ddots", "⋱"), ("neg", "¬"), ("top", "⊤"), ("bot", "⊥"),
    ("triangle", "△"), ("clubsuit", "♣"), ("diamondsuit", "♢"), ("heartsuit", "♡"),
    ("spadesuit", "♠"), ("backslash", "\\"), ("vert", "|"), ("|", "‖"), ("%", "%"), ("$", "$"),
    ("#", "#"), ("&", "&"), ("_", "_")]

def binaryOperators : List (String × String) :=
  [("times", "×"), ("div", "÷"), ("pm", "±"), ("mp", "∓"), ("cdot", "⋅"), ("ast", "∗"),
    ("star", "⋆"), ("circ", "∘"), ("bullet", "∙"), ("cap", "∩"), ("cup", "∪"), ("wedge", "∧"),
    ("vee", "∨"), ("setminus", "∖"), ("oplus", "⊕"), ("ominus", "⊖"), ("otimes", "⊗"),
    ("oslash", "⊘"), ("odot", "⊙"), ("dagger", "†"), ("ddagger", "‡"), ("amalg", "⨿"),
    ("wr", "≀"), ("diamond", "⋄")]

def relations : List (String × String) :=
  [("leq", "≤"), ("geq", "≥"), ("neq", "≠"), ("approx", "≈"), ("equiv", "≡"), ("sim", "∼"),
    ("simeq", "≃"), ("cong", "≅"), ("propto", "∝"), ("in", "∈"), ("notin", "∉"), ("ni", "∋"),
    ("subset", "⊂"), ("supset", "⊃"), ("subseteq", "⊆"), ("supseteq", "⊇"), ("ll", "≪"),
    ("gg", "≫"), ("parallel", "∥"), ("perp", "⟂"), ("mid", "∣"), ("prec", "≺"), ("succ", "≻"),
    ("preceq", "⪯"), ("succeq", "⪰"), ("doteq", "≐"), ("models", "⊨"), ("vdash", "⊢"),
    ("dashv", "⊣"), ("asymp", "≍"), ("bowtie", "⋈")]

def arrows : List (String × String) :=
  [("rightarrow", "→"), ("leftarrow", "←"), ("Rightarrow", "⇒"), ("Leftarrow", "⇐"),
    ("leftrightarrow", "↔"), ("Leftrightarrow", "⇔"), ("longrightarrow", "⟶"),
    ("longleftarrow", "⟵"), ("Longrightarrow", "⟹"), ("Longleftarrow", "⟸"), ("mapsto", "↦"),
    ("uparrow", "↑"), ("downarrow", "↓")]

def operatorsWithLimits : List (String × String) :=
  [("sum", "∑"), ("prod", "∏"), ("coprod", "∐"), ("bigcup", "⋃"), ("bigcap", "⋂"),
    ("bigvee", "⋁"), ("bigwedge", "⋀"), ("bigoplus", "⨁"), ("bigotimes", "⨂"), ("bigodot", "⨀"),
    ("biguplus", "⨄"), ("lim", "lim"), ("limsup", "lim sup"), ("liminf", "lim inf"),
    ("max", "max"), ("min", "min"), ("sup", "sup"), ("inf", "inf"), ("det", "det"),
    ("gcd", "gcd"), ("Pr", "Pr")]

def operatorsWithoutLimits : List (String × String) :=
  [("int", "∫"), ("iint", "∬"), ("iiint", "∭"), ("oint", "∮"), ("sin", "sin"), ("cos", "cos"),
    ("tan", "tan"), ("cot", "cot"), ("sec", "sec"), ("csc", "csc"), ("arcsin", "arcsin"),
    ("arccos", "arccos"), ("arctan", "arctan"), ("sinh", "sinh"), ("cosh", "cosh"),
    ("tanh", "tanh"), ("coth", "coth"), ("log", "log"), ("ln", "ln"), ("lg", "lg"),
    ("exp", "exp"), ("arg", "arg"), ("deg", "deg"), ("dim", "dim"), ("hom", "hom"),
    ("ker", "ker")]

def openings : List (String × String) :=
  [("\x7b", "\x7b"), ("lbrack", "["), ("langle", "⟨"), ("lceil", "⌈"), ("lfloor", "⌊")]

def closings : List (String × String) :=
  [("\x7d", "\x7d"), ("rbrack", "]"), ("rangle", "⟩"), ("rceil", "⌉"), ("rfloor", "⌋")]

/-- The accents; the nucleus is a combining character. -/
def accents : List (String × String) :=
  [("grave", "\u0300"), ("acute", "\u0301"), ("hat", "\u0302"), ("tilde", "\u0303"),
    ("bar", "\u0304"), ("breve", "\u0306"), ("dot", "\u0307"), ("ddot", "\u0308"),
    ("mathring", "\u030a"), ("check", "\u030c"), ("vec", "\u20d7")]

/-- The spaces; the nucleus is the width in eighteenths of a quad. -/
def spaces : List (String × String) :=
  [(",", "3"), (":", "4"), (";", "5"), ("!", "-3"), (" ", "6"), ("quad", "18"), ("qquad", "36")]

def styles : List (String × String) :=
  [("displaystyle", "display"), ("textstyle", "text"), ("scriptstyle", "script"),
    ("scriptscriptstyle", "scriptscript")]

def symbols (kind : AtomKind) (names : List (String × String)) : List (String × Command) :=
  names.map fun (name, nucleus) => (name, .atom { kind, nucleus })

def structures : List (String × Command) :=
  [("frac", .atom ⟨.fraction true, "", 2, false⟩),
    ("binom", .atom ⟨.fraction false, "()", 2, false⟩),
    ("sqrt", .atom ⟨.radical, "√", 1, true⟩),
    ("overline", .atom ⟨.overline, "", 1, false⟩),
    ("underline", .atom ⟨.underline, "", 1, false⟩)] ++
  accents.map fun (name, nucleus) => (name, .atom ⟨.accent, nucleus, 1, false⟩)

def directives : List (String × Command) :=
  [("limits", .limits true), ("nolimits", .limits false), ("left", .left), ("right", .right),
    ("\\", .newRow)]

/-- The canonical names.  No two of them stand for the same kind and nucleus. -/
def table : List (String × Command) :=
  symbols .ordinary (lowerGreek ++ upperGreek ++ signs) ++
    symbols .binaryOperator binaryOperators ++
    symbols .relation (relations ++ arrows) ++
    symbols (.largeOperator true) operatorsWithLimits ++
    symbols (.largeOperator false) operatorsWithoutLimits ++
    symbols .opening openings ++ symbols .closing closings ++
    structures ++
    symbols .space spaces ++ symbols .style styles ++ symbols .placeholder [("square", "□")] ++
    directives

def aliases : List (String × String) :=
  [("le", "leq"), ("ge", "geq"), ("ne", "neq"), ("to", "rightarrow"), ("gets", "leftarrow"),
    ("owns", "ni"), ("land", "wedge"), ("lor", "vee"), ("lnot", "neg"), ("dots", "ldots"),
    ("lbrace", "\x7b"), ("rbrace", "\x7d"), ("Vert", "|"), ("thinspace", ","), ("medspace", ":"),
    (">", ":"), ("thickspace", ";"), ("negthinspace", "!")]

/-! ## Looking up -/

def canonicalName (name : String) : String := (aliases.lookup name).getD name

def find? (name : String) : Option Command := table.lookup (canonicalName name)

def supported : List (String × Command) :=
  table ++ aliases.filterMap fun (name, canonical) =>
    (table.lookup canonical).map fun command => (name, command)

def produces (kind : AtomKind) (nucleus : String) : Command → Bool
  | .atom template => template.kind.family == kind.family && template.nucleus == nucleus
  | _ => false

def name? (kind : AtomKind) (nucleus : String) : Option String :=
  (table.find? fun entry => entry.2.produces kind nucleus).map Prod.fst

def defaultLimits? (nucleus : String) : Option Bool :=
  match table.find? fun entry => entry.2.produces (.largeOperator false) nucleus with
  | some (_, .atom ⟨.largeOperator value, _, _, _⟩) => some value
  | _ => none

end Command

end TexMath
