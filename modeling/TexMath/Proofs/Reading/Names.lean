import TexMath.Reading.Grammar
import Mathlib.Data.List.Basic

/-!
# Alternative names

The rules look the name of a command up and compare it with the names of the directives, and both
come out the same for an alternative name and for the canonical one.
-/

namespace TexMath

namespace Command

variable {name other : String}

theorem canonicalName_eq_or_mem (name : String) :
    canonicalName name = name ∨ (name, canonicalName name) ∈ aliases := by
  unfold canonicalName
  cases halias : aliases.lookup name with
  | none => exact .inl rfl
  | some canonical =>
      obtain ⟨before, after, hsplit, -⟩ := List.lookup_eq_some_iff.mp halias
      exact .inr (by simp [hsplit])

theorem apply_canonicalName {γ : Type} {f : String → γ}
    (h : ∀ entry ∈ aliases, f entry.2 = f entry.1) (name : String) :
    f (canonicalName name) = f name := by
  rcases canonicalName_eq_or_mem name with heq | hmem
  · rw [heq]
  · exact h _ hmem

@[simp] theorem canonicalName_canonicalName (name : String) :
    canonicalName (canonicalName name) = canonicalName name :=
  apply_canonicalName (by decide +kernel) name

@[simp] theorem find?_canonicalName (name : String) : find? (canonicalName name) = find? name := by
  simp [find?]

theorem canonicalName_eq_iff (h : ∀ entry ∈ aliases, entry.2 = other ↔ entry.1 = other) :
    canonicalName name = other ↔ name = other :=
  (apply_canonicalName (f := (· = other)) (fun entry hentry => propext (h entry hentry))
    name).to_iff

def isSymbol : Command → Bool
  | atom template => template.arguments == 0 && !template.optionalArgument
  | _ => false

theorem exists_template_of_alias {canonical : String} (h : (name, canonical) ∈ aliases) :
    ∃ template, find? name = some (.atom template) ∧ template.arguments = 0 ∧
      template.optionalArgument = false := by
  have hall : ∀ entry ∈ aliases, (find? entry.1).any isSymbol = true := by decide +kernel
  obtain ⟨command, hfind, hsymbol⟩ := (Option.any_eq_true _ _).mp (hall _ h)
  cases command with
  | atom template => exact ⟨template, hfind, by simpa [isSymbol] using hsymbol⟩
  | _ => cases hsymbol

theorem eq_or_symbol_of_canonicalName_eq (h : canonicalName name = canonicalName other) :
    name = other ∨ ∃ template, find? name = some (.atom template) ∧
      find? other = some (.atom template) ∧ template.arguments = 0 ∧
        template.optionalArgument = false := by
  have hfind : find? name = find? other := by
    rw [← find?_canonicalName, h, find?_canonicalName]
  rcases canonicalName_eq_or_mem name with hname | hmem
  · rcases canonicalName_eq_or_mem other with hother | hmem
    · exact .inl (hname.symm.trans (h.trans hother))
    · obtain ⟨template, hsome, hsymbol⟩ := exists_template_of_alias hmem
      exact .inr ⟨template, hfind.trans hsome, hsome, hsymbol⟩
  · obtain ⟨template, hsome, hsymbol⟩ := exists_template_of_alias hmem
    exact .inr ⟨template, hsome, hfind.symm.trans hsome, hsymbol⟩

end Command

namespace Token

def canonical : Token → Token
  | command name => command (Command.canonicalName name)
  | token => token

variable {token close : Token}

@[simp] theorem canonical_canonical (token : Token) :
    token.canonical.canonical = token.canonical := by
  cases token with
  | command name => simp [canonical]
  | _ => rfl

theorem canonical_eq_iff (h : ∀ name, close = .command name →
    ∀ entry ∈ Command.aliases, entry.2 = name ↔ entry.1 = name) :
    token.canonical = close ↔ token = close := by
  cases token with
  | command name =>
      cases close with
      | command other => simp [canonical, Command.canonicalName_eq_iff (h other rfl)]
      | _ => simp [canonical]
  | _ => rfl

theorem canonical_eq_of_ne_command (h : ∀ name, close ≠ .command name) (token : Token) :
    token.canonical = close ↔ token = close :=
  canonical_eq_iff fun name hname => absurd hname (h name)

theorem canonical_eq_right (token : Token) :
    token.canonical = .command "right" ↔ token = .command "right" :=
  canonical_eq_iff (by rintro _ ⟨rfl⟩; decide +kernel)

theorem canonical_eq_newRow (token : Token) :
    token.canonical = .command "\\" ↔ token = .command "\\" :=
  canonical_eq_iff (by rintro _ ⟨rfl⟩; decide +kernel)

theorem eq_or_command_of_canonical_eq {other : Token} (h : token.canonical = other.canonical) :
    token = other ∨ ∃ name name', token = .command name ∧ other = .command name' ∧
      name ≠ name' := by
  cases token with
  | command name =>
      cases other with
      | command name' =>
          by_cases hsame : name = name'
          · exact .inl (congrArg command hsame)
          · exact .inr ⟨name, name', rfl, rfl, hsame⟩
      | _ => cases h
  | _ => cases other <;> first | exact .inl h | cases h

@[simp] theorem script?_canonical : token.canonical.script? = token.script? := by
  cases token <;> rfl

@[simp] theorem glyph?_canonical : Delimiter.glyph? token.canonical = Delimiter.glyph? token := by
  cases token with
  | command name =>
      exact Command.apply_canonicalName (f := fun name => Delimiter.commands.lookup name)
        (by decide +kernel) name
  | _ => rfl

@[simp] theorem closes_canonical (context : Context) :
    context.closes token.canonical = context.closes token := by
  cases token with
  | command name =>
      refine Command.apply_canonicalName (f := fun name => context.closes (.command name))
        (fun entry hentry => ?_) name
      have hother : ∀ entry ∈ Command.aliases, (entry.1 ≠ "right" ∧ entry.1 ≠ "\\") ∧
          entry.2 ≠ "right" ∧ entry.2 ≠ "\\" := by decide +kernel
      obtain ⟨hname, hcanonical⟩ := hother entry hentry
      simp [Context.closes, hname, hcanonical]
  | _ => rfl

@[simp] theorem startsArgument_canonical (context : Context) :
    context.startsArgument token.canonical = context.startsArgument token := by
  unfold Context.startsArgument
  rw [closes_canonical]
  cases token with
  | command name =>
      exact congrArg _ (Command.apply_canonicalName
        (f := fun name => !Context.directives.contains name) (by decide +kernel) name)
  | _ => rfl

end Token

end TexMath
