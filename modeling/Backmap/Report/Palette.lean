/-!
# Colours on a terminal
-/

namespace Backmap

/-- How text is made bold, in a colour if one is given. -/
structure Palette where
  bold : String → Option String → String

namespace Palette

/-- Leaves text as it is. -/
def plain : Palette := ⟨fun text _ => text⟩

/-- The number of a colour. -/
def number : String → Nat
  | "red" => 31
  | "yellow" => 33
  | "blue" => 34
  | "cyan" => 36
  | _ => 97

/-- Puts text between the codes that a terminal knows. -/
def ansi : Palette where
  bold text colour :=
    let tint := match colour with
      | some c => s!"\x1b[{number c}m"
      | none => ""
    "\x1b[1m" ++ tint ++ text ++ "\x1b[0m"

/-- Colour is used if it is asked for or there is a terminal for it, and nothing forbids it. -/
def ofEnvironment (terminal : Bool) (environment : List (String × String)) : Palette :=
  let value (name : String) : String := ((environment.find? (·.1 == name)).map (·.2)).getD ""
  if value "NO_COLOR" ≠ "" ∨ value "ANSI_COLORS_DISABLED" ≠ "" then plain
  else if value "FORCE_COLOR" ≠ "" then ansi
  else if terminal ∧ value "TERM" ≠ "dumb" then ansi
  else plain

end Palette

end Backmap
