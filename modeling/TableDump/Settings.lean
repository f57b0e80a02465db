import TableDump.Window

/-!
# How a dump is read

Three things can be chosen: the sizes of the window that a source is read
through, how much of the input is quoted where it cannot be read, and how deep
groups may be nested. The first has no influence on what is read.
-/

namespace TableDump

/-- The choices for reading a dump. -/
structure Settings where
  /-- The sizes of the window, if there is one. -/
  sizing : Window.Sizing := {}
  /-- How many bytes of the input a fault quotes. -/
  excerptLength : Nat := 40
  /-- How many groups may stand inside one another. -/
  maxDepth : Nat := 256
  deriving DecidableEq, Repr

namespace Settings

/-- Settings that allow for groups at all. -/
def nesting? (sizing : Window.Sizing) (excerptLength maxDepth : Nat) : Option Settings :=
  if maxDepth = 0 then none else some { sizing, excerptLength, maxDepth }

end Settings

end TableDump
