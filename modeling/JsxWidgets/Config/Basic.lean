import JsxWidgets.Text.Segment

/-!
# Configuration

What a user may choose. Every choice has a default.
-/

namespace JsxWidgets

/-- The choices of a user. -/
structure Config where
  /-- The packages whose modules belong to the framework. -/
  frameworkPrefixes : List String := ["react", "react-dom", "next", "react-native"]
  /-- How many samples of text are kept. -/
  textSampleLimit : Nat := 10
  /-- Pieces of a path that mark a file as a page. -/
  pageMarkers : List String := ["/pages/", "/app/", "/screens/", "/views/"]
  /-- Widgets to use for some tags in place of those of the table, in the order of the tags. -/
  targetOverrides : List (String × String) := []
  /-- The package that the written file belongs to. -/
  packageName : String := "app"
  deriving DecidableEq, Repr, Inhabited

namespace Config

/-- Whether a module belongs to the framework: it is one of the packages, or lies inside one. -/
def isFrameworkSource (c : Config) (source : String) : Bool :=
  c.frameworkPrefixes.any fun package =>
    source = package || Text.startsWith (package ++ "/") source

end Config

end JsxWidgets
