import Montage.Text.Basic

/-!
# Absolute paths

A path is made absolute by its text alone: names that stand for the directory
itself are dropped, and one that stands for the directory around it takes the
name before it away.
-/

namespace Montage.Media.Path

/-- Follows one name from names that were followed, the last of them first. -/
def follow (followed : List Text) (name : Text) : List Text :=
  if name = "" || name = "." then followed
  else if name = ".." then followed.drop 1
  else name :: followed

/-- The slashes that an absolute path begins with: two if it is given exactly
two, and otherwise one. -/
def leadingSlashes (path : Text) : Text :=
  let slashes := path.points.takeWhile (· = .char '/')
  if slashes.length = 2 then "//" else "/"

/-- The plainest form of an absolute path. -/
def plain (path : Text) : Text :=
  leadingSlashes path ++ Text.intercalate "/" ((path.split '/').foldl follow []).reverse

/-- The plainest absolute path to what a path leads to from a working
directory. The directory is taken as it is. -/
def absolute (directory path : Text) : Text :=
  if path.beginsWith '/' then plain path
  else Text.intercalate "/" (directory :: ((path.split '/').foldl follow []).reverse)

end Montage.Media.Path
