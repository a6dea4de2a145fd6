/-! Paths of shapefiles. The files of a shapefile differ in their extension only, and a path may
name any of them or none. -/

namespace Shapefile.Path

/-- A path without its extension, that is, without the last dot and what follows it. The dot has to
be in the last name, and dots that the name begins with do not count. -/
def stem (path : List Char) : List Char :=
  let back := path.reverse
  match back.dropWhile fun c => c != '.' && c != '/' with
  | '.' :: before =>
    if (before.takeWhile (· != '/')).all (· == '.') then path else before.reverse
  | _ => path

/-- The path that the files of a shapefile have in common. -/
def basePath (path : String) : String := String.ofList (stem path.toList)

end Shapefile.Path
