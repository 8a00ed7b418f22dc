/-
Module: SourceAudit.Imports.Resolve
Layer: Import graph
Purpose: Which file of a project an import means. The exact name comes first, then a relative path
  with the usual extensions and index files, then any other file with the same stem.
Main exports: parentDir, normalizePath, candidateTargets, resolveImport
-/
import SourceAudit.Source.Basic

namespace SourceAudit

/-- The extensions that an import may leave out, in order of preference. -/
def resolvableExtensions : List String := ["js", "jsx", "ts", "tsx", "mjs", "cjs", "vue"]

/-- The directory part of a path, with its separator. -/
def parentDir (path : Text) : Text := path.take (path.length - (baseName path).length)

/-- The segments of a path after dots have been resolved. A step up from the top stays there. -/
def pathSegments (path : Text) : List Text :=
  ((path.pieces isPathSeparator).foldl
    (fun above segment =>
      if segment.isEmpty || segment = ['.'] then above
      else if segment = ['.', '.'] then above.tail
      else segment :: above)
    []).reverse

/-- The path with its dots resolved and single separators. -/
def normalizePath (path : Text) : Text := List.intercalate ['/'] (pathSegments path)

/-- The paths that an import of `target` may mean, in order of preference. -/
def candidateTargets (target : Text) : List Text :=
  target :: (resolvableExtensions.map (fun ext => target ++ '.' :: Text.of ext) ++
    resolvableExtensions.map fun ext => target ++ "/index." ++ Text.of ext)

/-- The base name without what follows its last dot. -/
def fileStem (name : Text) : Text :=
  match (baseName name).cutLast? (· == '.') with
  | some (stem, _) => stem
  | none => baseName name

/-- The file a relative import means. -/
def resolveRelative (importer specifier : Text) (names : List String) : Option String :=
  if specifier.startsWith "." then
    (candidateTargets (normalizePath (parentDir importer ++ specifier))).findSome? fun candidate =>
      names.find? fun name => normalizePath (Text.of name) == candidate
  else none

/-- Another file with the stem that an import ends in. -/
def resolveStem (importer : String) (specifier : Text) (names : List String) : Option String :=
  let stem := specifier.afterLast (· == '/')
  if stem.isEmpty then none
  else names.find? fun name => fileStem (Text.of name) == stem && name != importer

/-- The project file that an import means, if any. -/
def resolveImport (importer specifier : String) (names : List String) : Option String :=
  match names.find? (· == specifier) with
  | some name => some name
  | none =>
    match resolveRelative (Text.of importer) (Text.of specifier) names with
    | some name => some name
    | none => resolveStem importer (Text.of specifier) names

end SourceAudit
