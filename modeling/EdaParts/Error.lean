/-!
# Errors

What can go wrong with a whole component, a library or the options, by cause. Records that cannot be
drawn are not errors: they are skipped.
-/

namespace EdaParts

/-- Why an operation failed. -/
inductive Error where
  /-- A document is not what it should be. -/
  | badDocument
  /-- The file system refused. -/
  | io
  /-- The vendor answers with a failure. -/
  | remote (code : Int) (message : String)
  /-- The file of a symbol library does not end as one. -/
  | noFooter (path : String)
  /-- A component lacks something it needs. -/
  | missingData (what : String)
  /-- An entry is there and may not be replaced. -/
  | alreadyExists (entry : String)
  /-- An option has a value that makes no sense. -/
  | invalidOption (detail : String)
  deriving Repr, DecidableEq

/-- The wording of an error, if it has one of its own. -/
def Error.message? : Error → Option String
  | badDocument => none
  | io => none
  | remote code message => some s!"API reported failure (code {code}): {message}"
  | noFooter path => some s!"Data parsing error: {path} has no library footer"
  | missingData what => some ("Missing expected data: " ++ what)
  | alreadyExists entry => some ("Library entry already exists: " ++ entry)
  | invalidOption detail => some ("Invalid option: " ++ detail)

end EdaParts
