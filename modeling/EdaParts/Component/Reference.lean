import EdaParts.Text.Blank

/-!
# References to components

A component is asked for by its number in the catalog, or by the identifier of its document on one
of the two hosts of the vendor.
-/

namespace EdaParts

/-- A host that serves documents by their identifiers. -/
inductive Host where
  | easyeda
  | lceda
  deriving Repr, DecidableEq

/-- The host that is asked unless another one is named. -/
def Host.default : Host := .easyeda

/-- How a component is asked for. -/
inductive Reference where
  | catalog (number : String)
  | document (identifier : String) (host : Host)
  deriving Repr, DecidableEq

namespace Reference

/-- The number or identifier, as given. -/
def id : Reference → String
  | catalog number => number
  | document identifier _ => identifier

/-- The address that serves the component; blanks around its number or identifier are left out. -/
def address : Reference → String
  | catalog number =>
    "https://easyeda.com/api/products/" ++ Text.trimmed number ++ "/components?version=6.4.19.5"
  | document identifier .easyeda => "https://easyeda.com/api/components/" ++ Text.trimmed identifier
  | document identifier .lceda => "https://lceda.cn/api/components/" ++ Text.trimmed identifier

end Reference

end EdaParts
