import ComponentAudit.Text.Basic

/-!
Settings of a single analysis.
-/

namespace ComponentAudit

structure Options where
  /-- Whether uses of a variable are looked for in the markup. -/
  scanMarkup : Bool := true
  /-- Ids that the page around a component is known to have. -/
  globalIds : List Text := ["body", "html", "root", "app", "main"]
  /-- Methods that are never reported, besides those of the platform. -/
  extraBuiltins : List Text := []

end ComponentAudit
