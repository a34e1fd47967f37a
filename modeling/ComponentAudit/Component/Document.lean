import ComponentAudit.Component.Markup
import ComponentAudit.Component.Options
import ComponentAudit.Component.Usage
import ComponentAudit.Style.Sheet

/-!
A component file as the searches for uses see it.
-/

namespace ComponentAudit

/-- A component file with its lines, its markup, its style sheets and the settings of the analysis. -/
structure Document where
  text : Text
  index : LineIndex
  markup : Markup
  sheets : List Sheet
  options : Options

namespace Document

def usageAt (document : Document) (offset : Nat) : Usage :=
  { position := document.index.position offset, context := lineContext document.text offset }

end Document

/-- Offsets in increasing order, each once. -/
def sortOffsets (offsets : List Nat) : List Nat :=
  (offsets.mergeSort fun a b => a ≤ b).eraseDups

end ComponentAudit
