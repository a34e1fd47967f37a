import ComponentAudit.Position

/-!
A place where a declared name appears to be used.
-/

namespace ComponentAudit

/-- A place of use, the line around it, and the element and attribute it was found in. -/
structure Usage where
  position : Position
  context : Text
  elementName : Option Text := none
  attributeName : Option Text := none

end ComponentAudit
