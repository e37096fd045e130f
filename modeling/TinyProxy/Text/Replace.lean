import TinyProxy.Text.Expand

/-!
# Replacing a tag everywhere

A text whose holes are spelled by a tag may spell the tag by accident as well.
Replacing every occurrence fills exactly the holes if and only if there is no
accidental occurrence, or the new text is the tag itself.
-/

set_option autoImplicit false

namespace Text

variable {α : Type} [DecidableEq α] {tag new : List α}

end Text
