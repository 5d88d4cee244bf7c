import Rozi.Pane.ScreenWait

/-!
What a screen shows that its baseline did not: text by absolute line and column, and where looking for
it by byte offset comes to the same.
-/

namespace Rozi

section rows

variable {C : Type}

end rows

section matched

variable {text line : List Char}

end matched

section shown

variable {C : Type} {text : List Char} {look earlier : Look C}

end shown

end Rozi
