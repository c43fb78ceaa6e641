import PeerPool.Proofs.TextPieces
import PeerPool.Provider.Client

/-! The paths of locators. A path is followed from one directory into the next, and names something
in the last. A slash at its end makes it the path of a directory and changes nothing else, so a base
is the same with and without one. -/

namespace PeerPool.Proofs.LocatorPaths
open Text TextPieces Url Provider

section

variable (path : List String)

end

section

variable {text : List Char}

/-- Tabs and line breaks are taken out of a locator, wherever they are. -/
def unbroken (text : List Char) : List Char := text.filter fun c => c ≠ '\t' && c ≠ '\n' && c ≠ '\r'

/-- A character that is seen stays. -/
theorem stays {c : Char} (shown : 0x20 < c.toNat) : (c ≠ '\t' && c ≠ '\n' && c ≠ '\r') = true := by
  simp only [ne_eq, Bool.and_eq_true, decide_eq_true_eq]
  refine ⟨⟨?_, ?_⟩, ?_⟩ <;> rintro rfl <;> exact absurd shown (by decide)

end

section

variable {base : String} {url : Url} (read : Url.read? (directory base) = some url) (web : url.scheme = "http" ∨ url.scheme = "https")
  (unasked : url.query = none) (unmarked : url.fragment = none)
include read web unasked unmarked

end

end PeerPool.Proofs.LocatorPaths
