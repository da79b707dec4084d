import CurrencyPad.Proofs.Journal.Records

/-!
# The limit of reading

A file that is longer than the limit of its journal is read from the first line
that begins behind the limit.  A line that begins just at the limit cannot be told
from the rest of a line, and is left out although none of it is missing.
-/

namespace CurrencyPad.Journal

end CurrencyPad.Journal
