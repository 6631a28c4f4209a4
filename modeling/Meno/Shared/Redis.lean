import Meno.Lib.Expiring
import Meno.Lib.Glob
import Meno.Lib.Sweep

/-!
# Meno.Shared.Redis

`delete_by_pattern`: keys are scanned for page by page, beginning and ending at the cursor "0", and
the keys of a page are unlinked before the next page.
-/

namespace Meno.Redis

open Lib

/-- A call of `delete_by_pattern` under way. -/
abbrev Deletion := Sweep String String

namespace Deletion

variable {V T : Type} [LE T] [DecidableLE T]

/-- What a scan can find at a time. -/
def Present (cache : Expiring String V T) (now : T) (key : String) : Prop :=
  (cache.entry now key).isSome

def start (pattern : String) (cache : Expiring String V T) (now : T) (rest : Nat) : Deletion :=
  Sweep.start "0" (fun key => Glob.Accepts pattern key ∧ Present cache now key) rest

abbrev Own (pattern : String) : Deletion → List String → Deletion → Prop :=
  Sweep.Own "0" (Glob.Accepts pattern)

abbrev Inv (pattern : String) (sw : Deletion) : Prop := Sweep.Inv "0" (Glob.Accepts pattern) sw

end Deletion

end Meno.Redis
