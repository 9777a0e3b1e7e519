import Mathlib.Algebra.Group.Int.Defs
import Mathlib.Algebra.Group.Nat.Defs

/-!
`ciphr-audit/src/time.rs`: RFC 3339 timestamps in UTC. Rust's `/` on signed integers truncates and
`div_euclid` floors, which are `Int.tdiv` and `Int.ediv` here.
-/

namespace Ciphr

/-- `format!` with a width and zeros in front: the sign counts towards the width. -/
def padZeros (width : Nat) (n : Int) : String :=
  let digits := toString n.natAbs
  let sign := if n < 0 then "-" else ""
  sign ++ String.ofList (List.replicate (width - (sign.length + digits.length)) '0') ++ digits

def civilFromDays (days : Int) : Int × Nat × Nat :=
  let z := days + 719468
  let era := (if 0 ≤ z then z else z - 146096).tdiv 146097
  let dayOfEra := z - era * 146097
  let yearOfEra := (dayOfEra - dayOfEra.tdiv 1460 + dayOfEra.tdiv 36524 -
    dayOfEra.tdiv 146096).tdiv 365
  let year := yearOfEra + era * 400
  let dayOfYear := dayOfEra - (365 * yearOfEra + yearOfEra.tdiv 4 - yearOfEra.tdiv 100)
  let monthPrime := (5 * dayOfYear + 2).tdiv 153
  -- `u32::try_from(..).unwrap_or(1)`
  let toU32 (n : Int) : Nat := if 0 ≤ n ∧ n < 2 ^ 32 then n.toNat else 1
  let day := toU32 (dayOfYear - (153 * monthPrime + 2).tdiv 5 + 1)
  let month := toU32 (if monthPrime < 10 then monthPrime + 3 else monthPrime - 9)
  (if month ≤ 2 then year + 1 else year, month, day)

def rfc3339Millis (millis : Int) : String :=
  let seconds := millis / 1000
  let subMilli := millis % 1000
  let days := seconds / 86400
  let secondOfDay := seconds % 86400
  let (year, month, day) := civilFromDays days
  let hour := secondOfDay.tdiv 3600
  let minute := (secondOfDay.tmod 3600).tdiv 60
  let second := secondOfDay.tmod 60
  padZeros 4 year ++ "-" ++ padZeros 2 month ++ "-" ++ padZeros 2 day ++ "T" ++ padZeros 2 hour ++
    ":" ++ padZeros 2 minute ++ ":" ++ padZeros 2 second ++ "." ++ padZeros 3 subMilli ++ "Z"

end Ciphr
