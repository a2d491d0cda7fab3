import PeerWatch.Time.Calendar

/-!
# Cookie assignments

The text that sets a cookie, with the date on which it expires.
-/

namespace PeerWatch.Session

/-- Why a cookie cannot be given its expiry date. -/
inductive ExpiryError
  /-- The day on which it would expire has no date. -/
  | outOfRange
  deriving DecidableEq, Repr

/-- The text `name=value` that sets a cookie until `days` days after the second `now`. Without a
number of days, or with zero, the cookie lasts as long as the session; a negative number takes it
away. -/
def assignment (now : Int) (name value : String) (days : Option Int) :
    Except ExpiryError String :=
  match days.filter (· ≠ 0) with
  | none => .ok (name ++ "=" ++ value)
  | some days =>
    let expiry := now + days * Time.secondsPerDay
    if Time.hasDate expiry then
      .ok (name ++ "=" ++ value ++ "; expires=" ++ Time.headerDate expiry)
    else .error .outOfRange

def removal (now : Int) (name : String) : Except ExpiryError String :=
  assignment now name "" (some (-1))

end PeerWatch.Session
