import RecordFlow.Fault

/-!
# Sampling

Whether a record is kept is decided by one random draw of 64 bits for each record. A `Rate` is a
fraction turned into the threshold that draws are held against; the full rate keeps everything and
draws nothing. Two runs at different rates with the same draws look at the same draw for the same
record.
-/

namespace RecordFlow

/-- The random draws of a run, by their number. -/
abbrev Draws := Nat → UInt64

/-- How many records are kept. -/
inductive Rate where
  /-- Every record. -/
  | all
  /-- The records whose draw is below a threshold. -/
  | below (threshold : Nat)
deriving DecidableEq, Repr

namespace Rate

/-- The rate of a fraction from zero to one: of all draws, this part is below the threshold. -/
def ofFraction (fraction : Binary64) : Except Fault Rate :=
  if fraction.isNaN || fraction.units < 0 || (Binary64.unitsPerOne : Int) < fraction.units then
    .error (.sampleFraction fraction)
  else if fraction.units = Binary64.unitsPerOne then .ok .all
  else .ok (.below (fraction.units.toNat * 2 ^ 64 / Binary64.unitsPerOne))

def keeps (rate : Rate) (draw : UInt64) : Bool :=
  match rate with
  | .all => true
  | .below threshold => draw.toNat < threshold

/-- The elements that are kept, the draw of the first one being number `drawn`. -/
def sample {α : Type} (rate : Rate) (draws : Draws) (drawn : Nat) : List α → List α
  | [] => []
  | a :: rest =>
    if rate.keeps (draws drawn) then a :: sample rate draws (drawn + 1) rest
    else sample rate draws (drawn + 1) rest

end Rate

end RecordFlow
