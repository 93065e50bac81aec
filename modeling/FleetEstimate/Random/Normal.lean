import FleetEstimate.Random.Generator
import FleetEstimate.Random.Layers

/-!
# Standard normal variables

A point is drawn in one of 256 layers of equal area that cover the density. All
of a layer but its end lies under the density, so one draw mostly suffices; at
the end the density decides, and beyond the lowest layer the tail is drawn from.
A draw that misses the density is repeated. Each attempt misses with a chance
below one in fifty, so the bound on the attempts is never met.
-/

namespace FleetEstimate.Random.Generator

/-- The tail beyond `tailStart`: draws until a point lies under the density. -/
def normalTail : (attempts : Nat) → Generator → Float × Generator
  | 0, g => (0.0, g)
  | attempts + 1, g =>
    let (a, g) := g.openUnit
    let (b, g) := g.openUnit
    let x := Float.log a / tailStart
    let y := Float.log b
    if -2.0 * y < x * x then normalTail attempts g else (x, g)

/-- A standard normal variable within a number of attempts. -/
def normalWithin : (attempts : Nat) → Generator → Float × Generator
  | 0, g => (0.0, g)
  | attempts + 1, g =>
    let (bits, g) := g.doubleWord
    let i := (bits &&& 0xff).toNat
    let u := fractionFloat bits 1 - 3.0
    let x := u * layerReach.getD i 0.0
    -- inside the layer above, hence under the density
    if x.abs < layerReach.getD (i + 1) 0.0 then (x, g)
    else if i = 0 then
      let (t, g) := normalTail attempts g
      (if u < 0.0 then t - tailStart else tailStart - t, g)
    else
      let (v, g) := g.unit
      let upper := layerHeight.getD (i + 1) 0.0
      if upper + (layerHeight.getD i 0.0 - upper) * v < Float.exp (-x * x / 2.0) then (x, g)
      else normalWithin attempts g

/-- A standard normal variable. -/
def normal (g : Generator) : Float × Generator :=
  normalWithin 1000000 g

end FleetEstimate.Random.Generator
