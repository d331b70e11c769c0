import Mathlib.Data.List.Sort

namespace QuickJsOxide.Unicode

/-! The two passes of `normalize.rs` over decomposed text. Both work in place
on a buffer of code points; the class and the composition of a pair are
parameters here. -/

section

variable (combiningClass : Nat → Nat)

/-- The innermost loop: code points of a larger class move up by one, from
`insertion` down to `start`. -/
def shiftLarger (start class_ : Nat) :
    Nat → List Nat → List Nat × Nat
  | 0, codePoints => (codePoints, 0)
  | previous + 1, codePoints =>
    if start < previous + 1 ∧
        class_ < combiningClass (codePoints.getD previous 0) then
      shiftLarger start class_ previous
        (codePoints.set (previous + 1) (codePoints.getD previous 0))
    else
      (codePoints, previous + 1)

/-- One turn of the middle loop: the code point at `stop` joins the run that
begins at `start`. -/
def insertCodePoint (start stop : Nat) (codePoints : List Nat) : List Nat :=
  let codePoint := codePoints.getD stop 0
  let (shifted, insertion) := shiftLarger combiningClass start
    (combiningClass codePoint) stop codePoints
  shifted.set insertion codePoint

/-- The middle loop over one run, with the number of code points from `stop` to
the end of the buffer. -/
def orderRun (start : Nat) : Nat → Nat → List Nat → List Nat × Nat
  | 0, stop, codePoints => (codePoints, stop)
  | remaining + 1, stop, codePoints =>
    if combiningClass (codePoints.getD stop 0) ≠ 0 then
      orderRun start remaining (stop + 1)
        (insertCodePoint combiningClass start stop codePoints)
    else
      (codePoints, stop)

/-- The outer loop; every turn moves `index`, so as many steps as the buffer
has code points are enough. -/
def orderRuns : Nat → Nat → List Nat → List Nat
  | 0, _, codePoints => codePoints
  | steps + 1, index, codePoints =>
    if index < codePoints.length then
      if combiningClass (codePoints.getD index 0) = 0 then
        orderRuns steps (index + 1) codePoints
      else
        let (ordered, stop) := orderRun combiningClass index
          (codePoints.length - (index + 1)) (index + 1) codePoints
        orderRuns steps stop ordered
    else
      codePoints

def canonicalOrder (codePoints : List Nat) : List Nat :=
  orderRuns combiningClass codePoints.length 0 codePoints

end

section

variable (combiningClass : Nat → Nat) (composePair : Nat → Nat → Option Nat)

/-- The backward scan for a starter among the first `starter` code points.
There is none when the scan is blocked or falls off the front. -/
def seekStarter (codePoints : List Nat) : Nat → Nat → Option Nat
  | _, 0 => none
  | lastClass, starter + 1 =>
    let class_ := combiningClass (codePoints.getD starter 0)
    if class_ = 0 then
      some starter
    else if lastClass ≤ class_ then
      none
    else
      seekStarter codePoints 256 starter

/-- What the code point at `input` composes with: a position before `outputLen`
and the composite that replaces the starter there. -/
def composeAt (codePoints : List Nat) (input outputLen : Nat) :
    Option (Nat × Nat) := do
  let codePoint := codePoints.getD input 0
  let starter ← seekStarter combiningClass codePoints
    (combiningClass codePoint) outputLen
  let composed ← composePair (codePoints.getD starter 0) codePoint
  return (starter, composed)

/-- The loop of `compose` over the code points from `input` on. -/
def composeFrom : Nat → Nat → Nat → List Nat → List Nat
  | 0, _, outputLen, codePoints => codePoints.take outputLen
  | remaining + 1, input, outputLen, codePoints =>
    match composeAt combiningClass composePair codePoints input outputLen with
    | some (starter, composed) =>
      composeFrom remaining (input + 1) outputLen
        (codePoints.set starter composed)
    | none =>
      composeFrom remaining (input + 1) (outputLen + 1)
        (codePoints.set outputLen (codePoints.getD input 0))

def compose (codePoints : List Nat) : List Nat :=
  if codePoints.length ≤ 1 then
    codePoints
  else
    composeFrom combiningClass composePair (codePoints.length - 1) 1 1 codePoints

end

end QuickJsOxide.Unicode
