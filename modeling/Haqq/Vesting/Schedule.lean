import Haqq.Lib.Schedule
import Haqq.Types

/-!
# Vesting schedules

`x/vesting/types/schedule.go`.  Times are Unix seconds in an `int64`, so every sum and difference
wraps around.  `Fits` says that the event times of a schedule stay within the range.
-/

namespace Haqq.Vesting

open Lib Lib.Schedule

abbrev Period := Schedule.Period Coins

abbrev Periods := List Period

def totalLength (periods : Periods) : Int :=
  periods.foldl (fun total period => int64 (total + period.length)) 0

/-- It breaks at the first event after `readTime`. -/
def readPeriods (elapsedTime : Int) : Periods → Int → Coins
  | [], _ => 0
  | period :: rest, readTime =>
    let next := int64 (elapsedTime + period.length)
    if readTime < next then 0 else period.amount + readPeriods next rest readTime

def readSchedule (startTime endTime : Int) (periods : Periods) (totalCoins : Coins)
    (readTime : Int) : Coins :=
  if readTime ≤ startTime then 0
  else if endTime ≤ readTime then totalCoins
  else readPeriods startTime periods readTime

def countPeriods (elapsedTime : Int) : Periods → Int → Nat
  | [], _ => 0
  | period :: rest, readTime =>
    let next := int64 (elapsedTime + period.length)
    if readTime < next then 0 else countPeriods next rest readTime + 1

def readPastPeriodCount (startTime endTime : Int) (periods : Periods) (readTime : Int) : Nat :=
  if readTime ≤ startTime then 0
  else if endTime ≤ readTime then periods.length
  else countPeriods startTime periods readTime

/-- `timeA` and `timeB` are the times of the last events taken from the two schedules, `endTime` is
the later of them. -/
def disjunctLoop (timeA timeB endTime : Int) : Periods → Periods → Int × Periods
  | [], [] => (endTime, [])
  | a :: as, [] =>
    let nextA := int64 (timeA + a.length)
    let (last, periods) := disjunctLoop nextA timeB nextA as []
    (last, ⟨int64 (nextA - endTime), a.amount⟩ :: periods)
  | [], b :: bs =>
    let nextB := int64 (timeB + b.length)
    let (last, periods) := disjunctLoop timeA nextB nextB [] bs
    (last, ⟨int64 (nextB - endTime), b.amount⟩ :: periods)
  | a :: as, b :: bs =>
    let nextA := int64 (timeA + a.length)
    let nextB := int64 (timeB + b.length)
    if nextA < nextB then
      let (last, periods) := disjunctLoop nextA timeB nextA as (b :: bs)
      (last, ⟨int64 (nextA - endTime), a.amount⟩ :: periods)
    else if nextB < nextA then
      let (last, periods) := disjunctLoop timeA nextB nextB (a :: as) bs
      (last, ⟨int64 (nextB - endTime), b.amount⟩ :: periods)
    else
      let (last, periods) := disjunctLoop nextA nextA nextA as bs
      (last, ⟨int64 (nextA - endTime), a.amount + b.amount⟩ :: periods)
termination_by as bs => as.length + bs.length

def disjunctPeriods (startA startB : Int) (periodsA periodsB : Periods) : Int × Int × Periods :=
  let start := min startA startB
  (start, disjunctLoop startA startB start periodsA periodsB)

/-! ## Intersection -/

/-- The amounts both schedules and the result have released so far, and the time of the last event
of the result. -/
structure Conjunction where
  totalA : Coins
  totalB : Coins
  resulting : Coins
  endTime : Int

namespace Conjunction

/-- An event is emitted if the minimum of the two schedules has grown. -/
def emits (c : Conjunction) : Bool :=
  decide (c.resulting ≤ min c.totalA c.totalB) && !(min c.totalA c.totalB - c.resulting).isZero

def emit (c : Conjunction) (time : Int) : Periods :=
  if c.emits then [⟨int64 (time - c.endTime), min c.totalA c.totalB - c.resulting⟩] else []

def advance (c : Conjunction) (time : Int) : Conjunction :=
  if c.emits then
    { c with
      resulting := c.resulting + (min c.totalA c.totalB - c.resulting)
      endTime := time }
  else c

def addA (c : Conjunction) (a : Period) : Conjunction := { c with totalA := c.totalA + a.amount }

def addB (c : Conjunction) (b : Period) : Conjunction := { c with totalB := c.totalB + b.amount }

end Conjunction

/-- Takes the earlier of the two next events, or both if they are at the same time, and emits by how
much the minimum of the two totals has grown. -/
def conjunctLoop (timeA timeB : Int) (c : Conjunction) : Periods → Periods → Int × Periods
  | [], [] => (c.endTime, [])
  | a :: as, [] =>
    let nextA := int64 (timeA + a.length)
    let c' := c.addA a
    let (last, periods) := conjunctLoop nextA timeB (c'.advance nextA) as []
    (last, c'.emit nextA ++ periods)
  | [], b :: bs =>
    let nextB := int64 (timeB + b.length)
    let c' := c.addB b
    let (last, periods) := conjunctLoop timeA nextB (c'.advance nextB) [] bs
    (last, c'.emit nextB ++ periods)
  | a :: as, b :: bs =>
    let nextA := int64 (timeA + a.length)
    let nextB := int64 (timeB + b.length)
    if nextA < nextB then
      let c' := c.addA a
      let (last, periods) := conjunctLoop nextA timeB (c'.advance nextA) as (b :: bs)
      (last, c'.emit nextA ++ periods)
    else if nextB < nextA then
      let c' := c.addB b
      let (last, periods) := conjunctLoop timeA nextB (c'.advance nextB) (a :: as) bs
      (last, c'.emit nextB ++ periods)
    else
      let c' := (c.addA a).addB b
      let (last, periods) := conjunctLoop nextA nextA (c'.advance nextA) as bs
      (last, c'.emit nextA ++ periods)
termination_by as bs => as.length + bs.length

/-- The schedule that releases, at every time, what both of the schedules have released. -/
def conjunctPeriods (startA startB : Int) (periodsA periodsB : Periods) : Int × Int × Periods :=
  let start := min startA startB
  (start, conjunctLoop startA startB ⟨0, 0, 0, start⟩ periodsA periodsB)

def extendFirst (d : Int) : Periods → Periods
  | [] => []
  | period :: rest => { period with length := int64 (period.length + int64 d) } :: rest

/-- Both schedules, which the source changes in place, at the earlier start. -/
def alignSchedules (startA startB : Int) (periodsA periodsB : Periods) :
    Int × Int × Periods × Periods :=
  let start := min startA startB
  let alignedA := extendFirst (startA - start) periodsA
  let alignedB := extendFirst (startB - start) periodsB
  let endA := int64 (start + totalLength alignedA)
  let endB := int64 (start + totalLength alignedB)
  (start, max endA endB, alignedA, alignedB)

end Haqq.Vesting
