/-! Sorting with a comparison that may fail.

Items need not be comparable, and then the first pair that is compared in vain is
reported. So the comparisons and their order are fixed. The items are taken in runs that
rise or fall by themselves (`nextRun`); short runs are filled up by insertion. Runs are
merged in pairs. Which pairs is decided by where the middles of two neighbours lie: the
fewer halvings of the whole tell them apart, the later they are merged (`power`). A merge
starts at the end where the shorter run lies (`mergeRuns`). It takes single items until
one run has won several times in a row and then goes through the other one by leaps
(`gallop`). -/
namespace MigrationSetup.Sorting
variable {α ε : Type}

/-! ### Places in sorted items -/

/-- The first place from `low` on and below `high` for which a test fails, by halving. -/
def halve (test : Nat → Except ε Bool) (low high : Nat) : Except ε Nat :=
  if low < high then do
    let middle := low + (high - low) / 2
    if ← test middle then halve test (middle + 1) high else halve test low middle
  else .ok low
termination_by high - low

/-- Leaps further and further while a test holds. Gives the last distance at which it
held, and the first at which it is not known to hold. -/
def leap (test : Nat → Except ε Bool) (limit last distance : Nat) : Except ε (Nat × Nat) :=
  if distance < limit then do
    if ← test distance then leap test limit distance (2 * distance + 1)
    else return (last, distance)
  else .ok (last, limit)
termination_by limit - distance

/-- The first of `size` places for which a test fails, by leaps from `hint`. -/
def boundary (test : Nat → Except ε Bool) (size hint : Nat) : Except ε Nat := do
  if ← test hint then
    let (last, distance) ← leap (fun d => test (hint + d)) (size - hint) 0 1
    halve test (hint + last + 1) (hint + distance)
  else
    let (last, distance) ← leap (fun d => do return !(← test (hint - d))) (hint + 1) 0 1
    halve test (hint + 1 - distance) (hint - last)

/-- How many items at the front belong before a place: in their order those for which
`test` holds, or else, where the items come last one first, those for which it does not. -/
def gallop (isBackward : Bool) (test : α → Except ε Bool) (items : List α) : Except ε Nat := do
  let size := items.length
  let ordered := (if isBackward then items.reverse else items).toArray
  let testAt (i : Nat) : Except ε Bool :=
    match ordered[i]? with
    | some x => test x
    | none => .ok false
  let i ← boundary testAt size (if isBackward then size - 1 else 0)
  return if isBackward then size - i else i

/-! ### Merging two runs -/

/-- How a merge takes items: one at a time, with the lengths of the latest rows of items
from either run, or by leaps. -/
inductive Pace
  | single (left right : Nat)
  | leaps

/-- From how many items on it pays to leap. -/
def leapSize : Nat := 7

/-- Whether only one run is left, but for one item of the shorter run. -/
def isDone (isBackward : Bool) (left right : List α) : Bool :=
  if isBackward then left.isEmpty || right.length ≤ 1 else right.isEmpty || left.length ≤ 1

/-- What is left of two runs once a merge is done. -/
def remainder (isBackward : Bool) (left right : List α) : List α :=
  if isBackward then left ++ right else right ++ left

/-- Merges two runs, both last one first if `isBackward`. `patience` says how often in a
row a run has to win before the merge leaps; leaps that pay make it smaller. Each step
takes an item and uses up one unit of fuel. -/
def mergeInto (before : α → α → Except ε Bool) (isBackward : Bool) :
    Nat → Nat → Pace → List α → List α → Except ε (List α × Nat)
  | 0, patience, _, left, right => .ok (remainder isBackward left right, patience)
  | fuel + 1, patience, pace, left, right => do
    let take (taken : List α) (merged : Except ε (List α × Nat)) : Except ε (List α × Nat) := do
      let (rest, patience) ← merged
      return (taken ++ rest, patience)
    match isDone isBackward left right, left, right, pace with
    | false, a :: left', b :: right', .single wonLeft wonRight =>
      if (← before b a) != isBackward then
        if patience ≤ wonRight + 1 then
          take [b] (mergeInto before isBackward fuel patience .leaps left right')
        else
          take [b]
            (mergeInto before isBackward fuel patience (.single 0 (wonRight + 1)) left right')
      else if patience ≤ wonLeft + 1 then
        take [a] (mergeInto before isBackward fuel patience .leaps left' right)
      else
        take [a] (mergeInto before isBackward fuel patience (.single (wonLeft + 1) 0) left' right)
    | false, left, b :: right', .leaps =>
      let n ← gallop isBackward (fun x => do return !(← before b x)) left
      let (taken, left) := (left.take n, left.drop n)
      if isDone isBackward left right then
        return (taken ++ remainder isBackward left right, patience)
      let taken := taken ++ [b]
      match isDone isBackward left right', left with
      | false, a :: left' =>
        let m ← gallop isBackward (fun x => before x a) right'
        let (taken, right) := (taken ++ right'.take m, right'.drop m)
        if isDone isBackward left right then
          return (taken ++ remainder isBackward left right, patience)
        let taken := taken ++ [a]
        if isDone isBackward left' right then
          return (taken ++ remainder isBackward left' right, patience)
        if leapSize ≤ n ∨ leapSize ≤ m then
          take taken (mergeInto before isBackward fuel (max 1 (patience - 1)) .leaps left' right)
        else
          take taken (mergeInto before isBackward fuel (patience + 1) (.single 0 0) left' right)
      | _, left => return (taken ++ remainder isBackward left right', patience)
    | _, left, right, _ => return (remainder isBackward left right, patience)

/-- Merges two runs that follow each other. Items at the front of the first and at the
end of the second that stay where they are take no part. -/
def mergeRuns (before : α → α → Except ε Bool) (patience : Nat) (left right : List α) :
    Except ε (List α × Nat) := do
  match right with
  | [] => return (left, patience)
  | b :: _ =>
    let n ← gallop false (fun x => do return !(← before b x)) left
    let (front, left) := (left.take n, left.drop n)
    match left.getLast? with
    | none => return (front ++ right, patience)
    | some a =>
      let m ← boundary (fun i => (right[i]?).elim (.ok false) (before · a)) right.length
        (right.length - 1)
      let (right, behind) := (right.take m, right.drop m)
      let fuel := left.length + right.length
      match decide (left.length ≤ right.length), left.reverse, right with
      | true, _, b :: right =>
        let (merged, patience) ← mergeInto before false fuel patience (.single 0 0) left right
        return (front ++ b :: merged ++ behind, patience)
      | false, a :: left, b :: right =>
        let (merged, patience) ←
          mergeInto before true fuel patience (.single 0 0) left (b :: right).reverse
        return (front ++ (a :: merged).reverse ++ behind, patience)
      | _, _, _ => return (front ++ left ++ right ++ behind, patience)

/-! ### Runs -/

/-- How many of the items behind `last` go on in one direction, falling or else not. -/
def runLength (before : α → α → Except ε Bool) (isFalling : Bool) (last : α) :
    List α → Except ε Nat
  | [] => .ok 0
  | x :: xs => do
    if (← before x last) == isFalling then return 1 + (← runLength before isFalling x xs)
    else return 0

/-- Inserts items one by one into sorted ones, each behind those that it is not before. -/
def insertAll (before : α → α → Except ε Bool) (sorted : List α) : List α → Except ε (List α)
  | [] => .ok sorted
  | x :: xs => do
    let known := sorted.toArray
    let test (i : Nat) : Except ε Bool :=
      match known[i]? with
      | some y => do return !(← before x y)
      | none => .ok false
    let i ← halve test 0 known.size
    insertAll before (sorted.take i ++ x :: sorted.drop i) xs

/-- The run at the front, turned round if it falls and filled up to `least` items, and
what is behind it. -/
def nextRun (before : α → α → Except ε Bool) (least : Nat) :
    List α → Except ε (List α × List α)
  | [] => .ok ([], [])
  | [x] => .ok ([x], [])
  | x :: y :: rest => do
    let isFalling ← before y x
    let n := 2 + (← runLength before isFalling y rest)
    let (run, behind) := ((x :: y :: rest).take n, (x :: y :: rest).drop n)
    let run := if isFalling then run.reverse else run
    let more := least - n
    return (← insertAll before run (behind.take more), behind.drop more)

/-- The least length of runs: the leading six bits of the count of all items, rounded up. -/
def leastRun (count : Nat) : Nat :=
  if count < 64 then count
  else
    let part := Nat.pow 2 (count.log2 - 5)
    count / part + if count % part = 0 then 0 else 1

/-- How many halvings of the whole tell two places apart, given in halves of `1 / size`. -/
def powerOf (size : Nat) : Nat → Nat → Nat → Nat
  | 0, _, _ => 0
  | fuel + 1, a, b =>
    if size ≤ a then 1 + powerOf size fuel (2 * (a - size)) (2 * (b - size))
    else if size ≤ b then 1
    else 1 + powerOf size fuel (2 * a) (2 * b)

/-- The power of a run that begins at `start` and has `n` items, before one of `m` items. -/
def power (size start n m : Nat) : Nat :=
  powerOf size (size + 1) (2 * start + n) (2 * start + 2 * n + m)

/-- A run that waits to be merged. -/
structure Run (α : Type) where
  start : Nat
  items : List α
  /-- How it stands to the run behind it. -/
  power : Nat

/-- Merges the latest runs while the one before them has a greater power. The latest run
is the first one in the list. -/
def collapse (before : α → α → Except ε Bool) (power : Nat) :
    Nat → Nat → List (Run α) → Except ε (List (Run α) × Nat)
  | fuel + 1, patience, y :: x :: rest => do
    if power < x.power then
      let (items, patience) ← mergeRuns before patience x.items y.items
      collapse before power fuel patience ({ x with items } :: rest)
    else return (y :: x :: rest, patience)
  | _, patience, runs => .ok (runs, patience)

/-- Merges all runs: the latest two, or the two before the latest if their first one is
shorter than it. -/
def collapseAll (before : α → α → Except ε Bool) :
    Nat → Nat → List (Run α) → Except ε (List α)
  | fuel + 1, patience, z :: y :: rest => do
    match rest with
    | x :: rest' =>
      if x.items.length < z.items.length then
        let (items, patience) ← mergeRuns before patience x.items y.items
        collapseAll before fuel patience (z :: { x with items } :: rest')
      else
        let (items, patience) ← mergeRuns before patience y.items z.items
        collapseAll before fuel patience ({ y with items } :: rest)
    | [] =>
      let (items, patience) ← mergeRuns before patience y.items z.items
      collapseAll before fuel patience [{ y with items }]
  | _, _, runs => .ok (runs.reverse.flatMap Run.items)

/-- Takes all runs and merges them as their powers say. -/
def collect (before : α → α → Except ε Bool) (size : Nat) :
    Nat → Nat → List (Run α) → List α → Except ε (List α)
  | 0, patience, runs, _ => collapseAll before runs.length patience runs
  | fuel + 1, patience, runs, rest => do
    let (items, behind) ← nextRun before (leastRun size) rest
    let (runs, patience) ← match runs with
      | [] => pure ([], patience)
      | x :: _ => do
        let p := power size x.start x.items.length items.length
        match ← collapse before p runs.length patience runs with
        | (x :: below, patience) => pure ({ x with power := p } :: below, patience)
        | found => pure found
    let runs := ⟨size - rest.length, items, 0⟩ :: runs
    if behind.isEmpty then collapseAll before runs.length patience runs
    else collect before size fuel patience runs behind

/-- Sorts items. -/
def sort (before : α → α → Except ε Bool) (items : List α) : Except ε (List α) :=
  if items.length < 2 then .ok items
  else collect before items.length items.length leapSize [] items

end MigrationSetup.Sorting
