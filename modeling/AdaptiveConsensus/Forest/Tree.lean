import AdaptiveConsensus.Forest.Columns
import AdaptiveConsensus.Random.Xoshiro

/-!
# Regression trees

A tree of a forest (rl/bucket.rs:66-70) is grown on weighted rows, breadth first. A node is cut at the
threshold that lowers the squared error most, over some columns drawn anew for each node; rows at most
as large as the threshold go to its lower side. Growth ends when a node of the greatest depth has been
made, even if nodes of the depth above it still wait.
-/

namespace AdaptiveConsensus.Forest

open AdaptiveConsensus.Random

/-- A cut of a node: the column and the threshold, what it gains, and the mean target on either
side. -/
structure Cut where
  column : Nat
  threshold : Float
  gain : Float
  lower : Float
  upper : Float

/-- A node of a tree. A node whose cut was carried out has two children. -/
structure Node where
  output : Float
  cut : Option Cut
  children : Option (Nat × Nat)

/-- A grown tree; its root comes first. -/
structure Tree where
  nodes : Array Node

/-- What a tree is grown from: the columns, the order of the rows in each of them, the targets, and
how many columns a node may look at. -/
structure Growth where
  data : Columns
  orders : Array (Array Nat)
  targets : Array Float
  candidates : Nat

/-- The greatest whole number whose square is at most `n`. -/
def squareRoot (n : Nat) : Nat :=
  ((List.range (n + 1)).filter fun k => k * k ≤ n).length - 1

/-- What has been passed of a column on the way upwards: rows and targets by weight, the entry
passed last, and the best cut so far. -/
structure Sweep where
  count : Nat
  sum : Float
  last : Option Float
  best : Option Cut

/-- One row of the upward sweep over a column, for a node of `total` rows with the sum `sum` of
targets. Between two different entries lies a cut; it is kept if it gains more than the best. -/
def Sweep.step (total : Nat) (sum parent : Float) (column : Nat) (s : Sweep) (x : Float)
    (weight : Nat) (target : Float) : Sweep :=
  let best :=
    match s.last with
    | none => s.best
    | some last =>
      -- equal entries go to the same side, and neither side may be empty
      if x == last || s.count < 1 || total - s.count < 1 then s.best
      else
        let below := Float.ofNat s.count
        let above := Float.ofNat (total - s.count)
        let lower := s.sum / below
        let upper := (sum - s.sum) / above
        let gain := (below * lower * lower + above * upper * upper) - parent
        let cut : Cut := ⟨column, (x + last) / 2.0, gain, lower, upper⟩
        match s.best with
        | none => some cut
        | some b => if b.gain < gain then some cut else some b
  { count := s.count + weight
    sum := s.sum + Float.ofNat weight * target
    last := some x
    best := best }

namespace Growth

variable (g : Growth)

/-- The best cut over a column and the best one before it. -/
def sweepColumn (weights : Array Nat) (total : Nat) (sum parent : Float) (best : Option Cut)
    (column : Nat) : Option Cut :=
  let entries := g.data.columns.getD column #[]
  let order := g.orders.getD column #[]
  let start : Sweep := ⟨0, 0.0, none, best⟩
  (order.foldl
    (fun s row =>
      let weight := weights.getD row 0
      if weight = 0 then s
      else s.step total sum parent column (entries.getD row 0.0) weight (g.targets.getD row 0.0))
    start).best

/-- The best cut of a node with these weights and this mean target. A node of fewer than two rows
has none, and draws no columns. -/
def bestCut (weights : Array Nat) (output : Float) (rng : Xoshiro) : Option Cut × Xoshiro :=
  let total := weights.foldl (· + ·) 0
  if total < 2 then (none, rng)
  else
    let sum := output * Float.ofNat total
    let parent := Float.ofNat total * output * output
    let all := Array.range g.data.columns.size
    -- nothing is drawn where every column is a candidate
    let (columns, rng) := if g.candidates < all.size then shuffle all rng else (all, rng)
    let best := (columns.toList.take g.candidates).foldl (g.sweepColumn weights total sum parent) none
    (best, rng)

/-- The weights on the lower side of a cut and on its upper side. An entry that is no number goes
to the upper side. -/
def divide (weights : Array Nat) (cut : Cut) : Array Nat × Array Nat :=
  let entries := g.data.columns.getD cut.column #[]
  let below (row : Nat) : Bool := entries.getD row 0.0 ≤ cut.threshold
  (weights.mapIdx fun row w => if below row then w else 0,
    weights.mapIdx fun row w => if below row then 0 else w)

/-- A node that waits to be cut: its position, its weights, its depth and its cut. -/
structure Waiting where
  position : Nat
  weights : Array Nat
  level : Nat
  cut : Cut

/-- Carries out the cuts of waiting nodes in turn until none waits or the depth is reached. A cut
with an empty side is not carried out. Every round makes two nodes or finishes one, so that `rounds`
need not exceed twice the number of rows. -/
def grow (limit : Nat) : Nat → Array Node → List Waiting → Nat → Xoshiro → Array Node
  | 0, nodes, _, _, _ => nodes
  | _, nodes, [], _, _ => nodes
  | rounds + 1, nodes, w :: queue, depth, rng =>
    if limit ≤ depth then nodes
    else
      let (below, above) := g.divide w.weights w.cut
      if below.all (· == 0) || above.all (· == 0) then grow limit rounds nodes queue depth rng
      else
        let lower := nodes.size
        let upper := nodes.size + 1
        -- the lower child draws before the upper one
        let (lowerCut, rng) := g.bestCut below w.cut.lower rng
        let (upperCut, rng) := g.bestCut above w.cut.upper rng
        let nodes := nodes.modify w.position fun n => { n with children := some (lower, upper) }
        let nodes := nodes.push ⟨w.cut.lower, lowerCut, none⟩
        let nodes := nodes.push ⟨w.cut.upper, upperCut, none⟩
        let level := w.level + 1
        let waiting (position : Nat) (weights : Array Nat) (cut : Option Cut) : List Waiting :=
          cut.toList.map fun c => ⟨position, weights, level, c⟩
        grow limit rounds nodes (queue ++ waiting lower below lowerCut ++ waiting upper above upperCut)
          (max depth level) rng

/-- The tree on weighted rows, of the given depth at most, drawing from a seed. -/
def tree (limit : Nat) (weights : Array Nat) (seed : UInt64) : Tree :=
  let total := weights.foldl (· + ·) 0
  let sum := (Array.range weights.size).foldl
    (fun s row => s + Float.ofNat (weights.getD row 0) * g.targets.getD row 0.0) 0.0
  let output := sum / Float.ofNat total
  let (cut, rng) := g.bestCut weights output (Xoshiro.ofSeed seed)
  let root : Node := ⟨output, cut, none⟩
  let queue := cut.toList.map fun c => ⟨0, weights, 1, c⟩
  ⟨g.grow limit (2 * weights.size + 1) #[root] queue 0 rng⟩

end Growth

namespace Tree

/-- Follows the cuts from a node to a leaf. A child stands after its parent, so that no more steps
are needed than there are nodes. -/
def descend (t : Tree) (queries : Columns) (row : Nat) : Nat → Nat → Except LearnerError Float
  | 0, _ => .ok 0.0
  | steps + 1, position =>
    match t.nodes[position]? with
    | none => .ok 0.0
    | some node =>
      match node.cut, node.children with
      | some cut, some (lower, upper) =>
        if cut.column < queries.columns.size then
          descend t queries row steps
            (if queries.entry row cut.column ≤ cut.threshold then lower else upper)
        else .error (.noColumn row cut.column queries.rows queries.columns.size)
      | _, _ => .ok node.output

/-- The tree's estimate for a row of queries. -/
def predict (t : Tree) (queries : Columns) (row : Nat) : Except LearnerError Float :=
  t.descend queries row t.nodes.size 0

end Tree

end AdaptiveConsensus.Forest
