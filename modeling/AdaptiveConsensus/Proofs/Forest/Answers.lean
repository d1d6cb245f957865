import AdaptiveConsensus.Forest.Basic
import AdaptiveConsensus.Proofs.Experience.Training

/-!
# Forests answer

A tree only cuts columns that its training rows have. So a forest that was fitted to rows of a width
never asks a query of that width for a column it lacks, which is all that could go wrong.

- `Growth.within_tree`: the cuts of a grown tree stay within the columns.
- `Forest.answers`: a fitted forest gives one estimate for each row of a matrix.
- `Forest.fit_of_few`: fewer than eight rows can always be fitted; no range of their columns is long
  enough for the sort to run out of it.
-/

namespace AdaptiveConsensus.Forest

open AdaptiveConsensus.Random

/-! ## Columns -/

/-- Rows of one width are packed into as many columns, each with an entry for each row. -/
theorem Columns.ofRows_ok {rows : List Features} {width : Nat} (hrows : rows ≠ [])
    (hwidth : ∀ row ∈ rows, row.length = width) :
    ∃ m, Columns.ofRows rows = .ok m ∧ m.rows = rows.length ∧ m.columns.size = width ∧
      ∀ column ∈ m.columns, column.size = rows.length := by
  obtain ⟨first, rest, rfl⟩ := List.exists_cons_of_ne_nil hrows
  have hfirst := hwidth first (List.mem_cons_self ..)
  -- no row is shorter than the first
  have hshortest : ∀ (xs : List Features), (∀ row ∈ xs, row.length = width) →
      xs.foldl (fun n row => min n row.length) width = width := by
    intro xs hxs
    induction xs with
    | nil => rfl
    | cons x xs ih =>
      rw [List.foldl_cons, hxs x (List.mem_cons_self ..), Nat.min_self]
      exact ih fun row hrow => hxs row (List.mem_cons_of_mem _ hrow)
  rw [ofRows]
  dsimp only
  rw [hfirst, hshortest _ hwidth, if_neg (Nat.lt_irrefl width)]
  refine ⟨_, rfl, rfl, ?_, ?_⟩
  · rw [Array.size_map, Array.size_range]
  · intro column hcolumn
    obtain ⟨i, -, rfl⟩ := Array.mem_map.mp hcolumn
    rw [List.size_toArray, List.length_map, List.length_map]

/-! ## Cuts -/

/-- A cut, if there is one, is of one of the first columns. -/
def Within (width : Nat) (cut : Option Cut) : Prop :=
  ∀ c ∈ cut, c.column < width

theorem within_none (width : Nat) : Within width none := by
  intro c hc
  cases hc

theorem Sweep.within_step {width total column weight : Nat} {sum parent x target : Float} {s : Sweep}
    (hcolumn : column < width) (hs : Within width s.best) :
    Within width (s.step total sum parent column x weight target).best := by
  have hnew : ∀ threshold gain lower upper,
      Within width (some ⟨column, threshold, gain, lower, upper⟩) := by
    intro threshold gain lower upper c hc
    rw [← Option.some.inj hc]
    exact hcolumn
  unfold step
  dsimp only
  cases s.last with
  | none => exact hs
  | some last =>
    dsimp only
    split
    · exact hs
    · cases hbest : s.best with
      | none => exact hnew _ _ _ _
      | some b =>
        dsimp only
        split
        · exact hnew _ _ _ _
        · rwa [hbest] at hs

/-- A permutation of columns has no other columns. -/
theorem mem_shuffleFrom {γ α : Type} [Dice γ] {i : Nat} {xs : Array α} {g : γ} {x : α}
    (hx : x ∈ (shuffleFrom i xs g).1) : x ∈ xs := by
  induction i generalizing xs g with
  | zero => exact hx
  | succ i ih =>
    have hswap := ih hx
    rw [Array.swapIfInBounds] at hswap
    split at hswap
    · split at hswap
      · exact (Array.swap_perm _ _).mem_iff.mp hswap
      · exact hswap
    · exact hswap

namespace Growth

variable {g : Growth} {weights : Array Nat}

theorem within_sweepColumn {total column : Nat} {sum parent : Float} {best : Option Cut}
    (hcolumn : column < g.data.columns.size) (hbest : Within g.data.columns.size best) :
    Within g.data.columns.size (g.sweepColumn weights total sum parent best column) := by
  unfold sweepColumn
  dsimp only
  rw [← Array.foldl_toList]
  -- no row of the sweep leaves the columns
  generalize (g.orders.getD column #[]).toList = rows
  have hstart : Within g.data.columns.size (⟨0, 0.0, none, best⟩ : Sweep).best := hbest
  generalize (⟨0, 0.0, none, best⟩ : Sweep) = s at hstart
  induction rows generalizing s with
  | nil => exact hstart
  | cons row rest ih =>
    rw [List.foldl_cons]
    refine ih _ ?_
    split
    · exact hstart
    · exact Sweep.within_step hcolumn hstart

/-- The best cut of a node is of one of the columns. -/
theorem within_bestCut (weights : Array Nat) (output : Float) (rng : Xoshiro) :
    Within g.data.columns.size (g.bestCut weights output rng).1 := by
  have hsweep : ∀ (columns : List Nat) (best : Option Cut) (total : Nat) (sum parent : Float),
      (∀ column ∈ columns, column < g.data.columns.size) → Within g.data.columns.size best →
      Within g.data.columns.size (columns.foldl (g.sweepColumn weights total sum parent) best) := by
    intro columns best total sum parent hcolumns hbest
    induction columns generalizing best with
    | nil => exact hbest
    | cons column rest ih =>
      refine ih _ (fun c hc => hcolumns c (List.mem_cons_of_mem _ hc)) ?_
      exact within_sweepColumn (hcolumns column (List.mem_cons_self ..)) hbest
  unfold bestCut
  dsimp only
  split
  · exact within_none _
  · refine hsweep _ _ _ _ _ ?_ (within_none _)
    intro column hcolumn
    have hmem := List.mem_of_mem_take hcolumn
    -- drawn or not, the candidates are columns
    have hrange : column ∈ Array.range g.data.columns.size := by
      split at hmem
      · exact mem_shuffleFrom (Array.mem_toList_iff.mp hmem)
      · exact Array.mem_toList_iff.mp hmem
    exact Array.mem_range.mp hrange

/-- The cuts of the nodes of a tree are of the first columns. -/
def NodesWithin (width : Nat) (nodes : Array Node) : Prop :=
  ∀ node ∈ nodes, Within width node.cut

theorem NodesWithin.push {width : Nat} {nodes : Array Node} (h : NodesWithin width nodes)
    {node : Node} (hnode : Within width node.cut) : NodesWithin width (nodes.push node) := by
  intro n hn
  rcases Array.mem_push.mp hn with hn | rfl
  · exact h n hn
  · exact hnode

theorem NodesWithin.modify {width : Nat} {nodes : Array Node} (h : NodesWithin width nodes)
    (position : Nat) (children : Option (Nat × Nat)) :
    NodesWithin width (nodes.modify position fun n => { n with children := children }) := by
  intro n hn
  obtain ⟨i, hi, rfl⟩ := Array.mem_iff_getElem.mp hn
  rw [Array.size_modify] at hi
  rw [Array.getElem_modify]
  have hold := h nodes[i] (Array.getElem_mem hi)
  split <;> exact hold

theorem within_grow {limit rounds depth : Nat} {nodes : Array Node} {queue : List Waiting}
    {rng : Xoshiro} (hnodes : NodesWithin g.data.columns.size nodes) :
    NodesWithin g.data.columns.size (g.grow limit rounds nodes queue depth rng) := by
  induction rounds generalizing nodes queue depth rng with
  | zero => exact hnodes
  | succ rounds ih =>
    cases queue with
    | nil => exact hnodes
    | cons w queue =>
      unfold grow
      split
      · exact hnodes
      · dsimp only
        split
        · exact ih hnodes
        · -- both children are given the best cuts of their sides
          refine ih ?_
          refine NodesWithin.push (NodesWithin.push (hnodes.modify _ _) ?_) ?_
          · exact within_bestCut _ _ _
          · exact within_bestCut _ _ _

/-- The cuts of a grown tree stay within the columns. -/
theorem within_tree (limit : Nat) (weights : Array Nat) (seed : UInt64) :
    NodesWithin g.data.columns.size (g.tree limit weights seed).nodes := by
  refine within_grow ?_
  intro node hnode
  rw [List.mem_toArray, List.mem_singleton] at hnode
  rw [hnode]
  exact within_bestCut _ _ _

end Growth

/-! ## Estimates -/

/-- A tree that stays within the columns of the queries gives an estimate. -/
theorem Tree.descend_ok {t : Tree} {queries : Columns}
    (ht : Growth.NodesWithin queries.columns.size t.nodes) (row steps position : Nat) :
    ∃ estimate, t.descend queries row steps position = .ok estimate := by
  induction steps generalizing position with
  | zero => exact ⟨_, rfl⟩
  | succ steps ih =>
    rw [descend]
    cases hnode : t.nodes[position]? with
    | none => exact ⟨_, rfl⟩
    | some node =>
      dsimp only
      split
      · next cut lower upper hcut _ =>
        have hcolumn := ht node (Array.mem_of_getElem? hnode) cut hcut
        rw [if_pos hcolumn]
        exact ih _
      · exact ⟨_, rfl⟩

theorem estimate_ok {trees : List Tree} {queries : Columns}
    (htrees : ∀ t ∈ trees, Growth.NodesWithin queries.columns.size t.nodes) (row : Nat) :
    ∃ x, estimate trees queries row = .ok x := by
  have hsum : ∀ (s : Float), ∃ sum,
      trees.foldlM (fun s t => return s + (← t.predict queries row)) s =
        (.ok sum : Except LearnerError Float) := by
    induction trees with
    | nil => exact fun s => ⟨s, rfl⟩
    | cons t rest ih =>
      intro s
      obtain ⟨x, hx⟩ := Tree.descend_ok (htrees t (List.mem_cons_self ..)) row t.nodes.size 0
      obtain ⟨sum, hsum⟩ := ih (fun t ht => htrees t (List.mem_cons_of_mem _ ht)) (s + x)
      refine ⟨sum, ?_⟩
      rw [List.foldlM_cons, Tree.predict, hx]
      exact hsum
  obtain ⟨sum, hsum⟩ := hsum 0.0
  rw [estimate, hsum]
  exact ⟨_, rfl⟩

theorem mapM_ok {α β ε : Type} {f : α → Except ε β} (xs : List α)
    (h : ∀ x ∈ xs, ∃ y, f x = .ok y) : ∃ ys, xs.mapM f = .ok ys ∧ ys.length = xs.length := by
  induction xs with
  | nil => exact ⟨[], rfl, rfl⟩
  | cons x rest ih =>
    obtain ⟨y, hy⟩ := h x (List.mem_cons_self ..)
    obtain ⟨ys, hys, hlength⟩ := ih fun x hx => h x (List.mem_cons_of_mem _ hx)
    refine ⟨y :: ys, ?_, by rw [List.length_cons, List.length_cons, hlength]⟩
    rw [List.mapM_cons, hy, hys]
    rfl

/-! ## Fitted forests -/

theorem within_growTrees {g : Growth} {depth n : Nat} {hn : 0 < n} {seed : UInt64} {count : Nat}
    {rng : Xoshiro} {t : Tree} (ht : t ∈ growTrees g depth n hn seed count rng) :
    Growth.NodesWithin g.data.columns.size t.nodes := by
  induction count generalizing rng with
  | zero => cases ht
  | succ count ih =>
    rw [growTrees] at ht
    rcases List.mem_cons.mp ht with rfl | ht
    · exact Growth.within_tree _ _ _
    · exact ih ht

/-- The trees of a fitted forest stay within the columns of its rows. -/
theorem within_of_fit {size : ForestSize} {set : TrainingSet} {width : Nat} {seed : UInt64}
    {trees : List Tree} (hset : set.WellFormed width) (hfit : fit size set seed = .ok trees) :
    ∀ t ∈ trees, Growth.NodesWithin width t.nodes := by
  obtain ⟨data, hdata, -, hsize, -⟩ := Columns.ofRows_ok hset.1 hset.2.2
  rw [fit, hdata] at hfit
  change (if h : 0 < data.rows then _ else _) = _ at hfit
  split at hfit
  · split at hfit
    · intro t ht
      rw [← Except.ok.inj hfit] at ht
      cases ht
    · cases horders : data.columns.mapM ascending with
      | error e =>
        rw [horders] at hfit
        cases hfit
      | ok orders =>
        rw [horders] at hfit
        intro t ht
        rw [← Except.ok.inj hfit] at ht
        rw [← hsize]
        exact within_growTrees ht
  · cases hfit

/-- A fitted forest gives one estimate for each row of a matrix of its width. -/
theorem answers (size : ForestSize) : (learner size).Answers := by
  rintro width trees rows ⟨set, seed, hset, hfit⟩ hrows hwidth
  obtain ⟨queries, hqueries, hcount, hsize, -⟩ := Columns.ofRows_ok hrows hwidth
  have htrees := within_of_fit hset hfit
  rw [← hsize] at htrees
  obtain ⟨estimates, hestimates, hlength⟩ :=
    mapM_ok (List.range queries.rows) fun row _ => estimate_ok htrees row
  refine ⟨estimates, ?_, by rw [hlength, List.length_range, hcount]⟩
  show predict trees rows = _
  unfold predict
  rw [hqueries]
  exact hestimates

/-! ## Small training sets -/

/-- A single range of fewer than eight entries is sorted by insertion. -/
theorem Entries.sortRanges_of_few {low high : Nat} (hfew : high < low + 7) (steps : Nat)
    (a : Entries) : ∃ sorted, sortRanges (steps + 1) [(low, high)] a = .ok sorted := by
  rw [sortRanges, if_pos hfew]
  cases steps <;> exact ⟨_, rfl⟩

/-- A column of fewer than eight entries is sorted. -/
theorem ascending_of_few {column : Array Float} (hcolumn : column.size < 8) :
    ∃ order, ascending column = .ok order := by
  have hsize : (column.mapIdx fun row x => (x, row)).size = column.size := Array.size_mapIdx
  have hfew : (column.mapIdx fun row x => (x, row)).size - 1 < 0 + 7 := by
    rw [hsize]
    omega
  obtain ⟨sorted, hsorted⟩ := Entries.sortRanges_of_few hfew
    (4 * (column.mapIdx fun row x => (x, row)).size) (column.mapIdx fun row x => (x, row))
  unfold ascending
  dsimp only
  rw [hsorted]
  exact ⟨_, rfl⟩

/-- Fewer than eight rows can always be fitted. -/
theorem fit_of_few {size : ForestSize} {set : TrainingSet} {width : Nat}
    (hset : set.WellFormed width) (hfew : set.x.length < 8) (seed : UInt64) :
    ∃ trees, fit size set seed = .ok trees := by
  obtain ⟨data, hdata, hrows, -, hcolumns⟩ := Columns.ofRows_ok hset.1 hset.2.2
  have hpos : 0 < data.rows := by
    rw [hrows]
    exact List.length_pos_iff.mpr hset.1
  obtain ⟨orders, horders, -⟩ := mapM_ok (f := ascending) data.columns.toList
    fun column hcolumn => ascending_of_few
      (by rw [hcolumns column (Array.mem_toList_iff.mp hcolumn)]; exact hfew)
  unfold fit
  rw [hdata]
  show ∃ trees, (if h : 0 < data.rows then _ else _) = Except.ok trees
  rw [dif_pos hpos, Array.mapM_eq_mapM_toList, horders]
  split <;> exact ⟨_, rfl⟩

/-- A forest can be fitted to sets of fewer than eight rows. -/
theorem fits_of_few (size : ForestSize) {sets : List TrainingSet}
    (hfew : ∀ set ∈ sets, set.x.length < 8) : (learner size).Fits sets :=
  fun set hset _ seed hwidth => fit_of_few hwidth (hfew set hset) seed

end AdaptiveConsensus.Forest
