/-!
# How deep a pattern is nested

A pattern is a tree.  A character, a place between characters or a change of flags is a leaf; a
group, brackets and a repetition hold one thing each, and a sequence, a choice or an operation
between sets holds several.  What holds others is one level deeper than the deepest of them.  One
thing alone makes no sequence and no choice.

A pattern is read from left to right, so only depths are kept: those of the things read so far at
every level that is still open.
-/

namespace ReaderWriter.Log.Pattern

/-- The depths of things that stand side by side. -/
structure Row where
  count : Nat := 0
  last : Nat := 0
  /-- The greatest depth of the others. -/
  others : Nat := 0
  deriving DecidableEq, Repr

namespace Row

def push (r : Row) (depth : Nat) : Row :=
  { count := r.count + 1, last := depth, others := max r.others r.last }

def repeatLast (r : Row) : Row := { r with last := r.last + 1 }

def depth (r : Row) : Nat :=
  if r.count ≤ 1 then r.last else max r.others r.last + 1

def ofList (depths : List Nat) : Row := depths.foldl push {}

@[simp] theorem depth_ofList_singleton (n : Nat) : (ofList [n]).depth = n := rfl

theorem max_push (r : Row) (n : Nat) :
    max (r.push n).others (r.push n).last = max (max r.others r.last) n := rfl

theorem count_ofList_from (r : Row) (depths : List Nat) :
    (depths.foldl push r).count = r.count + depths.length := by
  induction depths generalizing r with
  | nil => rfl
  | cons n rest ih =>
    rw [List.foldl_cons, ih, List.length_cons]
    simp only [push]
    omega

/-- Several things are one level deeper than each of them. -/
theorem lt_depth_ofList {depths : List Nat} (h : 2 ≤ depths.length) {n : Nat} (hn : n ∈ depths) :
    n < (ofList depths).depth := by
  have hcount : ¬ (ofList depths).count ≤ 1 := by
    rw [ofList, count_ofList_from]
    simp only
    omega
  have bound : ∀ (r : Row) (ds : List Nat),
      max r.others r.last ≤ max (ds.foldl push r).others (ds.foldl push r).last ∧
        ∀ d ∈ ds, d ≤ max (ds.foldl push r).others (ds.foldl push r).last := by
    intro r ds
    induction ds generalizing r with
    | nil => exact ⟨Nat.le_refl _, by simp⟩
    | cons d rest ih =>
      obtain ⟨hr, hall⟩ := ih (r.push d)
      rw [max_push] at hr
      rw [List.foldl_cons]
      refine ⟨by omega, fun e he => ?_⟩
      rcases List.mem_cons.1 he with rfl | he
      · omega
      · exact hall e he
  rw [depth, if_neg hcount]
  exact Nat.lt_succ_of_le ((bound {} depths).2 n hn)

end Row

/-- A pair of brackets, as far as it was read. -/
structure Members where
  /-- The depth of what stands before the last operator. -/
  left : Option Nat := none
  /-- The members behind it. -/
  row : Row := {}
  deriving DecidableEq, Repr

namespace Members

def push (b : Members) (depth : Nat) : Members := { b with row := b.row.push depth }

def depth (b : Members) : Nat :=
  match b.left with
  | none => b.row.depth
  | some left => max left b.row.depth + 1

def operate (b : Members) : Members := { left := some b.depth }

end Members

/-- A group, as far as it was read. -/
structure Body where
  /-- The alternatives before the last bar. -/
  choices : Row := {}
  /-- The sequence behind it. -/
  row : Row := {}
  deriving DecidableEq, Repr

namespace Body

def push (b : Body) (depth : Nat) : Body := { b with row := b.row.push depth }

def repeatLast (b : Body) : Body := { b with row := b.row.repeatLast }

def choose (b : Body) : Body := { choices := b.choices.push b.row.depth }

def depth (b : Body) : Nat := (b.choices.push b.row.depth).depth

end Body

def maxDepth : Nat := 250

end ReaderWriter.Log.Pattern
