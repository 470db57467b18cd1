import ReaderWriter.Workload.Worker

/-!
# Chance

Everything about a run that chance decides, and a way to make it from one seed.
-/

namespace ReaderWriter.Workload

structure Chance where
  /-- The pairs of workers that swap their roles, in order. -/
  swaps : List (Nat × Nat) := []
  draws : Draws := fun _ => some 0
  /-- The numbers by which the choices between ready workers are made. -/
  picks : List Nat := []
  preempt : Bool := false

/-- The word with a number in the sequence of a seed. -/
def mixedWord (seed number : UInt64) : UInt64 :=
  let z := seed + (number + 1) * 0x9e3779b97f4a7c15
  let z := (z ^^^ (z >>> 30)) * 0xbf58476d1ce4e5b9
  let z := (z ^^^ (z >>> 27)) * 0x94d049bb133111eb
  z ^^^ (z >>> 31)

namespace Chance

/-- Shuffles the roles of the workers, from the last one on swapping each with one up to it, and
draws the naps, all by the words of a seed.  A workload that is refused leaves nothing to chance. -/
def ofSeed (seed : UInt64) (c : Config) : Chance :=
  if c.fault?.isSome then {}
  else
    { swaps := (List.range c.threads).reverse.map fun i =>
        (i, (mixedWord seed i.toUInt64).toNat % (i + 1))
      draws := fun n => some (mixedWord seed (c.threads + n).toUInt64).toNat }

end Chance

end ReaderWriter.Workload
