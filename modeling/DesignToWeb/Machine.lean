import DesignToWeb.Binary64.Basic
import DesignToWeb.Service.Files

/-!
# Machines

What the service runs on: a clock, which counts how long it waits, and files, which
it may not be able to change.  A change that is refused may have been made in part.
A machine without any limits waits for ever and writes every file.
-/

namespace DesignToWeb

open Service (Path)

structure Machine where
  /-- The nanoseconds at which the count of a wait ends, if it does. -/
  clockEnd? : Option Binary64 := none
  /-- Why a directory cannot be emptied, and which of its files stay. -/
  emptying? : Path → Option (String × (Path → Bool)) := fun _ ↦ none
  /-- Why what stands at a path cannot be removed. -/
  removing? : Path → Option String := fun _ ↦ none
  /-- Why a file cannot be opened to be written. -/
  opening? : Path → Option String := fun _ ↦ none
  /-- Why a text cannot be written to its end, and how many of its characters are.  So it is with a
  text that held half of a pair of surrogates, before reading replaced it. -/
  writing? : Path → String → Option (String × Nat) := fun _ _ ↦ none
  /-- Why an archive cannot be completed, and how many files have come into it. -/
  archiving? : Path → Option (String × Nat) := fun _ ↦ none

namespace Machine

/-- A machine whose clock counts in signed words of 64 bits. -/
def wordClock : Machine where
  clockEnd? := some 9223372036854775808

/-- A machine that writes no text with what stands in the place of half of a pair of surrogates. -/
def strictWriter : Machine where
  writing? _ text :=
    if text.toList.contains '\uFFFD' then some ("surrogates not allowed", 0) else none

/-- Whether the clock can count some seconds, from which it makes nanoseconds. -/
def counts (machine : Machine) (seconds : Binary64) : Bool :=
  match machine.clockEnd? with
  | none => true
  | some limit =>
    let nanoseconds := seconds * 1000000000
    !nanoseconds.lt (-limit) && nanoseconds.lt limit

example : wordClock.counts 9223372036 = true ∧ wordClock.counts 9223372037 = false := by
  decide +kernel

end Machine
end DesignToWeb
