import Mathlib.Data.List.Basic

namespace BreadMind
namespace Text

/-!
# Counting, finding and slicing in a text

What `str.count`, `str.rfind` with an end and a slice up to an end compute.  An
end below zero is counted from the end of the text.
-/

/-- The occurrences which do not overlap; so many letters still belong to the last one. -/
def countFrom (needle : List Char) : Nat -> List Char -> Nat
  | _, [] => 0
  | skipped + 1, _ :: rest => countFrom needle skipped rest
  | 0, letter :: rest =>
    if needle.isPrefixOf (letter :: rest) then countFrom needle (needle.length - 1) rest + 1
    else countFrom needle 0 rest

def count (needle text : List Char) : Nat :=
  countFrom needle 0 text

variable (length : Nat)

def clampEnd (stop : Int) : Nat :=
  if stop < 0 then (length + stop).toNat else min length stop.toNat

def slice (text : List Char) (stop : Int) : List Char :=
  text.take (clampEnd text.length stop)

def rfind (needle text : List Char) (stop : Int) : Option Nat :=
  (List.range (clampEnd text.length stop + 1)).reverse.find? fun start =>
    decide (start + needle.length ≤ clampEnd text.length stop) &&
      needle.isPrefixOf (text.drop start)

variable {needle text : List Char} {stop : Int}

theorem clampEnd_le (stop : Int) : clampEnd length stop ≤ length := by
  unfold clampEnd
  split <;> omega

theorem clampEnd_le_stop (positive : 0 ≤ stop) : (clampEnd length stop : Int) ≤ stop := by
  unfold clampEnd
  rw [if_neg (Int.not_lt.mpr positive)]
  omega

theorem length_slice : (slice text stop).length = clampEnd text.length stop := by
  unfold slice
  rw [List.length_take]
  exact Nat.min_eq_left (clampEnd_le _ _)

theorem le_of_rfind {start : Nat} (found : rfind needle text stop = some start) :
    start + needle.length ≤ clampEnd text.length stop := by
  have here := List.find?_some found
  rw [Bool.and_eq_true, decide_eq_true_eq] at here
  exact here.1

theorem clampEnd_of_le {length place : Nat} (inside : place ≤ length) :
    clampEnd length place = place := by
  unfold clampEnd
  rw [if_neg (Int.not_lt.mpr (Int.natCast_nonneg _)), Int.toNat_natCast]
  exact Nat.min_eq_right inside

end Text
end BreadMind
