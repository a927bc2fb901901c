import RecordSheet.Binary64.Basic
import RecordSheet.Text.Basic

namespace RecordSheet.Similarity

def findFree (c : Char) (low high index : Nat) : Text → List Bool → Option Nat
  | d :: ds, taken :: rest =>
    if low ≤ index ∧ index < high ∧ !taken ∧ c = d then some index
    else findFree c low high (index + 1) ds rest
  | _, _ => none

/--
The characters of a text that match one of another, each a different one not farther away than
`range`; and which characters of the other are taken.
-/
def matchFrom (range : Nat) (b : Text) (index : Nat) (taken : List Bool) : Text → Text × List Bool
  | [] => ([], taken)
  | c :: a =>
    match findFree c (index - range) (min b.length (index + range + 1)) 0 b taken with
    | some i =>
      let (found, taken) := matchFrom range b (index + 1) (taken.set i true) a
      (c :: found, taken)
    | none => matchFrom range b (index + 1) taken a

def differences (a b : Text) : Nat :=
  (a.zip b).countP fun p => p.1 ≠ p.2

/--
The similarity of two texts after Jaro, as a magnitude between zero and one: the share of matching
characters in both, and of those among the matching that stand in the same order, rounded at each step.
-/
def jaro (a b : Text) : Nat :=
  let range := max a.length b.length / 2 - 1
  let (inA, taken) := matchFrom range b 0 (b.map fun _ => false) a
  let inB := ((b.zip taken).filter fun p => p.2).map Prod.fst
  let m := inA.length
  let swaps := differences inA inB / 2
  if a.isEmpty && b.isEmpty then Binary64.ofNat 1
  else if m = 0 then 0
  else
    let part (num den : Nat) := Binary64.div (Binary64.ofNat num) (Binary64.ofNat den)
    Binary64.div
      (Binary64.add (Binary64.add (part m a.length) (part m b.length)) (part (m - swaps) m))
      (Binary64.ofNat 3)

/-- The most similar of some texts, if any is similar enough; of equally similar ones the last. -/
def best? (t : Text) (candidates : List Text) : Option Text :=
  let least := Binary64.ofRatio 7 10
  let better (found : Option (Nat × Text)) (candidate : Text) : Option (Nat × Text) :=
    let s := jaro t candidate
    if s ≤ least then found
    else if found.any fun f => s < f.1 then found
    else some (s, candidate)
  (candidates.foldl better none).map Prod.snd

end RecordSheet.Similarity
