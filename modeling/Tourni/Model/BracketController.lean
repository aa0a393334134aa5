import Tourni.Model.Backend
import Tourni.Model.Tournament
import Tourni.Model.Store

/-!
# The bracket screen

`BracketController.swift`: what a snapshot of the stored tournament does to the bracket, and what the host
does to the tournament. `none` is a trap: an index out of range or a nil that is unwrapped.
-/

namespace Tourni

/-- A table view, known by the order of its creation. -/
structure UITableView where
  id : Nat
  deriving DecidableEq, Repr

def ofRound? {α : Type*} (xs : List α) : Nat → Option α
  | 0 => none
  | round + 1 => xs[round]?

theorem ofRound?_eq_some {α : Type*} {xs : List α} {round : Nat} {x : α}
    (h : ofRound? xs round = some x) : 0 < round ∧ xs[round - 1]? = some x := by
  cases round with
  | zero => cases h
  | succ round => exact ⟨by omega, h⟩

theorem ofRound?_of_pos {α : Type*} {xs : List α} {round : Nat} (h : 0 < round) :
    ofRound? xs round = xs[round - 1]? := by
  cases round with
  | zero => omega
  | succ round => rfl

/-- `roundMatches` is the source's `matches`, a keyword of Lean. -/
structure BracketController where
  tournament : Tournament := {}
  gameCode : String := ""
  groups : Int := 0
  rounds : Nat := 0
  roundMatches : List Nat := []
  winnerSelectedCount : Int := 0
  currRound : Nat := 0
  currentGroups : List Group := []
  host : Bool := false
  initialized : Bool := false
  bracketViewDict : UITableView → Option Nat := fun _ => none
  bracketViewArr : List UITableView := []
  bracketViewGroupDict : UITableView → Option (List Group) := fun _ => none

namespace Tournament

/-- What `updateWinner` does to the tournament. -/
def updateWinner (t : Tournament) (winner loser : Group) (round : Nat) : Tournament :=
  let t := { t with roundList := t.roundList.modify (round - 1) (·.map (Group.mark winner loser)) }
  (t.makeLoser loser).makeWinner winner

/-- What `nextRound` does to the tournament before storing it. -/
def nextRound (t : Tournament) : Tournament := { t with roundList := t.roundList ++ [t.winners] }

end Tournament

namespace BracketController

/-- One turn of the loop of `make_roundsHost`: the table of round `i + 1`. -/
def makeRound (c : BracketController) (i : Nat) : Option BracketController := do
  let bracket : UITableView := ⟨c.bracketViewArr.length⟩
  let rows ← c.roundMatches[i]?
  let shown ← c.tournament.roundList[i]?
  some { c with
    bracketViewDict := Function.update c.bracketViewDict bracket (some rows)
    bracketViewGroupDict := Function.update c.bracketViewGroupDict bracket (some shown)
    bracketViewArr := c.bracketViewArr ++ [bracket] }

/-- The first index of `matches` that is half the number of current groups. -/
def lookupRound (c : BracketController) : Option Nat :=
  c.roundMatches.findIdx? fun m => c.currentGroups.length / 2 == m

def makeRoundsHost (c : BracketController) : Option BracketController :=
  let single := c.currentGroups.length == 1
  let currRound := match c.lookupRound with
    | some i => i + 1
    | none => if single then c.rounds else c.currRound
  let nextRound := (single || c.lookupRound.isSome) && !(c.initialized && single)
  -- A found round is at least one, so the subtraction is exact wherever the loop runs.
  let startBracketAt := if c.initialized then currRound - 1 else 0
  if nextRound then
    (List.range' startBracketAt (currRound - startBracketAt)).foldlM makeRound { c with currRound }
  else some { c with currRound }

/-- One turn of the last loop of the snapshot closure. -/
def showRound (c : BracketController) (i : Nat) : Option BracketController := do
  let table ← c.bracketViewArr[i]?
  let shown ← c.tournament.roundList[i]?
  some { c with bracketViewGroupDict := Function.update c.bracketViewGroupDict table (some shown) }

/-- The assignments at the top of the snapshot closure. -/
def receive (c : BracketController) (t : Tournament) : BracketController :=
  { c with
    tournament := t
    groups := t.getNumGroups
    rounds := generateRounds t.getNumGroups
    roundMatches := generateMatches (generateRounds t.getNumGroups)
    currentGroups := t.winners }

/-- The snapshot closure of `viewDidLoad`, given the tournament `getTournament` completes with. -/
def snapshot (c : BracketController) (t : Tournament) : Option BracketController := do
  let c ← (c.receive t).makeRoundsHost
  if c.initialized then
    let currRound := match c.lookupRound with
      | some i => i + 1
      | none => c.currRound
    (List.range currRound).foldlM showRound { c with currRound }
  else some { c with initialized := true }

def numberOfRows (c : BracketController) (table : UITableView) : Option Nat := c.bracketViewDict table

def updateWinner (c : BracketController) (winner loser : Group) (round : Nat) :
    Option BracketController := do
  let _ ← ofRound? c.tournament.roundList round
  let table ← ofRound? c.bracketViewArr round
  let shown ← c.bracketViewGroupDict table
  some { c with
    tournament := c.tournament.updateWinner winner loser round
    bracketViewGroupDict :=
      Function.update c.bracketViewGroupDict table (some (shown.map (Group.mark winner loser))) }

def isHost (c : BracketController) : Bool := c.host

def getCurrentRound (c : BracketController) : Nat := c.currRound

/-- `incrementWinnerSelectedCount`, and whether it presents the "Complete round" prompt. -/
def incrementWinnerSelectedCount (c : BracketController) : Option (BracketController × Bool) := do
  let c := { c with winnerSelectedCount := c.winnerSelectedCount + 1 }
  let needed : Nat ← ofRound? c.roundMatches c.currRound
  some (c, decide (c.winnerSelectedCount ≥ needed))

/-- The answer Yes: the controller, and the document written with its code. -/
def nextRound (c : BracketController) : Option (BracketController × String × Document) := do
  let c := { c with winnerSelectedCount := 0, tournament := c.tournament.nextRound }
  let written ← c.tournament.store
  some (c, written)

end BracketController
end Tourni
