import Tourni.Lib.Mirror
import Tourni.Model.BracketController

/-!
# Match-up cells

`MatchUpHost.swift`: a table cell shows one row of a round and holds copies of its two groups. The buttons
report the chosen winner to the controller, and return whether the prompt came up.
-/

namespace Tourni
open Mirror (Side)

structure MatchUpHost where
  group1 : Group := {}
  group2 : Group := {}
  winnerSelected : Bool := false
  round : Nat := 0
  winnerIcon1IsHidden : Bool := false
  winnerIcon2IsHidden : Bool := false
  deriving DecidableEq, Repr, Inhabited

namespace MatchUpHost

def setMatchup (cell : MatchUpHost) (g1 g2 : Group) (round : Nat) : MatchUpHost :=
  { group1 := g1
    group2 := g2
    round := round
    winnerIcon1IsHidden := !g1.status
    winnerIcon2IsHidden := !g2.status
    winnerSelected := if g1.status || g2.status then cell.winnerSelected else false }

/-- The group of the button on `side`. -/
def groupOf (cell : MatchUpHost) : Side → Group
  | .first => cell.group1
  | .second => cell.group2

/-- `incrementWinnerSelectedCount`, unless the winner is already selected. -/
def countWinner (cell : MatchUpHost) (delegate : BracketController) : Option (BracketController × Bool) :=
  if cell.winnerSelected then some (delegate, false) else delegate.incrementWinnerSelectedCount

/-- A button action past its guard: the ribbons, the count, the choice. -/
def selectWinner (cell : MatchUpHost) (side : Side) (delegate : BracketController) :
    Option (MatchUpHost × BracketController × Bool) := do
  let cell := { cell with
    winnerIcon1IsHidden := side != Side.first
    winnerIcon2IsHidden := side != Side.second }
  let (delegate, prompted) ← cell.countWinner delegate
  let delegate ← delegate.updateWinner (cell.groupOf side) (cell.groupOf side.other) cell.round
  some ({ cell with winnerSelected := true }, delegate, prompted)

def group1ButtonAction (cell : MatchUpHost) (delegate : BracketController) :
    Option (MatchUpHost × BracketController × Bool) :=
  if !delegate.isHost || cell.round != delegate.getCurrentRound then some (cell, delegate, false)
  else cell.selectWinner .first delegate

def group2ButtonAction (cell : MatchUpHost) (delegate : BracketController) :
    Option (MatchUpHost × BracketController × Bool) :=
  if !delegate.isHost || cell.round != delegate.getCurrentRound || cell.group2.name == some "FREE" then
    some (cell, delegate, false)
  else cell.selectWinner .second delegate

/-- The guard of the button on `side` lets a tap through. -/
def accepts (cell : MatchUpHost) (side : Side) (delegate : BracketController) : Bool :=
  delegate.isHost && cell.round == delegate.getCurrentRound &&
    !(side == .second && cell.group2.name == some "FREE")

def buttonAction (cell : MatchUpHost) : Side → BracketController →
    Option (MatchUpHost × BracketController × Bool)
  | .first => cell.group1ButtonAction
  | .second => cell.group2ButtonAction

theorem buttonAction_eq (cell : MatchUpHost) (side : Side) (delegate : BracketController) :
    cell.buttonAction side delegate =
      if cell.accepts side delegate then cell.selectWinner side delegate
      else some (cell, delegate, false) := by
  by_cases host : delegate.isHost = true
  · by_cases current : (cell.round == delegate.getCurrentRound) = true
    · by_cases free : (cell.group2.name == some "FREE") = true
      · cases side <;> simp [buttonAction, group1ButtonAction, group2ButtonAction, accepts, bne, host, current, free]
      · cases side <;> simp [buttonAction, group1ButtonAction, group2ButtonAction, accepts, bne, host, current, free]
    · cases side <;> simp [buttonAction, group1ButtonAction, group2ButtonAction, accepts, bne, current]
  · cases side <;> simp [buttonAction, group1ButtonAction, group2ButtonAction, accepts, host]

end MatchUpHost

/-- `cellForRowAt`, given the dequeued cell. -/
def BracketController.cellForRowAt (c : BracketController) (table : UITableView) (row : Nat)
    (matchup : MatchUpHost) : Option MatchUpHost := do
  let shown ← c.bracketViewGroupDict table
  let g1 ← shown[row]?
  let g2 ← shown[(shown.length - 1) - row]?
  let index ← c.bracketViewArr.findIdx? (· == table)
  some (matchup.setMatchup g1 g2 (index + 1))

end Tourni
